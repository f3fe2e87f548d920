import OpendlvCore.Loops
import OpendlvCore.Bytes
import OpendlvCore.Columns
import OpendlvCore.StringStream
import OpendlvCore.StreamReader
import OpendlvCore.Text
import OpendlvCore.Sorting
import OpendlvCore.SignificantDigits
import OpendlvCore.Rounding
import OpendlvCore.RunningExtremes
import OpendlvCore.Rescaling
import OpendlvCore.LastWrites
import OpendlvCore.LineBuffers
import OpendlvCore.LockedMemory
import OpendlvCore.Collineation
import OpendlvCore.Applanix.Messages
import OpendlvCore.Applanix.Readers
import OpendlvCore.Applanix.Payload
import OpendlvCore.Applanix.Decoder
import OpendlvCore.Applanix.Passes
import OpendlvCore.Applanix.Runs
import OpendlvCore.Applanix.StreamHealth
import OpendlvCore.Applanix.Termination
import OpendlvCore.Applanix.Framing
import OpendlvCore.Applanix.Chunking
import OpendlvCore.Applanix.Completeness
import OpendlvCore.Applanix.RoundTrip
import OpendlvCore.Applanix.Compaction
import OpendlvCore.Applanix.Bounded
import OpendlvCore.Applanix.Delay
import OpendlvCore.Applanix.Spaced
import OpendlvCore.Applanix.Delivery
import OpendlvCore.Sick.Decoder
import OpendlvCore.Sick.Telegrams
import OpendlvCore.Sick.Chunking
import OpendlvCore.Sick.Payloads
import OpendlvCore.Sick.Interference
import OpendlvCore.Sick.Streams
import OpendlvCore.Sick.StartUp
import OpendlvCore.Trimble.Decoder
import OpendlvCore.Trimble.Sentences
import OpendlvCore.Trimble.Chunking
import OpendlvCore.Trimble.Latest
import OpendlvCore.Trimble.Published
import OpendlvCore.Velodyne.Sensors
import OpendlvCore.Velodyne.SharedMemory
import OpendlvCore.Velodyne.Decoder
import OpendlvCore.Velodyne.Blocks
import OpendlvCore.Velodyne.Frames
import OpendlvCore.Velodyne.Lockstep
import OpendlvCore.Velodyne.CompactClouds
import OpendlvCore.Velodyne.CompactScans
import OpendlvCore.Velodyne.SharedClouds
import OpendlvCore.Velodyne.Counters
import OpendlvCore.Velodyne.Decoder64
import OpendlvCore.Velodyne.Conservation
import OpendlvCore.Velodyne.Coupling
import OpendlvCore.Velodyne.IndexSafety
import OpendlvCore.Velodyne.IntensityOptions
import OpendlvCore.Velodyne.IntensityWords
import OpendlvCore.Velodyne.Revolutions
import OpendlvCore.Velodyne.BlockAzimuths
import OpendlvCore.Velodyne.Normalised
import OpendlvCore.Velodyne.CloudAzimuths
import OpendlvCore.Velodyne.Geometry
import OpendlvCore.Velodyne.Distances
import OpendlvCore.Velodyne.Packets
import OpendlvCore.Velodyne.TwoViews
import OpendlvCore.Velodyne.Turns
import OpendlvCore.Velodyne.WholeScans
import OpendlvCore.Velodyne.CalibrationFile
import OpendlvCore.Velodyne.CalibrationTables
import OpendlvCore.Imu.Calibration
import OpendlvCore.Imu.Device
import OpendlvCore.Imu.Sessions
import OpendlvCore.Imu.Published
import OpendlvCore.Imu.Bus
import OpendlvCore.Imu.Instruments
import OpendlvCore.Anglesensor.Proxy
import OpendlvCore.Anglesensor.Calibration
import OpendlvCore.Anglesensor.Conversion
import OpendlvCore.Anglesensor.Sessions
import OpendlvCore.Ledstrip.Proxy
import OpendlvCore.PS3Controller.Controller
import OpendlvCore.PS3Controller.Limits
import OpendlvCore.PS3Controller.Requests
import OpendlvCore.Camera.Capture
import OpendlvCore.Camera.Handoff
import OpendlvCore.CameraProjection.Calibration
import OpendlvCore.CameraProjection.Corners
import OpendlvCore.CameraProjection.Configuration
import OpendlvCore.CameraProjection.Menu
import OpendlvCore.Health.Status
