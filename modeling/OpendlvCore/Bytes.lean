import Mathlib.Tactic.Common
import Mathlib.Tactic.Ring

/-!
# Bytes and fixed-width unsigned arithmetic

Little-endian numbers, and the wrapping subtraction of `uint32_t` and `uint64_t`.
-/
namespace CBytes

abbrev Bytes := List UInt8

/-- The `width` low octets of `n`, least significant first. -/
def toLE : Nat → Nat → Bytes
  | 0, _ => []
  | width + 1, n => UInt8.ofNat (n % 256) :: toLE width (n / 256)

def ofLE : Bytes → Nat
  | [] => 0
  | b :: bs => b.toNat + 256 * ofLE bs

def zeros (n : Nat) : Bytes := List.replicate n 0

def add32 (a b : Nat) : Nat := (a + b) % 2 ^ 32
def sub32 (a b : Nat) : Nat := (a + (2 ^ 32 - b % 2 ^ 32)) % 2 ^ 32
def sub64 (a b : Nat) : Nat := (a + (2 ^ 64 - b % 2 ^ 64)) % 2 ^ 64

/-- `static_cast<uint32_t>` of a signed 64-bit stream position. -/
def u32 (x : Int) : Nat := (x % 2 ^ 32).toNat

@[simp] theorem length_toLE (width n : Nat) : (toLE width n).length = width := by
  induction width generalizing n with
  | zero => rfl
  | succ width ih => simp only [toLE, List.length_cons, ih]

theorem ofLE_toLE (width n : Nat) : ofLE (toLE width n) = n % 256 ^ width := by
  induction width generalizing n with
  | zero => simp [toLE, ofLE, Nat.mod_one]
  | succ width ih =>
    have low : (UInt8.ofNat (n % 256)).toNat = n % 256 := by
      rw [UInt8.toNat_ofNat']
      omega
    simp only [toLE, ofLE, ih, low]
    rw [Nat.pow_succ, Nat.mul_comm (256 ^ width) 256, Nat.mod_mul]

theorem ofLE_toLE_of_lt {width n : Nat} (h : n < 256 ^ width) : ofLE (toLE width n) = n := by
  rw [ofLE_toLE, Nat.mod_eq_of_lt h]

theorem ofLE_lt (bs : Bytes) : ofLE bs < 256 ^ bs.length := by
  induction bs with
  | nil => simp [ofLE]
  | cons b bs ih =>
    have octet : b.toNat < 256 := b.toNat_lt
    rw [ofLE, List.length_cons, Nat.pow_succ]
    omega

/-- Missing high octets count as zero. -/
theorem ofLE_append_zeros (bs : Bytes) (n : Nat) : ofLE (bs ++ zeros n) = ofLE bs := by
  induction bs with
  | nil =>
    induction n with
    | zero => rfl
    | succ n ih =>
      rw [List.nil_append] at ih ⊢
      change 0 + 256 * ofLE (zeros n) = 0
      rw [ih]
      rfl
  | cons b bs ih => rw [List.cons_append, ofLE, ih, ofLE]

@[simp] theorem length_zeros (n : Nat) : (zeros n).length = n := List.length_replicate ..

theorem u32_natCast (n : Nat) : u32 n = n % 2 ^ 32 := by
  unfold u32
  omega

end CBytes
