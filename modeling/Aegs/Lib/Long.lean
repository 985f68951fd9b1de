import Mathlib.Algebra.Group.Int.Defs
import Mathlib.Algebra.Group.Nat.Defs
import Mathlib.Data.Int.Basic
import Mathlib.Tactic.Common

/-!
# Signed words of 64 bits

The `long` of Java and C#, as integers. An arithmetic operation gives the integer that it
should give and passes it on through a norm: `Long.wrap` is what the machine does,
`Long.check` has no result where the machine would wrap around. A program written once for
every norm is the machine's under the one and says that nothing overflows under the other;
in range both leave the number as it is (`Long.Exact`), so that one proof does for both.
-/

namespace Long

/-- A 64-bit signed word can hold the number. -/
def InRange (x : ℤ) : Prop := -2 ^ 63 ≤ x ∧ x < 2 ^ 63

instance (x : ℤ) : Decidable (InRange x) := inferInstanceAs (Decidable (_ ∧ _))

/-- The word that the machine is left with. -/
def wrap (x : ℤ) : Option ℤ := some ((x + 2 ^ 63) % 2 ^ 64 - 2 ^ 63)

/-- The number, where no word overflows. -/
def check (x : ℤ) : Option ℤ := if InRange x then some x else none

/-- **A norm that leaves what is in range.** -/
def Exact (norm : ℤ → Option ℤ) : Prop := ∀ x, InRange x → norm x = some x

theorem exact_wrap : Exact wrap := by
  rintro x ⟨hlo, hhi⟩
  rw [wrap, Int.emod_eq_of_lt (by omega) (by omega)]
  congr 1
  omega

theorem exact_check : Exact check := fun _ h => if_pos h

/-- What passes the check is the number itself. -/
theorem check_eq_some {x y : ℤ} (h : check x = some y) : y = x := by
  rw [check] at h
  split at h
  · exact (Option.some.inj h).symm
  · exact nomatch h

/-- A number between zero and a bound that fits is left as it is. -/
theorem Exact.of_le {norm : ℤ → Option ℤ} (h : Exact norm) {x : ℤ} (h0 : 0 ≤ x)
    (hle : x < 2 ^ 63) : norm x = some x := h x ⟨by omega, hle⟩

/-- `x >>> k`, for a positive `k`. -/
def ushr (x : ℤ) (k : ℕ) : ℤ := x % 2 ^ 64 / 2 ^ k

/-- `x >> k`. -/
def sar (x : ℤ) (k : ℕ) : ℤ := x / 2 ^ k

/-- `x & (2 ^ k - 1)`. -/
def low (x : ℤ) (k : ℕ) : ℤ := x % 2 ^ k

/-- `a & b`. -/
def band (a b : ℤ) : ℤ := (BitVec.ofInt 64 a &&& BitVec.ofInt 64 b).toInt

/-- `a | b`. -/
def bor (a b : ℤ) : ℤ := (BitVec.ofInt 64 a ||| BitVec.ofInt 64 b).toInt

/-- `a ^ b`. -/
def bxor (a b : ℤ) : ℤ := (BitVec.ofInt 64 a ^^^ BitVec.ofInt 64 b).toInt

/-- `~a`. -/
def bnot (a : ℤ) : ℤ := -a - 1

/-- `x << k`. -/
def shl (x : ℤ) (k : ℕ) : ℤ := (BitVec.ofInt 64 x <<< k).toInt

/-- The bits of a word, as a number. -/
def unsigned (x : ℤ) : ℕ := (BitVec.ofInt 64 x).toNat

theorem ushr_of_nonneg {x : ℤ} (h0 : 0 ≤ x) (hlt : x < 2 ^ 63) (k : ℕ) :
    ushr x k = x / 2 ^ k := by
  rw [ushr, Int.emod_eq_of_lt h0 (by omega)]

theorem toInt_ofInt {x : ℤ} (h : InRange x) : (BitVec.ofInt 64 x).toInt = x := by
  rw [BitVec.toInt_ofInt, Int.bmod_eq_of_le (by have := h.1; omega) (by have := h.2; omega)]

/-- **A choice without a branch**: all bits of the one or of the other. -/
theorem or_and_mask {a b mask : ℤ} (ha : InRange a) (hb : InRange b) :
    (mask = -1 → bor (band a mask) (band b (bnot mask)) = a) ∧
      (mask = 0 → bor (band a mask) (band b (bnot mask)) = b) := by
  have hones : BitVec.ofInt 64 (-1) = BitVec.allOnes 64 := by decide
  have hzero : BitVec.ofInt 64 0 = 0#64 := by decide
  constructor
  · rintro rfl
    have hnot : bnot (-1) = 0 := by decide
    rw [hnot, bor, band, band, hones, hzero, BitVec.and_allOnes, BitVec.and_zero, toInt_ofInt ha,
      BitVec.toInt_zero, hzero, BitVec.or_zero, toInt_ofInt ha]
  · rintro rfl
    have hnot : bnot 0 = -1 := by decide
    rw [hnot, bor, band, band, hones, hzero, BitVec.and_allOnes, BitVec.and_zero, toInt_ofInt hb,
      BitVec.toInt_zero, hzero, BitVec.zero_or, toInt_ofInt hb]

/-- The sign, for the choice. -/
theorem sar_sign {x : ℤ} (h : InRange x) :
    (x < 0 → sar x 63 = -1) ∧ (0 ≤ x → sar x 63 = 0) := by
  obtain ⟨hlo, hhi⟩ := h
  rw [sar]
  constructor
  · intro hneg
    omega
  · intro hpos
    omega

/-! ### Bits -/

theorem cast_unsigned (x : ℤ) : (unsigned x : ℤ) = x % 2 ^ 64 := by
  rw [unsigned, BitVec.toNat_ofInt]
  omega

theorem unsigned_lt (x : ℤ) : unsigned x < 2 ^ 64 := BitVec.isLt _

theorem unsigned_of_nonneg {x : ℤ} (h0 : 0 ≤ x) (hlt : x < 2 ^ 64) : (unsigned x : ℤ) = x := by
  rw [cast_unsigned, Int.emod_eq_of_lt h0 hlt]

/-- The bits of a wrapped number are those of the number. -/
theorem unsigned_wrap {x y : ℤ} (h : wrap x = some y) : unsigned y = unsigned x := by
  obtain rfl := Option.some.inj h
  have hy := cast_unsigned ((x + 2 ^ 63) % 2 ^ 64 - 2 ^ 63)
  have hx := cast_unsigned x
  omega

theorem unsigned_add (a b : ℤ) : unsigned (a + b) = (unsigned a + unsigned b) % 2 ^ 64 := by
  have ha := cast_unsigned a
  have hb := cast_unsigned b
  have hab := cast_unsigned (a + b)
  omega

theorem unsigned_or (a b : ℤ) : unsigned (bor a b) = unsigned a ||| unsigned b := by
  rw [unsigned, bor, BitVec.ofInt_toInt, BitVec.toNat_or]
  rfl

theorem unsigned_shl (x : ℤ) (k : ℕ) : unsigned (shl x k) = unsigned x * 2 ^ k % 2 ^ 64 := by
  rw [unsigned, shl, BitVec.ofInt_toInt, BitVec.toNat_shiftLeft, Nat.shiftLeft_eq]
  rfl

/-- A word whose sign bit is clear is its bits. -/
theorem eq_unsigned {v : BitVec 64} (h : v.toNat < 2 ^ 63) : v.toInt = (v.toNat : ℤ) := by
  rw [BitVec.toInt_eq_toNat_of_lt]
  omega

/-- The common bits of two numbers. -/
theorem and_natCast {a b : ℕ} (ha : a < 2 ^ 63) (hb : b < 2 ^ 63) :
    band a b = ((a &&& b : ℕ) : ℤ) := by
  have hbits : ∀ {n : ℕ}, n < 2 ^ 63 → (BitVec.ofInt 64 n).toNat = n := by
    intro n hn
    have := unsigned_of_nonneg (x := n) (by omega) (by omega)
    exact Int.ofNat.inj this
  have hab : (BitVec.ofInt 64 (a : ℤ) &&& BitVec.ofInt 64 (b : ℤ)).toNat = a &&& b := by
    rw [BitVec.toNat_and, hbits ha, hbits hb]
  have hlt : a &&& b < 2 ^ 63 := Nat.and_lt_two_pow _ hb
  rw [band, eq_unsigned (by rw [hab]; exact hlt), hab]

/-- **Bits above a word are added**, those that no word holds are lost. -/
theorem unsigned_or_shl {a : ℤ} {k : ℕ} (ha : unsigned a < 2 ^ k) (x : ℤ) (hk : k ≤ 64) :
    unsigned (bor a (shl x k)) = unsigned a + 2 ^ k * (unsigned x % 2 ^ (64 - k)) := by
  have hpow : 2 ^ 64 = 2 ^ k * 2 ^ (64 - k) := by
    rw [← Nat.pow_add, Nat.add_sub_cancel' hk]
  have hshl : unsigned x * 2 ^ k % 2 ^ 64 = 2 ^ k * (unsigned x % 2 ^ (64 - k)) := by
    rw [hpow, Nat.mul_comm, Nat.mul_mod_mul_left]
  rw [unsigned_or, unsigned_shl, hshl, Nat.or_comm, ← Nat.two_pow_add_eq_or_of_lt ha,
    Nat.add_comm]

end Long
