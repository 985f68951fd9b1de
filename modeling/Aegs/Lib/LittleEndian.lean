import Mathlib.Data.Nat.Bitwise
import Mathlib.Data.Nat.Digits.Defs

/-!
# Numbers in bytes, the least significant first

`LittleEndian.leNum` reads a number of any length and `LittleEndian.leBytes` writes its lowest
bytes. A byte of a number is a quotient and a remainder (`LittleEndian.leNum_div_mod`), and a
mask of the number is taken byte by byte (`LittleEndian.leNum_zipWith_and`).
-/

namespace LittleEndian

/-- The number with these bytes, least significant first. -/
def leNum (bs : List UInt8) : ℕ := Nat.ofDigits 256 (bs.map UInt8.toNat)

/-- The `k` lowest bytes of a number, least significant first. -/
def leBytes (k n : ℕ) : List UInt8 := (List.range k).map fun i => (n / 256 ^ i % 256).toUInt8

theorem leNum_nil : leNum [] = 0 := rfl

theorem leNum_cons (b : UInt8) (bs : List UInt8) : leNum (b :: bs) = b.toNat + 256 * leNum bs := by
  rw [leNum, List.map_cons, Nat.ofDigits_cons]
  rfl

theorem leNum_append (a b : List UInt8) : leNum (a ++ b) = leNum a + 256 ^ a.length * leNum b := by
  rw [leNum, List.map_append, Nat.ofDigits_append, List.length_map]
  rfl

/-- A number of so many bytes. -/
theorem leNum_lt (bs : List UInt8) : leNum bs < 256 ^ bs.length := by
  induction bs with
  | nil => exact Nat.one_pos
  | cons b bs ih =>
    have hb := b.toNat_lt
    rw [leNum_cons, List.length_cons, Nat.pow_succ]
    omega

/-- The lowest bytes do not depend on what is above. -/
theorem leBytes_mod (k n : ℕ) : leBytes k (n % 256 ^ k) = leBytes k n := by
  rw [leBytes, leBytes]
  apply List.map_congr_left
  intro i hi
  have hik : i + 1 ≤ k := List.mem_range.mp hi
  have hsplit : 256 ^ k = 256 ^ i * (256 * 256 ^ (k - (i + 1))) := by
    rw [← Nat.pow_succ', ← Nat.pow_add]
    congr 1
    omega
  rw [hsplit, Nat.mod_mul_right_div_self, Nat.mod_mul_right_mod]

/-- Bytes in two parts. -/
theorem leBytes_add (j k n : ℕ) : leBytes (j + k) n = leBytes j n ++ leBytes k (n / 256 ^ j) := by
  rw [leBytes, leBytes, leBytes, List.range_add, List.map_append, List.map_map]
  congr 1
  apply List.map_congr_left
  intro i _
  rw [Function.comp_apply, Nat.pow_add, Nat.div_div_eq_div_mul]

/-- Bits are taken byte by byte. -/
theorem leNum_zipWith_and (a b : List UInt8) (h : a.length = b.length) :
    leNum (List.zipWith (· &&& ·) a b) = leNum a &&& leNum b := by
  induction a generalizing b with
  | nil =>
    cases b with
    | nil => rfl
    | cons _ _ => exact absurd h (by simp)
  | cons x a ih =>
    cases b with
    | nil => exact absurd h (by simp)
    | cons y b =>
      rw [List.zipWith_cons_cons, leNum_cons, leNum_cons, leNum_cons, ih b (by simpa using h),
        UInt8.toNat_and]
      apply Nat.eq_of_testBit_eq
      intro j
      have hand : x.toNat &&& y.toNat < 2 ^ 8 := Nat.and_lt_two_pow _ y.toNat_lt
      have hsplit : ∀ {c m : ℕ}, c < 2 ^ 8 → (c + 256 * m).testBit j =
          if j < 8 then c.testBit j else m.testBit (j - 8) := by
        intro c m hc
        rw [Nat.add_comm]
        exact Nat.testBit_two_pow_mul_add m hc j
      rw [Nat.testBit_and, hsplit hand, hsplit x.toNat_lt, hsplit y.toNat_lt, Nat.testBit_and,
        Nat.testBit_and]
      split
      · rfl
      · rfl

/-- A byte of a number, one above its bytes being zero. -/
theorem leNum_div_mod (bs : List UInt8) (i : ℕ) :
    leNum bs / 256 ^ i % 256 = (bs.getD i 0).toNat := by
  induction bs generalizing i with
  | nil =>
    rw [leNum_nil, Nat.zero_div]
    rfl
  | cons b bs ih =>
    have hb := b.toNat_lt
    rw [leNum_cons]
    cases i with
    | zero =>
      rw [Nat.pow_zero, Nat.div_one, List.getD_cons_zero]
      omega
    | succ i =>
      have hrest : (b.toNat + 256 * leNum bs) / 256 = leNum bs := by omega
      rw [Nat.pow_succ', ← Nat.div_div_eq_div_mul, hrest, ih i, List.getD_cons_succ]

/-- A byte is taken apart with a mask: all other bytes are masked with all ones. -/
theorem leNum_modify_and (bs : List UInt8) (i : ℕ) (m : UInt8) :
    leNum (bs.modify i (· &&& m)) =
      leNum bs &&& leNum ((List.replicate bs.length 255).set i m) := by
  have hall : ∀ x : UInt8, x &&& 255 = x := by
    intro x
    apply UInt8.toBitVec_inj.mp
    exact BitVec.and_allOnes
  have hzip : bs.modify i (· &&& m) =
      List.zipWith (· &&& ·) bs ((List.replicate bs.length 255).set i m) := by
    apply List.ext_getElem
    · simp
    · intro j h₁ h₂
      rw [List.getElem_modify, List.getElem_zipWith, List.getElem_set, List.getElem_replicate]
      split
      · rfl
      · rw [hall]
  rw [hzip, leNum_zipWith_and _ _ (by simp)]

end LittleEndian
