import Mathlib.Algebra.Group.Int.Defs
import Mathlib.Algebra.Group.Nat.Defs
import Mathlib.Data.Int.Order.Basic

/-!
# Addresses and prefixes as text

What the C library reads off a string. A string is the list of its characters, a byte
being the character of its code. `Inet.stoi` takes the number a string *begins* with, and
ignores the rest; `Inet.inetPton` takes a dotted quad and nothing else.

A netmask keeps the upper bits of an address, so that two addresses agree under it exactly
if their quotients by the size of the block do (`Inet.toNat_and_netmask`).
-/

namespace Inet

/-! ### Numbers -/

/-- `isspace`, in the C locale. -/
def isSpace (c : Char) : Bool := c.toNat = 32 || (9 ≤ c.toNat && c.toNat ≤ 13)

/-- The number that decimal digits spell. -/
def ofDigits (ds : List Char) : ℕ := ds.foldl (fun n c => 10 * n + (c.toNat - 48)) 0

/-- The sign at the front of a string, true for minus, and what is behind it. -/
def takeSign : List Char → Bool × List Char
  | '-' :: s => (true, s)
  | '+' :: s => (false, s)
  | s => (false, s)

/-- **`std::stoi`**: blanks, a sign, and as many digits as follow; none when it throws,
without a digit or outside the range of an `int`. -/
def stoi (s : List Char) : Option ℤ :=
  let (neg, s) := takeSign (s.dropWhile isSpace)
  let ds := s.takeWhile Char.isDigit
  let n : ℤ := if neg then -ofDigits ds else ofDigits ds
  if ds = [] ∨ n < -2 ^ 31 ∨ 2 ^ 31 ≤ n then none else some n

/-! ### Dotted quads -/

/-- One part of a dotted quad, without leading zeros. -/
def octet (ds : List Char) : Option ℕ :=
  if ds ≠ [] ∧ ds.all Char.isDigit ∧ (ds.head? = some '0' → ds.length = 1) ∧ ofDigits ds ≤ 255
  then some (ofDigits ds)
  else none

/-- **`inet_pton(AF_INET, …)`** on a string up to its first zero byte, in host byte order. -/
def inetPton (s : List Char) : Option UInt32 :=
  match ((s.takeWhile fun c => c.toNat ≠ 0).splitOn '.').map octet with
  | [some a, some b, some c, some d] => some (((a * 256 + b) * 256 + c) * 256 + d).toUInt32
  | _ => none

/-- The two sides of the first slash. -/
def splitSlash (s : List Char) : Option (List Char × List Char) :=
  match s.dropWhile (· ≠ '/') with
  | [] => none
  | _ :: rest => some (s.takeWhile (· ≠ '/'), rest)

/-! ### Netmasks -/

/-- The netmask with so many bits. -/
def netmask (bits : ℕ) : UInt32 :=
  if bits = 0 then 0 else 0xFFFFFFFF <<< (32 - bits).toUInt32

/-- The bits that a netmask keeps. -/
theorem testBit_netmask {bits : ℕ} (h : bits ≤ 32) (j : ℕ) :
    (netmask bits).toNat.testBit j = (decide (32 - bits ≤ j) && decide (j < 32)) := by
  rw [netmask]
  split
  · rename_i hzero
    by_cases hj : j < 32
    · have hlt : ¬32 - bits ≤ j := by omega
      simp [hlt]
    · simp [hj]
  · rename_i hzero
    have hshift : (32 - bits).toUInt32.toNat % 32 = 32 - bits := by
      rw [Nat.toUInt32_eq, UInt32.toNat_ofNat']
      omega
    have hones : (0xFFFFFFFF : UInt32).toNat = 2 ^ 32 - 1 := rfl
    rw [UInt32.toNat_shiftLeft, hshift, hones, Nat.testBit_mod_two_pow, Nat.testBit_shiftLeft,
      Nat.testBit_two_pow_sub_one]
    by_cases hle : 32 - bits ≤ j
    · by_cases hj : j < 32
      · have hj' : j - (32 - bits) < 32 := by omega
        simp [hle, hj, hj']
      · simp [hj]
    · simp [hle]

/-- A netmask falls short of all addresses by one block. -/
theorem toNat_netmask {bits : ℕ} (h : bits ≤ 32) :
    (netmask bits).toNat = 2 ^ 32 - 2 ^ (32 - bits) := by
  rw [netmask]
  split
  · rename_i hzero
    rw [hzero]
    rfl
  · have hshift : (32 - bits).toUInt32.toNat % 32 = 32 - bits := by
      rw [Nat.toUInt32_eq, UInt32.toNat_ofNat']
      omega
    have hpos : 0 < 2 ^ (32 - bits) := Nat.two_pow_pos _
    have hle : 2 ^ (32 - bits) ≤ 2 ^ 32 := Nat.pow_le_pow_right (by omega) (by omega)
    have hones : (0xFFFFFFFF : UInt32).toNat = 2 ^ 32 - 1 := rfl
    have hsum : (2 ^ 32 - 1) * 2 ^ (32 - bits) =
        2 ^ 32 - 2 ^ (32 - bits) + (2 ^ (32 - bits) - 1) * 2 ^ 32 := by
      omega
    rw [UInt32.toNat_shiftLeft, hshift, hones, Nat.shiftLeft_eq, hsum, Nat.add_mul_mod_self_right,
      Nat.mod_eq_of_lt (by omega)]

/-- **Masking an address keeps its quotient by the size of the block.** -/
theorem toNat_and_netmask (ip : UInt32) {bits : ℕ} (h : bits ≤ 32) :
    (ip &&& netmask bits).toNat = ip.toNat / 2 ^ (32 - bits) * 2 ^ (32 - bits) := by
  apply Nat.eq_of_testBit_eq
  intro j
  rw [UInt32.toNat_and, Nat.testBit_and, testBit_netmask h, Nat.testBit_mul_two_pow,
    Nat.testBit_div_two_pow]
  by_cases hle : 32 - bits ≤ j
  · rw [Nat.sub_add_cancel hle]
    by_cases hj : j < 32
    · simp [hle, hj]
    · have hbit : ip.toNat.testBit j = false :=
        Nat.testBit_lt_two_pow
          (Nat.lt_of_lt_of_le ip.toNat_lt (Nat.pow_le_pow_right (by omega) (by omega)))
      simp [hbit]
  · simp [hle]

/-- Two addresses that agree under a netmask have one quotient. -/
theorem and_netmask_eq_iff (ip ip' : UInt32) {bits : ℕ} (h : bits ≤ 32) :
    ip &&& netmask bits = ip' &&& netmask bits ↔
      ip.toNat / 2 ^ (32 - bits) = ip'.toNat / 2 ^ (32 - bits) := by
  rw [← UInt32.toNat_inj, toNat_and_netmask ip h, toNat_and_netmask ip' h]
  exact Nat.mul_left_inj (Nat.ne_of_gt (Nat.two_pow_pos _))

/-- Masking twice is masking once. -/
@[simp] theorem and_netmask_and_netmask (ip : UInt32) (bits : ℕ) :
    ip &&& netmask bits &&& netmask bits = ip &&& netmask bits := by
  rw [UInt32.and_assoc, UInt32.and_self]

end Inet
