import Aegs.Lib.LittleEndian
import Mathlib.Data.ZMod.Basic
import Mathlib.Tactic.Ring

/-!
# X25519

The ladder over any commutative ring: two points in projective coordinates, one step for each
bit of the scalar, and the two points changing places where the bit is set. The function takes
it over the integers modulo `2 ^ 255 - 19`, on the scalar with its bits set and cleared and on
the coordinate without its highest bit, and gives the remainder of the quotient in bytes.

The ladder commutes with ring homomorphisms, so that it can be taken over the integers, with a
remainder after every step, and the function be computed (`X25519.x25519_eq`).
-/

namespace X25519

open LittleEndian

/-- The prime. -/
def p : ℕ := 2 ^ 255 - 19

/-- Two points. -/
structure Points (F : Type*) where
  x2 : F
  z2 : F
  x3 : F
  z3 : F

section Ladder

variable {F : Type*} [CommRing F]

/-- The points change places. -/
def Points.cswap (bit : Bool) (s : Points F) : Points F :=
  if bit then ⟨s.x3, s.z3, s.x2, s.z2⟩ else s

/-- A doubling and an addition, `u` being the difference of the points. -/
def Points.step (u : F) (s : Points F) : Points F :=
  let a := s.x2 + s.z2
  let aa := a ^ 2
  let b := s.x2 - s.z2
  let bb := b ^ 2
  let e := aa - bb
  let c := s.x3 + s.z3
  let d := s.x3 - s.z3
  let da := d * a
  let cb := c * b
  ⟨aa * bb, e * (aa + 121665 * e), (da + cb) ^ 2, u * (da - cb) ^ 2⟩

/-- The bits of the scalar from 254 down. -/
def ladder (k : ℕ) (u : F) : Points F :=
  (List.range 255).reverse.foldl
    (fun s t => (((s.cswap (k.testBit t)).step u).cswap (k.testBit t))) ⟨1, 0, u, 1⟩

end Ladder

/-- The scalar: a multiple of eight with bit 254 as its highest. -/
def decodeScalar (k : Vector UInt8 32) : ℕ :=
  leNum (((k.toList.modify 0 (· &&& 248)).modify 31 (· &&& 127)).modify 31 (· ||| 64))

/-- The coordinate, without its highest bit. -/
def decodeUCoordinate (u : Vector UInt8 32) : ZMod p := (leNum u.toList % 2 ^ 255 : ℕ)

/-- **The function**: the canonical bytes of the coordinate of the multiple. -/
def x25519 (k u : Vector UInt8 32) : List UInt8 :=
  let s := ladder (decodeScalar k) (decodeUCoordinate u)
  leBytes 32 (s.x2 * s.z2 ^ (p - 2)).val

/-! ### On remainders -/

section Map

variable {F G : Type*} [CommRing F] [CommRing G] (f : F →+* G)

/-- The points over another ring. -/
def Points.map (s : Points F) : Points G := ⟨f s.x2, f s.z2, f s.x3, f s.z3⟩

theorem Points.map_cswap (bit : Bool) (s : Points F) :
    (s.cswap bit).map f = (s.map f).cswap bit := by
  cases bit <;> rfl

theorem Points.map_step (u : F) (s : Points F) : (s.step u).map f = (s.map f).step (f u) := by
  simp only [Points.map, Points.step, map_add, map_sub, map_mul, map_pow, map_ofNat]

end Map

/-- Remainders of the coordinates. -/
def Points.reduce (s : Points ℤ) : Points ℤ := ⟨s.x2 % p, s.z2 % p, s.x3 % p, s.z3 % p⟩

/-- The ladder on remainders. -/
def ladderMod (k : ℕ) (u : ℤ) : Points ℤ :=
  (List.range 255).reverse.foldl
    (fun s t => (((s.cswap (k.testBit t)).step u).cswap (k.testBit t)).reduce) ⟨1, 0, u, 1⟩

/-- Powers of remainders, by squaring. -/
def powMod (x : ℤ) (n : ℕ) : ℤ :=
  (List.range 255).reverse.foldl
    (fun c t => (if n.testBit t then c * c * x else c * c) % p) 1

theorem Points.map_reduce (s : Points ℤ) :
    s.reduce.map (Int.castRingHom (ZMod p)) = s.map (Int.castRingHom (ZMod p)) := by
  simp only [Points.map, Points.reduce, eq_intCast, ZMod.intCast_mod]

/-- **The ladder on remainders** is that over the field. -/
theorem map_ladderMod (k : ℕ) (u : ℤ) :
    (ladderMod k u).map (Int.castRingHom (ZMod p)) = ladder k (u : ZMod p) := by
  have hstart : (⟨1, 0, (u : ZMod p), 1⟩ : Points (ZMod p)) =
      Points.map (Int.castRingHom (ZMod p)) ⟨1, 0, u, 1⟩ := by
    simp only [Points.map, map_one, map_zero, eq_intCast]
  rw [ladderMod, ladder, hstart]
  refine (List.foldl_hom _ fun s t => ?_).symm
  rw [Points.map_reduce, Points.map_cswap, Points.map_step, Points.map_cswap, eq_intCast]

/-- **Squaring is the power.** -/
theorem powMod_eq (x : ℤ) {n : ℕ} (hn : n < 2 ^ 255) :
    ((powMod x n : ℤ) : ZMod p) = (x : ZMod p) ^ n := by
  have hrun : ∀ m (c : ℤ), (((List.range m).reverse.foldl
      (fun c t => (if n.testBit t then c * c * x else c * c) % p) c : ℤ) : ZMod p) =
        (c : ZMod p) ^ 2 ^ m * (x : ZMod p) ^ (n % 2 ^ m) := by
    intro m
    induction m with
    | zero =>
      intro c
      simp [Nat.mod_one]
    | succ m ih =>
      intro c
      rw [List.range_succ, List.reverse_append, List.reverse_singleton, List.singleton_append,
        List.foldl_cons, ih, ZMod.intCast_mod, Nat.mod_pow_succ]
      have hbit : n / 2 ^ m % 2 = (n.testBit m).toNat := (Nat.toNat_testBit n m).symm
      rw [hbit]
      cases n.testBit m with
      | true =>
        simp only [if_true, Int.cast_mul, Bool.toNat_true]
        ring
      | false =>
        simp only [Bool.false_eq_true, if_false, Int.cast_mul, Bool.toNat_false]
        ring
  rw [powMod, hrun, Nat.mod_eq_of_lt hn, Int.cast_one, one_pow, one_mul]

/-- The function on remainders. -/
def x25519Mod (k u : Vector UInt8 32) : List UInt8 :=
  let s := ladderMod (decodeScalar k) (leNum u.toList % 2 ^ 255 : ℕ)
  leBytes 32 (s.x2 * powMod s.z2 (p - 2) % p).toNat

/-- **It is the function**, which can so be computed. -/
theorem x25519_eq (k u : Vector UInt8 32) : x25519 k u = x25519Mod k u := by
  have hmap := map_ladderMod (decodeScalar k) (leNum u.toList % 2 ^ 255 : ℕ)
  rw [Int.cast_natCast] at hmap
  have hx := congrArg Points.x2 hmap
  have hz := congrArg Points.z2 hmap
  simp only [Points.map, eq_intCast] at hx hz
  have hp : p - 2 < 2 ^ 255 := by decide
  have hne : NeZero p := ⟨by decide⟩
  simp only [x25519, x25519Mod, decodeUCoordinate]
  rw [← hx, ← hz, ← powMod_eq _ hp, ← Int.cast_mul]
  congr 1
  rw [← ZMod.val_intCast, Int.toNat_natCast]

end X25519
