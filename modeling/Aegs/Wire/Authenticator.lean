import Aegs.Lib.Long
import Aegs.Lib.Poly1305
import Mathlib.Tactic.Ring
import Mathlib.Tactic.LinearCombination

/-!
# The authenticator of the Android client

`AegsProtocol.computePoly1305`: an accumulator of five limbs of 26 bits in signed words, into
which come the blocks of the associated data, those of the ciphertext and the block of the
lengths; a last round of carries, a subtraction of the prime without a branch, and the second
half of the key.

Every sum and every product goes through a norm of `Aegs.Lib.Long`, those of the limbs through
one and the addition of the second half of the key through another. The limbs stay below
`2 ^ 26`, but for the second one, which a carry can leave above (`Limbs.Settled`): so no limb
overflows, and the tag is `Poly1305.mac` of `Poly1305.aeadMessage`. The last addition does
overflow, and is meant to: the carry is found with an unsigned comparison.
-/

namespace Aegs

namespace Authenticator

open Long LittleEndian

/-- Five limbs of 26 bits. -/
structure Limbs where
  /-- The lowest limb. -/
  h0 : ℤ
  /-- The limb from bit 26. -/
  h1 : ℤ
  /-- The limb from bit 52. -/
  h2 : ℤ
  /-- The limb from bit 78. -/
  h3 : ℤ
  /-- The limb from bit 104. -/
  h4 : ℤ

/-- `getLE32`. -/
def getLE32 (b : List UInt8) (offset : ℕ) : ℤ :=
  let byte (i : ℕ) : ℤ := (b.getD (offset + i) 0).toNat
  bor (bor (bor (byte 0) (shl (byte 1) 8)) (shl (byte 2) 16)) (shl (byte 3) 24)

/-- `getLE64`. -/
def getLE64 (b : List UInt8) (offset : ℕ) : ℤ :=
  let low32 := getLE32 b offset
  let high32 := getLE32 b (offset + 4)
  bor (low low32 32) (shl high32 32)

/-- `putLE64`: the eight bytes that it writes. -/
def putLE64 (val : ℤ) : List UInt8 :=
  (List.range 8).map fun i => (low (ushr val (i * 8)) 8).toNat.toUInt8

/-- The clamped first half of the key. -/
def rBytes (key32 : Vector UInt8 32) : List UInt8 :=
  (((((((key32.toList.take 16).modify 3 (· &&& 15)).modify 7 (· &&& 15)).modify 11
    (· &&& 15)).modify 15 (· &&& 15)).modify 4 (· &&& 252)).modify 8 (· &&& 252)).modify 12
      (· &&& 252)

/-- The limbs `r0` to `r4`. -/
def keyLimbs (key32 : Vector UInt8 32) : Limbs where
  h0 := low (getLE32 (rBytes key32) 0) 26
  h1 := band (ushr (getLE32 (rBytes key32) 3) 2) 0x3ffff03
  h2 := band (ushr (getLE32 (rBytes key32) 6) 4) 0x3ffc0ff
  h3 := band (ushr (getLE32 (rBytes key32) 9) 6) 0x3f03fff
  h4 := band (ushr (getLE32 (rBytes key32) 12) 8) 0x00fffff

/-- The limbs `w0` to `w4` of a block, with the one above it. -/
def blockLimbs (block16 : List UInt8) : Limbs where
  h0 := low (getLE32 block16 0) 26
  h1 := low (ushr (getLE32 block16 3) 2) 26
  h2 := low (ushr (getLE32 block16 6) 4) 26
  h3 := low (ushr (getLE32 block16 9) 6) 26
  h4 := bor (low (ushr (getLE32 block16 12) 8) 24) (shl 1 24)

section Norms

variable (norm : ℤ → Option ℤ)

/-- A sum of five products. -/
def dot5 (a0 b0 a1 b1 a2 b2 a3 b3 a4 b4 : ℤ) : Option ℤ := do
  let s ← norm (a0 * b0)
  let s ← norm (s + (← norm (a1 * b1)))
  let s ← norm (s + (← norm (a2 * b2)))
  let s ← norm (s + (← norm (a3 * b3)))
  norm (s + (← norm (a4 * b4)))

/-- The carries from limb to limb, from the last one around to the first two. -/
def carry (d : Limbs) : Option Limbs := do
  let c := ushr d.h0 26
  let h0 := low d.h0 26
  let d1 ← norm (d.h1 + c)
  let c := ushr d1 26
  let h1 := low d1 26
  let d2 ← norm (d.h2 + c)
  let c := ushr d2 26
  let h2 := low d2 26
  let d3 ← norm (d.h3 + c)
  let c := ushr d3 26
  let h3 := low d3 26
  let d4 ← norm (d.h4 + c)
  let c := ushr d4 26
  let h4 := low d4 26
  let h0 ← norm (h0 + (← norm (c * 5)))
  let c := ushr h0 26
  let h0 := low h0 26
  let h1 ← norm (h1 + c)
  some ⟨h0, h1, h2, h3, h4⟩

/-- A block: it is added to the accumulator, and the sum is multiplied with the key. -/
def absorb (r h : Limbs) (block16 : List UInt8) : Option Limbs := do
  let s1 ← norm (r.h1 * 5)
  let s2 ← norm (r.h2 * 5)
  let s3 ← norm (r.h3 * 5)
  let s4 ← norm (r.h4 * 5)
  let w := blockLimbs block16
  let h0 ← norm (h.h0 + w.h0)
  let h1 ← norm (h.h1 + w.h1)
  let h2 ← norm (h.h2 + w.h2)
  let h3 ← norm (h.h3 + w.h3)
  let h4 ← norm (h.h4 + w.h4)
  let d0 ← dot5 norm h0 r.h0 h1 s4 h2 s3 h3 s2 h4 s1
  let d1 ← dot5 norm h0 r.h1 h1 r.h0 h2 s4 h3 s3 h4 s2
  let d2 ← dot5 norm h0 r.h2 h1 r.h1 h2 r.h0 h3 s4 h4 s3
  let d3 ← dot5 norm h0 r.h3 h1 r.h2 h2 r.h1 h3 r.h0 h4 s4
  let d4 ← dot5 norm h0 r.h4 h1 r.h3 h2 r.h2 h3 r.h1 h4 r.h0
  carry norm ⟨d0, d1, d2, d3, d4⟩

/-- The loop over the associated data, and over the ciphertext. -/
def absorbFrom (r : Limbs) (data : List UInt8) (offset : ℕ) (h : Limbs) : Option Limbs :=
  if offset < data.length then do
    let chunk := min 16 (data.length - offset)
    let block16 := (data.drop offset).take chunk ++ List.replicate (16 - chunk) 0
    let h ← absorb norm r h block16
    absorbFrom r data (offset + chunk) h
  else
    some h
termination_by data.length - offset

/-- The subtraction of the prime, if there is one to subtract. -/
def subtract (h : Limbs) : Option Limbs := do
  let g0 ← norm (h.h0 + 5)
  let c := ushr g0 26
  let g0 := low g0 26
  let g1 ← norm (h.h1 + c)
  let c := ushr g1 26
  let g1 := low g1 26
  let g2 ← norm (h.h2 + c)
  let c := ushr g2 26
  let g2 := low g2 26
  let g3 ← norm (h.h3 + c)
  let c := ushr g3 26
  let g3 := low g3 26
  let g4 ← norm (h.h4 + c)
  let g4 ← norm (g4 - shl 1 26)
  let mask := sar g4 63
  some
    { h0 := bor (band h.h0 mask) (band g0 (bnot mask))
      h1 := bor (band h.h1 mask) (band g1 (bnot mask))
      h2 := bor (band h.h2 mask) (band g2 (bnot mask))
      h3 := bor (band h.h3 mask) (band g3 (bnot mask))
      h4 := bor (band h.h4 mask) (band (← norm (g4 + shl 1 26)) (bnot mask)) }

end Norms

/-- The block of the lengths. -/
def lengthBlock (aadLen ctLen : ℕ) : List UInt8 :=
  (List.range 8).map (fun i => (low (ushr aadLen (i * 8)) 8).toNat.toUInt8) ++
    (List.range 8).map fun i => (low (ushr ctLen (i * 8)) 8).toNat.toUInt8

/-- The accumulator in two words, and the second half of the key added to them. -/
def finish (norm : ℤ → Option ℤ) (key32 : Vector UInt8 32) (h : Limbs) : Option (List UInt8) := do
  let f0 := bor (bor h.h0 (shl h.h1 26)) (shl h.h2 52)
  let f1 := bor (bor (ushr h.h2 12) (shl h.h3 14)) (shl h.h4 40)
  let sLow := getLE64 key32.toList 16
  let sHigh := getLE64 key32.toList 24
  let f0 ← norm (f0 + sLow)
  let f1 ← (if unsigned f0 < unsigned sLow then norm (f1 + 1) else some f1)
  let f1 ← norm (f1 + sHigh)
  some (putLE64 f0 ++ putLE64 f1)

/-- **`computePoly1305`**, the arithmetic of the limbs and the addition of the second half of
the key each under its norm. -/
def computePoly1305 (limb tail : ℤ → Option ℤ) (key32 : Vector UInt8 32)
    (aad ct : Option (List UInt8)) : Option (List UInt8) := do
  let aad := aad.getD []
  let ct := ct.getD []
  let r := keyLimbs key32
  let h ← absorbFrom limb r aad 0 ⟨0, 0, 0, 0, 0⟩
  let h ← absorbFrom limb r ct 0 h
  let h ← absorb limb r h (lengthBlock aad.length ct.length)
  let h ← carry limb h
  let h ← subtract limb h
  finish tail key32 h

/-! ### Bytes and words -/

/-- The bits of a word that is put together are those of the number. -/
theorem or_eq_unsigned {a b : ℤ} (h : unsigned (bor a b) < 2 ^ 63) :
    bor a b = (unsigned (bor a b) : ℤ) := by
  have hbits : (BitVec.ofInt 64 a ||| BitVec.ofInt 64 b).toNat = unsigned (bor a b) := by
    rw [unsigned, bor, BitVec.ofInt_toInt]
  rw [← hbits] at h ⊢
  exact eq_unsigned h

/-- `getLE32` reads four bytes of the number. -/
theorem getLE32_eq (b : List UInt8) (offset : ℕ) :
    getLE32 b offset = ((leNum b / 256 ^ offset % 2 ^ 32 : ℕ) : ℤ) := by
  have hbyte : ∀ i, (b.getD (offset + i) 0).toNat =
      leNum b / 256 ^ offset / 256 ^ i % 256 := by
    intro i
    rw [← leNum_div_mod, Nat.pow_add, Nat.div_div_eq_div_mul]
  have hlt : ∀ i, (b.getD (offset + i) 0).toNat < 2 ^ 8 := fun i => UInt8.toNat_lt _
  have hcast : ∀ i, unsigned ((b.getD (offset + i) 0).toNat : ℤ) =
      (b.getD (offset + i) 0).toNat := by
    intro i
    have := unsigned_of_nonneg (x := ((b.getD (offset + i) 0).toNat : ℤ)) (by omega)
      (by have := hlt i; omega)
    exact Int.ofNat.inj this
  have h0 := hlt 0
  have h1 := hlt 1
  have h2 := hlt 2
  have h3 := hlt 3
  have two := unsigned_or_shl (a := ((b.getD (offset + 0) 0).toNat : ℤ)) (k := 8)
    (by rw [hcast]; exact h0) ((b.getD (offset + 1) 0).toNat : ℤ) (by omega)
  rw [hcast, hcast, Nat.mod_eq_of_lt (by omega)] at two
  have three := unsigned_or_shl (k := 16) (by rw [two]; omega)
    ((b.getD (offset + 2) 0).toNat : ℤ) (by omega)
  rw [two, hcast, Nat.mod_eq_of_lt (by omega)] at three
  have four := unsigned_or_shl (k := 24) (by rw [three]; omega)
    ((b.getD (offset + 3) 0).toNat : ℤ) (by omega)
  rw [three, hcast, Nat.mod_eq_of_lt (by omega)] at four
  have hword := or_eq_unsigned (by rw [four]; omega)
  rw [four] at hword
  refine hword.trans ?_
  rw [hbyte 0, hbyte 1, hbyte 2, hbyte 3]
  congr 1
  omega

/-- `getLE64` reads eight. -/
theorem unsigned_getLE64 (b : List UInt8) (offset : ℕ) :
    unsigned (getLE64 b offset) = leNum b / 256 ^ offset % 2 ^ 64 := by
  have hlow : ∀ i, unsigned (getLE32 b i) = leNum b / 256 ^ i % 2 ^ 32 := by
    intro i
    have hlt : leNum b / 256 ^ i % 2 ^ 32 < 2 ^ 32 := Nat.mod_lt _ (Nat.two_pow_pos _)
    have := unsigned_of_nonneg (x := getLE32 b i) (by rw [getLE32_eq]; omega)
      (by rw [getLE32_eq]; omega)
    rw [getLE32_eq] at this ⊢
    exact Int.ofNat.inj this
  have hmask : low (getLE32 b offset) 32 = getLE32 b offset := by
    rw [low, getLE32_eq]
    omega
  have hlt : unsigned (getLE32 b offset) < 2 ^ 32 := by
    rw [hlow]
    exact Nat.mod_lt _ (Nat.two_pow_pos _)
  rw [getLE64, hmask, unsigned_or_shl hlt _ (by omega), hlow, hlow, Nat.pow_add,
    ← Nat.div_div_eq_div_mul]
  omega

/-- `putLE64` writes the bytes of a word. -/
theorem putLE64_eq (val : ℤ) : putLE64 val = leBytes 8 (unsigned val) := by
  rw [putLE64, leBytes]
  apply List.map_congr_left
  intro i _
  have hpow : (2 : ℕ) ^ (i * 8) = 256 ^ i := by rw [Nat.mul_comm, Nat.pow_mul]
  have hval : low (ushr val (i * 8)) 8 = ((unsigned val / 256 ^ i % 256 : ℕ) : ℤ) := by
    rw [low, ushr, ← cast_unsigned, ← hpow]
    push_cast
    rfl
  rw [hval]
  rfl

/-! ### Limbs -/

/-- The number of some limbs. -/
def Limbs.value (h : Limbs) : ℤ :=
  h.h0 + 2 ^ 26 * h.h1 + 2 ^ 52 * h.h2 + 2 ^ 78 * h.h3 + 2 ^ 104 * h.h4

/-- Limbs of 26 bits. -/
structure Limbs.Reduced (h : Limbs) : Prop where
  h0 : 0 ≤ h.h0 ∧ h.h0 < 2 ^ 26
  h1 : 0 ≤ h.h1 ∧ h.h1 < 2 ^ 26
  h2 : 0 ≤ h.h2 ∧ h.h2 < 2 ^ 26
  h3 : 0 ≤ h.h3 ∧ h.h3 < 2 ^ 26
  h4 : 0 ≤ h.h4 ∧ h.h4 < 2 ^ 26

/-- Limbs as a round of carries leaves them: the second one may be a little above 26 bits. -/
structure Limbs.Settled (h : Limbs) : Prop where
  h0 : 0 ≤ h.h0 ∧ h.h0 < 2 ^ 26
  h1 : 0 ≤ h.h1 ∧ h.h1 < 2 ^ 26 + 2 ^ 12
  h2 : 0 ≤ h.h2 ∧ h.h2 < 2 ^ 26
  h3 : 0 ≤ h.h3 ∧ h.h3 < 2 ^ 26
  h4 : 0 ≤ h.h4 ∧ h.h4 < 2 ^ 26

/-- The bytes of the first half of the key are clamped as the standard says. -/
theorem leNum_rBytes (key32 : Vector UInt8 32) :
    leNum (rBytes key32) = Poly1305.clamp (leNum (key32.toList.take 16)) := by
  have hlen : (key32.toList.take 16).length = 16 := by simp
  rw [rBytes]
  simp only [leNum_modify_and, List.length_modify, hlen, Nat.and_assoc]
  rw [Poly1305.clamp]
  congr 1

/-- What the clamp cleared is cleared by a mask that has it cleared too. -/
theorem clamp_and {n i k m : ℕ}
    (h : 0x0ffffffc0ffffffc0ffffffc0fffffff / 2 ^ i &&& (2 ^ k - 1) &&& m =
      0x0ffffffc0ffffffc0ffffffc0fffffff / 2 ^ i &&& (2 ^ 26 - 1)) :
    Poly1305.clamp n / 2 ^ i % 2 ^ k &&& m = Poly1305.clamp n / 2 ^ i % 2 ^ 26 := by
  rw [Poly1305.clamp, Nat.and_div_two_pow, ← Nat.and_two_pow_sub_one_eq_mod,
    ← Nat.and_two_pow_sub_one_eq_mod, Nat.and_assoc, Nat.and_assoc, ← Nat.and_assoc _ _ m, h,
    Nat.and_assoc]

/-- A window of a number: what is read from a byte on, less the lowest bits. -/
theorem ushr_getLE32 (b : List UInt8) (offset : ℕ) {j : ℕ} (hj : j ≤ 32) :
    ushr (getLE32 b offset) j =
      ((leNum b / 2 ^ (8 * offset + j) % 2 ^ (32 - j) : ℕ) : ℤ) := by
  have hsplit : (2 : ℕ) ^ 32 = 2 ^ j * 2 ^ (32 - j) := by
    rw [← Nat.pow_add, Nat.add_sub_cancel' hj]
  have hpow : (256 : ℕ) ^ offset = 2 ^ (8 * offset) := by rw [Nat.pow_mul]
  have hnat : leNum b / 256 ^ offset % 2 ^ 32 / 2 ^ j =
      leNum b / 2 ^ (8 * offset + j) % 2 ^ (32 - j) := by
    rw [hsplit, Nat.mod_mul_right_div_self, hpow, Nat.div_div_eq_div_mul, ← Nat.pow_add]
  have hlt : leNum b / 256 ^ offset % 2 ^ 32 < 2 ^ 32 := Nat.mod_lt _ (Nat.two_pow_pos _)
  rw [← hnat, getLE32_eq, ushr_of_nonneg (by omega) (by omega)]
  push_cast
  rfl

/-- **The limbs of the key** are those of the clamped first half. -/
theorem keyLimbs_spec (key32 : Vector UInt8 32) :
    (keyLimbs key32).Reduced ∧
      (keyLimbs key32).value = Poly1305.clamp (leNum (key32.toList.take 16)) := by
  have hread := getLE32_eq (rBytes key32) 0
  have hwindow := fun i j (hj : j ≤ 32) => ushr_getLE32 (rBytes key32) i hj
  rw [leNum_rBytes] at hread
  simp only [leNum_rBytes] at hwindow
  set n := leNum (key32.toList.take 16)
  have hlt : Poly1305.clamp n < 2 ^ 128 := Nat.and_lt_two_pow _ (by decide)
  have h0 : (keyLimbs key32).h0 = ((Poly1305.clamp n % 2 ^ 26 : ℕ) : ℤ) := by
    change low (getLE32 (rBytes key32) 0) 26 = _
    rw [hread, low, Nat.pow_zero, Nat.div_one]
    omega
  have hmask : ∀ i j m : ℕ, j ≤ 32 → m < 2 ^ 63 →
      0x0ffffffc0ffffffc0ffffffc0fffffff / 2 ^ (8 * i + j) &&& (2 ^ (32 - j) - 1) &&& m =
        0x0ffffffc0ffffffc0ffffffc0fffffff / 2 ^ (8 * i + j) &&& (2 ^ 26 - 1) →
      band (ushr (getLE32 (rBytes key32) i) j) m =
        ((Poly1305.clamp n / 2 ^ (8 * i + j) % 2 ^ 26 : ℕ) : ℤ) := by
    intro i j m hj hm h
    have hle : 2 ^ (32 - j) ≤ 2 ^ 32 := Nat.pow_le_pow_right (by decide) (Nat.sub_le _ _)
    have hpart := Nat.mod_lt (Poly1305.clamp n / 2 ^ (8 * i + j)) (Nat.two_pow_pos (32 - j))
    rw [hwindow i j hj, and_natCast (by omega) hm, clamp_and h]
  have h1 : (keyLimbs key32).h1 = ((Poly1305.clamp n / 2 ^ 26 % 2 ^ 26 : ℕ) : ℤ) :=
    hmask 3 2 0x3ffff03 (by decide) (by decide) (by decide)
  have h2 : (keyLimbs key32).h2 = ((Poly1305.clamp n / 2 ^ 52 % 2 ^ 26 : ℕ) : ℤ) :=
    hmask 6 4 0x3ffc0ff (by decide) (by decide) (by decide)
  have h3 : (keyLimbs key32).h3 = ((Poly1305.clamp n / 2 ^ 78 % 2 ^ 26 : ℕ) : ℤ) :=
    hmask 9 6 0x3f03fff (by decide) (by decide) (by decide)
  have h4 : (keyLimbs key32).h4 = ((Poly1305.clamp n / 2 ^ 104 % 2 ^ 26 : ℕ) : ℤ) :=
    hmask 12 8 0x00fffff (by decide) (by decide) (by decide)
  refine ⟨⟨?_, ?_, ?_, ?_, ?_⟩, ?_⟩
  · omega
  · omega
  · omega
  · omega
  · omega
  · rw [Limbs.value]
    omega

/-- **The limbs of a block** are those of its number, with the one above it. -/
theorem blockLimbs_spec {block16 : List UInt8} (h : block16.length = 16) :
    (blockLimbs block16).Reduced ∧
      (blockLimbs block16).value = leNum (block16 ++ [1]) := by
  have hread := getLE32_eq block16 0
  have hwindow := fun i j (hj : j ≤ 32) => ushr_getLE32 block16 i hj
  have hone : leNum (block16 ++ [1]) = leNum block16 + 2 ^ 128 := by
    rw [leNum_append, h]
    rfl
  have hlt : leNum block16 < 2 ^ 128 := by
    have := leNum_lt block16
    rw [h] at this
    exact this
  have h0 : (blockLimbs block16).h0 = ((leNum block16 % 2 ^ 26 : ℕ) : ℤ) := by
    change low (getLE32 block16 0) 26 = _
    rw [hread, low, Nat.pow_zero, Nat.div_one]
    omega
  have hlow : ∀ i j : ℕ, j ≤ 6 → low (ushr (getLE32 block16 i) j) 26 =
      ((leNum block16 / 2 ^ (8 * i + j) % 2 ^ 26 : ℕ) : ℤ) := by
    intro i j hj
    have hsplit : (2 : ℕ) ^ (32 - j) = 2 ^ 26 * 2 ^ (6 - j) := by
      rw [← Nat.pow_add]
      congr 1
      omega
    rw [low, hwindow i j (by omega), hsplit, ← Nat.mod_mul_right_mod _ (2 ^ 26) (2 ^ (6 - j))]
    push_cast
    rfl
  have h1 : (blockLimbs block16).h1 = ((leNum block16 / 2 ^ 26 % 2 ^ 26 : ℕ) : ℤ) :=
    hlow 3 2 (by decide)
  have h2 : (blockLimbs block16).h2 = ((leNum block16 / 2 ^ 52 % 2 ^ 26 : ℕ) : ℤ) :=
    hlow 6 4 (by decide)
  have h3 : (blockLimbs block16).h3 = ((leNum block16 / 2 ^ 78 % 2 ^ 26 : ℕ) : ℤ) :=
    hlow 9 6 (by decide)
  have h4 : (blockLimbs block16).h4 =
      ((leNum block16 / 2 ^ 104 + 2 ^ 24 : ℕ) : ℤ) := by
    change bor (low (ushr (getLE32 block16 12) 8) 24) (shl 1 24) = _
    have htop : low (ushr (getLE32 block16 12) 8) 24 =
        ((leNum block16 / 2 ^ 104 : ℕ) : ℤ) := by
      rw [low, hwindow 12 8 (by decide)]
      omega
    have hbits : unsigned ((leNum block16 / 2 ^ 104 : ℕ) : ℤ) =
        leNum block16 / 2 ^ 104 := by
      have := unsigned_of_nonneg (x := ((leNum block16 / 2 ^ 104 : ℕ) : ℤ)) (by omega)
        (by omega)
      exact Int.ofNat.inj this
    have hone : unsigned 1 = 1 := by decide
    have hor := unsigned_or_shl (a := ((leNum block16 / 2 ^ 104 : ℕ) : ℤ)) (k := 24)
      (by rw [hbits]; omega) 1 (by decide)
    rw [hbits, hone] at hor
    rw [htop, or_eq_unsigned (by rw [hor]; omega), hor]
    congr 1
  refine ⟨⟨?_, ?_, ?_, ?_, ?_⟩, ?_⟩
  · omega
  · omega
  · omega
  · omega
  · omega
  · rw [Limbs.value, hone]
    omega

/-! ### A block -/

section Exact

variable {norm : ℤ → Option ℤ} (hnorm : Exact norm)

include hnorm

omit hnorm in
/-- A step of a computation that has a result. -/
theorem bind_of_eq {α β : Type} {x : Option α} {a : α} (h : x = some a) {f : α → Option β} :
    (x >>= f) = f a := by
  rw [h]
  rfl

/-- Five products of limbs fit in a word. -/
theorem dot5_eq {a0 b0 a1 b1 a2 b2 a3 b3 a4 b4 : ℤ} (h0 : 0 ≤ a0 * b0 ∧ a0 * b0 < 2 ^ 57)
    (h1 : 0 ≤ a1 * b1 ∧ a1 * b1 < 2 ^ 57) (h2 : 0 ≤ a2 * b2 ∧ a2 * b2 < 2 ^ 57)
    (h3 : 0 ≤ a3 * b3 ∧ a3 * b3 < 2 ^ 57) (h4 : 0 ≤ a4 * b4 ∧ a4 * b4 < 2 ^ 57) :
    dot5 norm a0 b0 a1 b1 a2 b2 a3 b3 a4 b4 =
        some (a0 * b0 + a1 * b1 + a2 * b2 + a3 * b3 + a4 * b4) ∧
      0 ≤ a0 * b0 + a1 * b1 + a2 * b2 + a3 * b3 + a4 * b4 ∧
      a0 * b0 + a1 * b1 + a2 * b2 + a3 * b3 + a4 * b4 < 2 ^ 60 := by
  refine ⟨?_, by omega, by omega⟩
  rw [dot5, hnorm.of_le h0.1 (by omega), hnorm.of_le h1.1 (by omega),
    hnorm.of_le h2.1 (by omega), hnorm.of_le h3.1 (by omega), hnorm.of_le h4.1 (by omega)]
  simp only [Option.bind_eq_bind, Option.bind_some]
  rw [hnorm.of_le (by omega) (by omega), Option.bind_some, hnorm.of_le (by omega) (by omega),
    Option.bind_some, hnorm.of_le (by omega) (by omega), Option.bind_some,
    hnorm.of_le (by omega) (by omega)]

/-- **A round of carries** keeps the number modulo the prime. -/
theorem carry_eq {d : Limbs} (h0 : 0 ≤ d.h0 ∧ d.h0 < 2 ^ 60) (h1 : 0 ≤ d.h1 ∧ d.h1 < 2 ^ 60)
    (h2 : 0 ≤ d.h2 ∧ d.h2 < 2 ^ 60) (h3 : 0 ≤ d.h3 ∧ d.h3 < 2 ^ 60)
    (h4 : 0 ≤ d.h4 ∧ d.h4 < 2 ^ 60) :
    ∃ h q, carry norm d = some h ∧ h.Settled ∧ d.value = h.value + (2 ^ 130 - 5) * q ∧
      (d.Settled → h.Reduced) := by
  have hshift : ∀ {x : ℤ}, 0 ≤ x → x < 2 ^ 62 → ushr x 26 = x / 2 ^ 26 := fun h hlt =>
    ushr_of_nonneg h (by omega) 26
  have hd1 := hnorm.of_le (x := d.h1 + d.h0 / 2 ^ 26) (by omega) (by omega)
  set d1 := d.h1 + d.h0 / 2 ^ 26 with e1
  have hd2 := hnorm.of_le (x := d.h2 + d1 / 2 ^ 26) (by omega) (by omega)
  set d2 := d.h2 + d1 / 2 ^ 26 with e2
  have hd3 := hnorm.of_le (x := d.h3 + d2 / 2 ^ 26) (by omega) (by omega)
  set d3 := d.h3 + d2 / 2 ^ 26 with e3
  have hd4 := hnorm.of_le (x := d.h4 + d3 / 2 ^ 26) (by omega) (by omega)
  set d4 := d.h4 + d3 / 2 ^ 26 with e4
  have hc5 := hnorm.of_le (x := d4 / 2 ^ 26 * 5) (by omega) (by omega)
  have hx0 := hnorm.of_le (x := d.h0 % 2 ^ 26 + d4 / 2 ^ 26 * 5) (by omega) (by omega)
  set x0 := d.h0 % 2 ^ 26 + d4 / 2 ^ 26 * 5 with ex
  have hx1 := hnorm.of_le (x := d1 % 2 ^ 26 + x0 / 2 ^ 26) (by omega) (by omega)
  refine ⟨⟨x0 % 2 ^ 26, d1 % 2 ^ 26 + x0 / 2 ^ 26, d2 % 2 ^ 26, d3 % 2 ^ 26, d4 % 2 ^ 26⟩,
    d4 / 2 ^ 26, ?_, ⟨?_, ?_, ?_, ?_, ?_⟩, ?_, ?_⟩
  · rw [carry]
    simp only [low, Option.bind_eq_bind]
    rw [hshift h0.1 (by omega), ← e1, hd1, Option.bind_some, hshift (by omega) (by omega), ← e2,
      hd2, Option.bind_some, hshift (by omega) (by omega), ← e3, hd3, Option.bind_some,
      hshift (by omega) (by omega), ← e4, hd4, Option.bind_some, hshift (by omega) (by omega),
      hc5, Option.bind_some, ← ex, hx0, Option.bind_some, hshift (by omega) (by omega), hx1,
      Option.bind_some]
  · change 0 ≤ x0 % 2 ^ 26 ∧ x0 % 2 ^ 26 < 2 ^ 26
    omega
  · change 0 ≤ d1 % 2 ^ 26 + x0 / 2 ^ 26 ∧ d1 % 2 ^ 26 + x0 / 2 ^ 26 < 2 ^ 26 + 2 ^ 12
    omega
  · change 0 ≤ d2 % 2 ^ 26 ∧ d2 % 2 ^ 26 < 2 ^ 26
    omega
  · change 0 ≤ d3 % 2 ^ 26 ∧ d3 % 2 ^ 26 < 2 ^ 26
    omega
  · change 0 ≤ d4 % 2 ^ 26 ∧ d4 % 2 ^ 26 < 2 ^ 26
    omega
  · simp only [Limbs.value]
    omega
  · -- the second limb is above only where the carry from it came to nothing
    rintro ⟨⟨_, g0⟩, ⟨_, g1⟩, ⟨_, g2⟩, ⟨_, g3⟩, ⟨_, g4⟩⟩
    refine ⟨?_, ?_, ?_, ?_, ?_⟩
    · change 0 ≤ x0 % 2 ^ 26 ∧ x0 % 2 ^ 26 < 2 ^ 26
      omega
    · change 0 ≤ d1 % 2 ^ 26 + x0 / 2 ^ 26 ∧ d1 % 2 ^ 26 + x0 / 2 ^ 26 < 2 ^ 26
      have hno : d.h0 / 2 ^ 26 = 0 := by omega
      by_cases hfit : d.h1 < 2 ^ 26
      · have hz1 : d1 / 2 ^ 26 = 0 := by omega
        have hz2 : d2 / 2 ^ 26 = 0 := by omega
        have hz3 : d3 / 2 ^ 26 = 0 := by omega
        have hz4 : d4 / 2 ^ 26 = 0 := by omega
        have hz0 : x0 / 2 ^ 26 = 0 := by omega
        omega
      · have hsmall : d1 % 2 ^ 26 < 2 ^ 12 := by omega
        have hz4 : d4 / 2 ^ 26 ≤ 2 := by omega
        have hz0 : x0 / 2 ^ 26 ≤ 1 := by omega
        omega
    · change 0 ≤ d2 % 2 ^ 26 ∧ d2 % 2 ^ 26 < 2 ^ 26
      omega
    · change 0 ≤ d3 % 2 ^ 26 ∧ d3 % 2 ^ 26 < 2 ^ 26
      omega
    · change 0 ≤ d4 % 2 ^ 26 ∧ d4 % 2 ^ 26 < 2 ^ 26
      omega

/-- **A block**: the sum with its number is multiplied with the key, modulo the prime. -/
theorem absorb_eq {r h : Limbs} (hr : r.Reduced) (hh : h.Settled) {block16 : List UInt8}
    (hlen : block16.length = 16) :
    ∃ h' q, absorb norm r h block16 = some h' ∧ h'.Settled ∧
      (h.value + leNum (block16 ++ [1])) * r.value = h'.value + (2 ^ 130 - 5) * q := by
  obtain ⟨⟨w0, w1, w2, w3, w4⟩, hvalue⟩ := blockLimbs_spec hlen
  obtain ⟨r0, r1, r2, r3, r4⟩ := hr
  obtain ⟨h0, h1, h2, h3, h4⟩ := hh
  have hmul : ∀ {a b : ℤ}, 0 ≤ a ∧ a < 2 ^ 28 → 0 ≤ b ∧ b < 2 ^ 29 →
      0 ≤ a * b ∧ a * b < 2 ^ 57 := by
    rintro a b ⟨ha, hale⟩ ⟨hb, hble⟩
    refine ⟨Int.mul_nonneg ha hb, ?_⟩
    calc a * b ≤ (2 ^ 28 - 1) * b := Int.mul_le_mul_of_nonneg_right (by omega) hb
      _ ≤ (2 ^ 28 - 1) * 2 ^ 29 := Int.mul_le_mul_of_nonneg_left (by omega) (by decide)
      _ < 2 ^ 57 := by decide
  set w := blockLimbs block16
  -- the limbs of the sum, and those of the key, also five times
  obtain ⟨a0, ea0, ha0⟩ : ∃ a, a = h.h0 + w.h0 ∧ 0 ≤ a ∧ a < 2 ^ 28 := ⟨_, rfl, by omega⟩
  obtain ⟨a1, ea1, ha1⟩ : ∃ a, a = h.h1 + w.h1 ∧ 0 ≤ a ∧ a < 2 ^ 28 := ⟨_, rfl, by omega⟩
  obtain ⟨a2, ea2, ha2⟩ : ∃ a, a = h.h2 + w.h2 ∧ 0 ≤ a ∧ a < 2 ^ 28 := ⟨_, rfl, by omega⟩
  obtain ⟨a3, ea3, ha3⟩ : ∃ a, a = h.h3 + w.h3 ∧ 0 ≤ a ∧ a < 2 ^ 28 := ⟨_, rfl, by omega⟩
  obtain ⟨a4, ea4, ha4⟩ : ∃ a, a = h.h4 + w.h4 ∧ 0 ≤ a ∧ a < 2 ^ 28 := ⟨_, rfl, by omega⟩
  have hadd : ∀ {x y a : ℤ}, a = x + y → 0 ≤ a ∧ a < 2 ^ 28 → norm (x + y) = some a := by
    rintro x y a rfl ⟨ha, hlt⟩
    exact hnorm.of_le ha (by omega)
  have hb0 : 0 ≤ r.h0 ∧ r.h0 < 2 ^ 29 := by omega
  have hb1 : 0 ≤ r.h1 ∧ r.h1 < 2 ^ 29 := by omega
  have hb2 : 0 ≤ r.h2 ∧ r.h2 < 2 ^ 29 := by omega
  have hb3 : 0 ≤ r.h3 ∧ r.h3 < 2 ^ 29 := by omega
  have hb4 : 0 ≤ r.h4 ∧ r.h4 < 2 ^ 29 := by omega
  have hs1 : 0 ≤ r.h1 * 5 ∧ r.h1 * 5 < 2 ^ 29 := by omega
  have hs2 : 0 ≤ r.h2 * 5 ∧ r.h2 * 5 < 2 ^ 29 := by omega
  have hs3 : 0 ≤ r.h3 * 5 ∧ r.h3 * 5 < 2 ^ 29 := by omega
  have hs4 : 0 ≤ r.h4 * 5 ∧ r.h4 * 5 < 2 ^ 29 := by omega
  obtain ⟨d0, ld0, ud0⟩ := dot5_eq hnorm (hmul ha0 hb0) (hmul ha1 hs4) (hmul ha2 hs3)
    (hmul ha3 hs2) (hmul ha4 hs1)
  obtain ⟨d1, ld1, ud1⟩ := dot5_eq hnorm (hmul ha0 hb1) (hmul ha1 hb0) (hmul ha2 hs4)
    (hmul ha3 hs3) (hmul ha4 hs2)
  obtain ⟨d2, ld2, ud2⟩ := dot5_eq hnorm (hmul ha0 hb2) (hmul ha1 hb1) (hmul ha2 hb0)
    (hmul ha3 hs4) (hmul ha4 hs3)
  obtain ⟨d3, ld3, ud3⟩ := dot5_eq hnorm (hmul ha0 hb3) (hmul ha1 hb2) (hmul ha2 hb1)
    (hmul ha3 hb0) (hmul ha4 hs4)
  obtain ⟨d4, ld4, ud4⟩ := dot5_eq hnorm (hmul ha0 hb4) (hmul ha1 hb3) (hmul ha2 hb2)
    (hmul ha3 hb1) (hmul ha4 hb0)
  obtain ⟨h', q, hcarry, hsettled, hmod, _⟩ := carry_eq hnorm (d := ⟨_, _, _, _, _⟩)
    ⟨ld0, ud0⟩ ⟨ld1, ud1⟩ ⟨ld2, ud2⟩ ⟨ld3, ud3⟩ ⟨ld4, ud4⟩
  refine ⟨h', q + (a1 * r.h4 + a2 * r.h3 + a3 * r.h2 + a4 * r.h1 +
    2 ^ 26 * (a2 * r.h4 + a3 * r.h3 + a4 * r.h2) + 2 ^ 52 * (a3 * r.h4 + a4 * r.h3) +
      2 ^ 78 * (a4 * r.h4)), ?_, hsettled, ?_⟩
  · refine (bind_of_eq (hnorm.of_le hs1.1 (by omega))).trans ?_
    refine (bind_of_eq (hnorm.of_le hs2.1 (by omega))).trans ?_
    refine (bind_of_eq (hnorm.of_le hs3.1 (by omega))).trans ?_
    refine (bind_of_eq (hnorm.of_le hs4.1 (by omega))).trans ?_
    refine (bind_of_eq (hadd ea0 ha0)).trans ?_
    refine (bind_of_eq (hadd ea1 ha1)).trans ?_
    refine (bind_of_eq (hadd ea2 ha2)).trans ?_
    refine (bind_of_eq (hadd ea3 ha3)).trans ?_
    refine (bind_of_eq (hadd ea4 ha4)).trans ?_
    refine (bind_of_eq d0).trans ?_
    refine (bind_of_eq d1).trans ?_
    refine (bind_of_eq d2).trans ?_
    refine (bind_of_eq d3).trans ?_
    exact (bind_of_eq d4).trans hcarry
  · rw [← hvalue]
    have hh : h.value + w.value =
        a0 + 2 ^ 26 * a1 + 2 ^ 52 * a2 + 2 ^ 78 * a3 + 2 ^ 104 * a4 := by
      rw [Limbs.value, Limbs.value, ea0, ea1, ea2, ea3, ea4]
      ring
    rw [hh]
    rw [Limbs.value] at hmod
    rw [Limbs.value]
    linear_combination hmod

/-! ### The message -/

/-- The accumulator, as a number below the prime. -/
structure Limbs.Represents (h : Limbs) (acc : ℕ) : Prop where
  settled : h.Settled
  value : h.value % (2 ^ 130 - 5) = acc

/-- A block comes into what is represented. -/
theorem absorb_represents {r h : Limbs} {n acc : ℕ} (hr : r.Reduced) (hn : r.value = n)
    (hh : h.Represents acc) {block16 : List UInt8} (hlen : block16.length = 16) :
    ∃ h', absorb norm r h block16 = some h' ∧
      h'.Represents (Poly1305.absorb n acc block16) := by
  obtain ⟨h', q, hsome, hsettled, hvalue⟩ := absorb_eq hnorm hr hh.settled hlen
  refine ⟨h', hsome, hsettled, ?_⟩
  have hstep : h'.value =
      (h.value + leNum (block16 ++ [1])) * n - (2 ^ 130 - 5) * q := by
    rw [← hn, hvalue]
    omega
  have hcast : ((Poly1305.absorb n acc block16 : ℕ) : ℤ) =
      ((acc : ℤ) + leNum (block16 ++ [1])) * n % (2 ^ 130 - 5) := by
    rw [Poly1305.absorb, Poly1305.p]
    push_cast
    rfl
  rw [hcast, hstep, Int.sub_mul_emod_self_left, ← hh.value, Int.mul_emod, Int.mul_emod _ (n : ℤ),
    Int.emod_add_emod]

/-- **The loop**, from any offset: the blocks of what is left, filled up. -/
theorem absorbFrom_represents {r : Limbs} {n : ℕ} (hr : r.Reduced) (hn : r.value = n)
    (data : List UInt8) (offset : ℕ) {h : Limbs} {acc : ℕ} (hh : h.Represents acc) :
    ∃ h', absorbFrom norm r data offset h = some h' ∧
      h'.Represents (((Poly1305.blocks (data.drop offset)).map Poly1305.fill).foldl
        (Poly1305.absorb n) acc) := by
  induction hk : data.length - offset using Nat.strong_induction_on generalizing offset h acc with
  | h k ih =>
    rw [absorbFrom]
    split
    · rename_i hlt
      have hne : data.drop offset ≠ [] := by
        intro hnil
        have := List.drop_eq_nil_iff.mp hnil
        omega
      have hlen : (data.drop offset).length = data.length - offset := List.length_drop
      have htake : (data.drop offset).take (min 16 (data.length - offset)) =
          (data.drop offset).take 16 := by
        rw [← hlen]
        exact List.take_eq_take_min.symm
      have hchunk : ((data.drop offset).take 16).length = min 16 (data.length - offset) := by
        rw [List.length_take, hlen]
      have hfill : (data.drop offset).take (min 16 (data.length - offset)) ++
          List.replicate (16 - min 16 (data.length - offset)) 0 =
            Poly1305.fill ((data.drop offset).take 16) := by
        rw [htake, Poly1305.fill, hchunk]
      have hlen16 : (Poly1305.fill ((data.drop offset).take 16)).length = 16 := by
        rw [Poly1305.fill, List.length_append, List.length_replicate, hchunk]
        omega
      have hdrop : data.drop (offset + min 16 (data.length - offset)) =
          (data.drop offset).drop 16 := by
        rw [List.drop_drop]
        rcases Nat.le_total 16 (data.length - offset) with hle | hle
        · rw [Nat.min_eq_left hle]
        · rw [Nat.min_eq_right hle, List.drop_eq_nil_of_le (by omega),
            List.drop_eq_nil_of_le (by omega)]
      obtain ⟨h₁, hsome, hh₁⟩ := absorb_represents hnorm hr hn hh hlen16
      obtain ⟨h', hrest, hh'⟩ := ih (data.length - (offset + min 16 (data.length - offset)))
        (by omega) (offset + min 16 (data.length - offset)) hh₁ rfl
      refine ⟨h', ?_, ?_⟩
      · change (absorb norm r h _ >>= _) = _
        rw [hfill]
        exact (bind_of_eq hsome).trans hrest
      · rw [hdrop] at hh'
        rw [Poly1305.blocks_of_ne_nil hne]
        exact hh'
    · rename_i hle
      refine ⟨h, rfl, ?_⟩
      rw [List.drop_eq_nil_of_le (by omega)]
      exact hh

/-! ### The end -/

/-- **The subtraction of the prime**: the lowest bits are those of the remainder. The bit that
the choice can leave above the last limb is not among them. -/
theorem subtract_eq {h : Limbs} (hh : h.Reduced) :
    ∃ h', subtract norm h = some h' ∧ (0 ≤ h'.h0 ∧ h'.h0 < 2 ^ 26) ∧
      (0 ≤ h'.h1 ∧ h'.h1 < 2 ^ 26) ∧ (0 ≤ h'.h2 ∧ h'.h2 < 2 ^ 26) ∧
      (0 ≤ h'.h3 ∧ h'.h3 < 2 ^ 26) ∧ (0 ≤ h'.h4 ∧ h'.h4 ≤ 2 ^ 26) ∧
      h'.value % 2 ^ 128 = h.value % (2 ^ 130 - 5) % 2 ^ 128 := by
  obtain ⟨⟨l0, u0⟩, ⟨l1, u1⟩, ⟨l2, u2⟩, ⟨l3, u3⟩, ⟨l4, u4⟩⟩ := hh
  have hshift : ∀ {x : ℤ}, 0 ≤ x → x < 2 ^ 62 → ushr x 26 = x / 2 ^ 26 := fun h hlt =>
    ushr_of_nonneg h (by omega) 26
  have hone : shl 1 26 = 2 ^ 26 := by decide
  have hg0 := hnorm.of_le (x := h.h0 + 5) (by omega) (by omega)
  set g0 := h.h0 + 5 with e0
  have hg1 := hnorm.of_le (x := h.h1 + g0 / 2 ^ 26) (by omega) (by omega)
  set g1 := h.h1 + g0 / 2 ^ 26 with e1
  have hg2 := hnorm.of_le (x := h.h2 + g1 / 2 ^ 26) (by omega) (by omega)
  set g2 := h.h2 + g1 / 2 ^ 26 with e2
  have hg3 := hnorm.of_le (x := h.h3 + g2 / 2 ^ 26) (by omega) (by omega)
  set g3 := h.h3 + g2 / 2 ^ 26 with e3
  have hg4 := hnorm.of_le (x := h.h4 + g3 / 2 ^ 26) (by omega) (by omega)
  set g4 := h.h4 + g3 / 2 ^ 26 with e4
  have hsub := hnorm (g4 - 2 ^ 26) ⟨by omega, by omega⟩
  have hback := hnorm (g4 - 2 ^ 26 + 2 ^ 26) ⟨by omega, by omega⟩
  have hsign := sar_sign (x := g4 - 2 ^ 26) ⟨by omega, by omega⟩
  set mask := sar (g4 - 2 ^ 26) 63 with emask
  have hresult : subtract norm h = some
      { h0 := bor (band h.h0 mask) (band (g0 % 2 ^ 26) (bnot mask))
        h1 := bor (band h.h1 mask) (band (g1 % 2 ^ 26) (bnot mask))
        h2 := bor (band h.h2 mask) (band (g2 % 2 ^ 26) (bnot mask))
        h3 := bor (band h.h3 mask) (band (g3 % 2 ^ 26) (bnot mask))
        h4 := bor (band h.h4 mask) (band (g4 - 2 ^ 26 + 2 ^ 26) (bnot mask)) } := by
    rw [subtract]
    simp only [low, hone, Option.bind_eq_bind]
    rw [← e0, hg0, Option.bind_some, hshift (by omega) (by omega), ← e1, hg1, Option.bind_some,
      hshift (by omega) (by omega), ← e2, hg2, Option.bind_some, hshift (by omega) (by omega),
      ← e3, hg3, Option.bind_some, hshift (by omega) (by omega), ← e4, hg4, Option.bind_some,
      hsub, Option.bind_some, hback, Option.bind_some]
  have hvalue : h.value + 5 = g0 % 2 ^ 26 + 2 ^ 26 * (g1 % 2 ^ 26) + 2 ^ 52 * (g2 % 2 ^ 26) +
      2 ^ 78 * (g3 % 2 ^ 26) + 2 ^ 104 * g4 := by
    rw [Limbs.value]
    omega
  refine ⟨_, hresult, ?_⟩
  have hrange : ∀ {x : ℤ}, 0 ≤ x → x ≤ 2 ^ 26 → InRange x := fun h0 hle => ⟨by omega, by omega⟩
  rcases lt_or_ge (g4 - 2 ^ 26) 0 with hneg | hpos
  · -- the number is below the prime
    have hmask := hsign.1 hneg
    have hkeep : h.value % (2 ^ 130 - 5) = h.value := by
      apply Int.emod_eq_of_lt
      · rw [Limbs.value]
        omega
      · omega
    rw [(or_and_mask (hrange (by omega) (by omega)) (hrange (by omega) (by omega))).1 hmask,
      (or_and_mask (hrange (by omega) (by omega)) (hrange (by omega) (by omega))).1 hmask,
      (or_and_mask (hrange (by omega) (by omega)) (hrange (by omega) (by omega))).1 hmask,
      (or_and_mask (hrange (by omega) (by omega)) (hrange (by omega) (by omega))).1 hmask,
      (or_and_mask (hrange (by omega) (by omega)) (hrange (by omega) (by omega))).1 hmask, hkeep]
    exact ⟨⟨l0, u0⟩, ⟨l1, u1⟩, ⟨l2, u2⟩, ⟨l3, u3⟩, ⟨l4, u4.le⟩, rfl⟩
  · have hmask := hsign.2 hpos
    have htake : h.value % (2 ^ 130 - 5) = h.value - (2 ^ 130 - 5) := by
      rw [← Int.sub_emod_right, Int.emod_eq_of_lt]
      · omega
      · rw [Limbs.value]
        omega
    rw [(or_and_mask (hrange (by omega) (by omega)) (hrange (by omega) (by omega))).2 hmask,
      (or_and_mask (hrange (by omega) (by omega)) (hrange (by omega) (by omega))).2 hmask,
      (or_and_mask (hrange (by omega) (by omega)) (hrange (by omega) (by omega))).2 hmask,
      (or_and_mask (hrange (by omega) (by omega)) (hrange (by omega) (by omega))).2 hmask,
      (or_and_mask (hrange (by omega) (by omega)) (hrange (by omega) (by omega))).2 hmask, htake]
    refine ⟨by dsimp only; omega, by dsimp only; omega, by dsimp only; omega,
      by dsimp only; omega, by dsimp only; omega, ?_⟩
    rw [Limbs.value]
    dsimp only
    omega

end Exact

/-- **The two words** hold the lowest bits of the accumulator, and the second half of the key
is added to them modulo their power. -/
theorem finish_eq (key32 : Vector UInt8 32) {h : Limbs} (h0 : 0 ≤ h.h0 ∧ h.h0 < 2 ^ 26)
    (h1 : 0 ≤ h.h1 ∧ h.h1 < 2 ^ 26) (h2 : 0 ≤ h.h2 ∧ h.h2 < 2 ^ 26)
    (h3 : 0 ≤ h.h3 ∧ h.h3 < 2 ^ 26) (h4 : 0 ≤ h.h4 ∧ h.h4 ≤ 2 ^ 26) {n : ℕ}
    (hn : h.value % 2 ^ 128 = n) :
    finish wrap key32 h =
      some (leBytes 16 ((n + leNum (key32.toList.drop 16)) % 2 ^ 128)) := by
  have hbits : ∀ {x : ℤ}, 0 ≤ x → x < 2 ^ 63 → (unsigned x : ℤ) = x := fun h hlt =>
    unsigned_of_nonneg h (by omega)
  have b0 := hbits h0.1 (by omega)
  have b1 := hbits h1.1 (by omega)
  have b2 := hbits h2.1 (by omega)
  have b3 := hbits h3.1 (by omega)
  have b4 := hbits h4.1 (by omega)
  have hhigh : ushr h.h2 12 = h.h2 / 2 ^ 12 := ushr_of_nonneg h2.1 (by omega) 12
  have b2' := hbits (x := h.h2 / 2 ^ 12) (by omega) (by omega)
  -- the two words
  have f0 := unsigned_or_shl (k := 26) (by omega) h.h1 (a := h.h0) (by omega)
  have f0' := unsigned_or_shl (k := 52) (by omega) h.h2 (a := bor h.h0 (shl h.h1 26)) (by omega)
  have f1 := unsigned_or_shl (k := 14) (by omega) h.h3 (a := h.h2 / 2 ^ 12) (by omega)
  have f1' := unsigned_or_shl (k := 40) (by omega) h.h4 (a := bor (h.h2 / 2 ^ 12) (shl h.h3 14))
    (by omega)
  rw [f0] at f0'
  rw [f1] at f1'
  -- the second half of the key
  have hkey : leNum key32.toList =
      leNum (key32.toList.take 16) +
        2 ^ 128 * leNum (key32.toList.drop 16) := by
    rw [← List.take_append_drop 16 key32.toList, leNum_append]
    simp
  have htake : leNum (key32.toList.take 16) < 2 ^ 128 := by
    have := leNum_lt (key32.toList.take 16)
    simpa using this
  have hdrop : leNum (key32.toList.drop 16) < 2 ^ 128 := by
    have := leNum_lt (key32.toList.drop 16)
    simpa using this
  have s0 := unsigned_getLE64 key32.toList 16
  have s1 := unsigned_getLE64 key32.toList 24
  have hsum : n + leNum (key32.toList.drop 16) =
      unsigned (bor (bor h.h0 (shl h.h1 26)) (shl h.h2 52)) + unsigned (getLE64 key32.toList 16) +
        2 ^ 64 * (unsigned (bor (bor (h.h2 / 2 ^ 12) (shl h.h3 14)) (shl h.h4 40)) +
          unsigned (getLE64 key32.toList 24)) := by
    rw [Limbs.value] at hn
    rw [f0', f1', s0, s1]
    omega
  set w0 := bor (bor h.h0 (shl h.h1 26)) (shl h.h2 52)
  set w1 := bor (bor (h.h2 / 2 ^ 12) (shl h.h3 14)) (shl h.h4 40)
  set k0 := getLE64 key32.toList 16
  set k1 := getLE64 key32.toList 24
  have hk0 := unsigned_lt k0
  have hw0 := unsigned_lt w0
  obtain ⟨r0, hr0⟩ : ∃ r, wrap (w0 + k0) = some r := ⟨_, rfl⟩
  have ur0 := unsigned_wrap hr0
  rw [unsigned_add] at ur0
  -- the sum is smaller than what was added exactly where there is a carry
  obtain ⟨c1, hc1, uc1⟩ : ∃ c, (if unsigned r0 < unsigned k0 then wrap (w1 + 1) else some w1) =
      some c ∧ unsigned c = (unsigned w1 + (unsigned w0 + unsigned k0) / 2 ^ 64) % 2 ^ 64 := by
    split
    · rename_i hless
      obtain ⟨c, hc⟩ : ∃ c, wrap (w1 + 1) = some c := ⟨_, rfl⟩
      have uc := unsigned_wrap hc
      have hone : unsigned 1 = 1 := by decide
      rw [unsigned_add, hone] at uc
      refine ⟨c, hc, ?_⟩
      rw [uc]
      omega
    · rename_i hmore
      refine ⟨w1, rfl, ?_⟩
      have := unsigned_lt w1
      omega
  obtain ⟨r1, hr1⟩ : ∃ r, wrap (c1 + k1) = some r := ⟨_, rfl⟩
  have ur1 := unsigned_wrap hr1
  rw [unsigned_add, uc1] at ur1
  have hresult : finish wrap key32 h = some (putLE64 r0 ++ putLE64 r1) := by
    rw [finish, hhigh]
    refine (bind_of_eq hr0).trans ?_
    refine (bind_of_eq hc1).trans ?_
    exact bind_of_eq hr1
  have hlow : leBytes 8 (unsigned r0) =
      leBytes 8 (n + leNum (key32.toList.drop 16)) := by
    have hpow : (256 : ℕ) ^ 8 = 2 ^ 64 := by decide
    rw [← leBytes_mod 8 (n + _), hpow, ur0, hsum]
    congr 1
    omega
  have hup : leBytes 8 (unsigned r1) =
      leBytes 8 ((n + leNum (key32.toList.drop 16)) / 256 ^ 8) := by
    have hpow : (256 : ℕ) ^ 8 = 2 ^ 64 := by decide
    rw [← leBytes_mod 8 ((n + _) / _), hpow, ur1, hsum]
    congr 1
    omega
  have hwhole : (2 : ℕ) ^ 128 = 256 ^ 16 := by decide
  rw [hresult, putLE64_eq, putLE64_eq, hlow, hup, hwhole, leBytes_mod]
  exact congrArg some (leBytes_add 8 8 _).symm

/-! ### The tag -/

/-- The block of the lengths. -/
theorem lengthBlock_eq (aadLen ctLen : ℕ) :
    lengthBlock aadLen ctLen = leBytes 8 aadLen ++ leBytes 8 ctLen := by
  have hpart : ∀ n : ℕ, (List.range 8).map
      (fun i => (low (ushr (n : ℤ) (i * 8)) 8).toNat.toUInt8) = leBytes 8 n := by
    intro n
    have hmod : unsigned (n : ℤ) = n % 256 ^ 8 := by
      have := cast_unsigned (n : ℤ)
      omega
    exact (putLE64_eq n).trans (by rw [hmod, leBytes_mod])
  rw [lengthBlock, hpart, hpart]

/-- **The tag of the standard**, under every norm that is exact in range. -/
theorem computePoly1305_eq {limb : ℤ → Option ℤ} (hlimb : Exact limb) (key32 : Vector UInt8 32)
    (aad ct : Option (List UInt8)) :
    computePoly1305 limb wrap key32 aad ct =
      some (Poly1305.mac key32 (Poly1305.aeadMessage (aad.getD []) (ct.getD []))) := by
  obtain ⟨hr, hrn⟩ := keyLimbs_spec key32
  set n := Poly1305.clamp (leNum (key32.toList.take 16)) with hn
  have hzero : Limbs.Represents ⟨0, 0, 0, 0, 0⟩ 0 :=
    ⟨⟨by decide, by decide, by decide, by decide, by decide⟩, rfl⟩
  obtain ⟨h₁, e₁, rep₁⟩ := absorbFrom_represents hlimb hr hrn (aad.getD []) 0 hzero
  obtain ⟨h₂, e₂, rep₂⟩ := absorbFrom_represents hlimb hr hrn (ct.getD []) 0 rep₁
  rw [List.drop_zero, List.drop_zero] at rep₂
  have hlen : (lengthBlock (aad.getD []).length (ct.getD []).length).length = 16 := by
    simp [lengthBlock]
  obtain ⟨h₃, e₃, rep₃⟩ := absorb_represents hlimb hr hrn rep₂ hlen
  obtain ⟨⟨l0, u0⟩, ⟨l1, u1⟩, ⟨l2, u2⟩, ⟨l3, u3⟩, ⟨l4, u4⟩⟩ := rep₃.settled
  obtain ⟨h₄, q, e₄, -, hvalue, hred⟩ := carry_eq hlimb (d := h₃) ⟨l0, by omega⟩ ⟨l1, by omega⟩
    ⟨l2, by omega⟩ ⟨l3, by omega⟩ ⟨l4, by omega⟩
  obtain ⟨h₅, e₅, v0, v1, v2, v3, v4, hrem⟩ := subtract_eq hlimb (hred rep₃.settled)
  have hmod : h₄.value % (2 ^ 130 - 5) = h₃.value % (2 ^ 130 - 5) := by
    rw [hvalue, Int.add_mul_emod_self_left]
  rw [hmod, rep₃.value] at hrem
  have hmessage : Poly1305.blocks (Poly1305.aeadMessage (aad.getD []) (ct.getD [])) =
      (Poly1305.blocks (aad.getD [])).map Poly1305.fill ++
        ((Poly1305.blocks (ct.getD [])).map Poly1305.fill ++
          [lengthBlock (aad.getD []).length (ct.getD []).length]) := by
    have hlast := Poly1305.blocks_append [] hlen
    rw [List.append_nil] at hlast
    rw [Poly1305.aeadMessage, Poly1305.blocks_pad16, Poly1305.blocks_pad16, ← lengthBlock_eq,
      hlast]
    rfl
  have htag := finish_eq key32 v0 v1 v2 v3 v4 (hrem.trans (by norm_cast))
  refine (bind_of_eq e₁).trans ?_
  refine (bind_of_eq e₂).trans ?_
  refine (bind_of_eq e₃).trans ?_
  refine (bind_of_eq e₄).trans ?_
  refine (bind_of_eq e₅).trans ?_
  rw [htag, Poly1305.mac, hmessage, List.foldl_append, List.foldl_append, List.foldl_cons,
    List.foldl_nil, ← hn, Nat.mod_add_mod]

/-- **The tag is the standard's**, for every key and all data, and so it is where a limb that
overflows ends the computation: none does. -/
theorem computePoly1305_spec (key32 : Vector UInt8 32) (aad ct : Option (List UInt8)) :
    computePoly1305 wrap wrap key32 aad ct =
        some (Poly1305.mac key32 (Poly1305.aeadMessage (aad.getD []) (ct.getD []))) ∧
      computePoly1305 check wrap key32 aad ct =
        some (Poly1305.mac key32 (Poly1305.aeadMessage (aad.getD []) (ct.getD []))) :=
  ⟨computePoly1305_eq exact_wrap key32 aad ct, computePoly1305_eq exact_check key32 aad ct⟩

/-- A key whose first half is four, and the lower word of whose second half is the largest
signed one. -/
def fullKey : Vector UInt8 32 :=
  ⟨#[4, 0, 0, 0, 0, 0, 0, 0, 0, 0, 0, 0, 0, 0, 0, 0,
    255, 255, 255, 255, 255, 255, 255, 127, 0, 0, 0, 0, 0, 0, 0, 0], rfl⟩

/-- **The addition of the second half of the key overflows**: over no data the accumulator is
five, and five more than the largest signed word is none. -/
theorem addition_overflows : computePoly1305 check check fullKey none none = none := by
  have hnil : ∀ norm r h, absorbFrom norm r [] 0 h = some h := by
    intro norm r h
    rw [absorbFrom]
    rfl
  rw [computePoly1305]
  simp only [Option.getD_none, hnil]
  decide

end Authenticator

end Aegs
