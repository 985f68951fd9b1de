import Aegs.Lib.LittleEndian
import Mathlib.Data.Vector.Defs

/-!
# Poly1305

The authenticator in the integers: a message is cut into blocks of 16 bytes, each block with
a one behind it is a number, and the tag is a polynomial with these coefficients at the
clamped first half of the key, modulo `2 ^ 130 - 5`, plus the second half, modulo
`2 ^ 128`.

`Poly1305.aeadMessage` is what an AEAD authenticates. Its padding makes whole blocks, so that
the blocks of the message are those of its parts (`Poly1305.blocks_pad16`).
-/

namespace Poly1305

open LittleEndian

/-- The prime. -/
def p : ℕ := 2 ^ 130 - 5

/-- The bits of the first half of the key that are used. -/
def clamp (r : ℕ) : ℕ := r &&& 0x0ffffffc0ffffffc0ffffffc0fffffff

/-- The blocks, of which there are at most `fuel`. -/
def blocksAux : ℕ → List UInt8 → List (List UInt8)
  | _, [] => []
  | 0, _ :: _ => []
  | fuel + 1, b :: bs => (b :: bs).take 16 :: blocksAux fuel ((b :: bs).drop 16)

/-- **The blocks of a message**: 16 bytes each, the last one maybe fewer. -/
def blocks (msg : List UInt8) : List (List UInt8) := blocksAux msg.length msg

/-- A block comes into the accumulator. -/
def absorb (r acc : ℕ) (block : List UInt8) : ℕ := (acc + leNum (block ++ [1])) * r % p

/-- **The tag of a message.** -/
def mac (key : Vector UInt8 32) (msg : List UInt8) : List UInt8 :=
  let r := clamp (leNum (key.toList.take 16))
  let s := leNum (key.toList.drop 16)
  leBytes 16 (((blocks msg).foldl (absorb r) 0 + s) % 2 ^ 128)

/-- What makes whole blocks of some bytes. -/
def pad16 (data : List UInt8) : List UInt8 := List.replicate ((16 - data.length % 16) % 16) 0

/-- **What an AEAD authenticates**: the associated data, the ciphertext and their lengths. -/
def aeadMessage (aad ct : List UInt8) : List UInt8 :=
  (aad ++ pad16 aad) ++ ((ct ++ pad16 ct) ++ (leBytes 8 aad.length ++ leBytes 8 ct.length))

/-- A block filled up with zeros. -/
def fill (block : List UInt8) : List UInt8 := block ++ List.replicate (16 - block.length) 0

/-! ### Blocks -/

@[simp] theorem blocks_nil : blocks [] = [] := rfl

/-- More fuel than bytes changes nothing. -/
theorem blocksAux_eq {n : ℕ} {msg : List UInt8} (h : msg.length ≤ n) :
    blocksAux n msg = blocks msg := by
  induction n using Nat.strong_induction_on generalizing msg with
  | h n ih =>
    cases msg with
    | nil =>
      cases n <;> rfl
    | cons b bs =>
      obtain ⟨n, rfl⟩ : ∃ m, n = m + 1 := ⟨n - 1, by simp at h; omega⟩
      rw [List.length_cons] at h
      have hdrop : ((b :: bs).drop 16).length ≤ bs.length := by
        rw [List.length_drop, List.length_cons]
        omega
      have hleft : blocksAux n ((b :: bs).drop 16) = blocks ((b :: bs).drop 16) :=
        ih n (by omega) (by omega)
      have hright : blocksAux bs.length ((b :: bs).drop 16) = blocks ((b :: bs).drop 16) :=
        ih bs.length (by omega) hdrop
      rw [blocks, List.length_cons, blocksAux, blocksAux, hleft, hright]

/-- The first block, and the blocks of the rest. -/
theorem blocks_of_ne_nil {msg : List UInt8} (h : msg ≠ []) :
    blocks msg = msg.take 16 :: blocks (msg.drop 16) := by
  obtain ⟨b, bs, rfl⟩ := List.exists_cons_of_ne_nil h
  have hdrop : ((b :: bs).drop 16).length ≤ bs.length := by
    rw [List.length_drop, List.length_cons]
    omega
  rw [blocks, List.length_cons, blocksAux, blocksAux_eq hdrop]

/-- A block in front. -/
theorem blocks_append {a : List UInt8} (b : List UInt8) (h : a.length = 16) :
    blocks (a ++ b) = a :: blocks b := by
  have hne : a ++ b ≠ [] := by
    intro hnil
    have := congrArg List.length hnil
    rw [List.length_append, h] at this
    simp at this
  rw [blocks_of_ne_nil hne, List.take_left' h, List.drop_left' h]

/-- **Padded data are whole blocks**: those of the data, filled up. -/
theorem blocks_pad16 (data rest : List UInt8) :
    blocks ((data ++ pad16 data) ++ rest) = (blocks data).map fill ++ blocks rest := by
  induction hn : data.length using Nat.strong_induction_on generalizing data with
  | h n ih =>
    by_cases hnil : data = []
    · subst hnil
      rfl
    by_cases hle : data.length ≤ 16
    · have hpos : 0 < data.length := List.length_pos_iff.mpr hnil
      have hpad : data ++ pad16 data = fill data := by
        rw [pad16, fill]
        congr 2
        omega
      have htake : data.take 16 = data := List.take_of_length_le hle
      have hdrop : data.drop 16 = [] := List.drop_eq_nil_of_le hle
      have hlen : (fill data).length = 16 := by
        rw [fill, List.length_append, List.length_replicate]
        omega
      rw [hpad, blocks_append rest hlen, blocks_of_ne_nil hnil, htake, hdrop]
      rfl
    · have hlen : (data.take 16).length = 16 := by
        rw [List.length_take]
        omega
      have hpad : pad16 data = pad16 (data.drop 16) := by
        rw [pad16, pad16, List.length_drop]
        congr 2
        omega
      have hsplit : (data ++ pad16 data) ++ rest =
          data.take 16 ++ ((data.drop 16 ++ pad16 (data.drop 16)) ++ rest) := by
        rw [← hpad, ← List.append_assoc, ← List.append_assoc, List.take_append_drop]
      have hfill : fill (data.take 16) = data.take 16 := by
        rw [fill, hlen]
        exact List.append_nil _
      rw [hsplit, blocks_append _ hlen, ih (data.drop 16).length (by rw [List.length_drop]; omega)
        (data.drop 16) rfl, blocks_of_ne_nil hnil, List.map_cons, hfill]
      rfl

end Poly1305
