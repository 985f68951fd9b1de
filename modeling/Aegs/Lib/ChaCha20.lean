import Mathlib.Data.Fin.VecNotation
import Mathlib.Data.Fintype.Prod
import Aegs.Lib.Bytes
import Aegs.Lib.CounterMode
import Aegs.Lib.InPlace
import Aegs.Lib.Poly1305

/-!
# ChaCha20 and its AEAD

The cipher in its own terms: a state of four rows of four words, a quarter round on four words,
a round that applies it to the four columns and one that applies it to the four diagonals, each
to all four at once. The key stream is what ten such pairs make of the state, plus the state
(`ChaCha20.block`), and data are combined with it in counter mode (`ChaCha20.cipher`).

A program keeps the sixteen words in one array and has its quarter rounds in place. Eight of
them are a pair of rounds, for which their order among the four of a round does not matter
(`ChaCha20.columnRound_eq`, `ChaCha20.diagonalRound_eq`).

What the AEAD opens is exactly what it seals (`ChaCha20.openSealed_eq_some_iff`).
-/

namespace ChaCha20

open Aegs.Bytes InPlace

/-! ### The rounds -/

local instance neZeroFour : NeZero 4 := ⟨by decide⟩

/-- A rotation to the left, by less than 32 bits. -/
def rotateLeft (x : UInt32) (k : UInt32) : UInt32 := (x <<< k) ||| (x >>> (32 - k))

/-- **The quarter round.** -/
def quarter (v : Fin 4 → UInt32) : Fin 4 → UInt32 :=
  let a := v 0 + v 1
  let d := rotateLeft (v 3 ^^^ a) 16
  let c := v 2 + d
  let b := rotateLeft (v 1 ^^^ c) 12
  let a := a + b
  let d := rotateLeft (d ^^^ a) 8
  let c := c + d
  let b := rotateLeft (b ^^^ c) 7
  ![a, b, c, d]

/-- Four rows of four words. -/
abbrev Words := Fin 4 × Fin 4 → UInt32

/-- A quarter round on each column. -/
def columnRound (x : Words) : Words := fun p => quarter (fun k => x (k, p.2)) p.1

/-- A quarter round on each diagonal. -/
def diagonalRound (x : Words) : Words := fun p => quarter (fun k => x (k, k + (p.2 - p.1))) p.1

/-- **Twenty rounds.** -/
def rounds (x : Words) : Words := (fun x => diagonalRound (columnRound x))^[10] x

/-! ### The rounds in an array -/

/-- The words in one array, row by row. -/
def word : Fin 4 × Fin 4 ≃ Fin 16 where
  toFun p := ⟨4 * p.1 + p.2, by omega⟩
  invFun i := (⟨i / 4, by omega⟩, ⟨i % 4, by omega⟩)
  left_inv := by
    intro p
    revert p
    decide
  right_inv := by
    intro i
    revert i
    decide

/-- A column, and a place in it. -/
def columns : Fin 4 × Fin 4 ≃ Fin 16 := (Equiv.prodComm _ _).trans word

/-- A diagonal, and a place in it. -/
def diagonals : Fin 4 × Fin 4 ≃ Fin 16 where
  toFun p := word (p.2, p.2 + p.1)
  invFun i := ((word.symm i).2 - (word.symm i).1, (word.symm i).1)
  left_inv := by
    intro p
    revert p
    decide
  right_inv := by
    intro i
    revert i
    decide

/-- **The quarter rounds of the columns**, one after another. -/
theorem columnRound_eq {order : List (Fin 4)} (hnodup : order.Nodup) (hall : ∀ j, j ∈ order)
    (x : Fin 16 → UInt32) :
    columnRound (x ∘ word) =
      (order.foldl (fun x j => applyAt (fun k => columns (j, k)) quarter x) x) ∘ word := by
  rw [foldl_eq_allAtOnce columns quarter hnodup hall]
  funext p
  have hp : columns.symm (word p) = (p.2, p.1) := by
    revert p
    decide
  rw [Function.comp_apply, allAtOnce, hp]
  rfl

/-- **The quarter rounds of the diagonals**, one after another. -/
theorem diagonalRound_eq {order : List (Fin 4)} (hnodup : order.Nodup) (hall : ∀ j, j ∈ order)
    (x : Fin 16 → UInt32) :
    diagonalRound (x ∘ word) =
      (order.foldl (fun x j => applyAt (fun k => diagonals (j, k)) quarter x) x) ∘ word := by
  rw [foldl_eq_allAtOnce diagonals quarter hnodup hall]
  funext p
  have hp : diagonals.symm (word p) = (p.2 - p.1, p.1) := by
    revert p
    decide
  rw [Function.comp_apply, allAtOnce, hp]
  rfl

/-! ### The key stream -/

/-- "expand 32-byte k". -/
def constants : Fin 4 → UInt32 := ![0x61707865, 0x3320646e, 0x79622d32, 0x6b206574]

/-- The word `i` of some bytes. -/
def wordOf {n : ℕ} (b : Vector UInt8 n) (i : ℕ) : UInt32 := ofLe32 (copyOut b.toList (4 * i) 4)

/-- The state at a counter: the constants, two rows of the key, the counter and the nonce. -/
def initial (key : Vector UInt8 32) (counter : UInt32) (nonce : Vector UInt8 12) : Words
  | (0, c) => constants c
  | (1, c) => wordOf key c
  | (2, c) => wordOf key (4 + c)
  | (3, 0) => counter
  | (3, c) => wordOf nonce (c - 1)

/-- **The block at a counter**: the byte `i`. -/
def block (key : Vector UInt8 32) (counter : UInt32) (nonce : Vector UInt8 12) (i : ℕ) : UInt8 :=
  let p := (Fin.ofNat 4 (i / 16), Fin.ofNat 4 (i / 4))
  let x := initial key counter nonce
  (le32 (rounds x p + x p)).toList.getD (i % 4) 0

/-- **The cipher**, from a counter on. -/
def cipher (key : Vector UInt8 32) (counter : UInt32) (nonce : Vector UInt8 12)
    (data : List UInt8) : List UInt8 :=
  CounterMode.stream (· ^^^ ·) 64 (fun j => block key (counter + UInt32.ofNat j) nonce) data

theorem cipher_cipher (key : Vector UInt8 32) (counter : UInt32) (nonce : Vector UInt8 12)
    (data : List UInt8) : cipher key counter nonce (cipher key counter nonce data) = data :=
  CounterMode.stream_stream (fun b k => by rw [UInt8.xor_assoc, UInt8.xor_self, UInt8.xor_zero])
    data

@[simp] theorem length_cipher (key : Vector UInt8 32) (counter : UInt32)
    (nonce : Vector UInt8 12) (data : List UInt8) :
    (cipher key counter nonce data).length = data.length :=
  CounterMode.length_stream data

/-- **The first block, and the rest** under the next counter. -/
theorem cipher_eq_block_append (key : Vector UInt8 32) (counter : UInt32)
    (nonce : Vector UInt8 12) (data : List UInt8) :
    cipher key counter nonce data =
      ((data.take 64).mapIdx fun i b => b ^^^ block key counter nonce i) ++
        cipher key (counter + 1) nonce (data.drop 64) := by
  have hcounter : ∀ j, counter + UInt32.ofNat (1 + j) = counter + 1 + UInt32.ofNat j := by
    intro j
    rw [UInt32.ofNat_add, UInt32.add_assoc]
    rfl
  have hzero : counter + UInt32.ofNat 0 = counter := UInt32.add_zero counter
  rw [cipher, CounterMode.stream_eq_block_append (by decide), hzero, cipher]
  simp only [hcounter]

/-! ### The AEAD -/

/-- The key of the authenticator: the first half of the block at zero. -/
def oneTimeKey (key : Vector UInt8 32) (nonce : Vector UInt8 12) : Vector UInt8 32 :=
  Vector.ofFn fun i => block key 0 nonce i

/-- The tag of a ciphertext. -/
def tag (key : Vector UInt8 32) (nonce : Vector UInt8 12) (aad ct : List UInt8) : List UInt8 :=
  Poly1305.mac (oneTimeKey key nonce) (Poly1305.aeadMessage aad ct)

/-- **Sealing**: the ciphertext and its tag. -/
def sealPlain (key : Vector UInt8 32) (nonce : Vector UInt8 12) (aad plain : List UInt8) :
    List UInt8 :=
  let ct := cipher key 1 nonce plain
  ct ++ tag key nonce aad ct

/-- **Opening**, where the tag is right. -/
def openSealed (key : Vector UInt8 32) (nonce : Vector UInt8 12) (aad data : List UInt8) :
    Option (List UInt8) :=
  let ct := data.take (data.length - 16)
  if 16 ≤ data.length ∧ data.drop (data.length - 16) = tag key nonce aad ct then
    some (cipher key 1 nonce ct)
  else none

@[simp] theorem length_tag (key : Vector UInt8 32) (nonce : Vector UInt8 12)
    (aad ct : List UInt8) : (tag key nonce aad ct).length = 16 := by
  simp [tag, Poly1305.mac, LittleEndian.leBytes]

@[simp] theorem length_sealPlain (key : Vector UInt8 32) (nonce : Vector UInt8 12)
    (aad plain : List UInt8) : (sealPlain key nonce aad plain).length = plain.length + 16 := by
  simp [sealPlain]

/-- **What is opened is what was sealed**, and nothing else. -/
theorem openSealed_eq_some_iff {key : Vector UInt8 32} {nonce : Vector UInt8 12}
    {aad data plain : List UInt8} :
    openSealed key nonce aad data = some plain ↔ data = sealPlain key nonce aad plain := by
  constructor
  · intro h
    rw [openSealed] at h
    split at h
    · rename_i htag
      obtain rfl := Option.some.inj h
      rw [sealPlain, cipher_cipher, ← htag.2, List.take_append_drop]
    · exact absurd h (by simp)
  · rintro rfl
    have hlen : (sealPlain key nonce aad plain).length - 16 =
        (cipher key 1 nonce plain).length := by
      rw [length_sealPlain, length_cipher, Nat.add_sub_cancel]
    rw [openSealed, hlen, sealPlain, List.take_left, List.drop_left, if_pos, cipher_cipher]
    exact ⟨by simp, rfl⟩

end ChaCha20
