import Mathlib.Tactic.FinCases
import Aegs.Lib.ChaCha20
import Aegs.Wire.Authenticator
import Aegs.Wire.Demux
import Aegs.Wire.RoundTrip
import Aegs.Wire.Windows

/-!
# ChaCha20 of the Android and the Windows client

The Android client has the cipher and the AEAD in Java, for the runtimes that have none, and
masks its headers with it; the Windows client has one block of the key stream in C#. Both keep
the state in an array and have eight quarter rounds in place.
-/

namespace Aegs

open Bytes ChaCha20

namespace Wire

/-- `quarterRound`, and `QuarterRound` of the Windows client. -/
def quarterRound (x : Vector UInt32 16) (a b c d : Fin 16) : Vector UInt32 16 :=
  let x := x.set a (x.get a + x.get b) a.isLt
  let x := x.set d (rotateLeft (x.get d ^^^ x.get a) 16) d.isLt
  let x := x.set c (x.get c + x.get d) c.isLt
  let x := x.set b (rotateLeft (x.get b ^^^ x.get c) 12) b.isLt
  let x := x.set a (x.get a + x.get b) a.isLt
  let x := x.set d (rotateLeft (x.get d ^^^ x.get a) 8) d.isLt
  let x := x.set c (x.get c + x.get d) c.isLt
  x.set b (rotateLeft (x.get b ^^^ x.get c) 7) b.isLt

local instance neZeroSixteen : NeZero 16 := ⟨by decide⟩

/-- The body of the loop over the rounds, in both clients. -/
def doubleRound (x : Vector UInt32 16) : Vector UInt32 16 :=
  let x := quarterRound x 0 4 8 12
  let x := quarterRound x 1 5 9 13
  let x := quarterRound x 2 6 10 14
  let x := quarterRound x 3 7 11 15
  let x := quarterRound x 0 5 10 15
  let x := quarterRound x 1 6 11 12
  let x := quarterRound x 2 7 8 13
  quarterRound x 3 4 9 14

theorem get_set (x : Vector UInt32 16) (a i : Fin 16) (v : UInt32) :
    (x.set a v a.isLt).get i = if a = i then v else x.get i := by
  have hget : ∀ (y : Vector UInt32 16) (j : Fin 16), y.get j = y[j.val] := fun _ _ => rfl
  rw [hget, Vector.getElem_set, hget]
  simp only [Fin.ext_iff]

/-- **A quarter round in place.** -/
theorem get_quarterRound (x : Vector UInt32 16) {q : Fin 4 → Fin 16}
    (hq : Function.Injective q) :
    (quarterRound x (q 0) (q 1) (q 2) (q 3)).get = InPlace.applyAt q quarter x.get := by
  have hne : ∀ {k k' : Fin 4}, k ≠ k' → q k ≠ q k' := fun h => hq.ne h
  have h01 := hne (show (0 : Fin 4) ≠ 1 by decide)
  have h02 := hne (show (0 : Fin 4) ≠ 2 by decide)
  have h03 := hne (show (0 : Fin 4) ≠ 3 by decide)
  have h12 := hne (show (1 : Fin 4) ≠ 2 by decide)
  have h13 := hne (show (1 : Fin 4) ≠ 3 by decide)
  have h23 := hne (show (2 : Fin 4) ≠ 3 by decide)
  funext i
  by_cases hi : ∃ k, q k = i
  · obtain ⟨k, rfl⟩ := hi
    rw [InPlace.applyAt_apply hq]
    fin_cases k <;>
      simp [quarterRound, quarter, get_set, h01, h02, h03, h12, h13, h23, h01.symm, h02.symm,
        h03.symm, h12.symm, h13.symm, h23.symm]
  · have hi : ∀ k, q k ≠ i := fun k hk => hi ⟨k, hk⟩
    rw [InPlace.applyAt_of_forall_ne _ _ hi]
    simp [quarterRound, get_set, hi]

/-- **Two rounds**: the columns and then the diagonals. -/
theorem get_doubleRound (x : Vector UInt32 16) :
    (doubleRound x).get ∘ word = diagonalRound (columnRound (x.get ∘ word)) := by
  have hcolumn : ∀ j, Function.Injective fun k => columns (j, k) := fun j k k' h =>
    (Prod.mk.inj (columns.injective h)).2
  have hdiagonal : ∀ j, Function.Injective fun k => diagonals (j, k) := fun j k k' h =>
    (Prod.mk.inj (diagonals.injective h)).2
  have hnodup : [0, 1, 2, (3 : Fin 4)].Nodup := by decide
  have hall : ∀ j : Fin 4, j ∈ [0, 1, 2, (3 : Fin 4)] := by decide
  rw [columnRound_eq hnodup hall, diagonalRound_eq hnodup hall]
  simp only [List.foldl_cons, List.foldl_nil]
  rw [← get_quarterRound x (hcolumn 0), ← get_quarterRound _ (hcolumn 1),
    ← get_quarterRound _ (hcolumn 2), ← get_quarterRound _ (hcolumn 3),
    ← get_quarterRound _ (hdiagonal 0), ← get_quarterRound _ (hdiagonal 1),
    ← get_quarterRound _ (hdiagonal 2), ← get_quarterRound _ (hdiagonal 3)]
  rfl

/-- The loop over the rounds. -/
theorem get_iterate_doubleRound (x : Vector UInt32 16) :
    (doubleRound^[10] x).get ∘ word = rounds (x.get ∘ word) := by
  have hconj : Function.Semiconj (fun y : Vector UInt32 16 => y.get ∘ word) doubleRound
      fun x => diagonalRound (columnRound x) := get_doubleRound
  exact hconj.iterate_right 10 x

/-! ### The Java code -/

namespace AegsProtocol

/-- `getLittleEndianInt`. -/
def getLittleEndianInt {n : ℕ} (b : Vector UInt8 n) (offset : ℕ) : UInt32 :=
  ofLe32 (copyOut b.toList offset 4)

/-- `chacha20Init`. -/
def chacha20Init (key : Vector UInt8 32) (counter : UInt32) (nonce12 : Vector UInt8 12) :
    Vector UInt32 16 :=
  #v[0x61707865, 0x3320646e, 0x79622d32, 0x6b206574,
    getLittleEndianInt key 0, getLittleEndianInt key 4, getLittleEndianInt key 8,
    getLittleEndianInt key 12, getLittleEndianInt key 16, getLittleEndianInt key 20,
    getLittleEndianInt key 24, getLittleEndianInt key 28,
    counter, getLittleEndianInt nonce12 0, getLittleEndianInt nonce12 4,
    getLittleEndianInt nonce12 8]

/-- `chacha20Block`. -/
def chacha20Block (state : Vector UInt32 16) : List UInt8 :=
  let x := doubleRound^[10] state
  (List.finRange 16).flatMap fun i => (le32 (x.get i + state.get i)).toList

/-- The loop of `chacha20Stream`, at an offset; `out` is what is written so far. -/
def chacha20Loop (key : Vector UInt8 32) (nonce12 : Vector UInt8 12) (input : List UInt8)
    (inOffset len : ℕ) (counter : UInt32) (offset : ℕ) (out : List UInt8) : List UInt8 :=
  if offset < len then
    let block := chacha20Block (chacha20Init key counter nonce12)
    let toXor := min 64 (len - offset)
    let bytes := (List.range toXor).map fun i =>
      input.getD (inOffset + offset + i) 0 ^^^ block.getD i 0
    chacha20Loop key nonce12 input inOffset len (counter + 1) (offset + toXor) (out ++ bytes)
  else
    out
termination_by len - offset

/-- `chacha20Stream`. -/
def chacha20Stream (key : Vector UInt8 32) (initialCounter : UInt32) (nonce12 : Vector UInt8 12)
    (input : List UInt8) (inOffset len : ℕ) : List UInt8 :=
  chacha20Loop key nonce12 input inOffset len initialCounter 0 []

/-- `maskUnmaskHeader`. -/
def maskUnmaskHeader (header16 : Vector UInt8 16) (maskKey : Vector UInt8 32)
    (iv12 : Vector UInt8 12) : Vector UInt8 16 :=
  let keyStream := chacha20Block (chacha20Init maskKey 0 iv12)
  Vector.ofFn fun i => header16.get i ^^^ keyStream.getD i 0

/-- `polyKey`. -/
def polyKey (key : Vector UInt8 32) (nonce12 : Vector UInt8 12) : Vector UInt8 32 :=
  copyOut (chacha20Block (chacha20Init key 0 nonce12)) 0 32

/-- `pureJavaChaCha20Poly1305Encrypt`; `aad` may be `null`. -/
def pureJavaChaCha20Poly1305Encrypt (key : Vector UInt8 32) (nonce12 : Vector UInt8 12)
    (pt : List UInt8) (aad : Option (List UInt8)) : Option (List UInt8) := do
  let ct := chacha20Stream key 1 nonce12 pt 0 pt.length
  let tag ← Authenticator.computePoly1305 Long.wrap Long.wrap (polyKey key nonce12) aad (some ct)
  some (ct ++ tag)

/-- `pureJavaChaCha20Poly1305Decrypt`, which throws where this is `none`. -/
def pureJavaChaCha20Poly1305Decrypt (key : Vector UInt8 32) (nonce12 : Vector UInt8 12)
    (ctWithTag : List UInt8) (aad : Option (List UInt8)) : Option (List UInt8) :=
  if ctWithTag.length < 16 then none
  else do
    let ctLen := ctWithTag.length - 16
    let ct := ctWithTag.take ctLen
    let tag := ctWithTag.drop ctLen
    let expectedTag ←
      Authenticator.computePoly1305 Long.wrap Long.wrap (polyKey key nonce12) aad (some ct)
    if tag ≠ expectedTag then none
    else some (chacha20Stream key 1 nonce12 ct 0 ctLen)

end AegsProtocol

/-! ### It is ChaCha20 -/

/-- A place in lists of one length, one behind the other. -/
theorem getElem?_flatMap_of_length {β γ : Type} {f : β → List γ} {m : ℕ} (hm : 0 < m)
    (hf : ∀ b, (f b).length = m) (l : List β) (i : ℕ) :
    (l.flatMap f)[i]? = l[i / m]?.bind fun b => (f b)[i % m]? := by
  induction l generalizing i with
  | nil => rfl
  | cons b l ih =>
    rw [List.flatMap_cons]
    rcases lt_or_ge i m with hi | hi
    · rw [List.getElem?_append_left (by rwa [hf]), Nat.div_eq_of_lt hi, Nat.mod_eq_of_lt hi]
      rfl
    · obtain ⟨j, rfl⟩ := Nat.exists_eq_add_of_le hi
      rw [List.getElem?_append_right (by rwa [hf]), hf, Nat.add_sub_cancel_left, ih,
        Nat.add_div_left j hm, Nat.add_mod_left]
      rfl

namespace AegsProtocol

/-- **The state** that a block starts from. -/
theorem get_chacha20Init (key : Vector UInt8 32) (counter : UInt32) (nonce12 : Vector UInt8 12) :
    (chacha20Init key counter nonce12).get ∘ word = initial key counter nonce12 := by
  funext p
  obtain ⟨r, c⟩ := p
  fin_cases r <;> fin_cases c <;> rfl

/-- **The block.** -/
theorem getD_chacha20Block (key : Vector UInt8 32) (counter : UInt32)
    (nonce12 : Vector UInt8 12) {i : ℕ} (hi : i < 64) :
    (chacha20Block (chacha20Init key counter nonce12)).getD i 0 = block key counter nonce12 i := by
  have hplace : (List.finRange 16)[i / 4]? =
      some (word (Fin.ofNat 4 (i / 16), Fin.ofNat 4 (i / 4))) := by
    rw [List.getElem?_eq_getElem (by rw [List.length_finRange]; omega), List.getElem_finRange]
    congr 1
    apply Fin.ext
    simp only [word, Fin.ofNat, Equiv.coe_fn_mk, Fin.val_cast]
    omega
  have hcore := congrFun (get_iterate_doubleRound (chacha20Init key counter nonce12))
    (Fin.ofNat 4 (i / 16), Fin.ofNat 4 (i / 4))
  have hinit := congrFun (get_chacha20Init key counter nonce12)
    (Fin.ofNat 4 (i / 16), Fin.ofNat 4 (i / 4))
  rw [get_chacha20Init] at hcore
  simp only [Function.comp_apply] at hcore hinit
  rw [List.getD_eq_getElem?_getD, chacha20Block,
    getElem?_flatMap_of_length (by decide) (fun b => Vector.length_toList), hplace,
    Option.bind_some, hcore, hinit, block, List.getD_eq_getElem?_getD]

/-- A block of the key stream on some data, as the loop writes it. -/
theorem map_range_xor (input : List UInt8) (block : ℕ → UInt8) (n : ℕ) (hn : n ≤ input.length) :
    ((List.range n).map fun i => input.getD i 0 ^^^ block i) =
      (input.take n).mapIdx fun i b => b ^^^ block i := by
  refine List.ext_getElem? fun i => ?_
  rw [List.getElem?_map, List.getElem?_mapIdx, List.getElem?_take]
  rcases lt_or_ge i n with hi | hi
  · rw [List.getElem?_range hi, if_pos hi, List.getElem?_eq_getElem (by omega), Option.map_some,
      Option.map_some, List.getD_eq_getElem?_getD, List.getElem?_eq_getElem (by omega)]
    rfl
  · rw [if_neg (by omega), List.getElem?_eq_none (by rw [List.length_range]; omega)]
    rfl

/-- **The loop**, from any offset: the rest of the data under the rest of the key stream. -/
theorem chacha20Loop_eq (key : Vector UInt8 32) (nonce12 : Vector UInt8 12) (input : List UInt8)
    {inOffset len : ℕ} (hlen : inOffset + len ≤ input.length) (counter : UInt32) {offset : ℕ}
    (hoffset : offset ≤ len) (out : List UInt8) :
    chacha20Loop key nonce12 input inOffset len counter offset out =
      out ++ cipher key counter nonce12 (((input.drop inOffset).take len).drop offset) := by
  induction hn : len - offset using Nat.strong_induction_on generalizing counter offset out with
  | h n ih =>
    set data := (input.drop inOffset).take len with hdata
    have hlength : data.length = len := by
      rw [hdata, List.length_take, List.length_drop]
      omega
    rw [chacha20Loop]
    split
    · rename_i hlt
      -- the data of this block, and what the key stream makes of them
      have hbytes : ((List.range (min 64 (len - offset))).map fun i =>
          input.getD (inOffset + offset + i) 0 ^^^
            (chacha20Block (chacha20Init key counter nonce12)).getD i 0) =
          ((data.drop offset).take 64).mapIdx fun i b => b ^^^ block key counter nonce12 i := by
        have hget : ∀ i < min 64 (len - offset),
            input.getD (inOffset + offset + i) 0 ^^^
              (chacha20Block (chacha20Init key counter nonce12)).getD i 0 =
            (data.drop offset).getD i 0 ^^^ block key counter nonce12 i := by
          intro i hi
          rw [getD_chacha20Block _ _ _ (by omega), List.getD_eq_getElem?_getD,
            List.getD_eq_getElem?_getD, List.getElem?_drop, hdata, List.getElem?_take,
            if_pos (by omega), List.getElem?_drop, Nat.add_assoc]
        rw [List.map_congr_left fun i hi => hget i (List.mem_range.mp hi),
          map_range_xor _ _ _ (by rw [List.length_drop]; omega)]
        congr 1
        rcases le_total 64 (len - offset) with hle | hle
        · rw [min_eq_left hle]
        · rw [min_eq_right hle, List.take_of_length_le (by rw [List.length_drop]; omega),
            List.take_of_length_le (by rw [List.length_drop]; omega)]
      have hrest : data.drop (offset + min 64 (len - offset)) = (data.drop offset).drop 64 := by
        rw [List.drop_drop]
        rcases le_total 64 (len - offset) with hle | hle
        · rw [min_eq_left hle]
        · rw [min_eq_right hle, List.drop_eq_nil_of_le (by omega),
            List.drop_eq_nil_of_le (by omega)]
      rw [ih (len - (offset + min 64 (len - offset))) (by omega) _ (by omega) _ rfl, hbytes, hrest,
        List.append_assoc, ← cipher_eq_block_append]
    · rw [List.drop_eq_nil_of_le (by omega)]
      exact (List.append_nil _).symm

/-- **`chacha20Stream`** is the cipher, on the part of the input it is given. -/
theorem chacha20Stream_eq (key : Vector UInt8 32) (initialCounter : UInt32)
    (nonce12 : Vector UInt8 12) (input : List UInt8) {inOffset len : ℕ}
    (hlen : inOffset + len ≤ input.length) :
    chacha20Stream key initialCounter nonce12 input inOffset len =
      cipher key initialCounter nonce12 ((input.drop inOffset).take len) := by
  rw [chacha20Stream, chacha20Loop_eq key nonce12 input hlen initialCounter (Nat.zero_le _) [],
    List.nil_append, List.drop_zero]

/-! ### The AEAD is the standard's -/

theorem polyKey_eq (key : Vector UInt8 32) (nonce12 : Vector UInt8 12) :
    polyKey key nonce12 = oneTimeKey key nonce12 := by
  refine Vector.ext fun i hi => ?_
  rw [polyKey, copyOut, Vector.getElem_ofFn, getD_chacha20Block _ _ _ (by omega), oneTimeKey,
    Vector.getElem_ofFn, Nat.zero_add]

/-- The whole input under the key stream from the counter one on. -/
theorem chacha20Stream_all (key : Vector UInt8 32) (nonce12 : Vector UInt8 12)
    (input : List UInt8) :
    chacha20Stream key 1 nonce12 input 0 input.length = cipher key 1 nonce12 input := by
  rw [chacha20Stream_eq _ _ _ _ (Nat.zero_add _).le, List.drop_zero, List.take_length]

/-- **Encryption in Java** is what the standard seals. -/
theorem pureJavaEncrypt_eq (key : Vector UInt8 32) (nonce12 : Vector UInt8 12)
    (pt : List UInt8) (aad : Option (List UInt8)) :
    pureJavaChaCha20Poly1305Encrypt key nonce12 pt aad =
      some (sealPlain key nonce12 (aad.getD []) pt) := by
  rw [pureJavaChaCha20Poly1305Encrypt, polyKey_eq, chacha20Stream_all,
    Authenticator.computePoly1305_eq Long.exact_wrap]
  rfl

/-- **Decryption in Java** is what the standard opens. -/
theorem pureJavaDecrypt_eq (key : Vector UInt8 32) (nonce12 : Vector UInt8 12)
    (ctWithTag : List UInt8) (aad : Option (List UInt8)) :
    pureJavaChaCha20Poly1305Decrypt key nonce12 ctWithTag aad =
      openSealed key nonce12 (aad.getD []) ctWithTag := by
  have hlen : (ctWithTag.take (ctWithTag.length - 16)).length = ctWithTag.length - 16 := by
    rw [List.length_take]
    omega
  have hstream := chacha20Stream_all key nonce12 (ctWithTag.take (ctWithTag.length - 16))
  rw [hlen] at hstream
  rw [pureJavaChaCha20Poly1305Decrypt, openSealed]
  split
  · rename_i hshort
    rw [if_neg (by omega)]
  · rename_i hlong
    simp only [polyKey_eq, Authenticator.computePoly1305_eq Long.exact_wrap, hstream,
      Option.bind_eq_bind, Option.bind_some, Option.getD_some, ne_eq, ite_not]
    refine if_congr ?_ rfl rfl
    exact (and_iff_right (Nat.le_of_not_lt hlong)).symm

/-! ### With and without a provider -/

/-- What the runtime may bring: a call that throws, or is not there at all, is `none`. -/
structure Platform where
  /-- `Cipher.doFinal` in `ENCRYPT_MODE`, of a key, a nonce, the associated data and the
  plaintext. -/
  encrypt : Vector UInt8 32 → Vector UInt8 12 → List UInt8 → List UInt8 → Option (List UInt8)
  /-- `Cipher.doFinal` in `DECRYPT_MODE`. -/
  decrypt : Vector UInt8 32 → Vector UInt8 12 → List UInt8 → List UInt8 → Option (List UInt8)

/-- What `ChaCha20-Poly1305/None/NoPadding` is documented to be, where it does not throw. -/
structure Platform.Sound (P : Platform) : Prop where
  encrypt : ∀ {key nonce aad plain sealed},
    P.encrypt key nonce aad plain = some sealed → sealed = sealPlain key nonce aad plain
  decrypt : ∀ {key nonce aad sealed plain},
    P.decrypt key nonce aad sealed = some plain → sealed = sealPlain key nonce aad plain

/-- `encryptAead`: what the runtime gives, or else what Java computes. -/
def encryptAead (P : Platform) (key : Vector UInt8 32) (nonce12 : Vector UInt8 12)
    (plaintext : List UInt8) (aad : Option (List UInt8)) : Option (List UInt8) :=
  match P.encrypt key nonce12 (aad.getD []) plaintext with
  | some sealed => some sealed
  | none => pureJavaChaCha20Poly1305Encrypt key nonce12 plaintext aad

/-- `decryptAead`. -/
def decryptAead (P : Platform) (key : Vector UInt8 32) (nonce12 : Vector UInt8 12)
    (ciphertextWithTag : List UInt8) (aad : Option (List UInt8)) : Option (List UInt8) :=
  match P.decrypt key nonce12 (aad.getD []) ciphertextWithTag with
  | some plain => some plain
  | none => pureJavaChaCha20Poly1305Decrypt key nonce12 ciphertextWithTag aad

/-- Sealing, whichever computes it. -/
theorem encryptAead_eq {P : Platform} (hP : P.Sound) (key : Vector UInt8 32)
    (nonce12 : Vector UInt8 12) (plain : List UInt8) (aad : Option (List UInt8)) :
    encryptAead P key nonce12 plain aad = some (sealPlain key nonce12 (aad.getD []) plain) := by
  rw [encryptAead]
  cases h : P.encrypt key nonce12 (aad.getD []) plain with
  | none => exact pureJavaEncrypt_eq key nonce12 plain aad
  | some sealed => exact congrArg some (hP.encrypt h)

/-- Opening, whichever computes it. -/
theorem decryptAead_eq {P : Platform} (hP : P.Sound) (key : Vector UInt8 32)
    (nonce12 : Vector UInt8 12) (sealed : List UInt8) (aad : Option (List UInt8)) :
    decryptAead P key nonce12 sealed aad = openSealed key nonce12 (aad.getD []) sealed := by
  rw [decryptAead]
  cases h : P.decrypt key nonce12 (aad.getD []) sealed with
  | none => exact pureJavaDecrypt_eq key nonce12 sealed aad
  | some plain => exact (openSealed_eq_some_iff.mpr (hP.decrypt h)).symm

/-- **The fallback is not noticed**: whatever the runtime brings, data are sealed as the
standard seals them, and opened exactly if they are. -/
theorem aead_eq {P : Platform} (hP : P.Sound) (key : Vector UInt8 32)
    (nonce12 : Vector UInt8 12) (aad : Option (List UInt8)) :
    (∀ plain, encryptAead P key nonce12 plain aad =
      some (sealPlain key nonce12 (aad.getD []) plain)) ∧
    ∀ sealed, decryptAead P key nonce12 sealed aad =
      openSealed key nonce12 (aad.getD []) sealed :=
  ⟨fun plain => encryptAead_eq hP key nonce12 plain aad,
    fun sealed => decryptAead_eq hP key nonce12 sealed aad⟩

/-- A runtime without the cipher. -/
def Platform.bare : Platform := ⟨fun _ _ _ _ => none, fun _ _ _ _ => none⟩

theorem Platform.sound_bare : Platform.bare.Sound := by
  constructor
  · intro _ _ _ _ _ h
    cases h
  · intro _ _ _ _ _ h
    cases h

theorem aead_eq_bare :
    encryptAead .bare (Vector.replicate 32 1) (Vector.replicate 12 2) [3, 4, 5] none =
      some (sealPlain (Vector.replicate 32 1) (Vector.replicate 12 2) [] [3, 4, 5]) :=
  (aead_eq Platform.sound_bare (Vector.replicate 32 1) (Vector.replicate 12 2) none).1 [3, 4, 5]

end AegsProtocol

/-- **The ciphers of the standard**, which the servers have from a library. -/
def rfc8439 : DataCipher where
  keystream key iv := Vector.ofFn fun i => block key 0 iv i
  encrypt := sealPlain
  decrypt := openSealed

theorem correct_rfc8439 : rfc8439.Correct where
  decrypt_encrypt _ _ _ _ := openSealed_eq_some_iff.mpr rfl
  length_encrypt := length_sealPlain

namespace AegsProtocol

/-- The ciphers of the Android client. -/
def javaCipher (P : Platform) : DataCipher where
  keystream maskKey iv12 := copyOut (chacha20Block (chacha20Init maskKey 0 iv12)) 0 16
  encrypt key nonce12 aad plain := (encryptAead P key nonce12 plain (some aad)).getD []
  decrypt key nonce12 aad sealed := decryptAead P key nonce12 sealed (some aad)

/-- **They are the standard's.** -/
theorem javaCipher_eq {P : Platform} (hP : P.Sound) : javaCipher P = rfc8439 := by
  have hstream : (javaCipher P).keystream = rfc8439.keystream := by
    funext maskKey iv12
    refine Vector.ext fun i hi => ?_
    simp only [javaCipher, rfc8439, copyOut, Vector.getElem_ofFn, Nat.zero_add]
    exact getD_chacha20Block maskKey 0 iv12 (show i < 64 by omega)
  have hencrypt : (javaCipher P).encrypt = rfc8439.encrypt := by
    funext key nonce12 aad plain
    simp only [javaCipher, rfc8439, encryptAead_eq hP key nonce12 plain (some aad),
      Option.getD_some]
  have hdecrypt : (javaCipher P).decrypt = rfc8439.decrypt := by
    funext key nonce12 aad sealed
    simp only [javaCipher, rfc8439, decryptAead_eq hP key nonce12 sealed (some aad),
      Option.getD_some]
  calc javaCipher P
    _ = ⟨(javaCipher P).keystream, (javaCipher P).encrypt, (javaCipher P).decrypt⟩ := rfl
    _ = ⟨rfc8439.keystream, rfc8439.encrypt, rfc8439.decrypt⟩ := by
      rw [hstream, hencrypt, hdecrypt]
    _ = rfc8439 := rfl

/-- The header, masked. -/
theorem maskUnmaskHeader_eq (header16 : Vector UInt8 16) (maskKey : Vector UInt8 32)
    (iv12 : Vector UInt8 12) :
    maskUnmaskHeader header16 maskKey iv12 =
      Wire.maskUnmaskHeader rfc8439 header16 maskKey iv12 := by
  refine Vector.ext fun i hi => ?_
  rw [maskUnmaskHeader, Vector.getElem_ofFn, Wire.maskUnmaskHeader, Vector.getElem_zipWith,
    rfc8439, Vector.getElem_ofFn, getD_chacha20Block maskKey 0 iv12 (show i < 64 by omega)]
  rfl

/-- **The Android client and the server understand each other**, with whatever the runtime of
the client brings: what the one seals the other opens, in both directions. -/
theorem interoperates {P : Platform} (hP : P.Sound) {payload : List UInt8}
    (hpos : 0 < payload.length) (hlen : payload.length < 65536) :
    (∀ (s : Server.Session) keyId txSeq d, s.identity.Serves keyId →
      s.decode rfc8439 (buildDataPacket (javaCipher P) payload (le64 keyId) s.crypto.maskKey
        s.crypto.sessionKeys.recvKey txSeq false d) = some payload) ∧
    ∀ (s : Server.Session) seq d altMaskKey,
      unwrap (s.encode rfc8439 seq payload d) = none →
      parseDataPacket (javaCipher P) (s.encode rfc8439 seq payload d)
        (le64 s.identity.keyIdRaw) s.txMaskKey altMaskKey s.crypto.sessionKeys.sendKey =
          some payload := by
  rw [javaCipher_eq hP]
  refine ⟨fun s keyId txSeq d hserves => ?_, fun s seq d altMaskKey hunwrap => ?_⟩
  · rw [buildDataPacket_eq rfc8439 hlen]
    have hjunk : (d.junk d.junkLen).toList.length < 65536 := by
      rw [Vector.length_toList]
      omega
    exact s.decode_sealPacket rfc8439 correct_rfc8439 hserves hjunk _ hpos hlen _
  · rw [parseDataPacket, hunwrap, Option.getD_none]
    exact parseUnwrapped_sealPacket rfc8439 correct_rfc8439 _ _ _ _ d.junkBytes_lt _ hpos hlen _

theorem interoperates_small :
    smallSession.decode rfc8439 (buildDataPacket (javaCipher .bare) smallPayload (le64 5)
        (Vector.replicate 32 1) (Vector.replicate 32 3) 1 false
        ⟨0, 50, 0, fun n => Vector.replicate n 7, 3, Vector.replicate 12 4,
          fun n => Vector.replicate n 6, Vector.replicate 4 9⟩) = some smallPayload ∧
      parseDataPacket (javaCipher .bare)
        (smallSession.encode rfc8439 1 smallPayload (smallDraws (Vector.replicate 12 4)))
        (le64 5) smallSession.txMaskKey none (Vector.replicate 32 2) =
          some smallPayload := by
  have hleads := leads_encodePacket rfc8439 smallSession.identity.keyIdRaw
    smallSession.txMaskKey smallSession.crypto.sessionKeys.sendKey 1 smallPayload
    (Server.serverPadLen (smallDraws (Vector.replicate 12 4)) smallPayload.length)
    (smallDraws (Vector.replicate 12 4))
  have hlong := length_encodePacket rfc8439 correct_rfc8439 smallSession.identity.keyIdRaw
    smallSession.txMaskKey smallSession.crypto.sessionKeys.sendKey 1 smallPayload
    (Server.serverPadLen (smallDraws (Vector.replicate 12 4)) smallPayload.length)
    (smallDraws (Vector.replicate 12 4))
  -- the first byte of the IV is 4, which begins no camouflage
  have hunwrap : AndroidTakesData
      (smallSession.encode rfc8439 1 smallPayload (smallDraws (Vector.replicate 12 4))) := by
    refine (androidTakesData_iff hleads (by omega)).mpr ⟨?_, ?_, ?_⟩
    · rintro ⟨h, -⟩
      exact absurd h (by decide)
    · rintro ⟨h, -⟩
      exact h (by decide)
    · rintro ⟨-, h, -⟩
      exact absurd ((hleads.iv (show 0 < 12 by decide)).symm.trans h) (by decide)
  obtain ⟨hup, hdown⟩ := interoperates Platform.sound_bare
    (show 0 < smallPayload.length by decide) (by decide)
  exact ⟨hup smallSession 5 1 _ (Or.inl rfl), hdown smallSession 1 _ _ hunwrap⟩

end AegsProtocol

end Wire

/-! ### The C# code -/

namespace Windows

open Wire

/-- `ApplyChaCha20Mask`, whose one block starts over after 64 bytes. -/
def applyChaCha20Mask (data : List UInt8) (key : Vector UInt8 32) (iv : Vector UInt8 12) :
    List UInt8 :=
  let state := AegsProtocol.chacha20Init key 0 iv
  let working := doubleRound^[10] state
  let keyStream := (List.finRange 16).flatMap fun i =>
    (le32 (working.get i + state.get i)).toList
  data.mapIdx fun i b => b ^^^ keyStream.getD (i % 64) 0

/-- It is the cipher under a counter that stands still. -/
theorem applyChaCha20Mask_eq_stream (data : List UInt8) (key : Vector UInt8 32)
    (iv : Vector UInt8 12) :
    applyChaCha20Mask data key iv =
      CounterMode.stream (· ^^^ ·) 64 (fun _ => block key 0 iv) data := by
  have hblock : ∀ i, (AegsProtocol.chacha20Block (AegsProtocol.chacha20Init key 0 iv)).getD
      (i % 64) 0 = block key 0 iv (i % 64) := fun i =>
    AegsProtocol.getD_chacha20Block key 0 iv (Nat.mod_lt _ (by decide))
  rw [CounterMode.stream]
  simp only [← hblock]
  rfl

/-- **The masks of all ends are one**: a header is masked alike by the Android client, by the
Windows client and by the library of the server, and twice is not at all. -/
theorem masks_agree (hdr : Vector UInt8 16) (key : Vector UInt8 32) (iv : Vector UInt8 12) :
    AegsProtocol.maskUnmaskHeader hdr key iv = maskUnmaskHeader rfc8439 hdr key iv ∧
    applyChaCha20Mask hdr.toList key iv = (maskUnmaskHeader rfc8439 hdr key iv).toList ∧
    applyChaCha20Mask (applyChaCha20Mask hdr.toList key iv) key iv = hdr.toList := by
  have hwindows : applyChaCha20Mask hdr.toList key iv =
      (maskUnmaskHeader rfc8439 hdr key iv).toList := by
    rw [applyChaCha20Mask_eq_stream, CounterMode.stream_of_length_le (by simp)]
    refine List.ext_getElem (by simp) fun i h₁ h₂ => ?_
    simp [maskUnmaskHeader, rfc8439]
  refine ⟨AegsProtocol.maskUnmaskHeader_eq hdr key iv, hwindows, ?_⟩
  rw [applyChaCha20Mask_eq_stream, applyChaCha20Mask_eq_stream]
  exact CounterMode.stream_stream
    (fun b k => by rw [UInt8.xor_assoc, UInt8.xor_self, UInt8.xor_zero]) _

end Windows

end Aegs
