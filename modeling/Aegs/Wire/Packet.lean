import Mathlib.Data.UInt
import Aegs.Lib.Bytes
import Aegs.Wire.Shaper

/-!
# Data packets

The layout that the C++ server and the C++ client write and read by hand:

| bytes | what |
|---|---|
| 12 | `hdr_iv` |
| 16 | the masked header: key id, junk length, flag, zero, `VER_MAGIC` |
| junk length | junk |
| 12 | the nonce: the sequence number and four random bytes |
| the rest | the frame, sealed, with everything before the nonce as associated data |

A frame is a 16-bit length, the payload and padding. The two programs seal a packet in
the same way (`Aegs.Wire.sealPacket`), and read one in the same way once its header is
unmasked (`Aegs.Wire.openPacket`, `Aegs.Wire.unframe`); they differ in which headers they
take and in what they do with the payload.

The ciphers are parameters. The header mask is the keystream of ChaCha20, so that masking
twice gives the header back whatever the keystream is (`Aegs.Wire.maskUnmaskHeader_self`).
Of the AEAD cipher the round trip needs that decryption undoes encryption under the same
key, nonce and associated data, and that a sealed frame is 16 bytes longer
(`Aegs.Wire.DataCipher.Correct`).
-/

namespace Aegs

namespace Wire

open Bytes

/-- The ciphers of the data path. -/
structure DataCipher where
  /-- The first 16 bytes of the ChaCha20 keystream of a key and an IV, from counter zero. -/
  keystream : Vector UInt8 32 → Vector UInt8 12 → Vector UInt8 16
  /-- `chacha20_poly1305_encrypt` of a key, a nonce, the associated data and the plaintext,
  to the ciphertext with its tag. -/
  encrypt : Vector UInt8 32 → Vector UInt8 12 → List UInt8 → List UInt8 → List UInt8
  /-- `chacha20_poly1305_decrypt` of a key, a nonce, the associated data and a ciphertext
  with its tag, if the tag is right. -/
  decrypt : Vector UInt8 32 → Vector UInt8 12 → List UInt8 → List UInt8 → Option (List UInt8)

/-- What the cipher promises: decryption undoes encryption, and the tag has 16 bytes. -/
structure DataCipher.Correct (C : DataCipher) : Prop where
  /-- Decryption undoes encryption with equal associated data. -/
  decrypt_encrypt : ∀ key nonce aad plain,
    C.decrypt key nonce aad (C.encrypt key nonce aad plain) = some plain
  /-- A ciphertext with its tag is 16 bytes longer than the plaintext. -/
  length_encrypt : ∀ key nonce aad plain,
    (C.encrypt key nonce aad plain).length = plain.length + 16

/-- `VER_MAGIC`. -/
def verMagic : Vector UInt8 4 := #v[0x41, 0x47, 0x32, 0x01]

/-- `TAG_LEN`. -/
def tagLen : ℕ := 16

/-- `BUFFER_SIZE`. -/
def bufferSize : ℕ := 64000

/-- `INTERNAL_BUF_SIZE`. -/
def internalBufSize : ℕ := 65535

variable (C : DataCipher)

/-! ### The header -/

/-- `mask_unmask_header`. -/
def maskUnmaskHeader (hdr : Vector UInt8 16) (maskKey : Vector UInt8 32) (hdrIv : Vector UInt8 12) :
    Vector UInt8 16 :=
  hdr.zipWith (· ^^^ ·) (C.keystream maskKey hdrIv)

/-- Masking is an involution. -/
@[simp] theorem maskUnmaskHeader_self (hdr : Vector UInt8 16) (maskKey : Vector UInt8 32)
    (hdrIv : Vector UInt8 12) :
    maskUnmaskHeader C (maskUnmaskHeader C hdr maskKey hdrIv) maskKey hdrIv = hdr := by
  ext i hi
  rw [maskUnmaskHeader, maskUnmaskHeader, Vector.getElem_zipWith, Vector.getElem_zipWith,
    UInt8.xor_assoc, UInt8.xor_self, UInt8.xor_zero]

/-- `hdr_plain`. -/
def plainHeader (keyId : UInt64) (junkLen : UInt16) (flag : UInt8) : Vector UInt8 16 :=
  le64 keyId ++ be16 junkLen ++ #v[flag, 0] ++ verMagic

/-- `unmasked_hdr`, of a packet, under a mask key. -/
def unmaskedHeader (maskKey : Vector UInt8 32) (pkt : List UInt8) : Vector UInt8 16 :=
  maskUnmaskHeader C (copyOut pkt 12 16) maskKey (copyOut pkt 0 12)

/-- `memcmp(unmasked_hdr, &key_id_raw, 8) == 0`. -/
def hasKeyId (keyId : UInt64) (hdr : Vector UInt8 16) : Bool := copyOut hdr.toList 0 8 = le64 keyId

/-- `memcmp(unmasked_hdr + 12, VER_MAGIC.data(), 4) == 0`. -/
def hasMagic (hdr : Vector UInt8 16) : Bool := copyOut hdr.toList 12 4 = verMagic

/-- `junk_len`, as the receiver reads it. -/
def junkLenOf (hdr : Vector UInt8 16) : UInt16 := ofBe16 (copyOut hdr.toList 8 2)

section

variable (keyId : UInt64) (junkLen : UInt16) (flag : UInt8)

theorem plainHeader_toList : (plainHeader keyId junkLen flag).toList =
    (le64 keyId).toList ++ ((be16 junkLen).toList ++ ([flag, 0] ++ verMagic.toList)) := by
  have hmagic : (plainHeader keyId junkLen flag).toList =
      (le64 keyId ++ be16 junkLen ++ #v[flag, 0]).toList ++ verMagic.toList :=
    Vector.toList_append
  have hflag : (le64 keyId ++ be16 junkLen ++ #v[flag, 0]).toList =
      (le64 keyId ++ be16 junkLen).toList ++ [flag, 0] :=
    Vector.toList_append
  rw [hmagic, hflag, Vector.toList_append, List.append_assoc, List.append_assoc]

/-- A header has the key id that was written, and no other. -/
@[simp] theorem hasKeyId_plainHeader (keyId' : UInt64) :
    hasKeyId keyId' (plainHeader keyId junkLen flag) = decide (keyId = keyId') := by
  rw [hasKeyId, plainHeader_toList, copyOut_append_left _ _ (by simp), copyOut_toList]
  refine decide_eq_decide.mpr ⟨fun h => ?_, fun h => congrArg le64 h⟩
  rw [← ofLe64_le64 keyId, h, ofLe64_le64]

@[simp] theorem hasMagic_plainHeader : hasMagic (plainHeader keyId junkLen flag) = true := by
  rw [hasMagic, plainHeader_toList, copyOut_append_right _ _ (by simp),
    copyOut_append_right _ _ (by simp), copyOut_append_right _ _ (by simp)]
  exact decide_eq_true (copyOut_toList verMagic)

@[simp] theorem junkLenOf_plainHeader : junkLenOf (plainHeader keyId junkLen flag) = junkLen := by
  rw [junkLenOf, plainHeader_toList, copyOut_append_right _ _ (by simp),
    copyOut_append_left _ _ (by simp)]
  simp only [Vector.length_toList, Nat.sub_self, copyOut_toList, ofBe16_be16]

@[simp] theorem getElem_plainHeader_flag : (plainHeader keyId junkLen flag)[10] = flag := by
  rfl

end

/-- A header has one key id. -/
theorem eq_of_hasKeyId {hdr : Vector UInt8 16} {keyId keyId' : UInt64}
    (h : hasKeyId keyId hdr = true) (h' : hasKeyId keyId' hdr = true) : keyId = keyId' := by
  rw [hasKeyId, decide_eq_true_eq] at h h'
  rw [← ofLe64_le64 keyId, ← h, h', ofLe64_le64]

/-! ### The nonce and the frame -/

/-- `aead_nonce`. -/
def aeadNonce (seq : UInt64) (tail : Vector UInt8 4) : Vector UInt8 12 := le64 seq ++ tail

/-- The sequence number of a nonce. -/
def nonceSeq (nonce : Vector UInt8 12) : UInt64 := ofLe64 (copyOut nonce.toList 0 8)

/-- The receiver reads the sequence number that the sender wrote. -/
@[simp] theorem nonceSeq_aeadNonce (seq : UInt64) (tail : Vector UInt8 4) :
    nonceSeq (aeadNonce seq tail) = seq := by
  have htoList : (aeadNonce seq tail).toList = (le64 seq).toList ++ tail.toList :=
    Vector.toList_append
  rw [nonceSeq, htoList, copyOut_append_left _ _ (by simp), copyOut_toList, ofLe64_le64]

/-- The frame: the length with `htons`, the payload and the padding. -/
def dataFrame (payload padding : List UInt8) : List UInt8 :=
  (be16 payload.length.toUInt16).toList ++ payload ++ padding

/-- The payload of a frame, if it has one. -/
def unframe (frame : List UInt8) : Option (List UInt8) :=
  if frame.length < 2 then none
  else
    let plen := (ofBe16 (copyOut frame 0 2)).toNat
    if 0 < plen ∧ plen ≤ frame.length - 2 then some ((frame.drop 2).take plen) else none

/-- **A frame gives its payload back**, up to the largest length that 16 bits hold. -/
theorem unframe_dataFrame {payload : List UInt8} (hpos : 0 < payload.length)
    (hlen : payload.length < 65536) (padding : List UInt8) :
    unframe (dataFrame payload padding) = some payload := by
  have hplen : (ofBe16 (copyOut (dataFrame payload padding) 0 2)).toNat = payload.length := by
    rw [dataFrame, List.append_assoc, copyOut_append_left _ _ (by simp), copyOut_toList,
      ofBe16_be16]
    simp only [Nat.toUInt16_eq, UInt16.toNat_ofNat']
    omega
  have hlength : (dataFrame payload padding).length = 2 + payload.length + padding.length := by
    simp [dataFrame]
    omega
  have hdrop : (dataFrame payload padding).drop 2 = payload ++ padding := by
    rw [dataFrame, List.append_assoc, List.drop_append_of_le_length (by simp)]
    simp
  rw [unframe, if_neg (by omega)]
  simp only [hplen]
  rw [if_pos ⟨hpos, by omega⟩, hdrop, List.take_left]

/-! ### Sealing and opening -/

/-- What is in front of the nonce: the IV, the masked header and the junk. -/
def outerHeader (keyId : UInt64) (maskKey : Vector UInt8 32) (flag : UInt8)
    (hdrIv : Vector UInt8 12) (junk : List UInt8) : List UInt8 :=
  hdrIv.toList ++
    (maskUnmaskHeader C (plainHeader keyId junk.length.toUInt16 flag) maskKey hdrIv).toList ++ junk

/-- The packet: what is in front of the nonce, the nonce, and the sealed frame. -/
def sealPacket (outer : List UInt8) (sendKey : Vector UInt8 32) (nonce : Vector UInt8 12)
    (frame : List UInt8) : List UInt8 :=
  outer ++ nonce.toList ++ C.encrypt sendKey nonce outer frame

/-- `aead_offset`. -/
def aeadOffset (hdr : Vector UInt8 16) : ℕ := 12 + 16 + (junkLenOf hdr).toNat

/-- The packet is long enough for the junk, the nonce and the tag. -/
def fits (hdr : Vector UInt8 16) (pkt : List UInt8) : Bool :=
  aeadOffset hdr + 12 + tagLen ≤ pkt.length

/-- `aead_nonce`, of a packet. -/
def packetNonce (hdr : Vector UInt8 16) (pkt : List UInt8) : Vector UInt8 12 :=
  copyOut pkt (aeadOffset hdr) 12

/-- The decryption of a packet. -/
def openPacket (recvKey : Vector UInt8 32) (hdr : Vector UInt8 16) (pkt : List UInt8) :
    Option (List UInt8) :=
  C.decrypt recvKey (packetNonce hdr pkt) (pkt.take (aeadOffset hdr))
    (pkt.drop (aeadOffset hdr + 12))

section

variable {C} {keyId : UInt64} {maskKey : Vector UInt8 32} {flag : UInt8} {hdrIv : Vector UInt8 12}
  {junk : List UInt8} (rest : List UInt8)

theorem length_outerHeader :
    (outerHeader C keyId maskKey flag hdrIv junk).length = 28 + junk.length := by
  simp [outerHeader]
  omega

/-- The packet starts with the IV. -/
theorem copyOut_outerHeader_iv :
    copyOut (outerHeader C keyId maskKey flag hdrIv junk ++ rest) 0 12 = hdrIv := by
  rw [outerHeader, List.append_assoc, List.append_assoc, copyOut_append_left _ _ (by simp),
    copyOut_toList]

/-- The masked header follows. -/
theorem copyOut_outerHeader_hdr :
    copyOut (outerHeader C keyId maskKey flag hdrIv junk ++ rest) 12 16 =
      maskUnmaskHeader C (plainHeader keyId junk.length.toUInt16 flag) maskKey hdrIv := by
  rw [outerHeader, List.append_assoc, List.append_assoc, copyOut_append_right _ _ (by simp),
    copyOut_append_left _ _ (by simp)]
  simp only [Vector.length_toList, Nat.sub_self, copyOut_toList]

/-- **The receiver with the mask key reads the header that was written.** -/
theorem unmaskedHeader_outerHeader :
    unmaskedHeader C maskKey (outerHeader C keyId maskKey flag hdrIv junk ++ rest) =
      plainHeader keyId junk.length.toUInt16 flag := by
  rw [unmaskedHeader, copyOut_outerHeader_hdr, copyOut_outerHeader_iv, maskUnmaskHeader_self]

/-- The junk length says where the nonce is. -/
theorem aeadOffset_outerHeader (C : DataCipher) (keyId : UInt64) (maskKey : Vector UInt8 32)
    (flag : UInt8) (hdrIv : Vector UInt8 12) {junk : List UInt8} (hjunk : junk.length < 65536) :
    aeadOffset (plainHeader keyId junk.length.toUInt16 flag) =
      (outerHeader C keyId maskKey flag hdrIv junk).length := by
  rw [aeadOffset, junkLenOf_plainHeader, length_outerHeader]
  simp only [Nat.toUInt16_eq, UInt16.toNat_ofNat']
  omega

variable {sendKey : Vector UInt8 32} {nonce : Vector UInt8 12} {frame : List UInt8}

theorem length_sealPacket (hC : C.Correct) {outer : List UInt8} :
    (sealPacket C outer sendKey nonce frame).length =
      outer.length + 12 + (frame.length + 16) := by
  simp only [sealPacket, List.length_append, Vector.length_toList, hC.length_encrypt]

/-- The receiver reads the nonce that is behind the header and the junk. -/
theorem packetNonce_outerHeader (hjunk : junk.length < 65536) (sealed : List UInt8) :
    packetNonce (plainHeader keyId junk.length.toUInt16 flag)
      (outerHeader C keyId maskKey flag hdrIv junk ++ nonce.toList ++ sealed) = nonce := by
  rw [packetNonce, aeadOffset_outerHeader C keyId maskKey flag hdrIv hjunk,
    List.append_assoc, copyOut_append_right _ _ le_rfl, Nat.sub_self,
    copyOut_append_left _ _ (by simp), copyOut_toList]

/-- Which decryption opening a packet comes to, whatever is behind its nonce. -/
theorem openPacket_outerHeader (recvKey : Vector UInt8 32) (hjunk : junk.length < 65536)
    (sealed : List UInt8) :
    openPacket C recvKey (plainHeader keyId junk.length.toUInt16 flag)
      (outerHeader C keyId maskKey flag hdrIv junk ++ nonce.toList ++ sealed) =
        C.decrypt recvKey nonce (outerHeader C keyId maskKey flag hdrIv junk) sealed := by
  have hnonce := @packetNonce_outerHeader C keyId maskKey flag hdrIv junk nonce hjunk sealed
  rw [openPacket, hnonce, aeadOffset_outerHeader C keyId maskKey flag hdrIv
    hjunk, List.append_assoc, List.take_left, ← List.drop_drop, List.drop_left,
    List.drop_left' (by simp)]

/-- The receiver reads the nonce that was written. -/
theorem packetNonce_sealPacket (hjunk : junk.length < 65536) :
    packetNonce (plainHeader keyId junk.length.toUInt16 flag)
      (sealPacket C (outerHeader C keyId maskKey flag hdrIv junk) sendKey nonce frame) = nonce :=
  packetNonce_outerHeader hjunk _

/-- Which decryption opening a sealed packet comes to, under any key. -/
theorem openPacket_sealPacket_eq (recvKey : Vector UInt8 32) (hjunk : junk.length < 65536) :
    openPacket C recvKey (plainHeader keyId junk.length.toUInt16 flag)
      (sealPacket C (outerHeader C keyId maskKey flag hdrIv junk) sendKey nonce frame) =
        C.decrypt recvKey nonce (outerHeader C keyId maskKey flag hdrIv junk)
          (C.encrypt sendKey nonce (outerHeader C keyId maskKey flag hdrIv junk) frame) :=
  openPacket_outerHeader recvKey hjunk _

/-- **A packet opens to the frame that was sealed.** -/
theorem openPacket_sealPacket (hC : C.Correct) (hjunk : junk.length < 65536) :
    openPacket C sendKey (plainHeader keyId junk.length.toUInt16 flag)
      (sealPacket C (outerHeader C keyId maskKey flag hdrIv junk) sendKey nonce frame) =
        some frame := by
  rw [openPacket_sealPacket_eq sendKey hjunk]
  exact hC.decrypt_encrypt sendKey nonce _ frame

/-- A packet is long enough for what it holds. -/
theorem fits_sealPacket (hC : C.Correct) (hjunk : junk.length < 65536) :
    fits (plainHeader keyId junk.length.toUInt16 flag)
      (sealPacket C (outerHeader C keyId maskKey flag hdrIv junk) sendKey nonce frame) = true := by
  rw [fits, aeadOffset_outerHeader C keyId maskKey flag hdrIv hjunk,
    length_sealPacket hC, tagLen, decide_eq_true_eq]
  omega

end

/-! ### The C++ encoder -/

/-- What a C++ sender draws at random for one packet. -/
structure Draws where
  /-- `semantic_pad`. -/
  shaper : ShaperDraws
  /-- `fill_random_padding`. -/
  padding : (n : ℕ) → Vector UInt8 n
  /-- `RAND_bytes(aead_nonce + 8, 4)`. -/
  nonceTail : Vector UInt8 4
  /-- The byte of `generate_junk_len`. -/
  junkByte : Option UInt8
  /-- `RAND_bytes` for the junk. -/
  junk : (n : ℕ) → Vector UInt8 n
  /-- `RAND_bytes(hdr_iv, 12)`. -/
  hdrIv : Vector UInt8 12

/-- The junk of a packet. -/
def Draws.junkBytes (d : Draws) : List UInt8 := (d.junk (generateJunkLen d.junkByte)).toList

theorem Draws.length_junkBytes (d : Draws) :
    d.junkBytes.length = generateJunkLen d.junkByte :=
  Vector.length_toList

theorem Draws.junkBytes_lt (d : Draws) : d.junkBytes.length < 65536 := by
  have hle := generateJunkLen_le d.junkByte
  rw [d.length_junkBytes]
  omega

/-- A data packet of the C++ programs, once the length of the padding is known. -/
def encodePacket (keyId : UInt64) (maskKey sendKey : Vector UInt8 32) (seq : UInt64)
    (payload : List UInt8) (padLen : ℕ) (d : Draws) : List UInt8 :=
  sealPacket C (outerHeader C keyId maskKey 0 d.hdrIv d.junkBytes) sendKey
    (aeadNonce seq d.nonceTail) (dataFrame payload (d.padding padLen).toList)

theorem length_dataFrame (payload padding : List UInt8) :
    (dataFrame payload padding).length = frameHdr + payload.length + padding.length := by
  simp only [dataFrame, List.length_append, Vector.length_toList, frameHdr]

theorem length_encodePacket (hC : C.Correct) (keyId : UInt64) (maskKey sendKey : Vector UInt8 32)
    (seq : UInt64) (payload : List UInt8) (padLen : ℕ) (d : Draws) :
    (encodePacket C keyId maskKey sendKey seq payload padLen d).length =
      56 + generateJunkLen d.junkByte + (frameHdr + payload.length + padLen) := by
  rw [encodePacket, length_sealPacket hC, length_outerHeader, length_dataFrame,
    d.length_junkBytes, Vector.length_toList]
  omega

/-! ### A small cipher -/

/-- Ciphers to compute with: a keystream and a mask of the first byte of the key, and a tag
that depends on the key, the associated data and the plaintext. -/
def smallDataCipher : DataCipher where
  keystream key _ := Vector.replicate 16 (getElem key 0 zero_lt_32)
  encrypt key _ aad plain :=
    plain.map (· ^^^ getElem key 0 zero_lt_32) ++
      List.replicate 16 (getElem key 0 zero_lt_32 + aad.sum + plain.sum)
  decrypt key _ aad sealed :=
    let plain := (sealed.take (sealed.length - 16)).map (· ^^^ getElem key 0 zero_lt_32)
    if sealed.drop (sealed.length - 16) =
        List.replicate 16 (getElem key 0 zero_lt_32 + aad.sum + plain.sum) then
      some plain
    else none

theorem smallDataCipher_correct : smallDataCipher.Correct where
  decrypt_encrypt key nonce aad plain := by
    have hxor : (plain.map (· ^^^ key[0])).map (· ^^^ key[0]) = plain := by
      rw [List.map_map]
      refine (List.map_congr_left fun b _ => ?_).trans (List.map_id plain)
      rw [Function.comp_apply, UInt8.xor_assoc, UInt8.xor_self, UInt8.xor_zero]
      rfl
    have hlen : (plain.map (· ^^^ key[0]) ++
        List.replicate 16 (key[0] + aad.sum + plain.sum)).length - 16 =
          (plain.map (· ^^^ key[0])).length := by
      simp
    simp only [smallDataCipher, hlen, List.take_left, List.drop_left, hxor, if_true]
  length_encrypt key nonce aad plain := by simp [smallDataCipher]

local instance neZeroHundred : NeZero 100 := ⟨by decide⟩

/-- Draws to compute with: no junk, and this IV. -/
def smallDraws (hdrIv : Vector UInt8 12) : Draws where
  shaper := ⟨50, 0, 0, 0, 0⟩
  padding n := Vector.replicate n 7
  nonceTail := Vector.replicate 4 9
  junkByte := none
  junk n := Vector.replicate n 6
  hdrIv := hdrIv

/-- A payload of 20 bytes. -/
def smallPayload : List UInt8 := 0x45 :: List.replicate 19 0

end Wire

end Aegs
