import Aegs.Wire.Packet

/-!
# The data path of the Android client

`buildDataPacket` and `parseDataPacket` of `AegsProtocol.java`. They are written for
themselves: the frame, the header and the nonce are filled byte by byte, with shifts of an
`int` and of a signed `long`, and the packet is put together from arrays.

Bytes are signed in Java; every place that reads one as a number masks it with `0xFF`, and
so it is unsigned here. An `int` of this file is a length and not negative, hence a natural
number. The `long` is its 64 bits, and `>>` shifts in its sign.

That the packets are those of the C++ programs is `Aegs.Wire.AegsProtocol.nonceBytes_eq`
for the nonce, `Aegs.Wire.AegsProtocol.plainHdr_eq` for the header and
`Aegs.Wire.AegsProtocol.frame_eq` for the frame. The file's own ChaCha20 is the cipher's
keystream, and its exceptions are `none`.
-/

namespace Aegs

namespace Wire

namespace AegsProtocol

open Bytes

variable (C : DataCipher)

/-- `(byte) (n & 0xFF)`. -/
def toByte (n : ℕ) : UInt8 := UInt8.ofNat n

/-- `((hi & 0xFF) << 8) | (lo & 0xFF)`. -/
def toInt (hi lo : UInt8) : ℕ := (hi.toNat <<< 8) ||| lo.toNat

/-- `CHAFF_FLAG`. -/
def chaffFlag : UInt8 := 0x80

/-! ### Building -/

/-- What `buildDataPacket` draws. -/
structure Draws where
  /-- `CSPRNG.nextInt(33)`, for the size. -/
  jitter : Fin 33
  /-- `CSPRNG.nextInt(100)`. -/
  percent : Fin 100
  /-- `CSPRNG.nextInt(128)`. -/
  medium : Fin 128
  /-- `padBytes`. -/
  padBytes : (n : ℕ) → Vector UInt8 n
  /-- `CSPRNG.nextInt(16)`. -/
  junkLen : Fin 16
  /-- `hdrIv`. -/
  hdrIv : Vector UInt8 12
  /-- `junk`. -/
  junk : (n : ℕ) → Vector UInt8 n
  /-- `rnd4`. -/
  rnd4 : Vector UInt8 4

local instance neZeroHundred : NeZero 100 := ⟨by decide⟩

/-- `targetLen`. -/
def targetLen (d : Draws) (ipLen : ℕ) : ℕ :=
  if d.percent < 5 then 512 + d.medium
  else if ipLen ≤ 200 then 256 + d.jitter - 16
  else 1240 + d.jitter - 16

/-- `padLen`. -/
def padLen (d : Draws) (ipLen : ℕ) : ℕ := targetLen d ipLen - (2 + ipLen)

/-- The frame has more than 202 bytes. -/
theorem lt_padLen (d : Draws) (ipLen : ℕ) : 202 < frameHdr + ipLen + padLen d ipLen := by
  simp only [padLen, targetLen, frameHdr]
  split
  · omega
  · split
    · omega
    · omega

/-- `frame`. -/
def frame (ipPacket : List UInt8) (padBytes : List UInt8) : List UInt8 :=
  [toByte (ipPacket.length >>> 8), toByte ipPacket.length] ++ ipPacket ++ padBytes

/-- `plainHdr`. -/
def plainHdr (keyId : Vector UInt8 8) (junkLen : ℕ) (isChaff : Bool) : Vector UInt8 16 :=
  keyId ++ #v[toByte (junkLen >>> 8), toByte junkLen, if isChaff then chaffFlag else 0, 0] ++
    verMagic

/-- The first eight bytes of `aeadNonce`: `(byte) ((txSeq >> (i * 8)) & 0xFF)`. -/
def nonceBytes (txSeq : BitVec 64) : Vector UInt8 8 :=
  Vector.ofFn fun i => UInt8.ofBitVec ((txSeq.sshiftRight (i * 8)).setWidth 8)

/-- `outerHdr`. -/
def outerHdr (keyId : Vector UInt8 8) (maskKey : Vector UInt8 32) (isChaff : Bool) (d : Draws) :
    List UInt8 :=
  d.hdrIv.toList ++
    (maskUnmaskHeader C (plainHdr keyId d.junkLen isChaff) maskKey d.hdrIv).toList ++
    (d.junk d.junkLen).toList

/-- `buildDataPacket`, of the first `ipLen` bytes of the buffer. -/
def buildDataPacket (ipPacket : List UInt8) (keyId : Vector UInt8 8)
    (maskKey sendKey : Vector UInt8 32) (txSeq : BitVec 64) (isChaff : Bool) (d : Draws) :
    List UInt8 :=
  let frame := frame ipPacket (d.padBytes (padLen d ipPacket.length)).toList
  let outerHdr := outerHdr C keyId maskKey isChaff d
  let aeadNonce := nonceBytes txSeq ++ d.rnd4
  outerHdr ++ aeadNonce.toList ++ C.encrypt sendKey aeadNonce outerHdr frame

/-! ### Parsing -/

/-- `hdrOk`: the key id and `VER_MAGIC`. -/
def hdrOk (keyId : Vector UInt8 8) (plainHdr : Vector UInt8 16) : Bool :=
  copyOut plainHdr.toList 0 8 = keyId ∧ copyOut plainHdr.toList 12 4 = verMagic

/-- `plainHdr` of a packet: with the mask key, or else with the other one if there is one. -/
def unmaskHdr (keyId : Vector UInt8 8) (maskKey : Vector UInt8 32)
    (altMaskKey : Option (Vector UInt8 32)) (packet : List UInt8) : Option (Vector UInt8 16) :=
  let plainHdr := unmaskedHeader C maskKey packet
  if hdrOk keyId plainHdr then some plainHdr
  else (altMaskKey.map fun key => unmaskedHeader C key packet).filter (hdrOk keyId)

/-- The payload of a frame. -/
def payloadOf (frame : List UInt8) : Option (List UInt8) :=
  if frame.length < 2 then none
  else
    let payloadLen := toInt (frame.getD 0 0) (frame.getD 1 0)
    if payloadLen = 0 ∨ payloadLen > frame.length - 2 then none
    else some ((frame.drop 2).take payloadLen)

/-- `parseDataPacket` of a packet without camouflage. A chaff packet is empty. -/
def parseUnwrapped (keyId : Vector UInt8 8) (maskKey : Vector UInt8 32)
    (altMaskKey : Option (Vector UInt8 32)) (recvKey : Vector UInt8 32) (packet : List UInt8) :
    Option (List UInt8) :=
  if packet.length < 56 then none
  else
    match unmaskHdr C keyId maskKey altMaskKey packet with
    | none => none
    | some plainHdr =>
      if getElem plainHdr 10 ten_lt_16 &&& chaffFlag ≠ 0 then some []
      else
        let outerLen := 12 + 16 +
          toInt (getElem plainHdr 8 eight_lt_16) (getElem plainHdr 9 nine_lt_16)
        if packet.length < outerLen + 12 + 16 then none
        else
          (C.decrypt recvKey (copyOut packet outerLen 12) (packet.take outerLen)
            (packet.drop (outerLen + 12))).bind payloadOf

/-! ### The same layout -/

theorem toByte_eq (n : ℕ) : toByte n = n.toUInt16.toUInt8 := by
  apply UInt8.toNat_inj.mp
  simp [toByte]

theorem toByte_shiftRight_eq {n : ℕ} (h : n < 65536) :
    toByte (n >>> 8) = (n.toUInt16 >>> 8).toUInt8 := by
  apply UInt8.toNat_inj.mp
  simp [toByte, Nat.shiftRight_eq_div_pow]
  omega

theorem toInt_eq (hi lo : UInt8) : toInt hi lo = (ofBe16 #v[hi, lo]).toNat := by
  have hhi : hi.toNat < 256 := hi.toNat_lt
  have hshift : hi.toNat <<< 8 < 65536 := by
    rw [Nat.shiftLeft_eq]
    omega
  simp [toInt, ofBe16, Nat.mod_eq_of_lt hshift]

/-- A shift that leaves eight bits of the number does not bring its sign in. -/
theorem setWidth_sshiftRight (x : BitVec 64) {s : ℕ} (hs : s ≤ 56) :
    (x.sshiftRight s).setWidth 8 = (x >>> s).setWidth 8 := by
  apply BitVec.eq_of_getLsbD_eq
  intro i hi
  rw [BitVec.getLsbD_setWidth, BitVec.getLsbD_setWidth, BitVec.getLsbD_sshiftRight,
    BitVec.getLsbD_ushiftRight, if_pos (by omega), decide_eq_false (show ¬64 ≤ i by omega)]
  rfl

/-- **The signed shift writes the bytes of the number**, least significant first. -/
theorem nonceBytes_eq (txSeq : BitVec 64) : nonceBytes txSeq = le64 (UInt64.ofBitVec txSeq) := by
  refine Vector.ext fun i hi => UInt8.toBitVec_inj.mp ?_
  rw [nonceBytes, Vector.getElem_ofFn, getElem_le64 _ hi]
  exact setWidth_sshiftRight txSeq (s := i * 8) (by omega)

/-- **The header** is the C++ one. -/
theorem plainHdr_eq (keyId : UInt64) {junkLen : ℕ} (h : junkLen < 65536) (isChaff : Bool) :
    plainHdr (le64 keyId) junkLen isChaff =
      plainHeader keyId junkLen.toUInt16 (if isChaff then chaffFlag else 0) := by
  have hmagic : (plainHdr (le64 keyId) junkLen isChaff).toList =
      (le64 keyId ++ #v[toByte (junkLen >>> 8), toByte junkLen,
        if isChaff then chaffFlag else 0, 0]).toList ++ verMagic.toList :=
    Vector.toList_append
  apply Vector.toList_inj.mp
  rw [hmagic, Vector.toList_append, plainHeader_toList, toByte_shiftRight_eq h, toByte_eq,
    List.append_assoc]
  rfl

/-- **The frame** is the C++ one. -/
theorem frame_eq {ipPacket : List UInt8} (h : ipPacket.length < 65536) (padBytes : List UInt8) :
    frame ipPacket padBytes = dataFrame ipPacket padBytes := by
  rw [frame, toByte_shiftRight_eq h, toByte_eq]
  rfl

/-- **A packet of the Android client has the layout of the C++ ones.** -/
theorem buildDataPacket_eq {ipPacket : List UInt8} (h : ipPacket.length < 65536) (keyId : UInt64)
    (maskKey sendKey : Vector UInt8 32) (txSeq : BitVec 64) (isChaff : Bool) (d : Draws) :
    buildDataPacket C ipPacket (le64 keyId) maskKey sendKey txSeq isChaff d =
      sealPacket C
        (outerHeader C keyId maskKey (if isChaff then chaffFlag else 0) d.hdrIv
          (d.junk d.junkLen).toList)
        sendKey (aeadNonce (UInt64.ofBitVec txSeq) d.rnd4)
        (dataFrame ipPacket (d.padBytes (padLen d ipPacket.length)).toList) := by
  have hjunk : d.junkLen.val < 65536 := by omega
  simp only [buildDataPacket, outerHdr, plainHdr_eq keyId hjunk, nonceBytes_eq, frame_eq h,
    sealPacket, outerHeader, aeadNonce, Vector.length_toList]

/-- The frame is read as in C++. -/
theorem payloadOf_eq (frame : List UInt8) : payloadOf frame = unframe frame := by
  have hlen : toInt (frame.getD 0 0) (frame.getD 1 0) = (ofBe16 (copyOut frame 0 2)).toNat := by
    rw [toInt_eq]
    rfl
  simp only [payloadOf, unframe, hlen]
  split
  · rfl
  · by_cases hzero : (ofBe16 (copyOut frame 0 2)).toNat = 0
    · rw [if_pos (Or.inl hzero), if_neg (by omega)]
    · by_cases hbig : (ofBe16 (copyOut frame 0 2)).toNat ≤ frame.length - 2
      · rw [if_neg (by omega), if_pos (by omega)]
      · rw [if_pos (by omega), if_neg (by omega)]

/-- The header is checked as in C++. -/
theorem hdrOk_eq (keyId : UInt64) (hdr : Vector UInt8 16) :
    hdrOk (le64 keyId) hdr = (hasKeyId keyId hdr && hasMagic hdr) := by
  rw [hdrOk, hasKeyId, hasMagic, Bool.decide_and]

/-- **A packet without the chaff flag is read as in C++**, once its header is unmasked. -/
theorem parseUnwrapped_eq {keyId : Vector UInt8 8} {maskKey recvKey : Vector UInt8 32}
    {altMaskKey : Option (Vector UInt8 32)} {packet : List UInt8} {hdr : Vector UInt8 16}
    (hlen : 56 ≤ packet.length) (hhdr : unmaskHdr C keyId maskKey altMaskKey packet = some hdr)
    (hflag : hdr[10] &&& chaffFlag = 0) (hfits : fits hdr packet = true) :
    parseUnwrapped C keyId maskKey altMaskKey recvKey packet =
      (openPacket C recvKey hdr packet).bind unframe := by
  have hjunk : toInt hdr[8] hdr[9] = (junkLenOf hdr).toNat := by
    rw [toInt_eq, junkLenOf]
    congr 2
    ext i hi
    rcases i with _ | _ | i
    · simp [copyOut]
    · simp [copyOut]
    · omega
  have hpayload : payloadOf = unframe := funext payloadOf_eq
  have hoff : 12 + 16 + toInt hdr[8] hdr[9] = aeadOffset hdr := by rw [hjunk, aeadOffset]
  rw [fits, tagLen, decide_eq_true_eq] at hfits
  simp only [parseUnwrapped, hhdr, hflag, hoff, hpayload, ne_eq, not_true_eq_false, if_false]
  rw [if_neg (by omega), if_neg (by omega)]
  rfl

end AegsProtocol

end Wire

end Aegs
