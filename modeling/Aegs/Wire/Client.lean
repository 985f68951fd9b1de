import Aegs.Replay.Filter
import Aegs.Wire.Packet

/-!
# The data path of the C++ client

What `client.cpp` makes of a packet from the TUN device or from the local WireGuard, which
is the same code twice, what it makes of a data packet from the server, and the chaff
packets of `chaff_engine.cpp`.

The client knows one key id and one mask key, those of its token
(`Aegs.Wire.ClientKeys`). It takes a packet whose header unmasks to that key id and the
version magic, and no other. `clientReceive` is the code with its replay filter,
`clientDecode` is what it makes of a packet whose number the filter lets through
(`Aegs.Wire.clientReceive_eq`).

A call of the library that fails drops the packet, so all calls here go through.
-/

namespace Aegs

namespace Wire

open Bytes

variable (C : DataCipher)

/-! ### Encoding -/

/-- The length of the padding, unless the frame does not fit `pbuf` even without it. -/
def clientPadLen (d : Draws) (len : ℕ) : Option ℕ :=
  let padLen := semanticPad true d.shaper len
  let padLen := if frameHdr + len + padLen + tagLen > internalBufSize then 0 else padLen
  if frameHdr + len + padLen + tagLen > internalBufSize then none else some padLen

/-- The packet that the client sends for a payload. -/
def clientEncode (keyId : UInt64) (maskKey sendKey : Vector UInt8 32) (seq : UInt64)
    (payload : List UInt8) (d : Draws) : Option (List UInt8) :=
  (clientPadLen d payload.length).map fun padLen =>
    encodePacket C keyId maskKey sendKey seq payload padLen d

/-- The padding is what the shaper says, or none where the frame is too long with it. -/
theorem clientPadLen_eq {d : Draws} {len padLen : ℕ} (h : clientPadLen d len = some padLen) :
    padLen = semanticPad true d.shaper len ∨ (padLen = 0 ∧ 1350 < len) := by
  have hle := semanticPad_le d.shaper len
  have hsizes : frameHdr = 2 ∧ tagLen = 16 ∧ internalBufSize = 65535 := ⟨rfl, rfl, rfl⟩
  simp only [clientPadLen, Option.ite_none_left_eq_some, Option.some.injEq] at h
  obtain ⟨-, rfl⟩ := h
  by_cases hbig : frameHdr + len + semanticPad true d.shaper len + tagLen > internalBufSize
  · exact Or.inr ⟨if_pos hbig, by omega⟩
  · exact Or.inl (if_neg hbig)

/-- Whatever was read into `buf` fits a frame. -/
theorem exists_clientPadLen (d : Draws) {len : ℕ} (hlen : len ≤ bufferSize) :
    ∃ padLen, clientPadLen d len = some padLen := by
  have hsizes : frameHdr = 2 ∧ tagLen = 16 ∧ internalBufSize = 65535 := ⟨rfl, rfl, rfl⟩
  rw [bufferSize] at hlen
  simp only [clientPadLen]
  by_cases hbig : frameHdr + len + semanticPad true d.shaper len + tagLen > internalBufSize
  · rw [if_pos hbig]
    exact ⟨0, if_neg (by omega)⟩
  · rw [if_neg hbig]
    exact ⟨_, if_neg hbig⟩

/-- The frame of a client has more than 202 bytes. -/
theorem lt_clientPadLen {d : Draws} {len padLen : ℕ} (h : clientPadLen d len = some padLen) :
    202 < frameHdr + len + padLen := by
  rcases clientPadLen_eq h with rfl | ⟨rfl, hlen⟩
  · exact lt_semanticPad d.shaper len
  · omega

/-! ### Decoding -/

/-- What the client decodes with. -/
structure ClientKeys where
  /-- `raw_kid`. -/
  keyId : UInt64
  /-- `mask_key`. -/
  maskKey : Vector UInt8 32
  /-- `session_keys.recv_key`. -/
  recvKey : Vector UInt8 32

/-- What the client reads from a data packet, if it takes it. -/
def clientDecode (k : ClientKeys) (pkt : List UInt8) : Option (List UInt8) :=
  let hdr := unmaskedHeader C k.maskKey pkt
  if pkt.length < 56 then none
  else if ¬hasKeyId k.keyId hdr then none
  else if ¬hasMagic hdr then none
  else if ¬fits hdr pkt then none
  else (openPacket C k.recvKey hdr pkt).bind unframe

/-- **A data packet from the server**, with the client's replay filter. -/
def clientReceive (k : ClientKeys) (filter : AntiReplayFilter) (pkt : List UInt8) :
    AntiReplayFilter × Option (List UInt8) :=
  let hdr := unmaskedHeader C k.maskKey pkt
  if pkt.length < 56 then (filter, none)
  else if ¬hasKeyId k.keyId hdr then (filter, none)
  else if ¬hasMagic hdr then (filter, none)
  else if ¬fits hdr pkt then (filter, none)
  else
    let rxSeq := nonceSeq (packetNonce hdr pkt)
    if filter.checkPeek rxSeq then (filter, none)
    else
      match openPacket C k.recvKey hdr pkt with
      | none => (filter, none)
      | some frame => (filter.updateCommit rxSeq, unframe frame)

/-- Where the filter lets the number through, the filter does not matter. -/
theorem clientReceive_eq {k : ClientKeys} {filter : AntiReplayFilter} {pkt : List UInt8}
    (h : filter.checkPeek (nonceSeq (packetNonce (unmaskedHeader C k.maskKey pkt) pkt)) = false) :
    (clientReceive C k filter pkt).2 = clientDecode C k pkt := by
  simp only [clientReceive, clientDecode, h, Bool.false_eq_true, if_false]
  rcases openPacket C k.recvKey (unmaskedHeader C k.maskKey pkt) pkt with _ | frame
  · split_ifs <;> rfl
  · split_ifs <;> rfl

/-- **A packet for the client's key id, masked with its mask key and sealed under its key,
gives the payload.** -/
theorem clientDecode_encodePacket (hC : C.Correct) (k : ClientKeys) (seq : UInt64)
    {payload : List UInt8} (hpos : 0 < payload.length) (hlen : payload.length < 65536)
    (padLen : ℕ) (d : Draws) :
    clientDecode C k (encodePacket C k.keyId k.maskKey k.recvKey seq payload padLen d) =
      some payload := by
  have hlength := length_encodePacket C hC k.keyId k.maskKey k.recvKey seq payload padLen d
  have hhdr : unmaskedHeader C k.maskKey
      (encodePacket C k.keyId k.maskKey k.recvKey seq payload padLen d) =
        plainHeader k.keyId d.junkBytes.length.toUInt16 0 := by
    rw [encodePacket, sealPacket, List.append_assoc]
    exact unmaskedHeader_outerHeader _
  simp only [clientDecode, hhdr, hasKeyId_plainHeader, hasMagic_plainHeader, decide_true,
    not_true_eq_false, if_false]
  rw [if_neg (by omega), encodePacket, fits_sealPacket hC d.junkBytes_lt,
    openPacket_sealPacket hC d.junkBytes_lt]
  simpa using unframe_dataFrame hpos hlen _

/-! ### Chaff -/

/-- What a chaff packet draws at random. -/
structure ChaffDraws where
  /-- `pad_dist`, from 64 to 128. -/
  padLen : Fin 65
  /-- `fill_random_padding`. -/
  padding : (n : ℕ) → Vector UInt8 n
  /-- `RAND_bytes(aead_nonce + 8, 4)`. -/
  nonceTail : Vector UInt8 4
  /-- `RAND_bytes(hdr_iv, 12)`. -/
  hdrIv : Vector UInt8 12

/-- `build_chaff_packet`. -/
def buildChaffPacket (keyId : UInt64) (maskKey sendKey : Vector UInt8 32) (seq : UInt64)
    (d : ChaffDraws) : List UInt8 :=
  sealPacket C (outerHeader C keyId maskKey 0x80 d.hdrIv []) sendKey (aeadNonce seq d.nonceTail)
    ([0, 0] ++ (d.padding (64 + d.padLen)).toList)

theorem length_buildChaffPacket (hC : C.Correct) (keyId : UInt64)
    (maskKey sendKey : Vector UInt8 32) (seq : UInt64) (d : ChaffDraws) :
    (buildChaffPacket C keyId maskKey sendKey seq d).length = 122 + d.padLen := by
  rw [buildChaffPacket, length_sealPacket hC, length_outerHeader]
  simp only [List.length_append, List.length_cons, List.length_nil, Vector.length_toList]
  omega

end Wire

end Aegs
