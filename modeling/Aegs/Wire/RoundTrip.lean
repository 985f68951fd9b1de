import Aegs.Server.DataPlane
import Aegs.Wire.Mimicry

/-!
# Data packets arrive

A payload that one end encodes is the payload that the other end decodes, for the four
pairs of ends that the C++ server, the C++ client and the Android client make
(`Aegs.Wire.roundTrip`).

The three encoders write the same layout – for the Android client that is
`Aegs.Wire.AegsProtocol.buildDataPacket_eq` – and so there is one fact to be shown for each
decoder: it takes a packet of that layout apart again. For the session of the server this is
`Aegs.Server.Session.decode_sealPacket`, for the C++ client
`Aegs.Wire.clientDecode_encodePacket` and for the Android client
`Aegs.Wire.AegsProtocol.parseUnwrapped_sealPacket`.

A decoder is what is behind the tests for opcodes and camouflage. Whether these take the
packet for something else is a matter of its leading bytes.
-/

namespace Aegs

open Bytes Wire

namespace Server

variable (C : DataCipher)

/-- The key ids that a session serves. -/
def SessionIdentity.Serves (i : SessionIdentity) (keyId : UInt64) : Prop :=
  i.keyIdRaw = keyId ∨ (i.baseKeyIdRaw ≠ 0 ∧ i.baseKeyIdRaw = keyId)

theorem SessionIdentity.accepts_plainHeader {i : SessionIdentity} {keyId : UInt64}
    (h : i.Serves keyId) (junkLen : UInt16) (flag : UInt8) :
    i.accepts (plainHeader keyId junkLen flag) = true := by
  rw [accepts, hasKeyId_plainHeader, hasKeyId_plainHeader, hasMagic_plainHeader]
  rcases h with rfl | ⟨hne, rfl⟩
  · simp
  · simp [hne]

/-- A packet that is masked with the session's mask key and has a key id that it serves is
recognised, and its header is what was written. -/
theorem Session.matchHeader_outerHeader {s : Session} {keyId : UInt64} {flag : UInt8}
    {hdrIv : Vector UInt8 12} {junk : List UInt8} (h : s.identity.Serves keyId)
    (rest : List UInt8) :
    s.matchHeader C (outerHeader C keyId s.crypto.maskKey flag hdrIv junk ++ rest) =
      some (false, plainHeader keyId junk.length.toUInt16 flag) := by
  have haccepts := SessionIdentity.accepts_plainHeader h junk.length.toUInt16 flag
  simp only [matchHeader, unmaskedHeader_outerHeader, haccepts, if_true]

/-- **A session reads what was sealed for it.** -/
theorem Session.decode_sealPacket (hC : C.Correct) {s : Session} {keyId : UInt64}
    (h : s.identity.Serves keyId) {hdrIv : Vector UInt8 12} {junk : List UInt8}
    (hjunk : junk.length < 65536) (nonce : Vector UInt8 12) {payload : List UInt8}
    (hpos : 0 < payload.length) (hlen : payload.length < 65536) (padding : List UInt8) :
    s.decode C (sealPacket C (outerHeader C keyId s.crypto.maskKey 0 hdrIv junk)
      s.crypto.sessionKeys.recvKey nonce (dataFrame payload padding)) = some payload := by
  have hlength := @length_sealPacket C s.crypto.sessionKeys.recvKey nonce
    (dataFrame payload padding) hC (outerHeader C keyId s.crypto.maskKey 0 hdrIv junk)
  have hmatch := @matchHeader_outerHeader C s keyId 0 hdrIv junk h
    (nonce.toList ++ C.encrypt s.crypto.sessionKeys.recvKey nonce
      (outerHeader C keyId s.crypto.maskKey 0 hdrIv junk) (dataFrame payload padding))
  rw [← List.append_assoc, ← sealPacket] at hmatch
  rw [length_outerHeader] at hlength
  rw [decode, if_neg (by omega), hmatch]
  simp only [fits_sealPacket hC hjunk, openPacket_sealPacket hC hjunk, not_true_eq_false, if_false,
    Option.bind_some]
  rw [payloadOf, getElem_plainHeader_flag]
  exact unframe_dataFrame hpos hlen padding

end Server

namespace Wire

variable (C : DataCipher)

/-- **The Android client reads what was sealed for it.** -/
theorem AegsProtocol.parseUnwrapped_sealPacket (hC : C.Correct) (keyId : UInt64)
    (maskKey recvKey : Vector UInt8 32) (altMaskKey : Option (Vector UInt8 32))
    {hdrIv : Vector UInt8 12} {junk : List UInt8} (hjunk : junk.length < 65536)
    (nonce : Vector UInt8 12) {payload : List UInt8} (hpos : 0 < payload.length)
    (hlen : payload.length < 65536) (padding : List UInt8) :
    AegsProtocol.parseUnwrapped C (le64 keyId) maskKey altMaskKey recvKey
      (sealPacket C (outerHeader C keyId maskKey 0 hdrIv junk) recvKey nonce
        (dataFrame payload padding)) = some payload := by
  have hlength := @length_sealPacket C recvKey nonce (dataFrame payload padding) hC
    (outerHeader C keyId maskKey 0 hdrIv junk)
  rw [length_outerHeader] at hlength
  have hhdr : AegsProtocol.unmaskHdr C (le64 keyId) maskKey altMaskKey
      (sealPacket C (outerHeader C keyId maskKey 0 hdrIv junk) recvKey nonce
        (dataFrame payload padding)) = some (plainHeader keyId junk.length.toUInt16 0) := by
    rw [AegsProtocol.unmaskHdr, sealPacket, List.append_assoc]
    simp only [unmaskedHeader_outerHeader, AegsProtocol.hdrOk_eq, hasKeyId_plainHeader,
      hasMagic_plainHeader, decide_true, Bool.and_self, if_true]
  have hflag : (plainHeader keyId junk.length.toUInt16 0)[10] &&& AegsProtocol.chaffFlag = 0 := by
    rw [getElem_plainHeader_flag]
    rfl
  rw [AegsProtocol.parseUnwrapped_eq C (by omega) hhdr hflag (fits_sealPacket hC hjunk),
    openPacket_sealPacket hC hjunk, Option.bind_some]
  exact unframe_dataFrame hpos hlen padding

/-- **Data packets arrive.** For every payload of 1 to 64000 bytes and whatever the encoder
draws: what the C++ client and the Android client send, a session of the server that
serves the key id and has the keys decodes, and what the server sends for a session, both
clients decode with its keys. -/
theorem roundTrip (hC : C.Correct) {payload : List UInt8} (hpos : 1 ≤ payload.length)
    (hlen : payload.length ≤ bufferSize) :
    (∀ (s : Server.Session) keyId seq d, s.identity.Serves keyId →
      ∃ pkt, clientEncode C keyId s.crypto.maskKey s.crypto.sessionKeys.recvKey seq payload d =
        some pkt ∧ s.decode C pkt = some payload) ∧
    (∀ (s : Server.Session) seq d,
      clientDecode C ⟨s.identity.keyIdRaw, s.txMaskKey, s.crypto.sessionKeys.sendKey⟩
        (s.encode C seq payload d) = some payload) ∧
    (∀ (s : Server.Session) keyId txSeq d, s.identity.Serves keyId →
      s.decode C (AegsProtocol.buildDataPacket C payload (le64 keyId) s.crypto.maskKey
        s.crypto.sessionKeys.recvKey txSeq false d) = some payload) ∧
    (∀ (s : Server.Session) seq d altMaskKey,
      AegsProtocol.unwrap (s.encode C seq payload d) = none →
      AegsProtocol.parseDataPacket C (s.encode C seq payload d) (le64 s.identity.keyIdRaw)
        s.txMaskKey altMaskKey s.crypto.sessionKeys.sendKey = some payload) := by
  have hlen' : payload.length < 65536 := by
    rw [bufferSize] at hlen
    omega
  refine ⟨fun s keyId seq d hserves => ?_, fun s seq d => ?_, fun s keyId txSeq d hserves => ?_,
    fun s seq d altMaskKey hunwrap => ?_⟩
  · obtain ⟨padLen, hpad⟩ := exists_clientPadLen d hlen
    refine ⟨_, by rw [clientEncode, hpad, Option.map_some], ?_⟩
    exact s.decode_sealPacket C hC hserves d.junkBytes_lt _ hpos hlen' _
  · exact clientDecode_encodePacket C hC
      ⟨s.identity.keyIdRaw, s.txMaskKey, s.crypto.sessionKeys.sendKey⟩ seq hpos hlen' _ d
  · rw [AegsProtocol.buildDataPacket_eq C hlen']
    have hjunk : (d.junk d.junkLen).toList.length < 65536 := by
      rw [Vector.length_toList]
      omega
    exact s.decode_sealPacket C hC hserves hjunk _ hpos hlen' _
  · rw [AegsProtocol.parseDataPacket, hunwrap, Option.getD_none]
    exact AegsProtocol.parseUnwrapped_sealPacket C hC _ _ _ _ d.junkBytes_lt _ hpos hlen' _

/-- A session with the key id 5 and three keys. -/
def smallSession : Server.Session := { Server.Session.fresh with
  identity := ⟨5, 0, 77, 2⟩
  crypto := { Server.SessionCrypto.empty with
    maskKey := Vector.replicate 32 1
    sessionKeys := ⟨Vector.replicate 32 2, Vector.replicate 32 3, 77, 0, 0⟩ } }

theorem roundTrip_small :
    clientDecode smallDataCipher ⟨5, Vector.replicate 32 1, Vector.replicate 32 2⟩
        (smallSession.encode smallDataCipher 1 smallPayload
          (smallDraws (Vector.replicate 12 4))) = some smallPayload ∧
      smallSession.decode smallDataCipher
        (AegsProtocol.buildDataPacket smallDataCipher smallPayload (le64 5) (Vector.replicate 32 1)
          (Vector.replicate 32 3) 1 false
          ⟨0, 50, 0, fun n => Vector.replicate n 7, 3, Vector.replicate 12 4,
            fun n => Vector.replicate n 6, Vector.replicate 4 9⟩) = some smallPayload := by
  obtain ⟨-, hdown, hup, -⟩ := @roundTrip smallDataCipher smallDataCipher_correct smallPayload
    (by decide) (by decide)
  exact ⟨hdown smallSession 1 _, hup smallSession 5 1 _ (Or.inl rfl)⟩

end Wire

end Aegs
