import Aegs.Server.DataPlane
import Aegs.Wire.Mimicry

/-!
# What a raw data packet is taken for

A data packet starts with twelve random bytes and a header that is masked with a keystream.
A receiver looks at these bytes before it decrypts anything: for camouflage, and then for an
opcode. This file says for the packets of every sender when the receiver takes them for what
they are (`Aegs.Wire.takesData_iff`).

## What can go wrong, and what cannot

Every sender shapes its packets, so they have more than 258 bytes, and none has the length
of a handshake request or of a resumption. A chaff packet is shorter: one in sixty-five has
the 129 bytes of a PFS resumption, and with the opcode 0x05 as its first byte it is taken
for one.

The C++ client does not look at the length that way: whatever starts with 0x03 and has 97
bytes is a resumption token, so that it loses one packet in 256
(`Aegs.Wire.not_takesData`).

For the camouflage a packet needs several bytes of a kind: a QUIC header needs eight of
them, in the IV and in the masked header, of which the Android client asks for only four;
a TLS record needs the first three, and a ClientHello one byte and an extension further on.
-/

namespace Aegs

namespace Wire

open Bytes

/-! ### The bytes in front -/

/-- The masked header of a packet. -/
def maskedHeader (C : DataCipher) (keyId : UInt64) (maskKey : Vector UInt8 32) (flag : UInt8)
    (hdrIv : Vector UInt8 12) (junkLen : ℕ) : Vector UInt8 16 :=
  maskUnmaskHeader C (plainHeader keyId junkLen.toUInt16 flag) maskKey hdrIv

/-- The packet starts with this IV and this masked header. -/
structure Leads (hdrIv : Vector UInt8 12) (masked : Vector UInt8 16) (pkt : List UInt8) :
    Prop where
  /-- The IV. -/
  iv : ∀ {i : ℕ} (hi : i < 12), byteAt pkt i = hdrIv[i]
  /-- The masked header. -/
  masked : ∀ {i : ℕ} (hi : i < 16), byteAt pkt (12 + i) = masked[i]

/-- **Every packet of the common layout leads with its IV and its masked header.** -/
theorem leads_sealPacket (C : DataCipher) (keyId : UInt64) (maskKey sendKey : Vector UInt8 32)
    (flag : UInt8) (hdrIv nonce : Vector UInt8 12) (junk frame : List UInt8) :
    Leads hdrIv (maskedHeader C keyId maskKey flag hdrIv junk.length)
      (sealPacket C (outerHeader C keyId maskKey flag hdrIv junk) sendKey nonce frame) := by
  constructor
  · intro i hi
    rw [byteAt, sealPacket, outerHeader, List.append_assoc, List.append_assoc, List.append_assoc,
      List.getD_eq_getElem?_getD, List.getElem?_append_left (by simpa using hi),
      ← List.getD_eq_getElem?_getD, getD_toList hdrIv hi]
  · intro i hi
    rw [byteAt, sealPacket, outerHeader, List.append_assoc, List.append_assoc, List.append_assoc,
      List.getD_eq_getElem?_getD, List.getElem?_append_right (by simp),
      List.getElem?_append_left (by simpa using hi), ← List.getD_eq_getElem?_getD,
      Vector.length_toList, Nat.add_sub_cancel_left]
    exact getD_toList _ hi

/-- The bytes of the IV and of the masked header that make a QUIC header of some version. -/
def QuicBytes (hdrIv : Vector UInt8 12) (masked : Vector UInt8 16) : Prop :=
  getElem hdrIv 0 zero_lt_12 &&& 0x80 ≠ 0 ∧ getElem hdrIv 5 five_lt_12 = 0x08 ∧
    getElem masked 2 two_lt_16 = 0x08 ∧ getElem masked 11 eleven_lt_16 = 0x00

/-- The version in such a header is one that the C++ programs know. -/
def QuicVersion (hdrIv : Vector UInt8 12) : Prop :=
  (hdrIv[1], hdrIv[2], hdrIv[3], hdrIv[4]) ∈ quicVersions

/-- The first bytes of the IV make a TLS record header, for a record that is no longer than
the packet. -/
def TlsRecordBytes (hdrIv : Vector UInt8 12) (len : ℕ) : Prop :=
  getElem hdrIv 0 zero_lt_12 = 0x17 ∧ hdrIv[1] = 0x03 ∧ hdrIv[2] = 0x03 ∧
    0 < AegsProtocol.toInt hdrIv[3] hdrIv[4] ∧ AegsProtocol.toInt hdrIv[3] hdrIv[4] ≤ len - 5

/-! ### The tests of the receivers -/

/-- The server strips nothing from the packet, and takes it for no opcode. -/
def ServerTakesData (stripTlsAppdata : List UInt8 → Option (List UInt8)) (pkt : List UInt8) :
    Prop :=
  serverUnwrap stripTlsAppdata pkt = (pkt, 0) ∧ Server.isOpcode pkt = false

/-- The C++ client strips nothing from the packet, and takes it for no token. -/
def ClientTakesData (pkt : List UInt8) : Prop :=
  clientUnwrap pkt = pkt ∧ isTokenPacket (clientUnwrap pkt) = false

/-- The Android client strips nothing from the packet. -/
def AndroidTakesData (pkt : List UInt8) : Prop := AegsProtocol.unwrap pkt = none

section

variable {hdrIv : Vector UInt8 12} {masked : Vector UInt8 16} {pkt : List UInt8}

/-- **The QUIC test of the C++ programs** looks at eight bytes, all of them random. -/
theorem isQuicMimicry_iff (h : Leads hdrIv masked pkt) (hlen : 56 ≤ pkt.length) :
    isQuicMimicry pkt = true ↔ QuicBytes hdrIv masked ∧ QuicVersion hdrIv := by
  rw [isQuicMimicry, decide_eq_true_eq, quicHeaderSize, QuicBytes, QuicVersion,
    h.iv (show 0 < 12 by decide), h.iv (show 1 < 12 by decide), h.iv (show 2 < 12 by decide),
    h.iv (show 3 < 12 by decide), h.iv (show 4 < 12 by decide), h.iv (show 5 < 12 by decide),
    h.masked (show 2 < 16 by decide), h.masked (show 11 < 16 by decide)]
  constructor
  · rintro ⟨-, h0, h5, h2, h11, hversion⟩
    exact ⟨⟨h0, h5, h2, h11⟩, hversion⟩
  · rintro ⟨⟨h0, h5, h2, h11⟩, hversion⟩
    exact ⟨by omega, h0, h5, h2, h11, hversion⟩

/-- **The QUIC test of the Android client** takes any version. -/
theorem isQuic_iff (h : Leads hdrIv masked pkt) (hlen : 56 ≤ pkt.length) :
    AegsProtocol.isQuic pkt = true ↔ QuicBytes hdrIv masked := by
  rw [AegsProtocol.isQuic, decide_eq_true_eq, QuicBytes, h.iv (show 0 < 12 by decide),
    h.iv (show 5 < 12 by decide), h.masked (show 2 < 16 by decide),
    h.masked (show 11 < 16 by decide)]
  exact and_iff_right (by omega)

/-- A strip that takes something away does not leave the packet. -/
theorem drop_ne_self {n : ℕ} (hn : 0 < n) (hlen : n ≤ pkt.length) : pkt.drop n ≠ pkt := by
  intro h
  have := congrArg List.length h
  rw [List.length_drop] at this
  omega

theorem serverTakesData_iff (h : Leads hdrIv masked pkt) (hlen : 56 ≤ pkt.length)
    (stripTlsAppdata : List UInt8 → Option (List UInt8)) :
    ServerTakesData stripTlsAppdata pkt ↔ stripTlsAppdata pkt = none ∧
      ¬(QuicBytes hdrIv masked ∧ QuicVersion hdrIv) ∧ ¬HasReality pkt ∧
      Server.isOpcode pkt = false := by
  rw [ServerTakesData, serverUnwrap, ← isQuicMimicry_iff h hlen,
    ← stripTlsReality_eq_none_iff, stripQuicMimicry]
  rcases stripTlsAppdata pkt with _ | payload
  · rcases hquic : isQuicMimicry pkt with _ | _
    · rcases stripTlsReality pkt with _ | payload
      · simp
      · simp
    · simp
  · simp

theorem clientTakesData_iff (h : Leads hdrIv masked pkt) (hlen : 97 ≤ pkt.length) :
    ClientTakesData pkt ↔
      ¬(QuicBytes hdrIv masked ∧ QuicVersion hdrIv) ∧ hdrIv[0] ≠ 0x03 := by
  rw [ClientTakesData, clientUnwrap, stripQuicMimicry, ← isQuicMimicry_iff h (by omega),
    ← h.iv (show 0 < 12 by decide)]
  rcases hquic : isQuicMimicry pkt with _ | _
  · simp [isTokenPacket, hlen]
  · have hsize : quicHeaderSize ≤ pkt.length := le_trans (by decide) hlen
    simp [drop_ne_self (show 0 < quicHeaderSize by decide) hsize]

theorem androidTakesData_iff (h : Leads hdrIv masked pkt) (hlen : 56 ≤ pkt.length) :
    AndroidTakesData pkt ↔ ¬TlsRecordBytes hdrIv pkt.length ∧ ¬QuicBytes hdrIv masked ∧
      ¬AegsProtocol.HasReality pkt := by
  have hrecord : AegsProtocol.isTlsRecord pkt = true ↔
      getElem hdrIv 0 zero_lt_12 = 0x17 ∧ hdrIv[1] = 0x03 ∧ hdrIv[2] = 0x03 := by
    rw [AegsProtocol.isTlsRecord, decide_eq_true_eq, h.iv (show 0 < 12 by decide),
      h.iv (show 1 < 12 by decide), h.iv (show 2 < 12 by decide)]
    exact and_iff_right (by omega)
  have hrecLen : lengthAt pkt 3 = AegsProtocol.toInt hdrIv[3] hdrIv[4] := by
    rw [lengthAt, h.iv (show 3 < 12 by decide), h.iv (show 3 + 1 < 12 by decide)]
  have hfirst : AegsProtocol.HasReality pkt → hdrIv[0] = 0x16 := fun hreality =>
    (h.iv (show 0 < 12 by decide)) ▸ hreality.2.1
  rw [AndroidTakesData, AegsProtocol.unwrap, TlsRecordBytes, ← hrecLen]
  by_cases htls : AegsProtocol.isTlsRecord pkt = true
  · obtain ⟨h0, h1, h2⟩ := hrecord.mp htls
    have hquic : ¬QuicBytes hdrIv masked := fun hq => absurd hq.1 (by rw [h0]; decide)
    have hreality : ¬AegsProtocol.HasReality pkt := fun hr =>
      absurd (h0.symm.trans (hfirst hr)) (by decide)
    rw [if_pos htls]
    by_cases hfits : 0 < lengthAt pkt 3 ∧ lengthAt pkt 3 ≤ pkt.length - 5
    · simp [hfits, h0, h1, h2]
    · simp [hfits, hquic, hreality]
  · have hnot : ¬(hdrIv[0] = 0x17 ∧ hdrIv[1] = 0x03 ∧ hdrIv[2] = 0x03 ∧ 0 < lengthAt pkt 3 ∧
        lengthAt pkt 3 ≤ pkt.length - 5) := fun hr => htls (hrecord.mpr ⟨hr.1, hr.2.1, hr.2.2.1⟩)
    rw [if_neg htls, and_iff_right hnot]
    by_cases hquic : AegsProtocol.isQuic pkt = true
    · simp [hquic, (isQuic_iff h hlen).mp hquic]
    · rw [if_neg hquic, and_iff_right ((isQuic_iff h hlen).not.mp hquic)]
      split
      · exact AegsProtocol.parseTlsRealityPayload_eq_none_iff pkt
      · rename_i hhead
        exact iff_of_true rfl fun hr => hhead ⟨hr.1, hr.2.1⟩

end

/-! ### The packets of every sender -/

/-- Who receives a packet. -/
inductive Receiver
  /-- The server. -/
  | server
  /-- The C++ client. -/
  | client
  /-- The Android client. -/
  | android
deriving DecidableEq

/-- **The packets of honest senders**, with their IV and their masked header, and who
receives them. The payloads are what the senders read: up to `BUFFER_SIZE` bytes, 20 at
least for the server, and up to 32768 for the Android client. -/
inductive Honest (C : DataCipher) :
    Receiver → Vector UInt8 12 → Vector UInt8 16 → List UInt8 → Prop
  /-- A packet of the C++ client. -/
  | client {keyId maskKey sendKey seq} {payload : List UInt8} {d : Draws} {pkt}
      (hlen : payload.length ≤ bufferSize)
      (hpkt : clientEncode C keyId maskKey sendKey seq payload d = some pkt) :
      Honest C .server d.hdrIv (maskedHeader C keyId maskKey 0 d.hdrIv d.junkBytes.length) pkt
  /-- A chaff packet of the C++ client. -/
  | chaff (keyId maskKey sendKey seq) (d : ChaffDraws) :
      Honest C .server d.hdrIv (maskedHeader C keyId maskKey 0x80 d.hdrIv 0)
        (buildChaffPacket C keyId maskKey sendKey seq d)
  /-- A packet of the Android client, chaff included. -/
  | android {ipPacket : List UInt8} (hlen : ipPacket.length ≤ 32768) (keyId maskKey sendKey txSeq)
      (isChaff : Bool) (d : AegsProtocol.Draws) :
      Honest C .server d.hdrIv
        (maskedHeader C keyId maskKey (if isChaff then AegsProtocol.chaffFlag else 0) d.hdrIv
          d.junkLen)
        (AegsProtocol.buildDataPacket C ipPacket (le64 keyId) maskKey sendKey txSeq isChaff d)
  /-- A packet of the server, for a client of either kind. -/
  | server {r : Receiver} (hr : r ≠ .server) (s : Server.Session) (seq) {buffer : List UInt8}
      (hmin : 20 ≤ buffer.length) (hlen : buffer.length ≤ bufferSize) (d : Draws) :
      Honest C r d.hdrIv
        (maskedHeader C s.identity.keyIdRaw s.txMaskKey 0 d.hdrIv d.junkBytes.length)
        (s.encode C seq buffer d)

/-- The receiver takes the packet for a data packet. -/
def TakesData (stripTlsAppdata : List UInt8 → Option (List UInt8)) : Receiver → List UInt8 → Prop
  | .server, pkt => ServerTakesData stripTlsAppdata pkt
  | .client, pkt => ClientTakesData pkt
  | .android, pkt => AndroidTakesData pkt

/-- **Nothing about the packet looks like something else**: it has the bytes of no
camouflage that the receiver strips; for the server it is not as long as a PFS resumption
with its opcode in front, and for the C++ client it does not start with 0x03. -/
def Unmistakable (stripTlsAppdata : List UInt8 → Option (List UInt8)) :
    Receiver → Vector UInt8 12 → Vector UInt8 16 → List UInt8 → Prop
  | .server, hdrIv, masked, pkt => stripTlsAppdata pkt = none ∧
      ¬(QuicBytes hdrIv masked ∧ QuicVersion hdrIv) ∧ ¬HasReality pkt ∧
      ¬(pkt.length = 129 ∧ getElem hdrIv 0 zero_lt_12 = 0x05)
  | .client, hdrIv, masked, _ =>
    ¬(QuicBytes hdrIv masked ∧ QuicVersion hdrIv) ∧ getElem hdrIv 0 zero_lt_12 ≠ 0x03
  | .android, hdrIv, masked, pkt => ¬TlsRecordBytes hdrIv pkt.length ∧ ¬QuicBytes hdrIv masked ∧
      ¬AegsProtocol.HasReality pkt

section

variable {C : DataCipher} {hdrIv : Vector UInt8 12} {masked : Vector UInt8 16} {pkt : List UInt8}

theorem leads_encodePacket (C : DataCipher) (keyId : UInt64) (maskKey sendKey : Vector UInt8 32)
    (seq : UInt64) (payload : List UInt8) (padLen : ℕ) (d : Draws) :
    Leads d.hdrIv (maskedHeader C keyId maskKey 0 d.hdrIv d.junkBytes.length)
      (encodePacket C keyId maskKey sendKey seq payload padLen d) :=
  leads_sealPacket C keyId maskKey sendKey 0 d.hdrIv _ _ _

/-- Every honest packet leads with its IV and its masked header. -/
theorem Honest.leads {r : Receiver} (h : Honest C r hdrIv masked pkt) :
    Leads hdrIv masked pkt := by
  cases h with
  | client hlen hpkt =>
    obtain ⟨padLen, -, rfl⟩ := Option.map_eq_some_iff.mp hpkt
    exact leads_encodePacket C _ _ _ _ _ padLen _
  | chaff => exact leads_sealPacket C _ _ _ 0x80 _ _ [] _
  | @android ipPacket hlen keyId maskKey sendKey txSeq isChaff d =>
    have hleads := leads_sealPacket C keyId maskKey sendKey
      (if isChaff then AegsProtocol.chaffFlag else 0) d.hdrIv
      (aeadNonce (UInt64.ofBitVec txSeq) d.rnd4) (d.junk d.junkLen).toList
      (dataFrame ipPacket (d.padBytes (AegsProtocol.padLen d ipPacket.length)).toList)
    rwa [Vector.length_toList, ← AegsProtocol.buildDataPacket_eq C (by omega)] at hleads
  | server => exact leads_encodePacket C _ _ _ _ _ _ _

/-- **No honest packet is short**: it has the lengths of chaff, or more than 258 bytes. -/
theorem Honest.length {r : Receiver} (hC : C.Correct) (h : Honest C r hdrIv masked pkt) :
    (r = .server ∧ 122 ≤ pkt.length) ∨ 258 < pkt.length := by
  cases h with
  | @client keyId maskKey sendKey seq payload d _ hlen hpkt =>
    obtain ⟨padLen, hpad, rfl⟩ := Option.map_eq_some_iff.mp hpkt
    have hframe := lt_clientPadLen hpad
    rw [length_encodePacket C hC]
    omega
  | chaff =>
    rw [length_buildChaffPacket C hC]
    exact Or.inl ⟨rfl, by omega⟩
  | @android ipPacket hlen keyId maskKey sendKey txSeq isChaff d =>
    have hpad := AegsProtocol.lt_padLen d ipPacket.length
    rw [AegsProtocol.buildDataPacket_eq C (by omega), length_sealPacket hC, length_outerHeader,
      length_dataFrame, Vector.length_toList, Vector.length_toList]
    omega
  | @server _ hr s seq buffer hmin hlen d =>
    have hframe := Server.lt_serverPadLen d buffer.length
    rw [Server.Session.encode, length_encodePacket C hC]
    omega

/-- A packet of 122 bytes or more has the length of one opcode only, the PFS resumption. -/
theorem isOpcode_iff (h : Leads hdrIv masked pkt) (hlen : 122 ≤ pkt.length) :
    Server.isOpcode pkt = false ↔ ¬(pkt.length = 129 ∧ hdrIv[0] = 0x05) := by
  have hhead : pkt.head? = some hdrIv[0] := by
    rw [← h.iv (show 0 < 12 by decide)]
    rcases pkt with _ | ⟨b, pkt⟩
    · exact absurd hlen (by decide)
    · rfl
  rw [Server.isOpcode, decide_eq_false_iff_not, hhead, not_iff_not]
  constructor
  · rintro (⟨-, hl⟩ | ⟨hb, hl⟩ | ⟨-, hl⟩)
    · omega
    · exact ⟨hl, Option.some.inj hb⟩
    · omega
  · rintro ⟨hl, hb⟩
    exact Or.inr (Or.inl ⟨congrArg some hb, hl⟩)

/-- **A receiver takes an honest packet for data exactly when nothing about it looks like
something else.** -/
theorem takesData_iff (hC : C.Correct) (stripTlsAppdata : List UInt8 → Option (List UInt8))
    {r : Receiver} (h : Honest C r hdrIv masked pkt) :
    TakesData stripTlsAppdata r pkt ↔ Unmistakable stripTlsAppdata r hdrIv masked pkt := by
  have hleads := h.leads
  have hlen := h.length hC
  cases r with
  | server =>
    have hlen' : 122 ≤ pkt.length := by omega
    rw [TakesData, serverTakesData_iff hleads (by omega), isOpcode_iff hleads hlen', Unmistakable]
  | client => exact clientTakesData_iff hleads (by simp at hlen; omega)
  | android => exact androidTakesData_iff hleads (by simp at hlen; omega)

end

/-- The packet that the server sends for a new session with these twelve bytes as its IV. -/
def smallPacket (hdrIv : Vector UInt8 12) : List UInt8 :=
  Server.Session.fresh.encode smallDataCipher 1 smallPayload (smallDraws hdrIv)

theorem honest_smallPacket (hdrIv : Vector UInt8 12) :
    Honest smallDataCipher .client hdrIv
      (maskedHeader smallDataCipher 0 (Vector.replicate 32 0) 0 hdrIv 0) (smallPacket hdrIv) :=
  .server (by decide) Server.Session.fresh 1 (by decide) (by decide) (smallDraws hdrIv)

/-- **A token for the C++ client**: it takes a packet of the server whose IV starts with
0x03 for a resumption token. -/
theorem not_takesData : ¬∀ (r : Receiver) (hdrIv : Vector UInt8 12) (masked : Vector UInt8 16)
    (pkt : List UInt8), Honest smallDataCipher r hdrIv masked pkt →
      TakesData (fun _ => none) r pkt := by
  intro h
  have htakes := (h _ _ _ _ (honest_smallPacket (Vector.replicate 12 3))).2
  have htoken : isTokenPacket (clientUnwrap (smallPacket (Vector.replicate 12 3))) = true := by
    decide +kernel
  exact absurd (htoken.symm.trans htakes) (by decide)

theorem takesData_smallPacket :
    TakesData (fun _ => none) .client (smallPacket (Vector.replicate 12 4)) :=
  (takesData_iff smallDataCipher_correct (fun _ => none)
    (honest_smallPacket (Vector.replicate 12 4))).mpr ⟨fun h => h.1.1 (by decide), by decide⟩

end Wire

end Aegs
