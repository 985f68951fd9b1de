import Aegs.Wire.Android
import Aegs.Wire.Client

/-!
# Camouflage, as the receivers detect it

A datagram may be wrapped in the header of a QUIC packet, in a TLS application data record
or in a TLS ClientHello. Before anything else each receiver looks at the bytes of what it
got and strips what looks like one of these. This file has the tests of the three
receivers: `ProtocolMimicry` for the C++ programs, and the first lines of `parseDataPacket`
for the Android client, which asks for other bytes.

`strip_tls_appdata_mimicry`, which the server calls first, is declared nowhere in the
repository, so it is a parameter: the payload if it strips something.

The loops that look for the ECH extension are `findSome?` over the positions, first to
last; `Aegs.Wire.stripTlsReality_eq_none_iff` and
`Aegs.Wire.AegsProtocol.parseTlsRealityPayload_eq_none_iff` say when they find nothing.
-/

namespace Aegs

namespace Wire

/-- `buf[i]`. -/
def byteAt (buf : List UInt8) (i : ℕ) : UInt8 := buf.getD i 0

/-- The 16-bit length at a position, most significant byte first. -/
def lengthAt (buf : List UInt8) (i : ℕ) : ℕ :=
  AegsProtocol.toInt (byteAt buf i) (byteAt buf (i + 1))

/-! ### The C++ programs -/

/-- `kQuicHeaderSize`. -/
def quicHeaderSize : ℕ := 24

/-- The versions that `is_quic_mimicry` knows: v1, v2, drafts 29 and 32, and version
negotiation. -/
def quicVersions : List (UInt8 × UInt8 × UInt8 × UInt8) :=
  [(0x00, 0x00, 0x00, 0x01), (0x6B, 0x33, 0x43, 0xCF), (0xFF, 0x00, 0x00, 0x1D),
    (0xFF, 0x00, 0x00, 0x20), (0x00, 0x00, 0x00, 0x00)]

/-- `is_quic_mimicry`. -/
def isQuicMimicry (buf : List UInt8) : Bool :=
  quicHeaderSize ≤ buf.length ∧ byteAt buf 0 &&& 0x80 ≠ 0 ∧ byteAt buf 5 = 0x08 ∧
    byteAt buf 14 = 0x08 ∧ byteAt buf 23 = 0x00 ∧
    (byteAt buf 1, byteAt buf 2, byteAt buf 3, byteAt buf 4) ∈ quicVersions

/-- `strip_quic_mimicry`, if it strips. -/
def stripQuicMimicry (buf : List UInt8) : Option (List UInt8) :=
  if isQuicMimicry buf then some (buf.drop quicHeaderSize) else none

/-- `ext_end` of the extension that starts at `i`. -/
def extEnd (buf : List UInt8) (i : ℕ) : ℕ := min (i + 4 + lengthAt buf (i + 2)) buf.length

/-- The ECH extension starts at `i`. -/
def echAt (buf : List UInt8) (i : ℕ) : Bool := byteAt buf i = 0xFE ∧ byteAt buf (i + 1) = 0x0D

/-- `AEG1` is at `j`. -/
def markAt (buf : List UInt8) (j : ℕ) : Bool :=
  byteAt buf j = 0x41 ∧ byteAt buf (j + 1) = 0x45 ∧ byteAt buf (j + 2) = 0x47 ∧
    byteAt buf (j + 3) = 0x31

/-- The positions where the 10 bytes of an ECH extension may start. -/
def echPositions (buf : List UInt8) : List ℕ := List.range' 5 (buf.length - 14)

/-- `strip_tls_reality_mimicry`, if it strips. -/
def stripTlsReality (buf : List UInt8) : Option (List UInt8) :=
  if buf.length < 45 ∨ byteAt buf 0 ≠ 0x16 then none
  else
    (echPositions buf).findSome? fun i =>
      if echAt buf i then
        (List.range' (i + 4) (extEnd buf i - (i + 7))).findSome? fun j =>
          if markAt buf j ∧ j + 4 < extEnd buf i then
            some ((buf.drop (j + 4)).take (extEnd buf i - (j + 4)))
          else none
      else none

theorem mem_echPositions {buf : List UInt8} {i : ℕ} :
    i ∈ echPositions buf ↔ 5 ≤ i ∧ i + 10 ≤ buf.length := by
  rw [echPositions, List.mem_range'_1]
  omega

/-- A packet with the bytes that `strip_tls_reality_mimicry` looks for: the type of a
handshake record, an ECH extension, and in it the mark with a payload. -/
def HasReality (buf : List UInt8) : Prop :=
  45 ≤ buf.length ∧ byteAt buf 0 = 0x16 ∧ ∃ i, 5 ≤ i ∧ i + 10 ≤ buf.length ∧ echAt buf i ∧
    ∃ j, i + 4 ≤ j ∧ j + 4 < extEnd buf i ∧ markAt buf j

/-- **The TLS test strips nothing** exactly when these bytes are not there. -/
theorem stripTlsReality_eq_none_iff (buf : List UInt8) :
    stripTlsReality buf = none ↔ ¬HasReality buf := by
  rw [stripTlsReality, HasReality]
  split
  · rename_i hhead
    exact iff_of_true rfl fun h => hhead.elim (fun hlen => by omega) fun hne => hne h.2.1
  · rename_i hhead
    rw [not_or, not_lt, not_not] at hhead
    simp only [List.findSome?_eq_none_iff, mem_echPositions, hhead, true_and]
    constructor
    · rintro hnone ⟨i, hi, hlen, hech, j, hj, hend, hmark⟩
      have hinner := hnone i ⟨hi, hlen⟩
      rw [if_pos hech, List.findSome?_eq_none_iff] at hinner
      have := hinner j (List.mem_range'_1.mpr ⟨hj, by omega⟩)
      rw [if_pos ⟨hmark, hend⟩] at this
      exact nomatch this
    · intro hnone i hi
      by_cases hech : echAt buf i = true
      · rw [if_pos hech, List.findSome?_eq_none_iff]
        intro j hj
        rw [if_neg]
        rintro ⟨hmark, hend⟩
        exact hnone ⟨i, hi.1, hi.2, hech, j, (List.mem_range'_1.mp hj).1, hend, hmark⟩
      · rw [if_neg hech]

/-- What the server strips from a datagram, and the camouflage it notes:
`pkt_mimic_type`. -/
def serverUnwrap (stripTlsAppdata : List UInt8 → Option (List UInt8)) (buf : List UInt8) :
    List UInt8 × UInt8 :=
  match stripTlsAppdata buf with
  | some payload => (payload, 2)
  | none =>
    match stripQuicMimicry buf with
    | some payload => (payload, 1)
    | none =>
      match stripTlsReality buf with
      | some payload => (payload, 2)
      | none => (buf, 0)

/-- What the C++ client strips from a datagram. -/
def clientUnwrap (buf : List UInt8) : List UInt8 := (stripQuicMimicry buf).getD buf

/-- The C++ client takes the datagram for a resumption token. -/
def isTokenPacket (buf : List UInt8) : Bool := 97 ≤ buf.length ∧ byteAt buf 0 = 0x03

/-! ### The Android client -/

namespace AegsProtocol

/-- A TLS application data record. -/
def isTlsRecord (packet : List UInt8) : Bool :=
  5 ≤ packet.length ∧ byteAt packet 0 = 0x17 ∧ byteAt packet 1 = 0x03 ∧ byteAt packet 2 = 0x03

/-- The QUIC header that the Android client asks for, of any version. -/
def isQuic (packet : List UInt8) : Bool :=
  24 ≤ packet.length ∧ byteAt packet 0 &&& 0x80 ≠ 0 ∧ byteAt packet 5 = 0x08 ∧
    byteAt packet 14 = 0x08 ∧ byteAt packet 23 = 0x00

/-- Where the payload of the ECH extension at `i` starts. -/
def payloadStart (packet : List UInt8) (i : ℕ) : ℕ :=
  if i + 10 + 4 ≤ extEnd packet i ∧ markAt packet (i + 10) then i + 10 + 4 else i + 10

/-- The ECH extension at `i` has the bytes that are written in front of a payload. -/
def isEchPayload (packet : List UInt8) (i : ℕ) : Bool :=
  echAt packet i ∧ 6 ≤ lengthAt packet (i + 2) ∧ i + 4 + 6 ≤ extEnd packet i ∧
    byteAt packet (i + 4) = 0x00 ∧ byteAt packet (i + 5) = 0x00 ∧ byteAt packet (i + 6) = 0x20

/-- `parseTlsRealityPayload`. -/
def parseTlsRealityPayload (packet : List UInt8) : Option (List UInt8) :=
  if packet.length < 45 ∨ byteAt packet 0 ≠ 0x16 then none
  else
    (echPositions packet).findSome? fun i =>
      if isEchPayload packet i ∧ 0 < extEnd packet i - payloadStart packet i then
        some ((packet.drop (payloadStart packet i)).take
          (extEnd packet i - payloadStart packet i))
      else none

/-- A packet with the bytes that `parseTlsRealityPayload` looks for. -/
def HasReality (packet : List UInt8) : Prop :=
  45 ≤ packet.length ∧ byteAt packet 0 = 0x16 ∧ ∃ i, 5 ≤ i ∧ i + 10 ≤ packet.length ∧
    isEchPayload packet i ∧ payloadStart packet i < extEnd packet i

theorem parseTlsRealityPayload_eq_none_iff (packet : List UInt8) :
    parseTlsRealityPayload packet = none ↔ ¬HasReality packet := by
  rw [parseTlsRealityPayload, HasReality]
  split
  · rename_i hhead
    exact iff_of_true rfl fun h => hhead.elim (fun hlen => by omega) fun hne => hne h.2.1
  · rename_i hhead
    rw [not_or, not_lt, not_not] at hhead
    simp only [List.findSome?_eq_none_iff, mem_echPositions, hhead, true_and]
    constructor
    · rintro hnone ⟨i, hi, hlen, hech, hstart⟩
      have := hnone i ⟨hi, hlen⟩
      rw [if_pos ⟨hech, by omega⟩] at this
      exact nomatch this
    · intro hnone i hi
      rw [if_neg]
      rintro ⟨hech, hstart⟩
      exact hnone ⟨i, hi.1, hi.2, hech, by omega⟩

/-- What `parseDataPacket` strips from a packet, if it does. -/
def unwrap (packet : List UInt8) : Option (List UInt8) :=
  if isTlsRecord packet then
    let recLen := lengthAt packet 3
    if 0 < recLen ∧ recLen ≤ packet.length - 5 then some ((packet.drop 5).take recLen) else none
  else if isQuic packet then some (packet.drop 24)
  else if 45 ≤ packet.length ∧ byteAt packet 0 = 0x16 then parseTlsRealityPayload packet
  else none

/-- **`parseDataPacket`**. -/
def parseDataPacket (C : DataCipher) (packet : List UInt8) (keyId : Vector UInt8 8)
    (maskKey : Vector UInt8 32) (altMaskKey : Option (Vector UInt8 32))
    (recvKey : Vector UInt8 32) : Option (List UInt8) :=
  parseUnwrapped C keyId maskKey altMaskKey recvKey ((unwrap packet).getD packet)

end AegsProtocol

end Wire

end Aegs
