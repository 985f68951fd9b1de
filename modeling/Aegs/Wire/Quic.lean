import Aegs.Lib.Bytes
import Aegs.Wire.Mimicry

/-!
# The QUIC header, as the sender writes it

`ProtocolMimicry::wrap_quic_initial` shifts a packet by 24 bytes in its buffer and writes a
header in front of it, field by field. What it makes is the header followed by the packet
(`Aegs.Wire.wrapped_wrapQuicInitial`), so the receiver's test is about the version alone
(`Aegs.Wire.isQuicMimicry_append`) and what it strips is the packet.

The version 0 means both version negotiation and “choose one”. The mode for version
negotiation asks for it, and gets one of five versions by chance; and a configured version
that the receiver does not know is written all the same. The exact condition is
`Aegs.Wire.ProtocolMimicry.carries_iff`.
-/

namespace Aegs

namespace Wire

open Bytes

/-! ### Writing a buffer from left to right -/

section Fields

variable {n k : ℕ}

/-- A field written behind the bytes that are there already. -/
theorem take_copyIn_self (dst : Vector UInt8 n) {off m : ℕ} (src : Vector UInt8 k)
    (hm : off + k = m) (hn : m ≤ n) :
    (copyIn dst off src).toList.take m = dst.toList.take off ++ src.toList := by
  subst hm
  refine List.ext_getElem (by simp; omega) fun i hi hi' => ?_
  rw [List.length_take, Vector.length_toList] at hi
  rw [List.getElem_take, Vector.getElem_toList, List.getElem_append]
  by_cases hoff : i < off
  · rw [dif_pos (by simp; omega), getElem_copyIn_of_notMem dst src (by omega) (by omega),
      List.getElem_take, Vector.getElem_toList]
  · have hlen : (dst.toList.take off).length = off := by simp; omega
    rw [dif_neg (by omega), getElem_copyIn_of_mem dst src (by omega) (by omega),
      Vector.getElem_toList]
    simp only [hlen]

/-- The bytes behind the copy stay. -/
theorem drop_copyIn (dst : Vector UInt8 n) {off m : ℕ} (src : Vector UInt8 k)
    (hm : off + k ≤ m) : (copyIn dst off src).toList.drop m = dst.toList.drop m := by
  refine List.ext_getElem (by simp) fun i hi _ => ?_
  have hin : m + i < n := by
    rw [List.length_drop, Vector.length_toList] at hi
    omega
  rw [List.getElem_drop, List.getElem_drop, Vector.getElem_toList, Vector.getElem_toList,
    getElem_copyIn_of_notMem dst src hin (by omega)]

/-- What was copied in is behind its offset. -/
theorem take_drop_copyIn_self (dst : Vector UInt8 n) {off : ℕ} (src : Vector UInt8 k)
    (hn : off + k ≤ n) : ((copyIn dst off src).toList.drop off).take k = src.toList := by
  have htake := take_copyIn_self dst src rfl hn
  rw [List.take_add, take_copyIn dst src le_rfl] at htake
  exact List.append_cancel_left htake

/-- The first bytes of a buffer. -/
theorem toList_copyOut_zero (src : List UInt8) (hk : k ≤ src.length) :
    (copyOut src 0 k).toList = src.take k := by
  refine List.ext_getElem (by simp; omega) fun i hi _ => ?_
  rw [Vector.length_toList] at hi
  rw [Vector.getElem_toList, List.getElem_take]
  simp only [copyOut, Vector.getElem_ofFn, Nat.zero_add]
  rw [List.getD_eq_getElem?_getD, List.getElem?_eq_getElem (by omega), Option.getD_some]

end Fields

/-! ### `ProtocolMimicry` -/

/-- `kQuicVersion1`. -/
def quicVersion1 : UInt32 := 0x00000001

/-- `kQuicVersion2`. -/
def quicVersion2 : UInt32 := 0x6B3343CF

/-- `kQuicDraft29`. -/
def quicDraft29 : UInt32 := 0xFF00001D

/-- `kQuicDraft32`. -/
def quicDraft32 : UInt32 := 0xFF000020

/-- `kQuicVerNeg`. -/
def quicVerNeg : UInt32 := 0x00000000

/-- `kVersions`. -/
def versions : Vector UInt32 5 :=
  #v[quicVersion1, quicVersion2, quicDraft29, quicDraft32, quicVerNeg]

/-- What `RAND_bytes` draws for a header. -/
abbrev RandBytes := Vector UInt8 18

/-- The version that is written: a draw where none is asked for. -/
def chooseVersion (rand : RandBytes) (quicVersion : UInt32) : UInt32 :=
  if quicVersion = 0 then versions.get ⟨rand[0].toNat % 5, Nat.mod_lt _ (by decide)⟩
  else quicVersion

/-- `wrap_quic_initial`, on the buffer and the length of the data in it. The draw fails as
`none`. -/
def wrapQuicInitial {n : ℕ} (rand : Option RandBytes) (buf : Vector UInt8 n) (dataLen : ℕ)
    (sessionSeed : Option (Vector UInt8 2)) (quicVersion : UInt32) : Vector UInt8 n × ℕ :=
  if dataLen + quicHeaderSize > n then (buf, dataLen)
  else
    match rand with
    | none => (buf, dataLen)
    | some randBytes =>
      -- `memmove`
      let buf := copyIn buf quicHeaderSize (copyOut buf.toList 0 dataLen)
      let version := chooseVersion randBytes quicVersion
      let buf :=
        if version = quicVerNeg then copyIn buf 0 #v[(0x80 : UInt8) ||| (randBytes[1] &&& 0x7F)]
        else copyIn buf 0 #v[(0xC0 : UInt8) ||| (randBytes[1] &&& 0x0F)]
      let buf := copyIn buf 1 (be32 version)
      let buf := copyIn buf 5 #v[0x08]
      let buf :=
        match sessionSeed with
        | some seed =>
          let buf := copyIn buf 6 #v[getElem seed 0 Nat.zero_lt_two]
          let buf := copyIn buf 7 #v[getElem seed 1 Nat.one_lt_two]
          copyIn buf 8 (copyOut randBytes.toList 2 6)
        | none => copyIn buf 6 (copyOut randBytes.toList 2 8)
      let buf := copyIn buf 14 #v[0x08]
      let buf := copyIn buf 15 (copyOut randBytes.toList 10 8)
      let buf := copyIn buf 23 #v[0x00]
      (buf, dataLen + quicHeaderSize)

/-- `Mode`. -/
inductive Mode
  /-- `NONE`. -/
  | none
  /-- `QUIC_INITIAL`. -/
  | quicInitial
  /-- `HTTP3`. -/
  | http3
  /-- `VERSION_NEGOTIATION`. -/
  | versionNegotiation
deriving DecidableEq

/-- The header size of a mode. -/
def Mode.headerSize (mode : Mode) : ℕ := if mode = .none then 0 else quicHeaderSize

/-- A `ProtocolMimicry`. -/
structure ProtocolMimicry where
  /-- `mode_`. -/
  mode : Mode
  /-- `header_size_`. -/
  headerSize : ℕ
  /-- `quic_version_`, 0 for a draw. -/
  quicVersion : UInt32
  /-- The header size is that of the mode. -/
  headerSize_eq : headerSize = mode.headerSize

namespace ProtocolMimicry

/-- The constructor. -/
def new (mode : Mode) (quicVersion : UInt32) : ProtocolMimicry :=
  ⟨mode, mode.headerSize, quicVersion, rfl⟩

/-- `wrap`. -/
def wrap {n : ℕ} (m : ProtocolMimicry) (rand : Option RandBytes) (buf : Vector UInt8 n)
    (dataLen : ℕ) (sessionSeed : Option (Vector UInt8 2)) : Vector UInt8 n × ℕ :=
  if m.mode = .none then (buf, dataLen)
  else
    let v := if m.mode = .versionNegotiation then quicVerNeg else m.quicVersion
    wrapQuicInitial rand buf dataLen sessionSeed v

end ProtocolMimicry

/-- The packet in a buffer. -/
def wrapped {n : ℕ} (r : Vector UInt8 n × ℕ) : List UInt8 := r.1.toList.take r.2

/-! ### The header -/

/-- The first byte. -/
def firstByte (rand : RandBytes) (version : UInt32) : UInt8 :=
  if version = quicVerNeg then (0x80 : UInt8) ||| (rand[1] &&& 0x7F)
  else (0xC0 : UInt8) ||| (rand[1] &&& 0x0F)

/-- The destination connection id. -/
def dcid (rand : RandBytes) : Option (Vector UInt8 2) → List UInt8
  | some seed => getElem seed 0 Nat.zero_lt_two :: getElem seed 1 Nat.one_lt_two ::
    (copyOut rand.toList 2 6).toList
  | none => (copyOut rand.toList 2 8).toList

/-- The 24 bytes in front of a packet. -/
def quicHeader (rand : RandBytes) (sessionSeed : Option (Vector UInt8 2)) (version : UInt32) :
    List UInt8 :=
  [firstByte rand version] ++ (be32 version).toList ++ [0x08] ++ dcid rand sessionSeed ++
    [0x08] ++ (copyOut rand.toList 10 8).toList ++ [0x00]

@[simp] theorem length_dcid (rand : RandBytes) (sessionSeed : Option (Vector UInt8 2)) :
    (dcid rand sessionSeed).length = 8 := by
  cases sessionSeed <;> simp [dcid]

@[simp] theorem length_quicHeader (rand : RandBytes) (sessionSeed : Option (Vector UInt8 2))
    (version : UInt32) : (quicHeader rand sessionSeed version).length = quicHeaderSize := by
  simp [quicHeader, quicHeaderSize]

/-- What is behind the header after the shift. -/
theorem take_drop_wrapQuicInitial {n : ℕ} (rand : RandBytes) (buf : Vector UInt8 n) {dataLen : ℕ}
    (sessionSeed : Option (Vector UInt8 2)) (quicVersion : UInt32)
    (hcap : dataLen + quicHeaderSize ≤ n) :
    ((wrapQuicInitial (some rand) buf dataLen sessionSeed quicVersion).1.toList.drop
      quicHeaderSize).take dataLen = buf.toList.take dataLen := by
  have hlen : dataLen ≤ buf.toList.length := by
    rw [Vector.length_toList]
    omega
  have hsplit : ∀ b : Vector UInt8 n,
      b = copyIn buf quicHeaderSize (copyOut buf.toList 0 dataLen) →
        (b.toList.drop quicHeaderSize).take dataLen = buf.toList.take dataLen := by
    rintro b rfl
    rw [take_drop_copyIn_self _ _ (by omega), toList_copyOut_zero _ hlen]
  rw [wrapQuicInitial, if_neg (by omega)]
  simp only
  -- every field lies ahead of the data
  rw [drop_copyIn _ _ (by decide), drop_copyIn _ _ (by decide), drop_copyIn _ _ (by decide)]
  cases sessionSeed with
  | none =>
    simp only
    rw [drop_copyIn _ _ (by decide), drop_copyIn _ _ (by decide), drop_copyIn _ _ (by decide)]
    split
    · rw [drop_copyIn _ _ (by decide), hsplit _ rfl]
    · rw [drop_copyIn _ _ (by decide), hsplit _ rfl]
  | some seed =>
    simp only
    rw [drop_copyIn _ _ (by decide), drop_copyIn _ _ (by decide), drop_copyIn _ _ (by decide),
      drop_copyIn _ _ (by decide), drop_copyIn _ _ (by decide)]
    split
    · rw [drop_copyIn _ _ (by decide), hsplit _ rfl]
    · rw [drop_copyIn _ _ (by decide), hsplit _ rfl]

/-- The fields in front of it. -/
theorem take_wrapQuicInitial {n : ℕ} (rand : RandBytes) (buf : Vector UInt8 n) {dataLen : ℕ}
    (sessionSeed : Option (Vector UInt8 2)) (quicVersion : UInt32)
    (hcap : dataLen + quicHeaderSize ≤ n) :
    (wrapQuicInitial (some rand) buf dataLen sessionSeed quicVersion).1.toList.take
      quicHeaderSize = quicHeader rand sessionSeed (chooseVersion rand quicVersion) := by
  have hn : 24 ≤ n := le_trans (Nat.le_add_left _ _) hcap
  have hfirst : ∀ b : Vector UInt8 n, ∀ version : UInt32,
      (if version = quicVerNeg then copyIn b 0 #v[(0x80 : UInt8) ||| (rand[1] &&& 0x7F)]
        else copyIn b 0 #v[(0xC0 : UInt8) ||| (rand[1] &&& 0x0F)]).toList.take 1 =
          [firstByte rand version] := by
    intro b version
    rw [firstByte]
    split
    · rw [take_copyIn_self _ _ (by decide : 0 + 1 = 1) (by omega)]
      rfl
    · rw [take_copyIn_self _ _ (by decide : 0 + 1 = 1) (by omega)]
      rfl
  rw [wrapQuicInitial, if_neg (by omega), quicHeader, quicHeaderSize]
  simp only
  -- the fields follow each other, from the last back to the first
  rw [take_copyIn_self _ _ (by decide : 23 + 1 = 24) hn,
    take_copyIn_self _ _ (by decide : 15 + 8 = 23) (by omega),
    take_copyIn_self _ _ (by decide : 14 + 1 = 15) (by omega)]
  cases sessionSeed with
  | none =>
    simp only
    rw [take_copyIn_self _ _ (by decide : 6 + 8 = 14) (by omega),
      take_copyIn_self _ _ (by decide : 5 + 1 = 6) (by omega),
      take_copyIn_self _ _ (by decide : 1 + 4 = 5) (by omega), hfirst]
    rfl
  | some seed =>
    simp only
    rw [take_copyIn_self _ _ (by decide : 8 + 6 = 14) (by omega),
      take_copyIn_self _ _ (by decide : 7 + 1 = 8) (by omega),
      take_copyIn_self _ _ (by decide : 6 + 1 = 7) (by omega),
      take_copyIn_self _ _ (by decide : 5 + 1 = 6) (by omega),
      take_copyIn_self _ _ (by decide : 1 + 4 = 5) (by omega), hfirst]
    simp [dcid]

/-- **A header in front of the packet** is what `wrap_quic_initial` makes. -/
theorem wrapped_wrapQuicInitial {n : ℕ} (rand : RandBytes) (buf : Vector UInt8 n) {dataLen : ℕ}
    (sessionSeed : Option (Vector UInt8 2)) (quicVersion : UInt32)
    (hcap : dataLen + quicHeaderSize ≤ n) :
    wrapped (wrapQuicInitial (some rand) buf dataLen sessionSeed quicVersion) =
      quicHeader rand sessionSeed (chooseVersion rand quicVersion) ++ buf.toList.take dataLen := by
  have hlen : (wrapQuicInitial (some rand) buf dataLen sessionSeed quicVersion).2 =
      quicHeaderSize + dataLen := by
    rw [wrapQuicInitial, if_neg (by omega), Nat.add_comm]
  rw [wrapped, hlen, List.take_add, take_wrapQuicInitial rand buf sessionSeed quicVersion hcap,
    take_drop_wrapQuicInitial rand buf sessionSeed quicVersion hcap]

/-- Without a draw the packet stays as it is. -/
theorem wrapped_wrapQuicInitial_none {n : ℕ} (buf : Vector UInt8 n) (dataLen : ℕ)
    (sessionSeed : Option (Vector UInt8 2)) (quicVersion : UInt32) :
    wrapped (wrapQuicInitial none buf dataLen sessionSeed quicVersion) =
      buf.toList.take dataLen := by
  rw [wrapQuicInitial]
  split
  · rfl
  · rfl

/-! ### What the receiver makes of it -/

/-- The version field of a packet. -/
def versionField (pkt : List UInt8) : UInt32 := ofBe32 (copyOut pkt 1 4)

theorem versionField_append (rand : RandBytes) (sessionSeed : Option (Vector UInt8 2))
    (version : UInt32) (payload : List UInt8) :
    versionField (quicHeader rand sessionSeed version ++ payload) = version := by
  have hfield : copyOut (quicHeader rand sessionSeed version ++ payload) 1 4 = be32 version := by
    rw [copyOut_append_left _ _ (by rw [length_quicHeader]; decide), quicHeader]
    simp only [List.append_assoc]
    rw [copyOut_append_right _ _ (by simp), copyOut_append_left _ _ (by simp)]
    exact copyOut_toList _
  rw [versionField, hfield, ofBe32_be32]

/-- A bit that is set stays set. -/
theorem or_and_eq {x m : UInt8} (y : UInt8) (h : x &&& m = m) : (x ||| y) &&& m = m := by
  refine UInt8.toBitVec_inj.mp (BitVec.eq_of_getLsbD_eq fun i hi => ?_)
  have hbit := congrArg (fun z : UInt8 => z.toBitVec.getLsbD i) h
  simp only [UInt8.toBitVec_and, UInt8.toBitVec_or, BitVec.getLsbD_and, BitVec.getLsbD_or] at hbit ⊢
  cases hm : m.toBitVec.getLsbD i with
  | false => rw [Bool.and_false]
  | true =>
    rw [hm, Bool.and_true] at hbit
    rw [hbit, Bool.true_or, Bool.and_true]

/-- The first byte is that of a long header. -/
theorem firstByte_long (rand : RandBytes) (version : UInt32) :
    firstByte rand version &&& 0x80 ≠ 0 := by
  rw [firstByte]
  split
  · rw [or_and_eq _ (by decide)]
    decide
  · rw [or_and_eq _ (by decide)]
    decide

theorem be32_inj {x y : UInt32} : be32 x = be32 y ↔ x = y := by
  refine ⟨fun h => ?_, congrArg be32⟩
  rw [← ofBe32_be32 x, ← ofBe32_be32 y, h]

/-- The version with these four bytes. -/
theorem bytes_eq_iff (x : UInt32) (b : Vector UInt8 4) {y : UInt32} (hb : be32 y = b) :
    ((x >>> 24).toUInt8, (x >>> 16).toUInt8, (x >>> 8).toUInt8, x.toUInt8) =
      (getElem b 0 zero_lt_4, getElem b 1 one_lt_4, getElem b 2 two_lt_4,
        getElem b 3 three_lt_4) ↔ x = y := by
  rw [← be32_inj, hb]
  constructor
  · intro h
    simp only [Prod.mk.injEq] at h
    refine Vector.ext fun i hi => ?_
    interval_cases i
    · exact h.1
    · exact h.2.1
    · exact h.2.2.1
    · exact h.2.2.2
  · rintro rfl
    rfl

/-- The bytes of a version are those of a known one exactly when it is known. -/
theorem be32_mem_iff (version : UInt32) :
    ((version >>> 24).toUInt8, (version >>> 16).toUInt8, (version >>> 8).toUInt8,
      version.toUInt8) ∈ quicVersions ↔ version ∈ versions := by
  have hv1 := bytes_eq_iff version #v[0x00, 0x00, 0x00, 0x01] (y := quicVersion1) (by decide)
  have hv2 := bytes_eq_iff version #v[0x6B, 0x33, 0x43, 0xCF] (y := quicVersion2) (by decide)
  have h29 := bytes_eq_iff version #v[0xFF, 0x00, 0x00, 0x1D] (y := quicDraft29) (by decide)
  have h32 := bytes_eq_iff version #v[0xFF, 0x00, 0x00, 0x20] (y := quicDraft32) (by decide)
  have hneg := bytes_eq_iff version #v[0x00, 0x00, 0x00, 0x00] (y := quicVerNeg) (by decide)
  have hmem : version ∈ versions ↔ version = quicVersion1 ∨ version = quicVersion2 ∨
      version = quicDraft29 ∨ version = quicDraft32 ∨ version = quicVerNeg := by
    rw [← Vector.mem_toList_iff]
    simp only [versions, Vector.toList_mk, List.mem_cons, List.not_mem_nil, or_false]
  rw [hmem, ← hv1, ← hv2, ← h29, ← h32, ← hneg]
  simp only [quicVersions, List.mem_cons, List.not_mem_nil, or_false]
  rfl

/-- **The receiver recognizes the header** exactly when it knows the version. -/
theorem isQuicMimicry_append (rand : RandBytes) (sessionSeed : Option (Vector UInt8 2))
    (version : UInt32) (payload : List UInt8) :
    isQuicMimicry (quicHeader rand sessionSeed version ++ payload) = true ↔
      version ∈ versions := by
  have hbyte : ∀ i < quicHeaderSize,
      byteAt (quicHeader rand sessionSeed version ++ payload) i =
        byteAt (quicHeader rand sessionSeed version) i := by
    intro i hi
    rw [byteAt, byteAt, List.getD_eq_getElem?_getD, List.getD_eq_getElem?_getD,
      List.getElem?_append_left (by rwa [length_quicHeader])]
  have hlen : quicHeaderSize ≤ (quicHeader rand sessionSeed version ++ payload).length := by
    rw [List.length_append, length_quicHeader]
    exact Nat.le_add_right _ _
  -- the three length bytes, behind the version and the two connection ids
  have h5 : byteAt (quicHeader rand sessionSeed version) 5 = 0x08 := by
    simp [byteAt, quicHeader, be32]
  have h14 : byteAt (quicHeader rand sessionSeed version) 14 = 0x08 := by
    simp [byteAt, quicHeader, be32]
  have h23 : byteAt (quicHeader rand sessionSeed version) 23 = 0x00 := by
    simp [byteAt, quicHeader, be32]
  rw [isQuicMimicry, decide_eq_true_eq, hbyte 0 (by decide), hbyte 1 (by decide),
    hbyte 2 (by decide), hbyte 3 (by decide), hbyte 4 (by decide), hbyte 5 (by decide),
    hbyte 14 (by decide), hbyte 23 (by decide), h5, h14, h23, ← be32_mem_iff]
  have h0 : byteAt (quicHeader rand sessionSeed version) 0 = firstByte rand version := by
    simp [byteAt, quicHeader]
  rw [h0]
  have hversion : byteAt (quicHeader rand sessionSeed version) 1 = (version >>> 24).toUInt8 ∧
      byteAt (quicHeader rand sessionSeed version) 2 = (version >>> 16).toUInt8 ∧
      byteAt (quicHeader rand sessionSeed version) 3 = (version >>> 8).toUInt8 ∧
      byteAt (quicHeader rand sessionSeed version) 4 = version.toUInt8 := by
    simp [byteAt, quicHeader, be32]
  obtain ⟨h1, h2, h3, h4⟩ := hversion
  rw [h1, h2, h3, h4]
  constructor
  · rintro ⟨-, -, -, -, -, hmem⟩
    exact hmem
  · intro hmem
    exact ⟨hlen, firstByte_long rand version, rfl, rfl, rfl, hmem⟩

theorem chooseVersion_zero_mem (rand : RandBytes) : chooseVersion rand 0 ∈ versions := by
  rw [chooseVersion, if_pos rfl]
  exact Vector.getElem_mem _

/-- The draw is version negotiation once in five times. -/
theorem chooseVersion_zero_eq_iff (rand : RandBytes) :
    chooseVersion rand 0 = quicVerNeg ↔ rand[0].toNat % 5 = 4 := by
  have hget : ∀ i : Fin 5, versions.get i = quicVerNeg ↔ i = 4 := by decide
  rw [chooseVersion, if_pos rfl, hget, Fin.ext_iff]
  rfl

namespace ProtocolMimicry

/-- **A wrapped packet carries its payload**: the receiver recognizes it, strips it back to
the payload, and finds the version of the mode in it. -/
def Carries {n : ℕ} (m : ProtocolMimicry) (rand : Option RandBytes) (buf : Vector UInt8 n)
    (dataLen : ℕ) (sessionSeed : Option (Vector UInt8 2)) : Prop :=
  let pkt := wrapped (m.wrap rand buf dataLen sessionSeed)
  isQuicMimicry pkt = true ∧ stripQuicMimicry pkt = some (buf.toList.take dataLen) ∧
    (m.mode = .versionNegotiation → versionField pkt = quicVerNeg) ∧
    (m.mode ≠ .versionNegotiation → m.quicVersion ≠ 0 → versionField pkt = m.quicVersion)

/-- The draw or the configuration is such that the version is right: version negotiation
is drawn for its mode, and a version that the receiver knows is configured otherwise, or
none. -/
def Known (m : ProtocolMimicry) (rand : RandBytes) : Prop :=
  if m.mode = .versionNegotiation then rand[0].toNat % 5 = 4
  else m.quicVersion = 0 ∨ m.quicVersion ∈ versions

/-- What is stripped is the payload, and as long as the wrapped packet without the header. -/
theorem stripQuicMimicry_append (rand : RandBytes) (sessionSeed : Option (Vector UInt8 2))
    {version : UInt32} (payload : List UInt8) (hknown : version ∈ versions) :
    stripQuicMimicry (quicHeader rand sessionSeed version ++ payload) = some payload := by
  rw [stripQuicMimicry, if_pos ((isQuicMimicry_append rand sessionSeed version payload).mpr hknown),
    List.drop_left' (length_quicHeader rand sessionSeed version)]

/-- **The law of wrapping and stripping**: it holds exactly when the entropy is there, version
negotiation is drawn in its mode, and no version is configured in the others that the receiver
does not know. -/
theorem carries_iff {n : ℕ} (m : ProtocolMimicry) (rand : Option RandBytes) (buf : Vector UInt8 n)
    (dataLen : ℕ) (sessionSeed : Option (Vector UInt8 2)) (hmode : m.mode ≠ .none)
    (hcap : dataLen + quicHeaderSize ≤ n) :
    m.Carries rand buf dataLen sessionSeed ↔ ∃ draw, rand = some draw ∧ m.Known draw := by
  simp only [Carries, wrap, if_neg hmode]
  cases rand with
  | none =>
    -- the bare packet would have to be longer than itself
    simp only [wrapped_wrapQuicInitial_none]
    refine iff_of_false ?_ fun ⟨draw, hdraw, _⟩ => nomatch hdraw
    rintro ⟨hquic, hstrip, -⟩
    rw [stripQuicMimicry, if_pos hquic, Option.some.injEq] at hstrip
    rw [isQuicMimicry, decide_eq_true_eq] at hquic
    have hlen := congrArg List.length hstrip
    rw [List.length_drop] at hlen
    have := hquic.1
    have : 0 < quicHeaderSize := by decide
    omega
  | some draw =>
    simp only [wrapped_wrapQuicInitial draw buf sessionSeed _ hcap, isQuicMimicry_append,
      versionField_append, Option.some.injEq, exists_eq_left', Known]
    by_cases hneg : m.mode = .versionNegotiation
    · simp only [hneg, if_true, true_implies, not_true_eq_false, false_implies, and_true, ne_eq]
      rw [← chooseVersion_zero_eq_iff]
      constructor
      · rintro ⟨-, -, hversion⟩
        exact hversion
      · intro hversion
        have hknown : chooseVersion draw quicVerNeg ∈ versions := chooseVersion_zero_mem draw
        exact ⟨hknown, stripQuicMimicry_append draw sessionSeed _ hknown, hversion⟩
    · simp only [hneg, if_false, false_implies, not_false_eq_true, true_implies, true_and, ne_eq]
      by_cases hzero : m.quicVersion = 0
      · have hknown : chooseVersion draw m.quicVersion ∈ versions := by
          rw [hzero]
          exact chooseVersion_zero_mem draw
        simp only [hzero, true_or, iff_true]
        rw [hzero] at hknown
        exact ⟨hknown, stripQuicMimicry_append draw sessionSeed _ hknown, fun h => absurd trivial h⟩
      · have hchoose : chooseVersion draw m.quicVersion = m.quicVersion := by
          rw [chooseVersion, if_neg hzero]
        rw [hchoose, or_iff_right hzero]
        constructor
        · rintro ⟨hknown, -⟩
          exact hknown
        · intro hknown
          exact ⟨hknown, stripQuicMimicry_append draw sessionSeed _ hknown, fun _ => rfl⟩

/-- **Version negotiation becomes version 1** when the first byte drawn is 0. -/
theorem not_carries :
    ¬∀ (m : ProtocolMimicry) (rand : RandBytes) (buf : Vector UInt8 64) (dataLen : ℕ)
        (sessionSeed : Option (Vector UInt8 2)), m.mode ≠ .none →
      dataLen + quicHeaderSize ≤ 64 → m.Carries (some rand) buf dataLen sessionSeed := by
  intro h
  have hcarries := h (.new .versionNegotiation 0) (Vector.replicate 18 0) (Vector.replicate 64 7) 32
    none (by decide) (by decide)
  have hversion := hcarries.2.2.1 rfl
  revert hversion
  decide +kernel

/-- With the byte 4 it is version negotiation. -/
theorem carries_negotiation :
    (new .versionNegotiation 0).Carries (some (Vector.replicate 18 4)) (Vector.replicate 64 7 :
      Vector UInt8 64) 32 none :=
  (carries_iff (new .versionNegotiation 0) (some (Vector.replicate 18 4)) (Vector.replicate 64 7)
    32 none (by decide) (by decide)).mpr ⟨_, rfl, by rw [Known, if_pos (by rfl)]; decide⟩

end ProtocolMimicry

end Wire

end Aegs
