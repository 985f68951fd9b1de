import Mathlib.Data.Vector.Defs
import Mathlib.Tactic.Common
import Aegs.Lib.Checked

/-!
# Answers to probes

`BlackholeResponder::generate_response` answers a packet that nothing else understands with
one that looks like QUIC. Its three strategies read the lengths of connection ids from the
packet, clamp them, and fall back to ids made of its first eight bytes.

Each access of a buffer is checked here (`Aegs.Lib.Checked`): an access outside has no
result. `Aegs.Blackhole.generateResponse_spec` says that there always is one, and that an
answer to 20 bytes or more – 55 at most – is shorter than three times the packet.
-/

namespace Aegs

namespace Blackhole

open Checked

/-- What `RAND_bytes` hands over, none where it fails. -/
structure Draws where
  /-- `server_scid`. -/
  serverScid : Option (Vector UInt8 8)
  /-- `integrity_tag`. -/
  integrityTag : Option (Vector UInt8 16)
  /-- The rest of a short packet. -/
  sealed : Option (Vector UInt8 41)

/-- The connection ids taken from a probe: a length and a pointer into it, none for a null
pointer. -/
structure Ids where
  /-- `probe_dcid_len`. -/
  dcidLen : UInt8
  /-- `probe_dcid`. -/
  dcid : Option ℕ
  /-- `probe_scid_len`. -/
  scidLen : UInt8
  /-- `probe_scid`. -/
  scid : Option ℕ

/-- The bytes of an id. Nothing is copied for an empty id or through a null pointer. -/
def idBytes (probe : List UInt8) (len : UInt8) : Option ℕ → Option (List UInt8)
  | none => some []
  | some ptr => if len > 0 then read probe ptr len.toNat else some []

/-- The first eight bytes stand in for an id that is not there. -/
def Ids.orFake (ids : Ids) (probe : List UInt8) : Ids :=
  if ids.dcid.isNone ∧ probe.length ≥ 8 then { ids with dcid := some 0, dcidLen := 8 } else ids

/-- The ids of a version negotiation. -/
def versionNegotiationIds (probe : List UInt8) : Option Ids :=
  if probe.length ≥ 6 then
    (read1 probe 0).bind fun first =>
      if first &&& 0x80 ≠ 0 then
        (read1 probe 5).bind fun dcidLen =>
          let dcidLen := if dcidLen > 20 then 8 else dcidLen
          if probe.length ≥ 6 + dcidLen.toNat + 1 then
            (read1 probe (6 + dcidLen.toNat)).map fun scidLen =>
              let scidLen := if scidLen > 20 then 0 else scidLen
              if probe.length ≥ 7 + dcidLen.toNat + scidLen.toNat then
                ⟨dcidLen, some 6, scidLen, some (7 + dcidLen.toNat)⟩
              else ⟨dcidLen, some 6, 0, none⟩
          else some ⟨dcidLen, none, 0, none⟩
      else some ⟨0, none, 0, none⟩
  else some ⟨0, none, 0, none⟩

/-- **`quic_version_negotiation`.** -/
def quicVersionNegotiation (probe : List UInt8) : Option (List UInt8) :=
  ((versionNegotiationIds probe).map fun ids => ids.orFake probe).bind fun ids =>
    (idBytes probe ids.scidLen ids.scid).bind fun scid =>
      (idBytes probe ids.dcidLen ids.dcid).bind fun dcid =>
        let respLen := 1 + 4 + 1 + ids.scidLen.toNat + 1 + ids.dcidLen.toNat + 8
        (writeAll (.new respLen 0)
          [[0x80], [0x00], [0x00], [0x00], [0x00],
            [ids.scidLen], scid, [ids.dcidLen], dcid,
            [0x00], [0x00], [0x00], [0x01], [0xff], [0x00], [0x00], [0x20]]).map fun pkt =>
          pkt.buf.take pkt.off

/-- The ids of a retry, of which only the first is used. -/
def retryIds (probe : List UInt8) : Option Ids :=
  if probe.length ≥ 6 then
    (read1 probe 0).bind fun first =>
      if first &&& 0x80 ≠ 0 then
        (read1 probe 5).map fun dcidLen =>
          let dcidLen := if dcidLen > 8 then 8 else dcidLen
          if probe.length ≥ 6 + dcidLen.toNat then ⟨dcidLen, some 6, 0, none⟩
          else ⟨dcidLen, none, 0, none⟩
      else some ⟨0, none, 0, none⟩
  else some ⟨0, none, 0, none⟩

/-- `retry_token`, byte by byte. -/
def retryToken (probe : List UInt8) : Option (List UInt8) :=
  (List.range 16).mapM fun i =>
    if i < probe.length then (read1 probe i).map (· ^^^ 0xA5) else some 0x42

/-- **`quic_retry`.** -/
def quicRetry (probe : List UInt8) (d : Draws) : Option (List UInt8) :=
  ((retryIds probe).map fun ids => ids.orFake probe).bind fun ids =>
    match d.serverScid with
    | none => some []
    | some serverScid =>
      (retryToken probe).bind fun token =>
        match d.integrityTag with
        | none => some []
        | some tag =>
          (if probe.length > 0 then (read1 probe 0).map fun b => 0xF0 ||| (b &&& 0x0F)
            else some 0xF0).bind fun typeByte =>
            (idBytes probe ids.dcidLen ids.dcid).bind fun dcid =>
              let pktLen := 1 + 4 + 1 + ids.dcidLen.toNat + 1 + 8 + 16 + 16
              (writeAll (.new pktLen 0)
                [[typeByte], [0x00], [0x00], [0x00], [0x01], [ids.dcidLen], dcid, [8],
                  serverScid.toList, token, tag.toList]).map fun pkt => pkt.buf.take pkt.off

/-- **`quic_connection_close`.** -/
def quicConnectionClose (probe : List UInt8) (d : Draws) : Option (List UInt8) :=
  let copyLen := if probe.length < 8 then probe.length else 8
  (if probe.length > 0 then
      (read probe 0 copyLen).bind fun bytes => Writer.write (.new 8 0) bytes
    else some (.new 8 0)).bind fun dcid =>
    (if probe.length > 1 then (read1 probe 1).map fun b => 0x40 ||| (b &&& 0x3F)
      else some 0x40).bind fun hdrByte =>
      let pktLen := 1 + 8 + 41
      (writeAll (.new pktLen 0) [[hdrByte], dcid.buf]).bind fun pkt =>
        match d.sealed with
        | none => some []
        | some sealed => (pkt.write sealed.toList).map Writer.buf

/-- `selector`. -/
def selector (probe : List UInt8) : Option UInt8 :=
  (List.range (min probe.length 16)).foldlM
    (fun selector i => (read1 probe i).map (selector ^^^ ·)) 0

/-- **`generate_response`**, on a null pointer or on the bytes of a probe. -/
def generateResponse (probe : Option (List UInt8)) (d : Draws) : Option (List UInt8) :=
  match probe with
  | none => some []
  | some probe =>
    if probe.length < 20 then some []
    else
      (selector probe).bind fun selector =>
        let pct := selector % 100
        if pct < 60 then quicVersionNegotiation probe
        else if pct < 80 then quicRetry probe d
        else quicConnectionClose probe d

/-! ### The ids -/

/-- **Both ids are inside the probe** and no longer than a bound. -/
structure Ids.Inside (ids : Ids) (probe : List UInt8) (bound : ℕ) : Prop where
  /-- The first id. -/
  dcid : ∀ ptr ∈ ids.dcid, ptr + ids.dcidLen.toNat ≤ probe.length
  /-- Its length. -/
  dcidLen : ids.dcidLen.toNat ≤ bound
  /-- The second id. -/
  scid : ∀ ptr ∈ ids.scid, ptr + ids.scidLen.toNat ≤ probe.length
  /-- Its length. -/
  scidLen : ids.scidLen.toNat ≤ 20

section

variable {probe : List UInt8}

/-- The bytes of an id that is inside can be read. -/
theorem idBytes_eq_some {len : UInt8} {ptr : Option ℕ}
    (h : ∀ o ∈ ptr, o + len.toNat ≤ probe.length) :
    ∃ bytes, idBytes probe len ptr = some bytes ∧ bytes.length ≤ len.toNat := by
  cases ptr with
  | none => exact ⟨[], rfl, Nat.zero_le _⟩
  | some o =>
    rw [idBytes]
    split
    · obtain ⟨bytes, hread, hlen⟩ := read_eq_some (h o rfl)
      exact ⟨bytes, hread, Nat.le_of_eq hlen⟩
    · exact ⟨[], rfl, Nat.zero_le _⟩

/-- The stand-in is inside a probe of eight bytes. -/
theorem Ids.Inside.orFake {ids : Ids} {bound : ℕ} (h : ids.Inside probe bound) (hb : 8 ≤ bound) :
    (ids.orFake probe).Inside probe bound := by
  rw [Ids.orFake]
  split
  · rename_i hfake
    refine ⟨fun ptr hptr => ?_, hb, h.scid, h.scidLen⟩
    obtain rfl := Option.some.inj hptr
    exact hfake.2
  · exact h

/-- A length above its bound is replaced. -/
theorem clamp_le (b bound other : UInt8) (h : other ≤ bound) :
    (if b > bound then other else b).toNat ≤ bound.toNat := by
  split
  · exact UInt8.le_iff_toNat_le.mp h
  · rename_i hle
    exact UInt8.le_iff_toNat_le.mp (UInt8.not_lt.mp hle)

/-- No id at all. -/
theorem inside_none {len : UInt8} {bound : ℕ} (h : len.toNat ≤ bound) :
    (⟨len, none, 0, none⟩ : Ids).Inside probe bound :=
  ⟨fun ptr hptr => by simp at hptr, h, fun ptr hptr => by simp at hptr, Nat.zero_le _⟩

/-- The ids of a version negotiation are inside the probe, whatever lengths it claims. -/
theorem versionNegotiationIds_spec (probe : List UInt8) :
    ∃ ids, versionNegotiationIds probe = some ids ∧ ids.Inside probe 20 := by
  rw [versionNegotiationIds]
  split
  · rename_i hlen
    obtain ⟨first, hfirst⟩ := read1_eq_some (show 0 < probe.length by omega)
    obtain ⟨len, hread⟩ := read1_eq_some (show 5 < probe.length by omega)
    rw [hfirst, Option.bind_some]
    split
    · rw [hread, Option.bind_some]
      have hdcid := clamp_le len 20 8 (by decide)
      generalize (if len > 20 then (8 : UInt8) else len) = dcidLen at hdcid
      dsimp only
      split
      · rename_i hfits
        obtain ⟨len', hread'⟩ := read1_eq_some (show 6 + dcidLen.toNat < probe.length by omega)
        have hscid := clamp_le len' 20 0 (by decide)
        generalize hs : (if len' > 20 then (0 : UInt8) else len') = scidLen at hscid
        refine ⟨_, by rw [hread', Option.map_some, hs], ?_⟩
        split
        · rename_i hfits'
          refine ⟨fun ptr hptr => ?_, hdcid, fun ptr hptr => ?_, hscid⟩
          · obtain rfl := Option.some.inj hptr
            exact (by omega : 6 + dcidLen.toNat ≤ probe.length)
          · obtain rfl := Option.some.inj hptr
            exact hfits'
        · refine ⟨fun ptr hptr => ?_, hdcid, fun ptr hptr => by simp at hptr, Nat.zero_le _⟩
          obtain rfl := Option.some.inj hptr
          exact (by omega : 6 + dcidLen.toNat ≤ probe.length)
      · exact ⟨_, rfl, inside_none hdcid⟩
    · exact ⟨_, rfl, inside_none (Nat.zero_le _)⟩
  · exact ⟨_, rfl, inside_none (Nat.zero_le _)⟩

/-- The id of a retry is inside the probe. -/
theorem retryIds_spec (probe : List UInt8) :
    ∃ ids, retryIds probe = some ids ∧ ids.Inside probe 8 := by
  rw [retryIds]
  split
  · rename_i hlen
    obtain ⟨first, hfirst⟩ := read1_eq_some (show 0 < probe.length by omega)
    obtain ⟨len, hread⟩ := read1_eq_some (show 5 < probe.length by omega)
    rw [hfirst, Option.bind_some]
    split
    · have hdcid := clamp_le len 8 8 (by decide)
      generalize hd : (if len > 8 then (8 : UInt8) else len) = dcidLen at hdcid
      refine ⟨_, by rw [hread, Option.map_some, hd], ?_⟩
      dsimp only
      split
      · rename_i hfits
        refine ⟨fun ptr hptr => ?_, hdcid, fun ptr hptr => by simp at hptr, Nat.zero_le _⟩
        obtain rfl := Option.some.inj hptr
        exact hfits
      · exact inside_none hdcid
    · exact ⟨_, rfl, inside_none (Nat.zero_le _)⟩
  · exact ⟨_, rfl, inside_none (Nat.zero_le _)⟩

/-! ### The strategies -/

/-- What is written to a packet that is large enough is what it is cut down to. -/
theorem map_take_writeAll {pieces : List (List UInt8)} {n : ℕ} (h : pieces.flatten.length ≤ n) :
    (writeAll (.new n 0) pieces).map (fun pkt => pkt.buf.take pkt.off) = some pieces.flatten := by
  rw [writeAll_eq_some h, Option.map_some, List.take_left]

/-- A version negotiation has at most 55 bytes. -/
theorem quicVersionNegotiation_spec (probe : List UInt8) :
    ∃ resp, quicVersionNegotiation probe = some resp ∧ resp.length ≤ 55 := by
  obtain ⟨ids, hids, hinside⟩ := versionNegotiationIds_spec probe
  have hfake := hinside.orFake (by omega)
  rw [quicVersionNegotiation, hids, Option.map_some, Option.bind_some]
  obtain ⟨scid, hscid, hscidLen⟩ := idBytes_eq_some hfake.scid
  obtain ⟨dcid, hdcid, hdcidLen⟩ := idBytes_eq_some hfake.dcid
  have h1 := hfake.dcidLen
  have h2 := hfake.scidLen
  rw [hscid, Option.bind_some, hdcid, Option.bind_some]
  refine ⟨_, map_take_writeAll ?_, ?_⟩
  · simp only [List.flatten_cons, List.flatten_nil, List.length_append, List.length_cons,
      List.length_nil]
    omega
  · simp only [List.flatten_cons, List.flatten_nil, List.length_append, List.length_cons,
      List.length_nil]
    omega

/-- The token has 16 bytes, whatever the length of the probe. -/
theorem retryToken_spec (probe : List UInt8) :
    ∃ token, retryToken probe = some token ∧ token.length = 16 := by
  have hbyte : ∀ i, ∃ b, (if i < probe.length then (read1 probe i).map (· ^^^ 0xA5)
      else some 0x42) = some b := by
    intro i
    split
    · rename_i hi
      obtain ⟨b, hb⟩ := read1_eq_some hi
      exact ⟨_, by rw [hb, Option.map_some]⟩
    · exact ⟨_, rfl⟩
  have hall : ∀ l : List ℕ, ∃ token, (l.mapM fun i => if i < probe.length then
      (read1 probe i).map (· ^^^ 0xA5) else some 0x42) = some token ∧
        token.length = l.length := by
    intro l
    induction l with
    | nil => exact ⟨[], rfl, rfl⟩
    | cons i l ih =>
      obtain ⟨b, hb⟩ := hbyte i
      obtain ⟨token, htoken, hlen⟩ := ih
      refine ⟨b :: token, ?_, by rw [List.length_cons, hlen, List.length_cons]⟩
      rw [List.mapM_cons, hb, htoken]
      rfl
  obtain ⟨token, htoken, hlen⟩ := hall (List.range 16)
  exact ⟨token, htoken, by rw [hlen, List.length_range]⟩

/-- A retry has at most 55 bytes. -/
theorem quicRetry_spec (probe : List UInt8) (d : Draws) :
    ∃ resp, quicRetry probe d = some resp ∧ resp.length ≤ 55 := by
  obtain ⟨ids, hids, hinside⟩ := retryIds_spec probe
  have hfake := hinside.orFake (by omega)
  rw [quicRetry, hids, Option.map_some, Option.bind_some]
  cases d.serverScid with
  | none => exact ⟨[], rfl, Nat.zero_le _⟩
  | some serverScid =>
    obtain ⟨token, htoken, htokenLen⟩ := retryToken_spec probe
    simp only [htoken, Option.bind_some]
    cases d.integrityTag with
    | none => exact ⟨[], rfl, Nat.zero_le _⟩
    | some tag =>
      have htype : ∃ b, (if probe.length > 0 then
          (read1 probe 0).map fun b => 0xF0 ||| (b &&& 0x0F) else some 0xF0) = some b := by
        split
        · rename_i hpos
          obtain ⟨b, hb⟩ := read1_eq_some hpos
          exact ⟨_, by rw [hb, Option.map_some]⟩
        · exact ⟨_, rfl⟩
      obtain ⟨typeByte, htype⟩ := htype
      obtain ⟨dcid, hdcid, hdcidLen⟩ := idBytes_eq_some hfake.dcid
      have h1 := hfake.dcidLen
      simp only [htype, Option.bind_some, hdcid]
      refine ⟨_, map_take_writeAll ?_, ?_⟩
      · simp only [List.flatten_cons, List.flatten_nil, List.length_append, List.length_cons,
          List.length_nil, Vector.length_toList, htokenLen]
        omega
      · simp only [List.flatten_cons, List.flatten_nil, List.length_append, List.length_cons,
          List.length_nil, Vector.length_toList, htokenLen]
        omega

/-- A connection close has 50 bytes. -/
theorem quicConnectionClose_spec (probe : List UInt8) (d : Draws) :
    ∃ resp, quicConnectionClose probe d = some resp ∧ resp.length ≤ 50 := by
  have hdcid : ∃ dcid : Writer UInt8, (if probe.length > 0 then
      (read probe 0 (if probe.length < 8 then probe.length else 8)).bind fun bytes =>
        Writer.write (.new 8 0) bytes
      else some (.new 8 0)) = some dcid ∧ dcid.buf.length = 8 := by
    split
    · obtain ⟨bytes, hread, hlen⟩ := read_eq_some
        (show 0 + (if probe.length < 8 then probe.length else 8) ≤ probe.length by split <;> omega)
      have hle : bytes.length ≤ 8 := by
        rw [hlen]
        split <;> omega
      have hfits : (Writer.new 8 (0 : UInt8)).off + bytes.length ≤
          (Writer.new 8 (0 : UInt8)).buf.length := by
        rw [Writer.new, List.length_replicate, Nat.zero_add]
        exact hle
      obtain ⟨w, hw, hwLen⟩ := write_eq_some hfits
      exact ⟨w, by rw [hread, Option.bind_some, hw],
        by rw [hwLen, Writer.new, List.length_replicate]⟩
    · exact ⟨_, rfl, List.length_replicate⟩
  have hhdr : ∃ b, (if probe.length > 1 then (read1 probe 1).map fun b => 0x40 ||| (b &&& 0x3F)
      else some 0x40) = some b := by
    split
    · rename_i hlen
      obtain ⟨b, hb⟩ := read1_eq_some hlen
      exact ⟨_, by rw [hb, Option.map_some]⟩
    · exact ⟨_, rfl⟩
  obtain ⟨dcid, hdcid, hdcidLen⟩ := hdcid
  obtain ⟨hdrByte, hhdr⟩ := hhdr
  have hpieces : [[hdrByte], dcid.buf].flatten.length = 9 := by
    simp [hdcidLen]
  obtain ⟨pkt, hpkt, hoff, hbuf⟩ : ∃ pkt, writeAll (.new (1 + 8 + 41) (0 : UInt8))
      [[hdrByte], dcid.buf] = some pkt ∧ pkt.off = 9 ∧ pkt.buf.length = 50 := by
    refine ⟨_, writeAll_eq_some (by omega), hpieces, ?_⟩
    rw [List.length_append, List.length_replicate, hpieces]
  rw [quicConnectionClose, hdcid, Option.bind_some, hhdr, Option.bind_some]
  dsimp only
  rw [hpkt, Option.bind_some]
  cases d.sealed with
  | none => exact ⟨[], rfl, Nat.zero_le _⟩
  | some sealed =>
    have hfits : pkt.off + sealed.toList.length ≤ pkt.buf.length := by
      have hsealed : sealed.toList.length = _ := Vector.length_toList
      omega
    obtain ⟨w, hw, hwLen⟩ := write_eq_some hfits
    exact ⟨w.buf, by simp only [hw, Option.map_some], by omega⟩

/-- The selector is read inside the probe. -/
theorem selector_spec (probe : List UInt8) : ∃ sel, selector probe = some sel := by
  have hall : ∀ (l : List ℕ) (acc : UInt8), (∀ i ∈ l, i < probe.length) →
      ∃ sel, l.foldlM (fun sel i => (read1 probe i).map (sel ^^^ ·)) acc = some sel := by
    intro l
    induction l with
    | nil => exact fun acc _ => ⟨acc, rfl⟩
    | cons i l ih =>
      intro acc hl
      obtain ⟨b, hb⟩ := read1_eq_some (hl i (by simp))
      obtain ⟨sel, hsel⟩ := ih (acc ^^^ b) fun j hj => hl j (by simp [hj])
      refine ⟨sel, ?_⟩
      rw [List.foldlM_cons, hb]
      exact hsel
  refine hall _ 0 fun i hi => ?_
  rw [List.mem_range] at hi
  omega

end

/-- **Every answer is made inside its buffers and does not amplify**: there is none below 20
bytes, and otherwise it is shorter than three times the probe. -/
theorem generateResponse_spec (probe : List UInt8) (d : Draws) :
    ∃ resp, generateResponse (some probe) d = some resp ∧
      (probe.length < 20 → resp = []) ∧ (20 ≤ probe.length → resp.length < 3 * probe.length) := by
  by_cases hlen : probe.length < 20
  · exact ⟨[], if_pos hlen, fun _ => rfl, fun h => absurd h (by omega)⟩
  · have hspec : ∃ resp, generateResponse (some probe) d = some resp ∧ resp.length ≤ 55 := by
      obtain ⟨sel, hsel⟩ := selector_spec probe
      rw [generateResponse, if_neg hlen, hsel, Option.bind_some]
      dsimp only
      split
      · exact quicVersionNegotiation_spec probe
      · split
        · exact quicRetry_spec probe d
        · obtain ⟨resp, hresp, hle⟩ := quicConnectionClose_spec probe d
          exact ⟨resp, hresp, by omega⟩
    obtain ⟨resp, hresp, hle⟩ := hspec
    exact ⟨resp, hresp, fun h => absurd h hlen, fun _ => by omega⟩

end Blackhole

end Aegs
