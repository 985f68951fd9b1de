import Mathlib.Data.Finset.Insert
import Aegs.Tunnel.Codec
import Aegs.Tunnel.Filter

/-!
# The receivers of the tunnel

Three Python programs open data frames: `aegs_server.py`, the server of
`aegs_tunnel_gateway.py` and `quick_client.py`. Each has a filter of its own against
replays – `AntiReplayFilter`, a set of the numbers seen, and a bitmap of 64 bits – and each
asks it before it decrypts the frame. The filter answers and is updated in one step, so a
frame that nobody sealed leaves a mark all the same, as long as its header unmasks.

`Aegs.Tunnel.keepsWindow_iff` says exactly when a forged datagram leaves the filter of each
alone: when it does not get as far as the filter, or is turned down by it.
-/

namespace Aegs

namespace Tunnel

open Bytes Wire

section

variable {S : Type} (L : Library S) (t : Token)

/-- The sequence number of a datagram that has the header of a data frame. -/
def headerSeq (maskKey : Vector UInt8 32) (rawKid : UInt64) (data : List UInt8) : Option ℕ :=
  let hdr := unmaskedHeader L.cipher maskKey data
  if data.length < 56 ∨ ¬(hasKeyId rawKid hdr ∧ hasMagic hdr) ∨ ¬fits hdr data then none
  else some (nonceSeq (packetNonce hdr data)).toNat

/-- A data frame is decrypted. -/
def decryptFrame (maskKey recvKey : Vector UInt8 32) (data : List UInt8) : Option (List UInt8) :=
  openPacket L.cipher recvKey (unmaskedHeader L.cipher maskKey data) data

/-! ### `aegs_server.py` -/

/-- The number of a datagram that gets as far as the filter. -/
def AegsServer.frameSeq (srv : AegsServer S) (data : List UInt8) : Option ℕ :=
  if data.getD 0 0 = 0x01 ∧ 72 ≤ data.length then none
  else if data.getD 0 0 = 0x04 ∧ 97 ≤ data.length then none
  else if srv.recvKey.isNone then none
  else headerSeq L (maskKey L t) t.rawKid data

/-- **A forged datagram**: it opens neither as a handshake nor as a token nor as a data frame,
and is no handshake in the clear with the right MAC, which is not encrypted. -/
structure AegsServer.Forged (srv : AegsServer S) (data : List UInt8) : Prop where
  /-- It is no handshake of the client. -/
  handshake : openHandshake L t data = none
  /-- It is no handshake in the clear. -/
  clear : data.getD 0 0 = 0x01 → 72 ≤ data.length → copyOut data 8 8 = le64 t.rawKid →
    copyOut data 56 16 ≠ copyOut (L.hmac t.masterKey.toList (data.take 56)).toList 0 16
  /-- It is no resumption token. -/
  token : data.getD 0 0 = 0x04 → 97 ≤ data.length →
    L.cipher.decrypt (rkey L t) (copyOut data 1 12) [] ((data.drop 13).take 52) = none
  /-- It is no data frame. -/
  frame : ∀ recvKey ∈ srv.recvKey, decryptFrame L (maskKey L t) recvKey data = none

/-- **The filter turns a number down.** A mark is in a byte of the window; a window of 256
bytes, which it always has, has that byte. -/
def AntiReplayFilter.TurnsDown (f : AntiReplayFilter) (seq : ℕ) : Prop :=
  seq = 0 ∨ seq ≤ f.maxSeq ∧ (windowSize ≤ f.maxSeq - seq ∨
    marked f.window (f.maxSeq - seq) = true ∨ f.window.length ≤ (f.maxSeq - seq) / 8)

end

/-! ### `aegs_tunnel_gateway.py` -/

/-- `AegsServer` of the gateway, with the key pair of `start`. -/
structure Gateway (S : Type) where
  /-- `server_priv`. -/
  serverPriv : S
  /-- `master_key`. -/
  masterKey : Vector UInt8 32
  /-- `raw_kid`. -/
  rawKid : UInt64
  /-- `mask_key`. -/
  maskKey : Vector UInt8 32
  /-- `client_addr`. -/
  clientAddr : Option ℕ
  /-- `recv_key`. -/
  recvKey : Option (Vector UInt8 32)
  /-- `send_key`. -/
  sendKey : Option (Vector UInt8 32)
  /-- `tx_seq`. -/
  txSeq : ℕ
  /-- `seen_seqs`. -/
  seenSeqs : Finset ℕ

section

variable {S : Type} (L : Library S)

/-- The handshake. Where `exchange` raises, the datagram is dropped. -/
def Gateway.handshake (g : Gateway S) (addr : ℕ) (data : List UInt8)
    (sessionId : Vector UInt8 8) : Gateway S × Outcome :=
  if copyOut data 8 8 ≠ le64 g.rawKid then (g, .ignored)
  else if copyOut data 56 16 ≠
      copyOut (L.hmac g.masterKey.toList (data.take 56)).toList 0 16 then (g, .ignored)
  else
    match L.exchange g.serverPriv (copyOut data 16 32) with
    | none => (g, .ignored)
    | some sharedSecret =>
      let recvKey := L.hkdfExtractAndExpand g.masterKey.toList sharedSecret "aegs-c2s"
      let sendKey := L.hkdfExtractAndExpand g.masterKey.toList sharedSecret "aegs-s2c"
      let respHdr := [0x02] ++ List.replicate 7 0 ++ sessionId.toList ++
        (L.pub g.serverPriv).toList
      ({ g with recvKey := some recvKey, sendKey := some sendKey, clientAddr := some addr },
        ⟨some (respHdr ++ L.cipher.encrypt sendKey (Vector.replicate 12 0) respHdr configPlain),
          none⟩)

/-- A data frame. The number is noted before the frame is decrypted. -/
def Gateway.dataFrame (g : Gateway S) (data : List UInt8) : Gateway S × Outcome :=
  match g.recvKey with
  | none => (g, .ignored)
  | some recvKey =>
    match headerSeq L g.maskKey g.rawKid data with
    | none => (g, .ignored)
    | some seq =>
      if seq ∈ g.seenSeqs then (g, .ignored)
      else
        let g := { g with seenSeqs := insert seq g.seenSeqs }
        match decryptFrame L g.maskKey recvKey data with
        | none => (g, .ignored)
        | some pt => (g, ⟨none, some pt⟩)

/-- **One round of the server loop**: the answer, and the frame for `handle_client_payload`. -/
def Gateway.receive (g : Gateway S) (addr : ℕ) (data : List UInt8) (sessionId : Vector UInt8 8) :
    Gateway S × Outcome :=
  if data.length < 20 then (g, .ignored)
  else if data.getD 0 0 = 0x01 ∧ 72 ≤ data.length then g.handshake L addr data sessionId
  else g.dataFrame L data

/-- The number of a datagram that gets as far as the set. -/
def Gateway.frameSeq (g : Gateway S) (data : List UInt8) : Option ℕ :=
  if data.getD 0 0 = 0x01 ∧ 72 ≤ data.length then none
  else if g.recvKey.isNone then none
  else headerSeq L g.maskKey g.rawKid data

/-- **A datagram that does not open.** -/
def Gateway.Forged (g : Gateway S) (data : List UInt8) : Prop :=
  ∀ recvKey ∈ g.recvKey, decryptFrame L g.maskKey recvKey data = none

end

/-! ### `quick_client.py` -/

/-- `replay_last_seq` and `replay_bitmap`. -/
structure ReplayBitmap where
  /-- `replay_last_seq`. -/
  lastSeq : ℕ
  /-- `replay_bitmap`. -/
  bitmap : UInt64
deriving DecidableEq

/-- **`check_replay`**: whether the number is turned down, and the bitmap after it. -/
def ReplayBitmap.checkReplay (f : ReplayBitmap) (seq : ℕ) : Bool × ReplayBitmap :=
  if seq = 0 then (true, f)
  else if f.lastSeq < seq then
    let diff := seq - f.lastSeq
    (false, ⟨seq, if diff < 64 then (f.bitmap <<< diff.toUInt64) ||| 1 else 1⟩)
  else
    let diff := f.lastSeq - seq
    if 64 ≤ diff then (true, f)
    else if f.bitmap &&& (1 <<< diff.toUInt64) ≠ 0 then (true, f)
    else (false, { f with bitmap := f.bitmap ||| (1 <<< diff.toUInt64) })

/-- **The bitmap turns a number down.** -/
def ReplayBitmap.TurnsDown (f : ReplayBitmap) (seq : ℕ) : Prop :=
  seq = 0 ∨ seq ≤ f.lastSeq ∧ (64 ≤ f.lastSeq - seq ∨
    f.bitmap &&& (1 <<< (f.lastSeq - seq).toUInt64) ≠ 0)

/-- The address of a datagram. -/
structure Peer where
  /-- `addr[0]`. -/
  ip : UInt32
  /-- `addr[1]`. -/
  port : ℕ
deriving DecidableEq

/-- What the loop of `run_python_proxy` holds. -/
structure QuickClient where
  /-- `server_ip`. -/
  serverIp : UInt32
  /-- `port_count`. -/
  portCount : ℕ
  /-- `raw_kid`. -/
  rawKid : UInt64
  /-- `mask_key`. -/
  maskKey : Vector UInt8 32
  /-- `recv_key`. -/
  recvKey : Vector UInt8 32
  /-- `wg_client_addr`. -/
  wgClientAddr : Option Peer
  /-- `replay_last_seq` and `replay_bitmap`. -/
  replay : ReplayBitmap

/-- `DEFAULT_SERVER_PORT`. -/
def defaultServerPort : ℕ := 50001

/-- `is_server`. -/
def QuickClient.isServer (c : QuickClient) (addr : Peer) : Bool :=
  addr.ip = c.serverIp && defaultServerPort ≤ addr.port &&
    addr.port < defaultServerPort + c.portCount

/-- The payload of a frame, if there is somebody to send it to. -/
def QuickClient.forward (c : QuickClient) (pt : List UInt8) : Option (List UInt8) :=
  if pt.length < 2 then none
  else
    let plen := (ofBe16 (copyOut pt 0 2)).toNat
    if c.wgClientAddr.isSome ∧ plen ≤ pt.length - 2 then some ((pt.drop 2).take plen) else none

section

variable {S : Type} (L : Library S)

/-- **A datagram of the loop**: what is sent to the local WireGuard. A datagram of anybody else
than the server is that WireGuard's, unless it is empty. -/
def QuickClient.receive (c : QuickClient) (addr : Peer) (data : List UInt8) :
    QuickClient × Option (List UInt8) :=
  if data.isEmpty then (c, none)
  else if c.isServer addr then
    match headerSeq L c.maskKey c.rawKid data with
    | none => (c, none)
    | some rxSeq =>
      let (replayed, replay) := c.replay.checkReplay rxSeq
      let c := { c with replay := replay }
      if replayed then (c, none)
      else
        match decryptFrame L c.maskKey c.recvKey data with
        | none => (c, none)
        | some pt => (c, c.forward pt)
  else ({ c with wgClientAddr := some addr }, none)

/-- The number of a datagram that gets as far as the bitmap. -/
def QuickClient.frameSeq (c : QuickClient) (addr : Peer) (data : List UInt8) : Option ℕ :=
  if c.isServer addr then headerSeq L c.maskKey c.rawKid data else none

end

/-! ### The filters -/

/-- A mark made where there is none changes the window. -/
theorem mark_ne_self {window : List UInt8} {diff : ℕ} (hlen : diff / 8 < window.length)
    (hnew : marked window diff = false) : mark window diff ≠ window := by
  intro heq
  have hmark := marked_mark hlen
  rw [heq, hnew] at hmark
  exact Bool.false_ne_true hmark

/-- Without the byte there is nowhere to make a mark. -/
theorem mark_of_length_le {window : List UInt8} {diff : ℕ} (hlen : window.length ≤ diff / 8) :
    mark window diff = window := List.modify_eq_self hlen

/-- **The filter of the server stays as it is exactly for what it turns down.** -/
theorem checkAndUpdate_eq_self_iff (f : AntiReplayFilter) (seq : ℕ) :
    (f.checkAndUpdate seq).2 = f ↔ f.TurnsDown seq := by
  rw [AntiReplayFilter.checkAndUpdate, AntiReplayFilter.TurnsDown]
  by_cases hzero : seq = 0
  · simp [hzero]
  rw [if_neg hzero]
  by_cases hlt : f.maxSeq < seq
  · rw [if_pos hlt]
    refine iff_of_false (fun h => ?_) ?_
    · have := congrArg AntiReplayFilter.maxSeq h
      exact absurd this (Nat.ne_of_gt hlt)
    · rintro (h | ⟨h, -⟩)
      · exact hzero h
      · omega
  · rw [if_neg hlt]
    have hle : seq ≤ f.maxSeq := Nat.not_lt.mp hlt
    by_cases hold : windowSize ≤ f.maxSeq - seq
    · simp [hold, hle]
    · simp only [hold, if_false, hzero, false_or, hle, true_and]
      cases hmarked : marked f.window (f.maxSeq - seq) with
      | true => simp
      | false =>
        simp only [Bool.false_eq_true, if_false, false_or]
        constructor
        · intro h
          by_contra hbyte
          exact mark_ne_self (Nat.not_le.mp hbyte) hmarked (congrArg AntiReplayFilter.window h)
        · intro h
          rw [mark_of_length_le h]

/-- A bit of the bitmap. -/
theorem testBit_oneShiftLeft {k : ℕ} (hk : k < 64) :
    ((1 : UInt64) <<< k.toUInt64).toNat.testBit k = true := by
  have hshift : k.toUInt64.toNat % 64 = k := by
    rw [Nat.toUInt64_eq, UInt64.toNat_ofNat']
    omega
  rw [UInt64.toNat_shiftLeft, hshift, show (1 : UInt64).toNat = 1 from rfl, Nat.testBit_mod_two_pow,
    Nat.testBit_shiftLeft, Nat.sub_self]
  simp [hk]

/-- A bit that is not there changes the bitmap. -/
theorem or_oneShiftLeft_ne_self {bitmap : UInt64} {k : ℕ} (hk : k < 64)
    (hbit : bitmap &&& (1 <<< k.toUInt64) = 0) : bitmap ||| (1 <<< k.toUInt64) ≠ bitmap := by
  intro hor
  have hset : bitmap.toNat.testBit k = true := by
    rw [← hor, UInt64.toNat_or, Nat.testBit_or, testBit_oneShiftLeft hk, Bool.or_true]
  have hclear : (bitmap &&& (1 <<< k.toUInt64)).toNat.testBit k = true := by
    rw [UInt64.toNat_and, Nat.testBit_and, hset, testBit_oneShiftLeft hk, Bool.and_true]
  rw [hbit] at hclear
  exact absurd hclear (by simp)

/-- **The bitmap stays as it is exactly for what it turns down.** -/
theorem checkReplay_eq_self_iff (f : ReplayBitmap) (seq : ℕ) :
    (f.checkReplay seq).2 = f ↔ f.TurnsDown seq := by
  rw [ReplayBitmap.checkReplay, ReplayBitmap.TurnsDown]
  by_cases hzero : seq = 0
  · simp [hzero]
  rw [if_neg hzero]
  by_cases hlt : f.lastSeq < seq
  · rw [if_pos hlt]
    refine iff_of_false (fun h => ?_) ?_
    · have := congrArg ReplayBitmap.lastSeq h
      exact absurd this (Nat.ne_of_gt hlt)
    · rintro (h | ⟨h, -⟩)
      · exact hzero h
      · omega
  · rw [if_neg hlt]
    have hle : seq ≤ f.lastSeq := Nat.not_lt.mp hlt
    by_cases hold : 64 ≤ f.lastSeq - seq
    · simp [hold, hle]
    · simp only [hold, if_false, hzero, false_or, hle, true_and]
      by_cases hbit : f.bitmap &&& (1 <<< (f.lastSeq - seq).toUInt64) = 0
      · rw [if_neg (not_not.mpr hbit)]
        refine iff_of_false (fun h => ?_) (not_not.mpr hbit)
        exact or_oneShiftLeft_ne_self (Nat.not_le.mp hold) hbit (congrArg ReplayBitmap.bitmap h)
      · rw [if_pos hbit]
        exact iff_of_true rfl hbit

/-! ### The receivers -/

section

variable {S : Type} (L : Library S) (t : Token)

/-- What a datagram that opens as nothing does to the server: its number is noted, if it gets
that far. -/
theorem replayFilter_of_forged {srv : AegsServer S} {data : List UInt8}
    (hforged : srv.Forged L t data) (addr : ℕ) (d : ReplyDraws) :
    (srv.processPacket L t addr data d).1.replayFilter =
      match srv.frameSeq L t data with
      | none => srv.replayFilter
      | some seq => (srv.replayFilter.checkAndUpdate seq).2 := by
  have hhandshake : srv.clientHandshake L t addr data d = (srv, none) := by
    rw [AegsServer.clientHandshake, hforged.handshake]
  -- below 56 bytes there is no data frame
  have hshort : data.length < 56 → srv.frameSeq L t data = none := by
    intro hlen
    rw [AegsServer.frameSeq, headerSeq]
    simp only [hlen, true_or, if_true, ite_self]
  rw [AegsServer.processPacket]
  split
  · rename_i hlen
    rw [hshort (by omega)]
  split
  · rename_i hstun
    rw [hshort (by omega)]
  rw [hhandshake]
  dsimp only
  split
  · rename_i hclear
    have hraw : srv.rawHandshake L t addr data d = (srv, .ignored) := by
      rw [AegsServer.rawHandshake]
      by_cases hkid : copyOut data 8 8 = le64 t.rawKid
      · rw [if_neg (not_not.mpr hkid), if_pos (hforged.clear hclear.1 hclear.2 hkid)]
      · rw [if_pos hkid]
    rw [hraw, AegsServer.frameSeq, if_pos hclear]
  split
  · rename_i hclear htoken
    have hresume : srv.resume L t addr data = srv := by
      rw [AegsServer.resume]
      dsimp only
      rw [hforged.token htoken.1 htoken.2]
    rw [hresume, AegsServer.frameSeq, if_neg hclear, if_pos htoken]
  · rename_i hclear htoken
    rw [AegsServer.frameSeq, if_neg hclear, if_neg htoken, AegsServer.dataFrame]
    cases hkey : srv.recvKey with
    | none => rfl
    | some recvKey =>
      have hframe := hforged.frame recvKey hkey
      rw [decryptFrame] at hframe
      dsimp only [Option.isNone_some]
      rw [if_neg Bool.false_ne_true, headerSeq]
      split
      · rfl
      · split
        · rfl
        · rw [hframe]

/-- **The server**: a forged datagram leaves the filter alone exactly if it does not get as
far as the filter or is turned down by it. -/
theorem keepsFilter_iff {srv : AegsServer S} {data : List UInt8} (hforged : srv.Forged L t data)
    (addr : ℕ) (d : ReplyDraws) :
    (srv.processPacket L t addr data d).1.replayFilter = srv.replayFilter ↔
      ∀ seq ∈ srv.frameSeq L t data, srv.replayFilter.TurnsDown seq := by
  rw [replayFilter_of_forged L t hforged]
  cases srv.frameSeq L t data with
  | none => simp
  | some seq =>
    simp only [Option.mem_def, Option.some.injEq, forall_eq']
    exact checkAndUpdate_eq_self_iff srv.replayFilter seq

/-- **The gateway**: the set stays as it is exactly if the number was seen. -/
theorem keepsSeen_iff {g : Gateway S} {data : List UInt8} (hforged : g.Forged L data)
    (addr : ℕ) (sessionId : Vector UInt8 8) :
    (g.receive L addr data sessionId).1.seenSeqs = g.seenSeqs ↔
      ∀ seq ∈ g.frameSeq L data, seq ∈ g.seenSeqs := by
  rw [Gateway.receive, Gateway.frameSeq]
  by_cases hshort : data.length < 20
  · have hseq : headerSeq L g.maskKey g.rawKid data = none := if_pos (Or.inl (by omega))
    rw [if_pos hshort, hseq]
    simp
  rw [if_neg hshort]
  by_cases hclear : data.getD 0 0 = 0x01 ∧ 72 ≤ data.length
  · have hsame : (g.handshake L addr data sessionId).1.seenSeqs = g.seenSeqs := by
      rw [Gateway.handshake]
      split
      · rfl
      split
      · rfl
      split <;> rfl
    rw [if_pos hclear, if_pos hclear, hsame]
    simp
  rw [if_neg hclear, if_neg hclear, Gateway.dataFrame]
  cases hkey : g.recvKey with
  | none => simp
  | some recvKey =>
    cases hseq : headerSeq L g.maskKey g.rawKid data with
    | none => simp
    | some seq =>
      have hframe : decryptFrame L g.maskKey recvKey data = none := hforged recvKey hkey
      simp only [Option.isNone_some, Bool.false_eq_true, if_false, Option.mem_def,
        Option.some.injEq, forall_eq']
      by_cases hseen : seq ∈ g.seenSeqs
      · simp [hseen]
      · rw [if_neg hseen, hframe]
        exact iff_of_false (fun h => hseen (Finset.insert_eq_self.mp h)) hseen

/-- **The client**: the bitmap stays as it is exactly if the datagram is not the server's, or
no data frame, or is turned down. -/
theorem keepsBitmap_iff {c : QuickClient} {addr : Peer} {data : List UInt8}
    (hforged : decryptFrame L c.maskKey c.recvKey data = none) :
    (c.receive L addr data).1.replay = c.replay ↔
      ∀ seq ∈ c.frameSeq L addr data, c.replay.TurnsDown seq := by
  rw [QuickClient.receive, QuickClient.frameSeq]
  by_cases hempty : data.isEmpty = true
  · have hseq : headerSeq L c.maskKey c.rawKid data = none := by
      refine if_pos (Or.inl ?_)
      rw [List.isEmpty_iff.mp hempty]
      exact Nat.zero_lt_succ 55
    rw [if_pos hempty, hseq]
    simp
  rw [if_neg hempty]
  by_cases hserver : c.isServer addr = true
  · rw [if_pos hserver, if_pos hserver]
    cases hseq : headerSeq L c.maskKey c.rawKid data with
    | none => simp
    | some seq =>
      simp only [Option.mem_def, Option.some.injEq, forall_eq']
      rw [← checkReplay_eq_self_iff]
      split
      · rfl
      · rw [hforged]
  · rw [if_neg hserver, if_neg hserver]
    simp

/-- **Which forged datagrams leave the replay state alone**, of all three receivers. -/
theorem keepsWindow_iff :
    (∀ (srv : AegsServer S) (addr : ℕ) (data : List UInt8) (d : ReplyDraws),
      srv.Forged L t data →
        ((srv.processPacket L t addr data d).1.replayFilter = srv.replayFilter ↔
          ∀ seq ∈ srv.frameSeq L t data, srv.replayFilter.TurnsDown seq)) ∧
    (∀ (g : Gateway S) (addr : ℕ) (data : List UInt8) (sessionId : Vector UInt8 8),
      g.Forged L data →
        ((g.receive L addr data sessionId).1.seenSeqs = g.seenSeqs ↔
          ∀ seq ∈ g.frameSeq L data, seq ∈ g.seenSeqs)) ∧
    ∀ (c : QuickClient) (addr : Peer) (data : List UInt8),
      decryptFrame L c.maskKey c.recvKey data = none →
        ((c.receive L addr data).1.replay = c.replay ↔
          ∀ seq ∈ c.frameSeq L addr data, c.replay.TurnsDown seq) :=
  ⟨fun _ addr _ d hforged => keepsFilter_iff L t hforged addr d,
    fun _ addr _ sessionId hforged => keepsSeen_iff L hforged addr sessionId,
    fun _ _ _ hforged => keepsBitmap_iff L hforged⟩

end

/-- The header of a captured frame, a number, and 16 bytes of anything. -/
def forgedFrame (seq : UInt64) : List UInt8 :=
  outerHeader lengthLibrary.cipher smallToken.rawKid (maskKey lengthLibrary smallToken) 0
      (Vector.replicate 12 0) [] ++
    (aeadNonce seq (Vector.replicate 4 0)).toList ++ List.replicate 16 0

theorem length_forgedFrame (seq : UInt64) : (forgedFrame seq).length = 56 := by
  simp only [forgedFrame, List.length_append, length_outerHeader, Vector.length_toList,
    List.length_nil, List.length_replicate]

theorem getD_forgedFrame (seq : UInt64) : (forgedFrame seq).getD 0 0 = 0 := rfl

theorem unmaskedHeader_forgedFrame (seq : UInt64) :
    unmaskedHeader lengthLibrary.cipher (maskKey lengthLibrary smallToken) (forgedFrame seq) =
      plainHeader smallToken.rawKid ([] : List UInt8).length.toUInt16 0 := by
  rw [forgedFrame, List.append_assoc, unmaskedHeader_outerHeader]

/-- It gets as far as the filter. -/
theorem headerSeq_forgedFrame (seq : UInt64) :
    headerSeq lengthLibrary (maskKey lengthLibrary smallToken) smallToken.rawKid
      (forgedFrame seq) = some seq.toNat := by
  have hfits : fits (plainHeader smallToken.rawKid ([] : List UInt8).length.toUInt16 0)
      (forgedFrame seq) = true := by
    rw [fits, length_forgedFrame]
    decide
  have hnonce : packetNonce (plainHeader smallToken.rawKid ([] : List UInt8).length.toUInt16 0)
      (forgedFrame seq) = aeadNonce seq (Vector.replicate 4 0) :=
    packetNonce_outerHeader (by decide) _
  rw [headerSeq]
  simp only [unmaskedHeader_forgedFrame, length_forgedFrame, hfits, hnonce, nonceSeq_aeadNonce]
  rw [if_neg]
  simp

/-- It does not open: the tag of a key begins with a byte of the key. -/
theorem decryptFrame_forgedFrame (seq : UInt64) {key : Vector UInt8 32}
    (hkey : getElem key 0 Bytes.zero_lt_32 ≠ 0) :
    decryptFrame lengthLibrary (maskKey lengthLibrary smallToken) key (forgedFrame seq) =
      none := by
  rw [decryptFrame, unmaskedHeader_forgedFrame, forgedFrame, openPacket_outerHeader _ (by decide)]
  simp only [lengthLibrary, lengthCipher]
  rw [if_neg]
  rintro ⟨htag, -⟩
  have hhead := congrArg (fun sealed => sealed.getD 0 0) htag
  exact hkey (hhead.symm.trans rfl)

/-- It is no message of the other kinds. -/
theorem forged_forgedFrame (seq : UInt64) :
    smallServer.Forged lengthLibrary smallToken (forgedFrame seq) where
  handshake := by
    rw [openHandshake, length_forgedFrame, if_pos (by decide)]
  clear := by
    intro h
    exact absurd h (by rw [getD_forgedFrame]; decide)
  token := by
    intro h
    exact absurd h (by rw [getD_forgedFrame]; decide)
  frame := by
    intro recvKey hkey
    obtain rfl := Option.some.inj hkey
    exact decryptFrame_forgedFrame seq (by decide)

/-- A gateway with the same keys that has seen the number 7. -/
def smallGateway : Gateway Unit :=
  ⟨(), smallToken.masterKey, smallToken.rawKid, maskKey lengthLibrary smallToken, some 0,
    some (Vector.replicate 32 1), some (Vector.replicate 32 2), 0, {7}⟩

/-- A client with the same keys that has read the numbers up to 2. -/
def smallQuickClient : QuickClient :=
  ⟨1, 5, smallToken.rawKid, maskKey lengthLibrary smallToken, Vector.replicate 32 1, none, ⟨2, 3⟩⟩

/-- **It moves the window of the server to the last number**, and everything genuine is older
than the window from then on. -/
theorem not_keepsWindow : ¬∀ (S : Type) (L : Library S) (t : Token) (srv : AegsServer S)
    (addr : ℕ) (data : List UInt8) (d : ReplyDraws), srv.Forged L t data →
      (srv.processPacket L t addr data d).1.replayFilter = srv.replayFilter := by
  intro h
  have hsame := h Unit lengthLibrary smallToken smallServer 0 (forgedFrame 0xFFFFFFFFFFFFFFFF)
    zeroReplyDraws (forged_forgedFrame _)
  have hmoved : (smallServer.processPacket lengthLibrary smallToken 0
      (forgedFrame 0xFFFFFFFFFFFFFFFF) zeroReplyDraws).1.replayFilter.maxSeq = 2 ^ 64 - 1 := by
    decide +kernel
  rw [hsame] at hmoved
  exact absurd hmoved (by decide)

/-- The rule at forged frames: the number 0 changes no filter of the server, and the number 7
not the set that has it, but the bitmap that does not. -/
theorem keepsWindow_forgedFrame :
    (smallServer.processPacket lengthLibrary smallToken 0 (forgedFrame 0)
        zeroReplyDraws).1.replayFilter = smallServer.replayFilter ∧
      (smallGateway.receive lengthLibrary 0 (forgedFrame 7) (Vector.replicate 8 0)).1.seenSeqs =
        smallGateway.seenSeqs ∧
      (smallQuickClient.receive lengthLibrary ⟨1, 50001⟩ (forgedFrame 7)).1.replay ≠
        smallQuickClient.replay := by
  obtain ⟨hserver, hgateway, hclient⟩ := keepsWindow_iff lengthLibrary smallToken
  refine ⟨(hserver _ _ _ _ (forged_forgedFrame 0)).mpr fun seq hseq => ?_,
    (hgateway _ _ _ _ fun recvKey hkey => ?_).mpr fun seq hseq => ?_, fun h => ?_⟩
  · have hzero := (headerSeq_forgedFrame 0).symm.trans hseq
    exact Or.inl (Option.some.inj hzero).symm
  · obtain rfl := Option.some.inj hkey
    exact decryptFrame_forgedFrame 7 (by decide)
  · have hseven := (headerSeq_forgedFrame 7).symm.trans hseq
    rw [← Option.some.inj hseven]
    exact Finset.mem_singleton_self 7
  · have hframe : decryptFrame lengthLibrary smallQuickClient.maskKey smallQuickClient.recvKey
        (forgedFrame 7) = none := decryptFrame_forgedFrame 7 (by decide)
    have hturned := (hclient _ _ _ hframe).mp h 7 (headerSeq_forgedFrame 7)
    have hahead : smallQuickClient.replay.lastSeq = 2 := rfl
    rw [ReplayBitmap.TurnsDown, hahead] at hturned
    omega

end Tunnel

end Aegs
