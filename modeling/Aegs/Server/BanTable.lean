import Mathlib.Data.Rat.Defs
import Aegs.Lib.BoundedMap
import Aegs.Server.DataPlane
import Aegs.Server.Ownership

/-!
# Bans

`record_fail` counts the failures of an address, and bans it when they weigh enough;
`process_udp_packet` drops what comes from a banned address, and forgets the failures of one
that authenticates; `cleanup_maps` forgets what is old. This file puts the two tables beside the
operations of the server (`Aegs.Server.GuardedState`), one worker taking one datagram after the
other.

An address is banned only while no session has a client there, and a session gets a client only
from a datagram that is let through, at a time when its address is not banned. As time does not
run backwards, no address is banned while a session has a client there
(`Aegs.Server.sound_of_runs`).

Weights are rationals, times are in milliseconds. The sessions that `record_fail` asks are those
of the table.
-/

namespace Aegs

namespace Server

open BoundedMap Handshake Transition Wire

/-! ### The two tables -/

/-- `FailRecord`, without the field that nothing reads. -/
structure FailRecord where
  /-- `weight`. -/
  weight : ℚ
  /-- `last_seen`. -/
  lastSeen : ℤ
  /-- `level`. -/
  level : ℤ
deriving DecidableEq

/-- `FailRecord{}`. -/
def FailRecord.zero : FailRecord := ⟨0, 0, 0⟩

/-- `MAX_FAILED_RECORDS`. -/
def maxFailedRecords : ℕ := 10000

/-- `MAX_BANNED_RECORDS`. -/
def maxBannedRecords : ℕ := 10000

/-- `ban_levels`, in seconds. -/
def banLevels : List ℤ := [0, 10, 30, 60]

/-- `failed_attempts`, `g_failed_attempts_count` and `banned_ips`. -/
structure Security where
  /-- `failed_attempts`. -/
  failedAttempts : AList fun _ : UInt32 => FailRecord
  /-- `g_failed_attempts_count`. -/
  failedAttemptsCount : ℕ
  /-- `banned_ips`, the end of each ban. -/
  bannedIps : AList fun _ : UInt32 => ℤ

/-- The tables at the start. -/
def Security.start : Security := ⟨∅, 0, ∅⟩

/-- The record of an address as a failure finds it, its level set. -/
def Security.found (sec : Security) (ip : UInt32) : FailRecord :=
  let record := (sec.failedAttempts.lookup ip).getD .zero
  if record.level = 0 then { record with level := 1 } else record

/-- `lvl`, the index into `ban_levels`. -/
def FailRecord.lvl (record : FailRecord) : ℤ := min record.level 3

/-- The record behind a failure, ahead of the question of a ban. -/
def FailRecord.fail (record : FailRecord) (now : ℤ) (weight : ℚ) : FailRecord :=
  let record := if now - record.lastSeen > 120000 then { record with weight := 0 } else record
  { record with lastSeen := now, weight := record.weight + weight }

/-- The tables behind a failure that is recorded. -/
def Security.fail (sec : Security) (ip : UInt32) (now : ℤ) (weight : ℚ) : Security :=
  let record := (sec.found ip).fail now weight
  let failedAttempts := sec.failedAttempts.insert ip record
  let sec : Security := ⟨failedAttempts, failedAttempts.keys.length, sec.bannedIps⟩
  if record.weight ≥ 200 then
    { sec with
      bannedIps := if sec.bannedIps.keys.length < maxBannedRecords ∨ ip ∈ sec.bannedIps then
        sec.bannedIps.insert ip (now + 1000 * banLevels.getD record.lvl.toNat 0) else sec.bannedIps
      failedAttempts :=
        failedAttempts.insert ip { record with weight := 0, level := record.lvl + 1 } }
  else sec

/-- `is_active_client`: a session has a client at the address. -/
def SessionTable.isClient (t : SessionTable) (ip : UInt32) : Bool :=
  t.byKeyId.entries.any fun entry =>
    (t.heap entry.2).routing.hasClient && decide ((t.heap entry.2).routing.clientAddr.addr = ip)

/-- **`record_fail`.** -/
def Security.recordFail (sec : Security) (t : SessionTable) (ip : UInt32) (now : ℤ) (weight : ℚ) :
    Security :=
  if t.isClient ip then sec
  else if sec.failedAttempts.keys.length ≥ maxFailedRecords ∧ ip ∉ sec.failedAttempts then sec
  else sec.fail ip now weight

/-- The tables behind a packet that authenticates. -/
def Security.forget (sec : Security) (ip : UInt32) : Security :=
  if sec.failedAttemptsCount > 0 then
    if ip ∈ sec.failedAttempts then
      { sec with
        failedAttempts := sec.failedAttempts.erase ip
        failedAttemptsCount := (sec.failedAttempts.erase ip).keys.length }
    else sec
  else sec

/-- What `cleanup_maps` does with the tables. -/
def Security.purge (sec : Security) (now : ℤ) : Security :=
  let failedAttempts := BoundedMap.purge sec.failedAttempts
    fun _ record => decide (now - record.lastSeen > 300000)
  ⟨failedAttempts, failedAttempts.keys.length,
    BoundedMap.purge sec.bannedIps fun _ stop => decide (now > stop)⟩

/-- The ban check of `process_udp_packet`. -/
def Security.isBanned (sec : Security) (ip : UInt32) (now : ℤ) : Bool :=
  (sec.bannedIps.lookup ip).any fun stop => decide (now < stop)

/-! ### What becomes of a datagram -/

/-- What `process_udp_packet` makes of a datagram on the data path, for the tables. -/
inductive Verdict
  /-- It is dropped silently. -/
  | silent
  /-- It is a failure of this weight. -/
  | fail (weight : ℚ)
  /-- It authenticates. -/
  | authentic
deriving DecidableEq

section

variable {S : Type} (L : Library S) (T : TokenCipher) (C : DataCipher)

/-- The verdict on a packet that matches a session. -/
def State.matchedVerdict (st : State) (m : Match) (e : Arrival) : Verdict :=
  let s := st.sessions.heap m.session
  let recvKey := s.crypto.sessionKeys.recvKey
  if s.crypto.v3HandshakeDone ∧ ¬e.portOk recvKey then .silent
  else if ¬fits m.hdr e.d.data then .fail (1 / 2)
  else if s.replayFilter.checkPeek (nonceSeq (packetNonce m.hdr e.d.data)) then .silent
  else if ¬s.crypto.v3HandshakeDone then .fail (1 / 2)
  else
    match openPacket C recvKey m.hdr e.d.data with
    | none => .fail (1 / 2)
    | some _ => .authentic

/-- The verdict on a packet. -/
def State.dataVerdict (st : State) (e : Arrival) : Verdict :=
  if e.d.data.length < 56 then .fail 1
  else
    match st.fastMatch C e with
    | some m => st.matchedVerdict C m e
    | none =>
      if ¬e.roaming then .silent
      else
        match st.slowMatch C e with
        | some m => st.matchedVerdict C m e
        | none => .fail 1

/-- The library calls and clock readings that a datagram may lead to. -/
structure PacketCalls (S : Type) where
  /-- `check_handshake_rate_limit`. -/
  handshakeLimit : Bool
  /-- Those of a handshake. -/
  handshake : HandshakeCalls S
  /-- Those of a resumption. -/
  resume : ResumeCalls
  /-- Those of a fast resume. -/
  expand : ExpandCalls
  /-- Those of a PFS resume. -/
  pfs : PfsCalls S

/-- The token of a resumption is rejected. -/
def State.rejects (st : State) (d : Datagram) (calls : ResumeCalls) : Bool :=
  (st.verifyToken L T (ResumptionToken.read d.data 1) calls).2.isNone

/-- The request of a handshake is accepted and names no session. -/
def State.unknown (st : State) (d : Datagram) (calls : HandshakeCalls S) : Bool :=
  (st.hs.processInit L d.data calls.initMs calls.addr).2.any fun keyId =>
    (st.sessions.findByKeyId keyId).isNone

/-- **`process_udp_packet`**, on the server and the tables. -/
def processUdpPacket (st : State) (sec : Security) (e : Arrival) (calls : PacketCalls S) :
    State × Security :=
  let ip := e.d.caddr.addr
  let now := e.d.now
  if sec.isBanned ip now then (st, sec)
  else if e.d.data.head? = some 0x04 ∧ e.d.data.length = 97 then
    let st' := (st.fastResume L T e.d calls.resume calls.expand).1
    (st', if st.rejects L T e.d calls.resume then sec.recordFail st'.sessions ip now 1 else sec)
  else if e.d.data.head? = some 0x05 ∧ e.d.data.length = 129 then
    let st' := (st.pfsResume L T e.d calls.resume calls.pfs).1
    (st', if st.rejects L T e.d calls.resume then sec.recordFail st'.sessions ip now 1 else sec)
  else if e.d.data.head? = some 0x01 ∧ e.d.data.length = 72 then
    if ¬calls.handshakeLimit then (st, sec)
    else
      let st' := (st.handshake L T e.d calls.handshake).1
      (st', if st.unknown L e.d calls.handshake then sec.recordFail st'.sessions ip now 1 else sec)
  else
    let st' := (st.data C e).1
    (st',
      match st.dataVerdict C e with
      | .silent => sec
      | .fail weight => sec.recordFail st'.sessions ip now weight
      | .authentic => sec.forget ip)

/-! ### Runs -/

/-- The server, the tables, and the time. -/
structure GuardedState where
  /-- The server. -/
  server : State
  /-- The tables. -/
  security : Security
  /-- History: the last time read. -/
  clock : ℤ

/-- What happens next. -/
inductive GuardedEvent (S : Type)
  /-- `process_udp_packet`. -/
  | packet (e : Arrival) (calls : PacketCalls S)
  /-- `record_fail`. -/
  | recordFail (ip : UInt32) (now : ℤ) (weight : ℚ)
  /-- `cleanup_maps`, with the order in which it visits the sessions. -/
  | cleanupMaps (now : ℤ) (order : List ℕ)

/-- The time of an event. -/
def GuardedEvent.now : GuardedEvent S → ℤ
  | .packet e _ => e.d.now
  | .recordFail _ now _ => now
  | .cleanupMaps now _ => now

/-- **One event**, at a time that is not before the last one. -/
def guardedStep (st : GuardedState) (ev : GuardedEvent S) : Option GuardedState :=
  if ev.now < st.clock then none
  else
    match ev with
    | .packet e calls =>
      let r := processUdpPacket L T C st.server st.security e calls
      some ⟨r.1, r.2, e.d.now⟩
    | .recordFail ip now weight =>
      some ⟨st.server, st.security.recordFail st.server.sessions ip now weight, now⟩
    | .cleanupMaps now order =>
      if now - st.server.lastCleanup < 30000 then some { st with clock := now }
      else some ⟨st.server.cleanupMaps now order, st.security.purge now, now⟩

/-- A server with empty tables. -/
def guardedStart (server : State) (clock : ℤ) : GuardedState := ⟨server, .start, clock⟩

end

/-! ### Whose clients there are -/

/-- **New clients are allowed ones**: the sessions found are the same, and each client is at an
allowed address or was there before. -/
structure Routes (allowed : UInt32 → Prop) (t t' : SessionTable) : Prop where
  /-- The sessions of the table are the same. -/
  byKeyId : t'.byKeyId = t.byKeyId
  /-- A client is at an allowed address, or was there before. -/
  client : ∀ p, (t'.heap p).routing.hasClient = true →
    allowed (t'.heap p).routing.clientAddr.addr ∨
      (t.heap p).routing.hasClient = true ∧
        (t'.heap p).routing.clientAddr = (t.heap p).routing.clientAddr

section

variable {allowed : UInt32 → Prop} {t t' t'' : SessionTable}

/-- Tables with the same sessions. -/
theorem Routes.of_eq (hkeys : t'.byKeyId = t.byKeyId) (hheap : t'.heap = t.heap) :
    Routes allowed t t' :=
  ⟨hkeys, fun p hp => .inr ⟨by rwa [hheap] at hp, by rw [hheap]⟩⟩

theorem Routes.refl (allowed : UInt32 → Prop) (t : SessionTable) : Routes allowed t t :=
  .of_eq rfl rfl

theorem Routes.trans (h : Routes allowed t t') (h' : Routes allowed t' t'') :
    Routes allowed t t'' := by
  refine ⟨h'.byKeyId.trans h.byKeyId, fun p hp => ?_⟩
  rcases h'.client p hp with hnew | ⟨hp', heq⟩
  · exact .inl hnew
  · rcases h.client p hp' with hnew | ⟨hold, heq'⟩
    · exact .inl (by rwa [heq])
    · exact .inr ⟨hold, heq.trans heq'⟩

/-- Stores to one session. -/
theorem Routes.setSession (p : ℕ) {s : Session}
    (h : s.routing.hasClient = true → allowed s.routing.clientAddr.addr ∨
      (t.heap p).routing.hasClient = true ∧
        s.routing.clientAddr = (t.heap p).routing.clientAddr) :
    Routes allowed t (t.setSession p s) := by
  refine ⟨rfl, fun q hq => ?_⟩
  simp only [SessionTable.setSession] at hq ⊢
  by_cases hqp : q = p
  · subst hqp
    rw [Function.update_self] at hq ⊢
    exact h hq
  · rw [Function.update_of_ne hqp] at hq ⊢
    exact .inr ⟨hq, rfl⟩

/-- **An address with a client** is allowed, or had one before. -/
theorem Routes.isClient (h : Routes allowed t t') {ip : UInt32} (hip : t'.isClient ip = true) :
    allowed ip ∨ t.isClient ip = true := by
  rw [SessionTable.isClient, h.byKeyId, List.any_eq_true] at hip
  obtain ⟨entry, hentry, hclient⟩ := hip
  simp only [Bool.and_eq_true, decide_eq_true_eq] at hclient
  obtain ⟨hhas, rfl⟩ := hclient
  rcases h.client entry.2 hhas with hnew | ⟨hold, heq⟩
  · exact .inl hnew
  · refine .inr (List.any_eq_true.mpr ⟨entry, hentry, ?_⟩)
    simp only [Bool.and_eq_true, decide_eq_true_eq]
    exact ⟨hold, by rw [heq]⟩

end

section

variable {S : Type} (L : Library S) (T : TokenCipher) (C : DataCipher) {st : State}

/-- The routing of an authenticated packet. -/
theorem clientAddr_roam (r : SessionRouting) (usedAltMask : Bool) (d : Datagram) :
    (r.roam usedAltMask d).clientAddr = d.caddr := by
  rw [SessionRouting.roam]
  split
  · rfl
  · rename_i hsame
    simp only [not_or, not_not] at hsame
    exact hsame.2.1

theorem routes_dispatch (allowed : UInt32 → Prop) (e : Arrival) :
    Routes allowed st.sessions (st.dispatch C e).1.sessions := by
  rw [State.dispatch]
  split
  · exact .refl _ _
  · split
    · exact .of_eq rfl rfl
    · exact .refl _ _

/-- **A data packet** brings no client but its sender. -/
theorem routes_data (e : Arrival) :
    Routes (· = e.d.caddr.addr) st.sessions (st.data C e).1.sessions := by
  have hdispatch : Routes (· = e.d.caddr.addr) st.sessions (st.dispatch C e).1.sessions :=
    routes_dispatch C _ e
  rw [State.data]
  split
  · exact .refl _ _
  · rcases heq : st.dispatch C e with ⟨st', _ | m⟩
    · rw [heq] at hdispatch
      exact hdispatch
    · rw [heq] at hdispatch
      simp only
      split
      · exact hdispatch
      · refine hdispatch.trans (.setSession _ fun _ => .inl ?_)
        simp only [Session.authenticate, clientAddr_roam]

theorem routes_verifyToken (allowed : UInt32 → Prop) (tok : ResumptionToken) (calls : ResumeCalls) :
    Routes allowed st.sessions (st.verifyToken L T tok calls).1.sessions := by
  rw [State.verifyToken]
  split
  · exact .refl _ _
  · exact .of_eq rfl rfl

theorem routes_resume (p : ℕ) (sessionId : UInt64) (ip : UInt32) (recvKey sendKey : Vector UInt8 32)
    (d : Datagram) (calls : ResumeCalls) :
    Routes (· = d.caddr.addr) st.sessions
      (st.resume L T p sessionId ip recvKey sendKey d calls).1.sessions := by
  rw [State.resume]
  have hstored : Routes (· = d.caddr.addr) st.sessions (st.sessions.setSession p
      ((st.sessions.heap p).resume sessionId recvKey sendKey (st.sessions.resumedIp p ip) d)) :=
    .setSession _ fun _ => .inl rfl
  refine hstored.trans ?_
  · refine .of_eq ?_ ?_
    · rw [SessionTable.byKeyId_mapIp]
      rfl
    · rw [SessionTable.heap_mapIp]
      rfl

/-- **A resumption** brings no client but its sender. -/
theorem routes_fastResume (d : Datagram) (calls : ResumeCalls) (expand : ExpandCalls) :
    Routes (· = d.caddr.addr) st.sessions (st.fastResume L T d calls expand).1.sessions := by
  have hverify := @routes_verifyToken S L T st (· = d.caddr.addr)
    (ResumptionToken.read d.data 1) calls
  rw [State.fastResume]
  rcases heq : st.verifyToken L T (ResumptionToken.read d.data 1) calls with ⟨st', _ | r⟩
  · rw [heq] at hverify
    exact hverify
  · rw [heq] at hverify
    exact hverify.trans (routes_resume L T _ _ _ _ _ d calls)

theorem routes_pfsResume (d : Datagram) (calls : ResumeCalls) (pfs : PfsCalls S) :
    Routes (· = d.caddr.addr) st.sessions (st.pfsResume L T d calls pfs).1.sessions := by
  have hverify := @routes_verifyToken S L T st (· = d.caddr.addr)
    (ResumptionToken.read d.data 1) calls
  rw [State.pfsResume]
  rcases heq : st.verifyToken L T (ResumptionToken.read d.data 1) calls with ⟨st', _ | r⟩
  · rw [heq] at hverify
    exact hverify
  · rw [heq] at hverify
    simp only
    split
    · exact hverify
    · exact hverify.trans (routes_resume L T _ _ _ _ _ d calls)

theorem routes_assignIp (allowed : UInt32 → Prop) {p : ℕ} {st' : State} {ip : UInt32}
    (h : st.assignIp p = some (st', ip)) : Routes allowed st.sessions st'.sessions := by
  rw [State.assignIp] at h
  split at h
  · obtain ⟨rfl, -⟩ := Prod.mk.inj (Option.some.inj h)
    exact .refl _ _
  · split at h
    · cases h
    · obtain ⟨rfl, -⟩ := Prod.mk.inj (Option.some.inj h)
      exact .of_eq (SessionTable.byKeyId_mapIp _ _ _) (SessionTable.heap_mapIp _ _ _)

/-- **A handshake** brings no client but its sender. -/
theorem routes_handshake (d : Datagram) (calls : HandshakeCalls S) :
    Routes (· = d.caddr.addr) st.sessions (st.handshake L T d calls).1.sessions := by
  rw [State.handshake]
  rcases st.hs.processInit L d.data calls.initMs calls.addr with ⟨hs, _ | keyId⟩
  · exact .of_eq rfl rfl
  · simp only
    split
    · exact .of_eq rfl rfl
    · split
      · exact .of_eq rfl rfl
      · rename_i st' ip hassign
        have hassigned := @routes_assignIp { st with hs := hs } (· = d.caddr.addr) _ _ _ hassign
        refine hassigned.trans ?_
        rw [State.install]
        exact Routes.trans (.setSession _ fun _ => .inl rfl) (.of_eq rfl rfl)

/-- **The collector** brings no client. -/
theorem routes_cleanupMaps (allowed : UInt32 → Prop) (now : ℤ) (order : List ℕ) :
    Routes allowed st.sessions (st.cleanupMaps now order).sessions := by
  have hone : ∀ (st' : State) p,
      Routes allowed st'.sessions (st'.cleanupSession now p).sessions := by
    intro st' p
    rw [State.cleanupSession]
    split
    · have hidle : Routes allowed st'.sessions
          (st'.sessions.setSession p (st'.sessions.heap p).idle) :=
        .setSession p fun hclient => absurd hclient Bool.false_ne_true
      simp only
      split
      · exact hidle.trans (.of_eq (SessionTable.byKeyId_unmapIp _ _)
          (SessionTable.heap_unmapIp _ _))
      · exact hidle
    · exact .refl _ _
  rw [State.cleanupMaps]
  split
  · exact .refl _ _
  · exact List.foldlRecOn
      (motive := fun st' : State => Routes allowed st.sessions st'.sessions) order _
      (.of_eq rfl rfl) fun st' h p _ => h.trans (hone st' p)

/-- **A datagram** brings no client but its sender. -/
theorem routes_processUdpPacket (sec : Security) (e : Arrival) (calls : PacketCalls S) :
    Routes (· = e.d.caddr.addr) st.sessions
      (processUdpPacket L T C st sec e calls).1.sessions := by
  rw [processUdpPacket]
  split
  · exact .refl _ _
  · split
    · exact routes_fastResume L T e.d _ _
    · split
      · exact routes_pfsResume L T e.d _ _
      · split
        · split
          · exact .refl _ _
          · exact routes_handshake L T e.d _
        · exact routes_data C e

end

/-! ### What the tables hold -/

/-- **The tables are in order**: neither is over its maximum, and no level is negative. -/
structure Security.Bounded (sec : Security) : Prop where
  /-- The failures. -/
  failed : sec.failedAttempts.keys.length ≤ maxFailedRecords
  /-- The bans. -/
  banned : sec.bannedIps.keys.length ≤ maxBannedRecords
  /-- The levels. -/
  level : ∀ ip record, sec.failedAttempts.lookup ip = some record → 0 ≤ record.level

theorem bounded_start : Security.start.Bounded :=
  ⟨Nat.zero_le _, Nat.zero_le _, fun ip record h => by
    rw [Security.start, AList.lookup_empty] at h
    exact nomatch h⟩

section

variable {sec : Security}

/-- **The index into `ban_levels`** is one of them, and not the first. -/
theorem Security.Bounded.lvl_found (h : sec.Bounded) (ip : UInt32) :
    1 ≤ (sec.found ip).lvl ∧ (sec.found ip).lvl < banLevels.length := by
  have hlevel : 0 ≤ ((sec.failedAttempts.lookup ip).getD .zero).level := by
    cases hlookup : sec.failedAttempts.lookup ip with
    | none => exact le_refl 0
    | some record => exact h.level ip record hlookup
  have hlength : banLevels.length = 4 := rfl
  rw [FailRecord.lvl, Security.found, hlength]
  split
  · simp only
    omega
  · omega

theorem level_fail (record : FailRecord) (now : ℤ) (weight : ℚ) :
    (record.fail now weight).level = record.level := by
  rw [FailRecord.fail]
  split <;> rfl

theorem mem_of_lookup_insert {m : AList fun _ : UInt32 => FailRecord} {ip ip' : UInt32}
    {record record' : FailRecord} (h : (m.insert ip record).lookup ip' = some record') :
    record' = record ∨ m.lookup ip' = some record' := by
  by_cases heq : ip' = ip
  · subst heq
    rw [AList.lookup_insert] at h
    exact .inl (Option.some.inj h).symm
  · rw [AList.lookup_insert_ne heq] at h
    exact .inr h

/-- **A failure that is recorded** keeps the tables in order, if there is room for it. -/
theorem Security.Bounded.fail (h : sec.Bounded) {ip : UInt32}
    (hroom : sec.failedAttempts.keys.length < maxFailedRecords ∨ ip ∈ sec.failedAttempts) (now : ℤ)
    (weight : ℚ) : (sec.fail ip now weight).Bounded := by
  obtain ⟨hlow, -⟩ := h.lvl_found ip
  have hlevel : ((sec.found ip).fail now weight).level = (sec.found ip).level := level_fail _ _ _
  have hpos : 1 ≤ (sec.found ip).level := by
    rw [FailRecord.lvl] at hlow
    omega
  have hfailed : (sec.failedAttempts.insert ip ((sec.found ip).fail now weight)).keys.length ≤
      maxFailedRecords := length_insert_le _ hroom h.failed
  simp only [Security.fail]
  split
  · refine ⟨?_, ?_, fun ip' record hrecord => ?_⟩
    · simp only
      rwa [length_insert_of_mem _ ((AList.mem_insert _).mpr (.inl rfl))]
    · simp only
      split
      · rename_i hguard
        exact length_insert_le _ hguard h.banned
      · exact h.banned
    · rcases mem_of_lookup_insert hrecord with rfl | hold
      · simp only [FailRecord.lvl, hlevel]
        omega
      · rcases mem_of_lookup_insert hold with rfl | hold
        · omega
        · exact h.level ip' record hold
  · refine ⟨hfailed, h.banned, fun ip' record hrecord => ?_⟩
    rcases mem_of_lookup_insert hrecord with rfl | hold
    · omega
    · exact h.level ip' record hold

theorem Security.Bounded.recordFail (h : sec.Bounded) (t : SessionTable) (ip : UInt32) (now : ℤ)
    (weight : ℚ) : (sec.recordFail t ip now weight).Bounded := by
  rw [Security.recordFail]
  split
  · exact h
  · split
    · exact h
    · rename_i hfull
      refine h.fail ?_ now weight
      by_cases hmem : ip ∈ sec.failedAttempts
      · exact .inr hmem
      · exact .inl (not_le.mp fun hge => hfull ⟨hge, hmem⟩)

theorem Security.Bounded.forget (h : sec.Bounded) (ip : UInt32) : (sec.forget ip).Bounded := by
  rw [Security.forget]
  split
  · split
    · refine ⟨le_trans (length_erase_le _ _) h.failed, h.banned, fun ip' record hrecord => ?_⟩
      by_cases heq : ip' = ip
      · subst heq
        simp only [AList.lookup_erase] at hrecord
        exact nomatch hrecord
      · simp only [AList.lookup_erase_ne heq] at hrecord
        exact h.level ip' record hrecord
    · exact h
  · exact h

theorem Security.Bounded.purge (h : sec.Bounded) (now : ℤ) : (sec.purge now).Bounded :=
  ⟨le_trans (length_purge_le _ _) h.failed, le_trans (length_purge_le _ _) h.banned,
    fun ip record hrecord => h.level ip record (lookup_purge hrecord).1⟩

/-- **Only an address without a client is banned.** -/
theorem lookup_recordFail {t : SessionTable} {ip ip' : UInt32} {now stop : ℤ} {weight : ℚ}
    (h : (sec.recordFail t ip now weight).bannedIps.lookup ip' = some stop) :
    sec.bannedIps.lookup ip' = some stop ∨ (ip' = ip ∧ t.isClient ip = false) := by
  rw [Security.recordFail] at h
  split at h
  · exact .inl h
  · rename_i hclient
    split at h
    · exact .inl h
    · simp only [Security.fail] at h
      split at h
      · simp only at h
        split at h
        · by_cases heq : ip' = ip
          · exact .inr ⟨heq, Bool.eq_false_iff.mpr hclient⟩
          · exact .inl ((AList.lookup_insert_ne heq).symm.trans h)
        · exact .inl h
      · exact .inl h

theorem bannedIps_forget (ip : UInt32) : (sec.forget ip).bannedIps = sec.bannedIps := by
  rw [Security.forget]
  split
  · split <;> rfl
  · rfl

end

/-! ### Runs -/

/-- **No client is banned**, at a time that is not before the last one. -/
def GuardedState.Spares (st : GuardedState) : Prop :=
  ∀ ip stop, st.security.bannedIps.lookup ip = some stop → st.clock < stop →
    st.server.sessions.isClient ip = false

/-- **What holds in every state of a run.** -/
structure GuardedState.Sound (st : GuardedState) : Prop where
  /-- The tables are in order. -/
  bounded : st.security.Bounded
  /-- No client is banned. -/
  spares : st.Spares

theorem sound_start (server : State) (clock : ℤ) : (guardedStart server clock).Sound :=
  ⟨bounded_start, fun ip stop h _ => by
    rw [guardedStart, Security.start, AList.lookup_empty] at h
    exact nomatch h⟩

section

variable {S : Type} {L : Library S} {T : TokenCipher} {C : DataCipher} {st st' : GuardedState}

/-- The tables behind a datagram: nothing has happened, or the sender has been let through and
has failed or authenticated. -/
theorem processUdpPacket_cases (server : State) (sec : Security) (e : Arrival)
    (calls : PacketCalls S) :
    processUdpPacket L T C server sec e calls = (server, sec) ∨
      sec.isBanned e.d.caddr.addr e.d.now = false ∧
        ((processUdpPacket L T C server sec e calls).2 = sec ∨
          (∃ weight, (processUdpPacket L T C server sec e calls).2 =
            sec.recordFail (processUdpPacket L T C server sec e calls).1.sessions e.d.caddr.addr
              e.d.now weight) ∨
          (processUdpPacket L T C server sec e calls).2 = sec.forget e.d.caddr.addr) := by
  by_cases hbanned : sec.isBanned e.d.caddr.addr e.d.now = true
  · rw [processUdpPacket, if_pos hbanned]
    exact .inl rfl
  · refine .inr ⟨Bool.eq_false_iff.mpr hbanned, ?_⟩
    rw [processUdpPacket, if_neg hbanned]
    split
    · simp only
      split
      · exact .inr (.inl ⟨1, rfl⟩)
      · exact .inl rfl
    · split
      · simp only
        split
        · exact .inr (.inl ⟨1, rfl⟩)
        · exact .inl rfl
      · split
        · split
          · exact .inl rfl
          · simp only
            split
            · exact .inr (.inl ⟨1, rfl⟩)
            · exact .inl rfl
        · simp only
          split
          · exact .inl rfl
          · exact .inr (.inl ⟨_, rfl⟩)
          · exact .inr (.inr rfl)

/-- **Every event keeps the tables sound.** -/
theorem GuardedState.Sound.step (h : st.Sound) {ev : GuardedEvent S}
    (hstep : guardedStep L T C st ev = some st') : st'.Sound := by
  simp only [guardedStep] at hstep
  split at hstep
  · exact nomatch hstep
  · rename_i htime
    rw [not_lt] at htime
    cases ev with
    | packet e calls =>
      obtain rfl := Option.some.inj hstep
      have hroutes := @routes_processUdpPacket S L T C st.server st.security e calls
      have hcases := @processUdpPacket_cases S L T C st.server st.security e calls
      rcases hcases with hnothing | ⟨hfree, htables⟩
      · rw [hnothing]
        exact ⟨h.bounded, fun ip stop hban hlt =>
          h.spares ip stop hban (lt_of_le_of_lt htime hlt)⟩
      · -- a ban that was there is not one of the sender, who was let through
        have hold : ∀ ip stop, st.security.bannedIps.lookup ip = some stop → e.d.now < stop →
            (processUdpPacket L T C st.server st.security e calls).1.sessions.isClient ip =
              false := by
          intro ip stop hban hlt
          rw [Bool.eq_false_iff]
          intro hclient
          rcases hroutes.isClient hclient with rfl | hbefore
          · rw [Security.isBanned, hban] at hfree
            exact of_decide_eq_false hfree hlt
          · have hnone := h.spares ip stop hban (lt_of_le_of_lt htime hlt)
            rw [hbefore] at hnone
            exact Bool.noConfusion hnone
        rcases htables with hsame | ⟨weight, hfail⟩ | hforget
        · refine ⟨?_, fun ip stop hban hlt => ?_⟩
          · simp only [hsame]
            exact h.bounded
          · simp only [hsame] at hban
            exact hold ip stop hban hlt
        · refine ⟨?_, fun ip stop hban hlt => ?_⟩
          · simp only [hfail]
            exact h.bounded.recordFail _ _ _ _
          · simp only [hfail] at hban
            rcases lookup_recordFail hban with hbefore | ⟨rfl, hclient⟩
            · exact hold ip stop hbefore hlt
            · exact hclient
        · refine ⟨?_, fun ip stop hban hlt => ?_⟩
          · simp only [hforget]
            exact h.bounded.forget _
          · simp only [hforget, bannedIps_forget] at hban
            exact hold ip stop hban hlt
    | recordFail ip now weight =>
      obtain rfl := Option.some.inj hstep
      refine ⟨h.bounded.recordFail _ ip now weight, fun ip' stop hban hlt => ?_⟩
      rcases lookup_recordFail hban with hold | ⟨rfl, hclient⟩
      · exact h.spares ip' stop hold (lt_of_le_of_lt htime hlt)
      · exact hclient
    | cleanupMaps now order =>
      simp only at hstep
      split at hstep
      · obtain rfl := Option.some.inj hstep
        exact ⟨h.bounded, fun ip stop hban hlt =>
          h.spares ip stop hban (lt_of_le_of_lt htime hlt)⟩
      · obtain rfl := Option.some.inj hstep
        refine ⟨h.bounded.purge now, fun ip stop hban hlt => ?_⟩
        have hold := h.spares ip stop (lookup_purge hban).1 (lt_of_le_of_lt htime hlt)
        rw [Bool.eq_false_iff] at hold ⊢
        intro hclient
        have hroutes := @routes_cleanupMaps st.server (fun _ => False) now order
        exact (hroutes.isClient hclient).elim id hold

/-- **The ban table is sound**: after every run, at times that do not decrease, neither table is
over its maximum, the index into `ban_levels` is one of them, and an address that is banned now
is the address of no session's client. -/
theorem sound_of_runs (server : State) (clock : ℤ) {evs : List (GuardedEvent S)}
    (hrun : runs (guardedStep L T C) (guardedStart server clock) evs = some st) :
    st.security.failedAttempts.keys.length ≤ maxFailedRecords ∧
      st.security.bannedIps.keys.length ≤ maxBannedRecords ∧
      (∀ ip, 0 ≤ (st.security.found ip).lvl ∧
        (st.security.found ip).lvl < banLevels.length) ∧
      ∀ now, st.clock ≤ now → ∀ ip, st.security.isBanned ip now = true →
        st.server.sessions.isClient ip = false := by
  have hsound : st.Sound := inv_of_runs (I := GuardedState.Sound)
    (fun h hstep => h.step hstep) (sound_start server clock) hrun
  refine ⟨hsound.bounded.failed, hsound.bounded.banned, fun ip => ?_, fun now hnow ip hban => ?_⟩
  · obtain ⟨hlow, hhigh⟩ := hsound.bounded.lvl_found ip
    exact ⟨by omega, hhigh⟩
  · rw [Security.isBanned, Option.any_eq_true] at hban
    obtain ⟨stop, hlookup, hlt⟩ := hban
    exact hsound.spares ip stop hlookup (lt_of_le_of_lt hnow (of_decide_eq_true hlt))

end

/-- An address is banned, and then the user connects from another one. -/
def bannedRun : List (GuardedEvent UInt8) :=
  [.recordFail 7 1000 200,
    .packet
      ⟨smallDatagram (smallClient.buildInit smallLibrary .ok 1000) 2000, [], true, fun _ => true⟩
      ⟨true,
        ⟨2000, some 0, ⟨some ⟨4, 1⟩, true, some 77, true, true⟩, emptyKeys, 2000,
          ⟨true, some (Vector.replicate 32 8), true⟩⟩,
        ⟨2000, ⟨true, true⟩, 2000, ⟨true, none, true⟩⟩, ⟨true, true⟩, ⟨none, true, true, true⟩⟩]

/-- The server that has loaded the user. -/
def loadedServer : State :=
  (step smallLibrary smallCipher smallDerivation smallStart (.sync 1000 smallRows [])).getD
    smallStart

/-- The first address is banned, the second has a client. -/
def bansOne (st : GuardedState) : Bool :=
  st.security.isBanned 7 st.clock && st.server.sessions.isClient 0x0100007F

theorem sound_bannedRun : ∃ st,
    runs (guardedStep smallLibrary smallCipher smallDataCipher) (guardedStart loadedServer 0)
      bannedRun = some st ∧ bansOne st = true ∧ st.server.sessions.isClient 7 = false := by
  obtain ⟨st, hst, hbans⟩ := Option.map_eq_some_iff.mp
    (show (runs (guardedStep smallLibrary smallCipher smallDataCipher)
      (guardedStart loadedServer 0) bannedRun).map bansOne = some true by decide +kernel)
  obtain ⟨-, -, -, hspares⟩ := sound_of_runs loadedServer 0 hst
  exact ⟨st, hst, hbans, hspares st.clock (le_refl _) 7 (Bool.and_eq_true_iff.mp hbans).1⟩

end Server

end Aegs
