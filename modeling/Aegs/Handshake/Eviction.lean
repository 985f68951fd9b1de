import Aegs.Handshake.Queues

/-!
# Which pending client is evicted

At capacity `process_init` takes the record at the front of `m_pending_order` and evicts
the pending client of its key id, without a look at the timestamps. The records are in
the order of their timestamps as long as the clock does not go back, so a record that is
still the one of its client names the oldest of all. But a client that was answered, or
replaced, leaves its record behind, and when its key id is pending again the old record
evicts the new client.

The runs are those of one server whose calls read the clock in order
(`Aegs.Handshake.Eviction.step`). Evictions take the oldest client exactly in the runs
where no stale record is popped ahead of an older client's
(`Aegs.Handshake.Eviction.meets_oldestFirst_iff`).
-/

namespace Aegs

namespace Handshake

namespace Eviction

open Bytes StampedQueue Transition

/-! ### The system -/

/-- The server, and the last reading of the clock. -/
structure Clocked where
  /-- The server. -/
  server : HandshakeServer
  /-- The last reading. -/
  lastReading : UInt64

/-- A server with these users, before its first call. -/
def Clocked.start (masterKeys : AList fun _ : UInt64 => List UInt8) : Clocked :=
  ⟨.start masterKeys, 0⟩

section

variable {S : Type} (L : Library S)

/-- One call. The clock does not go back. -/
def step (st : Clocked) : Op S → Option Clocked
  | .processInit init now addr =>
    if st.lastReading ≤ now then some ⟨(st.server.processInit L init now addr).1, now⟩ else none
  | .buildResp keyId ip mtu calls out =>
    some { st with server := (st.server.buildResp L keyId ip mtu calls out).1 }
  | .addUser keyId masterKey => some { st with server := st.server.addUser keyId masterKey }
  | .removeUser keyId => some { st with server := st.server.removeUser keyId }

/-! ### The property and the condition -/

/-- A property of the records that the eviction loop pops: of the server then, the record,
and the records behind it. -/
def AtEviction (P : HandshakeServer → UInt64 × UInt64 → List (UInt64 × UInt64) → Prop)
    (s : HandshakeServer) : List (UInt64 × UInt64) → Prop
  | [] => True
  | entry :: order => s.pendingClients.entries.length ≥ maxPendingClients →
      P s entry order ∧ AtEviction P (s.dropPending entry.1) order

/-- **The evicted client is the oldest**: no pending client has a smaller timestamp. -/
def OldestFirst (s : HandshakeServer) (entry : UInt64 × UInt64) (_ : List (UInt64 × UInt64)) :
    Prop :=
  ∀ state, s.pendingClients.lookup entry.1 = some state →
    ∀ keyId state', s.pendingClients.lookup keyId = some state' →
      state.timestamp ≤ state'.timestamp

/-- The record is that of the client pending under its key id. -/
def Current (s : HandshakeServer) (record : UInt64 × UInt64) : Prop :=
  ∃ state, s.pendingClients.lookup record.1 = some state ∧ state.timestamp = record.2

/-- **The record evicts no client out of turn**: where its key id is pending, it is the
record of that client, or a stale one with no older client's record behind it. -/
def InTurn (s : HandshakeServer) (entry : UInt64 × UInt64) (order : List (UInt64 × UInt64)) :
    Prop :=
  ∀ state, s.pendingClients.lookup entry.1 = some state →
    state.timestamp = entry.2 ∨ ∀ record ∈ order, Current s record → state.timestamp ≤ record.2

/-- A property of the evictions of a call: those of a `process_init` with an authentic
packet, after its prunings. -/
def AtCapacity (P : HandshakeServer → UInt64 × UInt64 → List (UInt64 × UInt64) → Prop)
    (st : Clocked) : Op S → Prop
  | .processInit init now _ =>
    authenticInit L (st.server.masterKeys.lookup (initPair init).keyId) init now = true →
      let s := (st.server.pruneTimestamps now).prunePending now
      AtEviction P s s.pendingOrder
  | _ => True

/-! ### One eviction -/

/-- **One eviction** takes the oldest client exactly if its record is in turn. -/
theorem oldestFirst_iff {s : HandshakeServer} {entry : UInt64 × UInt64}
    {order : List (UInt64 × UInt64)}
    (hcovers : Covers ClientState.timestamp s.pendingClients (entry :: order))
    (hsorted : Sorted (entry :: order)) : OldestFirst s entry order ↔ InTurn s entry order := by
  constructor
  · intro hold state hstate
    right
    rintro record - ⟨state', hstate', htime⟩
    rw [← htime]
    exact hold state hstate record.1 state' hstate'
  · intro hturn state hstate keyId state' hstate'
    rcases hturn state hstate with htime | hbehind
    · rw [htime]
      exact hcovers.oldest hsorted hstate'
    · rcases List.mem_cons.mp (hcovers keyId state' hstate') with heq | hmem
      · -- the one other record that may be its own is the one popped
        obtain rfl : keyId = entry.1 := congrArg Prod.fst heq
        rw [Option.some.inj (hstate.symm.trans hstate')]
        exact UInt64.le_refl _
      · exact hbehind _ hmem ⟨state', hstate', rfl⟩

/-- **The eviction loop** takes the oldest clients exactly if every record it pops is in
turn. -/
theorem atEviction_iff {s : HandshakeServer} {order : List (UInt64 × UInt64)}
    (hcovers : Covers ClientState.timestamp s.pendingClients order) (hsorted : Sorted order) :
    AtEviction OldestFirst s order ↔ AtEviction InTurn s order := by
  induction order generalizing s with
  | nil => exact Iff.rfl
  | cons entry order ih =>
    have hrest : Covers ClientState.timestamp (s.dropPending entry.1).pendingClients order := by
      rw [dropPending_pendingClients]
      exact hcovers.evict
    rw [AtEviction, AtEviction]
    exact imp_congr_right fun _ =>
      and_congr (oldestFirst_iff hcovers hsorted) (ih hrest hsorted.of_cons)

/-! ### The order of the queue -/

/-- The queue is in the order of the readings so far. -/
structure InOrder (st : Clocked) : Prop where
  /-- The tables agree with their queues. -/
  kept : Kept st.server
  /-- The records are in order. -/
  sorted : Sorted st.server.pendingOrder
  /-- None is later than the last reading. -/
  past : ∀ entry ∈ st.server.pendingOrder, entry.2 ≤ st.lastReading

theorem InOrder.start (masterKeys : AList fun _ : UInt64 => List UInt8) :
    InOrder (.start masterKeys) where
  kept := .start masterKeys
  sorted := List.Pairwise.nil
  past := fun _ h => absurd h List.not_mem_nil

theorem prunePendingOrder_sublist (s : HandshakeServer) (now : UInt64)
    (order : List (UInt64 × UInt64)) :
    (s.prunePendingOrder now order).pendingOrder.Sublist order := by
  induction order generalizing s with
  | nil => exact List.Sublist.refl _
  | cons entry order ih =>
    rw [HandshakeServer.prunePendingOrder]
    split
    · split
      · exact (ih _).cons entry
      · exact (ih s).cons entry
    · exact List.Sublist.refl _

theorem evictPendingOrder_sublist (s : HandshakeServer) (order : List (UInt64 × UInt64)) :
    (s.evictPendingOrder order).pendingOrder.Sublist order := by
  induction order generalizing s with
  | nil => exact List.Sublist.refl _
  | cons entry order ih =>
    rw [HandshakeServer.evictPendingOrder]
    split
    · exact (ih _).cons entry
    · exact List.Sublist.refl _

theorem enterSeen_sublist (s : HandshakeServer) (key : HandshakeSeenKey) (now : UInt64) :
    (s.enterSeen key now).pendingOrder.Sublist s.pendingOrder := by
  have htimes := (Pruning.pruneTimestamps_pending now s).2
  have hprune := prunePendingOrder_sublist (s.pruneTimestamps now) now
    (s.pruneTimestamps now).pendingOrder
  have hevict := evictPendingOrder_sublist ((s.pruneTimestamps now).prunePending now)
    ((s.pruneTimestamps now).prunePending now).pendingOrder
  have hseen := (evictSeenOrder_pending ((s.pruneTimestamps now).prunePending now).evictPending
    ((s.pruneTimestamps now).prunePending now).evictPending.seenOrder).2
  have hsub : ((s.pruneTimestamps now).prunePending now).evictPending.evictSeen.pendingOrder.Sublist
      s.pendingOrder := by
    rw [HandshakeServer.evictSeen, hseen]
    exact hevict.trans (htimes ▸ hprune)
  simp only [HandshakeServer.enterSeen]
  split <;> exact hsub

/-- A request is queued last, if its client is made. -/
theorem setPending_pendingOrder (s : HandshakeServer) (keyId : UInt64) (raw : Vector UInt8 32)
    (now : UInt64) (addr : Option ℕ) :
    (s.setPending keyId raw now addr).1.pendingOrder =
      if addr.isSome then s.pendingOrder ++ [(keyId, now)] else s.pendingOrder := by
  obtain ⟨freed, hfree⟩ := freeExisting_eq s keyId
  simp only [HandshakeServer.setPending, hfree]
  cases addr with
  | none => rfl
  | some a => rfl

/-- A call that takes records out of the queue, or none. -/
theorem InOrder.shrink {st st' : Clocked} (h : InOrder st) (hkept : Kept st'.server)
    (horder : st'.server.pendingOrder.Sublist st.server.pendingOrder)
    (htime : st.lastReading ≤ st'.lastReading) : InOrder st' where
  kept := hkept
  sorted := h.sorted.sublist horder
  past := fun entry hentry => UInt64.le_trans (h.past entry (horder.subset hentry)) htime

/-- **The clock keeps the queue in order.** -/
theorem InOrder.step {st st' : Clocked} {op : Op S} (h : InOrder st)
    (hstep : step L st op = some st') : InOrder st' := by
  cases op with
  | processInit init now addr =>
    obtain ⟨hle, hst⟩ := Option.ite_none_right_eq_some.mp hstep
    obtain rfl := Option.some.inj hst
    have hkept := h.kept.processInit L init now addr
    by_cases hauth : authenticInit L (st.server.masterKeys.lookup (initPair init).keyId) init now
    · have hcall : st.server.processInit L init now addr =
          (st.server.enterSeen (initPair init) now).setPending (initPair init).keyId
            (copyOut init 16 32) now addr := by
        rw [processInit_eq, if_pos hauth]
      have hsub := enterSeen_sublist st.server (initPair init) now
      have hpast : ∀ entry ∈ (st.server.enterSeen (initPair init) now).pendingOrder,
          entry.2 ≤ now :=
        fun entry hentry => UInt64.le_trans (h.past entry (hsub.subset hentry)) hle
      have horder : (st.server.processInit L init now addr).1.pendingOrder =
          if addr.isSome then (st.server.enterSeen (initPair init) now).pendingOrder ++
            [((initPair init).keyId, now)]
          else (st.server.enterSeen (initPair init) now).pendingOrder := by
        rw [hcall, setPending_pendingOrder]
      refine ⟨hkept, ?_, ?_⟩
      · show Sorted (st.server.processInit L init now addr).1.pendingOrder
        rw [horder]
        split
        · exact Sorted.push (h.sorted.sublist hsub) hpast _
        · exact h.sorted.sublist hsub
      · intro entry hentry
        have hmem : entry ∈ (st.server.processInit L init now addr).1.pendingOrder := hentry
        rw [horder] at hmem
        split at hmem
        · rcases List.mem_append.mp hmem with hmem | hmem
          · exact hpast entry hmem
          · rw [List.mem_singleton.mp hmem]
            exact UInt64.le_refl now
        · exact hpast entry hmem
    · have hcall : (st.server.processInit L init now addr).1 = st.server := by
        rw [processInit_eq, if_neg hauth]
      refine h.shrink hkept ?_ hle
      show (st.server.processInit L init now addr).1.pendingOrder.Sublist _
      rw [hcall]
  | buildResp keyId ip mtu calls out =>
    obtain rfl := Option.some.inj hstep
    refine h.shrink (h.kept.buildResp L keyId ip mtu calls out) ?_ (UInt64.le_refl _)
    show (st.server.buildResp L keyId ip mtu calls out).1.pendingOrder.Sublist _
    rw [(buildResp_tables L st.server keyId ip mtu calls out).2.1]
  | addUser keyId masterKey =>
    obtain rfl := Option.some.inj hstep
    exact h.shrink (h.kept.addUser keyId masterKey) (List.Sublist.refl _) (UInt64.le_refl _)
  | removeUser keyId =>
    obtain rfl := Option.some.inj hstep
    refine h.shrink (h.kept.removeUser keyId) ?_ (UInt64.le_refl _)
    show (st.server.removeUser keyId).pendingOrder.Sublist _
    rw [HandshakeServer.removeUser, dropPending_pendingOrder]

/-! ### Exactly when the oldest client goes -/

/-- **One call** evicts the oldest clients exactly if every record it pops is in turn. -/
theorem atCapacity_iff {st : Clocked} (h : InOrder st) (op : Op S) :
    AtCapacity L OldestFirst st op ↔ AtCapacity L InTurn st op := by
  cases op with
  | processInit init now addr =>
    have hqueues := (h.kept.pruneTimestamps now).prunePending now
    have hsub : ((st.server.pruneTimestamps now).prunePending now).pendingOrder.Sublist
        st.server.pendingOrder := by
      have hprune := prunePendingOrder_sublist (st.server.pruneTimestamps now) now
        (st.server.pruneTimestamps now).pendingOrder
      exact hprune.trans ((Pruning.pruneTimestamps_pending now st.server).2 ▸ List.Sublist.refl _)
    exact imp_congr_right fun _ => atEviction_iff hqueues.pending (h.sorted.sublist hsub)
  | buildResp _ _ _ _ _ | addUser _ _ | removeUser _ => exact Iff.rfl

/-- **Oldest first**: the evictions of a run take the oldest pending client each time
exactly if each record they pop is in turn. -/
theorem meets_oldestFirst_iff (masterKeys : AList fun _ : UInt64 => List UInt8)
    (as : List (Op S)) :
    Meets (step L) (AtCapacity L OldestFirst) (.start masterKeys) as ↔
      Meets (step L) (AtCapacity L InTurn) (.start masterKeys) as := by
  constructor
  · exact Meets.imp (fun h _ hstep => h.step L hstep) (fun h => (atCapacity_iff L h _).mp)
      (.start masterKeys)
  · exact Meets.imp (fun h _ hstep => h.step L hstep) (fun h => (atCapacity_iff L h _).mpr)
      (.start masterKeys)

end

/-! ### Requests while there is room -/

section

variable {S : Type} (L : Library S) {s : HandshakeServer} {now : UInt64}

theorem prune_of_recent (hpruned : now - s.lastPruneTime < 5000)
    (hfront : ∀ entry ∈ s.pendingOrder.head?, ¬now - entry.2 > pendingClientTtlMs) :
    (s.pruneTimestamps now).prunePending now = s := by
  rw [HandshakeServer.pruneTimestamps, if_pos hpruned, HandshakeServer.prunePending]
  cases horder : s.pendingOrder with
  | nil =>
    rw [HandshakeServer.prunePendingOrder, ← horder]
  | cons entry order =>
    rw [HandshakeServer.prunePendingOrder, if_neg (hfront entry (by rw [horder]; rfl)), ← horder]

theorem evict_of_room (hpending : s.pendingClients.entries.length < maxPendingClients)
    (hseen : s.seenTimestamps.entries.length < maxSeenTimestamps) :
    s.evictPending.evictSeen = s := by
  have hfirst : s.evictPending = s := by
    rw [HandshakeServer.evictPending]
    cases horder : s.pendingOrder with
    | nil => rw [HandshakeServer.evictPendingOrder, ← horder]
    | cons entry order =>
      rw [HandshakeServer.evictPendingOrder, if_neg (Nat.not_le_of_lt hpending), ← horder]
  rw [hfirst, HandshakeServer.evictSeen]
  cases horder : s.seenOrder with
  | nil => rw [HandshakeServer.evictSeenOrder, ← horder]
  | cons entry order =>
    rw [HandshakeServer.evictSeenOrder, if_neg (Nat.not_le_of_lt hseen), ← horder]

/-- **Where nothing is old and there is room**, a request is entered and that is all. -/
theorem processInit_of_room {init : List UInt8} {a : ℕ}
    (hauth : authenticInit L (s.masterKeys.lookup (initPair init).keyId) init now = true)
    (hpruned : now - s.lastPruneTime < 5000)
    (hfront : ∀ entry ∈ s.pendingOrder.head?, ¬now - entry.2 > pendingClientTtlMs)
    (hpending : s.pendingClients.entries.length < maxPendingClients)
    (hseen : s.seenTimestamps.entries.length < maxSeenTimestamps) :
    (s.processInit L init now (some a)).1.pendingClients =
        s.pendingClients.insert (initPair init).keyId ⟨⟨a, copyOut init 16 32⟩, now⟩ ∧
      (s.processInit L init now (some a)).1.pendingOrder =
        s.pendingOrder ++ [((initPair init).keyId, now)] ∧
      (s.processInit L init now (some a)).1.lastPruneTime = s.lastPruneTime ∧
      (s.processInit L init now (some a)).1.seenTimestamps.entries.length ≤
        s.seenTimestamps.entries.length + 1 := by
  rw [processInit_eq, if_pos hauth]
  simp only [HandshakeServer.enterSeen, prune_of_recent hpruned hfront,
    evict_of_room hpending hseen]
  split
  · obtain ⟨freed, hfree⟩ := freeExisting_eq s (initPair init).keyId
    simp only [HandshakeServer.setPending, hfree]
    exact ⟨trivial, trivial, trivial, Nat.le_succ _⟩
  · obtain ⟨freed, hfree⟩ := freeExisting_eq
      { s with
        seenTimestamps := s.seenTimestamps.insert (initPair init) now
        seenOrder := s.seenOrder ++ [(initPair init, now)] } (initPair init).keyId
    simp only [HandshakeServer.setPending, hfree]
    exact ⟨trivial, trivial, trivial, length_insert_le _ _ _⟩

/-- Five seconds in which the server has pruned at `pruned` and nothing has been old: what
it has seen is no more than `seen`, and the record at the front is `front`. -/
structure Calm (pruned : UInt64) (seen : ℕ) (front : UInt64 × UInt64) (st : Clocked) : Prop where
  /-- The last pruning. -/
  pruned : st.server.lastPruneTime = pruned
  /-- The seen set is small. -/
  seen : st.server.seenTimestamps.entries.length ≤ seen
  /-- The front of the queue. -/
  front : st.server.pendingOrder.head? = some front

/-- **A client's request in calm times** makes it pending, and the times stay calm. -/
theorem Calm.request {pruned : UInt64} {seen : ℕ} {front : UInt64 × UInt64} {st : Clocked}
    (h : Calm pruned seen front st) (c : HandshakeClient S) {e : S}
    (he : c.ephemeralPkey = some e) (now : UInt64)
    (hknown : st.server.masterKeys.lookup (ofLe64 c.keyId) = some c.masterKey.toList)
    (hreading : st.lastReading ≤ now) (hskew : skewRejected now now = false)
    (hpruned : now - pruned < 5000) (hfront : ¬now - front.2 > pendingClientTtlMs)
    (hroom : st.server.pendingClients.entries.length < maxPendingClients)
    (hseen : seen < maxSeenTimestamps) (a : ℕ) :
    ∃ st', step L st (.processInit (c.buildInit L .ok now) now (some a)) = some st' ∧
      Calm pruned (seen + 1) front st' ∧ st'.lastReading = now ∧
      st'.server.masterKeys = st.server.masterKeys ∧
      st'.server.pendingClients =
        st.server.pendingClients.insert (ofLe64 c.keyId)
          ⟨⟨a, copyOut (c.buildInit L .ok now) 16 32⟩, now⟩ := by
  have hauth : authenticInit L (st.server.masterKeys.lookup
      (initPair (c.buildInit L .ok now)).keyId) (c.buildInit L .ok now) now = true := by
    rw [initPair_buildInit L he, hknown]
    exact authenticInit_buildInit L he hskew
  obtain ⟨hpending, horder, hprune, hgrown⟩ := processInit_of_room (a := a) L hauth
    (by rwa [h.pruned])
    (by
      intro entry hentry
      rw [h.front, Option.mem_some_iff] at hentry
      rwa [← hentry])
    hroom (h.seen.trans_lt hseen)
  rw [initPair_buildInit L he] at hpending horder
  have hmaster := processInit_masterKeys st.server now L (c.buildInit L .ok now) (some a)
  refine ⟨⟨(st.server.processInit L (c.buildInit L .ok now) now (some a)).1, now⟩, if_pos hreading,
    ⟨hprune.trans h.pruned, hgrown.trans (Nat.succ_le_succ h.seen), ?_⟩, rfl, hmaster, hpending⟩
  rw [horder, List.head?_append, h.front]
  rfl

end

/-! ### A client that came back -/

/-- User 5 begins a handshake. -/
def firstRun : List (Op UInt8) :=
  [.processInit (smallClient.buildInit smallLibrary .ok 1700000000000) 1700000000000 (some 0)]

/-- Then user 6 does, and user 5 again. -/
def returnRun : List (Op UInt8) :=
  firstRun ++
    [.processInit (Pruning.smallNeighbour.buildInit smallLibrary .ok 1700000000001) 1700000000001
        (some 1),
      .processInit (smallClient.buildInit smallLibrary .ok 1700000000002) 1700000000002 (some 2)]

/-- One more user. -/
def newcomer (n : ℕ) : HandshakeClient UInt8 :=
  ⟨le64 (UInt64.ofNat (7 + n)), Vector.replicate 32 8, some 4⟩

/-- So many users are added after that, and each begins a handshake. -/
def crowdRun : ℕ → List (Op UInt8)
  | 0 => returnRun
  | n + 1 => crowdRun n ++
      [.addUser (ofLe64 (newcomer n).keyId) (newcomer n).masterKey.toList,
        .processInit ((newcomer n).buildInit smallLibrary .ok 1700000000002) 1700000000002
          (some (n + 3))]

/-- The server with `n` newcomers. -/
structure Crowded (n : ℕ) (st : Clocked) : Prop where
  /-- The record of the first request of user 5 is at the front. -/
  calm : Calm 1700000000000 (n + 3) (5, 1700000000000) st
  reading : st.lastReading = 1700000000002
  size : st.server.pendingClients.entries.length = n + 2
  /-- User 5 is pending since its second request. -/
  returned : (st.server.pendingClients.lookup 5).map ClientState.timestamp = some 1700000000002
  /-- User 6 was pending before that. -/
  neighbour : (st.server.pendingClients.lookup 6).map ClientState.timestamp = some 1700000000001
  fresh : ∀ keyId : UInt64, 7 + n ≤ keyId.toNat → st.server.pendingClients.lookup keyId = none
  known : st.server.masterKeys.lookup 6 = some (Vector.replicate 32 8).toList

theorem calm_firstRun :
    ∃ st, runs (step smallLibrary) (.start Pruning.smallMasterKeys) firstRun = some st ∧
      Calm 1700000000000 1 (5, 1700000000000) st ∧ st.lastReading = 1700000000000 ∧
      st.server.masterKeys.lookup 5 = some smallClient.masterKey.toList ∧
      st.server.masterKeys.lookup 6 = some Pruning.smallNeighbour.masterKey.toList ∧
      st.server.pendingClients.keys = [5] := by
  have hrun : (runs (step smallLibrary) (.start Pruning.smallMasterKeys) firstRun).any (fun st =>
      decide (st.server.lastPruneTime = 1700000000000) &&
      decide (st.server.seenTimestamps.entries.length ≤ 1) &&
      decide (st.server.pendingOrder.head? = some (5, 1700000000000)) &&
      decide (st.lastReading = 1700000000000) &&
      decide (st.server.masterKeys.lookup 5 = some smallClient.masterKey.toList) &&
      decide (st.server.masterKeys.lookup 6 = some Pruning.smallNeighbour.masterKey.toList) &&
      decide (st.server.pendingClients.keys = [5])) = true := by
    decide +kernel
  obtain ⟨st, hst, hfields⟩ := (Option.any_eq_true _ _).mp hrun
  simp only [Bool.and_eq_true, decide_eq_true_eq] at hfields
  obtain ⟨⟨⟨⟨⟨⟨hpruned, hseen⟩, hfront⟩, hreading⟩, hfirst⟩, hsecond⟩, hkeys⟩ := hfields
  exact ⟨st, hst, ⟨hpruned, hseen, hfront⟩, hreading, hfirst, hsecond, hkeys⟩

theorem crowded_returnRun :
    ∃ st, runs (step smallLibrary) (.start Pruning.smallMasterKeys) returnRun = some st ∧
      Crowded 0 st := by
  obtain ⟨st, hst, hcalm, hreading, hfirst, hsecond, hkeys⟩ := calm_firstRun
  have hfive : ofLe64 smallClient.keyId = 5 := ofLe64_le64 5
  have hsix : ofLe64 Pruning.smallNeighbour.keyId = 6 := ofLe64_le64 6
  have hsize : st.server.pendingClients.entries.length = 1 := by
    rw [← List.length_map Sigma.fst]
    exact congrArg List.length hkeys
  have honly : ∀ keyId : UInt64, keyId ≠ 5 → st.server.pendingClients.lookup keyId = none := by
    intro keyId hne
    rw [AList.lookup_eq_none, AList.mem_keys, hkeys, List.mem_singleton]
    exact hne
  obtain ⟨st₁, hst₁, hcalm₁, hreading₁, hmaster₁, hpending₁⟩ :=
    hcalm.request smallLibrary Pruning.smallNeighbour rfl 1700000000001
      (by rw [hsix]; exact hsecond) (by rw [hreading]; decide) (by decide) (by decide) (by decide)
      (by rw [hsize]; decide) (by decide) 1
  have hnew := AList.lookup_eq_none.mp (honly 6 (by decide))
  have hsize₁ : st₁.server.pendingClients.entries.length = 2 := by
    rw [hpending₁, hsix, AList.entries_insert_of_notMem hnew, List.length_cons, hsize]
  obtain ⟨st₂, hst₂, hcalm₂, hreading₂, hmaster₂, hpending₂⟩ :=
    hcalm₁.request smallLibrary smallClient rfl 1700000000002
      (by rw [hfive, hmaster₁]; exact hfirst) (by rw [hreading₁]; decide) (by decide) (by decide)
      (by decide) (by rw [hsize₁]; decide) (by decide) 2
  rw [hsix] at hpending₁
  rw [hfive, hpending₁] at hpending₂
  refine ⟨st₂, ?_, hcalm₂, hreading₂, ?_, ?_, ?_, ?_, ?_⟩
  · rw [returnRun, runs_append, hst, Option.bind_some, runs_cons, hst₁, Option.bind_some,
      runs_cons, hst₂, Option.bind_some, runs_nil]
  · have hkeys₂ : st₂.server.pendingClients.keys = [5, 6] := by
      rw [hpending₂, AList.keys_insert, AList.keys_insert, hkeys]
      rfl
    rw [← List.length_map Sigma.fst]
    exact congrArg List.length hkeys₂
  · rw [hpending₂, AList.lookup_insert]
    rfl
  · rw [hpending₂, AList.lookup_insert_ne (by decide), AList.lookup_insert]
    rfl
  · intro keyId hkeyId
    have hne : ∀ k : UInt64, k.toNat < 7 → keyId ≠ k := by
      rintro k hk rfl
      omega
    rw [hpending₂, AList.lookup_insert_ne (hne 5 (by decide)),
      AList.lookup_insert_ne (hne 6 (by decide))]
    exact honly keyId (hne 5 (by decide))
  · rw [hmaster₂, hmaster₁]
    exact hsecond

theorem Crowded.step {n : ℕ} {st : Clocked} (h : Crowded n st) (hn : n < 1022) :
    ∃ st', runs (Eviction.step smallLibrary) st
      [.addUser (ofLe64 (newcomer n).keyId) (newcomer n).masterKey.toList,
        .processInit ((newcomer n).buildInit smallLibrary .ok 1700000000002) 1700000000002
          (some (n + 3))] = some st' ∧ Crowded (n + 1) st' := by
  set keyId := ofLe64 (newcomer n).keyId with hkeyId
  have hnat : keyId.toNat = 7 + n := by
    rw [hkeyId, newcomer, ofLe64_le64]
    exact UInt64.toNat_ofNat_of_lt' (by rw [UInt64.size]; omega)
  have hne : ∀ k : UInt64, k.toNat ≠ 7 + n → k ≠ keyId := by
    rintro k hk rfl
    exact hk hnat
  -- a user that is added changes nothing else
  have hcalm : Calm 1700000000000 (n + 3) (5, 1700000000000)
      { st with server := st.server.addUser keyId (newcomer n).masterKey.toList } :=
    ⟨h.calm.pruned, h.calm.seen, h.calm.front⟩
  obtain ⟨st', hst', hcalm', hreading', hmaster', hpending'⟩ :=
    hcalm.request smallLibrary (newcomer n) rfl 1700000000002
      (AList.lookup_insert _) (by rw [h.reading]; exact UInt64.le_refl _) (by decide) (by decide)
      (by decide)
      (by
        show st.server.pendingClients.entries.length < maxPendingClients
        rw [h.size, maxPendingClients]
        omega)
      (by rw [maxSeenTimestamps]; omega) (n + 3)
  have hpending : st'.server.pendingClients = st.server.pendingClients.insert keyId
      ⟨⟨n + 3, copyOut ((newcomer n).buildInit smallLibrary .ok 1700000000002) 16 32⟩,
        1700000000002⟩ := hpending'
  have hnew : st.server.pendingClients.lookup keyId = none := h.fresh keyId hnat.ge
  refine ⟨st', ?_, hcalm', hreading', ?_, ?_, ?_, ?_, ?_⟩
  · rw [runs_cons, Eviction.step, Option.bind_some, runs_cons, hst', Option.bind_some, runs_nil]
  · rw [hpending, AList.entries_insert_of_notMem (AList.lookup_eq_none.mp hnew),
      List.length_cons, h.size]
  · rw [hpending, AList.lookup_insert_ne (hne 5 (by simp; omega))]
    exact h.returned
  · rw [hpending, AList.lookup_insert_ne (hne 6 (by simp; omega))]
    exact h.neighbour
  · intro k hk
    rw [hpending, AList.lookup_insert_ne (hne k (by omega))]
    exact h.fresh k (by omega)
  · rw [hmaster']
    exact (AList.lookup_insert_ne (hne 6 (by simp; omega))).trans h.known

theorem crowded_crowdRun {n : ℕ} (hn : n ≤ 1022) :
    ∃ st, runs (step smallLibrary) (.start Pruning.smallMasterKeys) (crowdRun n) = some st ∧
      Crowded n st := by
  induction n with
  | zero => exact crowded_returnRun
  | succ n ih =>
    obtain ⟨st, hst, hcrowded⟩ := ih (by omega)
    obtain ⟨st', hst', hnext⟩ := hcrowded.step (by omega)
    refine ⟨st', ?_, hnext⟩
    rw [crowdRun, runs_append, hst]
    exact hst'

/-- **User 5 is evicted before user 6**, who has waited longer: the record of its first
request is still in the queue. -/
theorem not_oldestFirst :
    ¬∀ as : List (Op UInt8), Meets (step smallLibrary) (AtCapacity smallLibrary OldestFirst)
      (.start Pruning.smallMasterKeys) as := by
  intro h
  obtain ⟨st, hst, hcrowded⟩ := crowded_crowdRun le_rfl
  obtain ⟨init, hinit⟩ :
      ∃ init, init = Pruning.smallNeighbour.buildInit smallLibrary .ok 1700000000002 := ⟨_, rfl⟩
  have hmeets := (h (crowdRun 1022 ++ [.processInit init 1700000000002 none])).of_append hst
  have hauth : authenticInit smallLibrary (st.server.masterKeys.lookup (initPair init).keyId) init
      1700000000002 = true := by
    rw [hinit, initPair_buildInit smallLibrary (e := 4) rfl, Pruning.smallNeighbour, ofLe64_le64,
      hcrowded.known]
    exact authenticInit_buildInit smallLibrary (e := 4) rfl (by decide)
  have hquiet : (st.server.pruneTimestamps 1700000000002).prunePending 1700000000002 =
      st.server := by
    apply prune_of_recent
    · rw [hcrowded.calm.pruned]
      decide
    · intro entry hentry
      rw [hcrowded.calm.front, Option.mem_some_iff] at hentry
      rw [← hentry]
      decide
  obtain ⟨order, horder⟩ := List.head?_eq_some_iff.mp hcrowded.calm.front
  rw [Meets, AtCapacity] at hmeets
  simp only [hquiet, horder, AtEviction] at hmeets
  have hfull : st.server.pendingClients.entries.length ≥ maxPendingClients := by
    rw [hcrowded.size]
    decide
  have hold := (hmeets.1 hauth hfull).1
  obtain ⟨state, hstate, htime⟩ := Option.map_eq_some_iff.mp hcrowded.returned
  obtain ⟨state', hstate', htime'⟩ := Option.map_eq_some_iff.mp hcrowded.neighbour
  have hle := hold state hstate 6 state' hstate'
  rw [htime, htime'] at hle
  exact absurd hle (by decide)

end Eviction

end Handshake

end Aegs
