import Mathlib.Data.List.TakeWhile
import Aegs.Handshake.Agreement
import Aegs.Lib.Transition

/-!
# Pruning with readings of several clocks

`process_init` reads the clock first and takes `m_mutex` afterwards, so a worker may
prune with a reading that others have overtaken. `prune_timestamps` and `prune_pending`
take the difference of the reading and the stamp of an entry in 64 bits without a sign:
an entry that was stamped after the reading is for them older than any other.

The system is the server with any number of workers, each of which has read the clock
for a packet or has not (`Aegs.Handshake.Pruning.Workers`); a worker's readings do not go
backwards, and nothing relates those of two workers. Pruning takes old entries only
exactly in the runs where no loop pops an entry stamped after its reading
(`Aegs.Handshake.Pruning.meets_prunesOld_iff`).
-/

namespace Aegs

namespace Handshake

namespace Pruning

open Bytes Transition

/-! ### The system -/

/-- The server and the workers that have read the clock. -/
structure Workers where
  /-- The server. -/
  server : HandshakeServer
  /-- The packet and the reading of a worker that has not taken `m_mutex` yet. -/
  inFlight : ℕ → Option (List UInt8 × UInt64)
  /-- The last reading of a worker. -/
  lastReading : ℕ → UInt64

/-- A server with these users, and no worker in `process_init`. -/
def Workers.start (masterKeys : AList fun _ : UInt64 => List UInt8) : Workers where
  server := .start masterKeys
  inFlight := fun _ => none
  lastReading := fun _ => 0

/-- What a thread does next. -/
inductive Event (S : Type)
  /-- A worker reads the clock for a packet. -/
  | readClock (w : ℕ) (init : List UInt8) (now : UInt64)
  /-- A worker takes `m_mutex` and goes through the rest of `process_init`. -/
  | processInit (w : ℕ) (addr : Option ℕ)
  /-- `build_resp`. -/
  | buildResp (keyId : UInt64) (assignedIp : UInt32) (mtu : UInt16) (calls : RespCalls S)
      (out : SessionKeys)
  /-- `add_user`. -/
  | addUser (keyId : UInt64) (masterKey : List UInt8)
  /-- `remove_user`. -/
  | removeUser (keyId : UInt64)

section

variable {S : Type} (L : Library S)

/-- One step. -/
def step (st : Workers) : Event S → Option Workers
  | .readClock w init now =>
    if st.inFlight w = none ∧ st.lastReading w ≤ now then
      some { st with
        inFlight := Function.update st.inFlight w (some (init, now))
        lastReading := Function.update st.lastReading w now }
    else none
  | .processInit w addr =>
    match st.inFlight w with
    | none => none
    | some (init, now) => some { st with
        server := (st.server.processInit L init now addr).1
        inFlight := Function.update st.inFlight w none }
  | .buildResp keyId ip mtu calls out =>
    some { st with server := (st.server.buildResp L keyId ip mtu calls out).1 }
  | .addUser keyId masterKey => some { st with server := st.server.addUser keyId masterKey }
  | .removeUser keyId => some { st with server := st.server.removeUser keyId }

/-! ### The property and the condition -/

/-- At the reading `now`, what was stamped `since` is at least `ttl` milliseconds old. -/
def Aged (now since : UInt64) (ttl : ℕ) : Prop := since.toNat + ttl ≤ now.toNat

/-- **Pruning at a reading takes only what is old**: 305 s for a seen timestamp, 30 s for
a pending client. -/
structure PrunesOld (s : HandshakeServer) (now : UInt64) : Prop where
  /-- `prune_timestamps`. -/
  seen : ∀ key since, s.seenTimestamps.lookup key = some since →
    (s.pruneTimestamps now).seenTimestamps.lookup key = none → Aged now since 305000
  /-- `prune_pending`. -/
  pending : ∀ keyId state, s.pendingClients.lookup keyId = some state →
    ((s.pruneTimestamps now).prunePending now).pendingClients.lookup keyId = none →
      Aged now state.timestamp 30000

/-- The entries at the front of a queue that the loop of a pruning pops. -/
def popped {α : Type} (now ttl : UInt64) (order : List (α × UInt64)) : List (α × UInt64) :=
  order.takeWhile fun entry => now - entry.2 > ttl

/-- **No loop pops an entry that was stamped after the reading**, apart from those of
`m_pending_order` whose client is gone or has been replaced. -/
structure InOrder (s : HandshakeServer) (now : UInt64) : Prop where
  /-- `prune_timestamps`, where it runs. -/
  seen : ¬now - s.lastPruneTime < 5000 → ∀ entry ∈ popped now 305000 s.seenOrder, entry.2 ≤ now
  /-- `prune_pending`. -/
  pending : ∀ entry ∈ popped now pendingClientTtlMs s.pendingOrder,
    (s.pendingClients.lookup entry.1).any (fun state => state.timestamp = entry.2) →
      entry.2 ≤ now

/-- A property of the prunings of a step: those of a `process_init` whose packet is
authentic, at the reading the worker has. -/
def AtPruning (P : HandshakeServer → UInt64 → Prop) (st : Workers) : Event S → Prop
  | .processInit w _ => ∀ init now, st.inFlight w = some (init, now) →
      authenticInit L (st.server.masterKeys.lookup (initPair init).keyId) init now = true →
        P st.server now
  | _ => True

/-! ### What the loops remove -/

variable {α : Type} (now ttl : UInt64)

theorem popped_cons (entry : α × UInt64) (order : List (α × UInt64)) :
    popped now ttl (entry :: order) =
      if now - entry.2 > ttl then entry :: popped now ttl order else [] := by
  simp only [popped, List.takeWhile_cons, decide_eq_true_eq]

/-- What is popped and was stamped before the reading is old. -/
theorem aged_of_popped {order : List (α × UInt64)} {entry : α × UInt64}
    (hpopped : entry ∈ popped now ttl order) (hle : entry.2 ≤ now) :
    Aged now entry.2 ttl.toNat := by
  have hgt := List.mem_takeWhile_imp hpopped
  rw [decide_eq_true_eq, gt_iff_lt, UInt64.lt_iff_toNat_lt, UInt64.toNat_sub_of_le _ _ hle] at hgt
  rw [UInt64.le_iff_toNat_le] at hle
  rw [Aged]
  omega

variable (s : HandshakeServer)

/-- **`prune_timestamps`** forgets the entries it pops. -/
theorem lookup_pruneSeenOrder (order : List (HandshakeSeenKey × UInt64))
    (key : HandshakeSeenKey) :
    (s.pruneSeenOrder now order).seenTimestamps.lookup key =
      if key ∈ (popped now 305000 order).map Prod.fst then none
      else s.seenTimestamps.lookup key := by
  induction order generalizing s with
  | nil => rfl
  | cons entry order ih =>
    obtain ⟨k, since⟩ := entry
    rw [HandshakeServer.pruneSeenOrder, popped_cons]
    split
    · rw [ih]
      simp only [List.map_cons, List.mem_cons]
      by_cases hk : key = k
      · subst hk
        simp only [true_or, if_true, AList.lookup_erase, ite_self]
      · simp only [hk, false_or, AList.lookup_erase_ne hk]
    · rfl

/-- **`prune_pending`** frees the clients of the entries it pops, if they have the same
stamp. -/
theorem lookup_prunePendingOrder (order : List (UInt64 × UInt64)) (keyId : UInt64) :
    (s.prunePendingOrder now order).pendingClients.lookup keyId =
      if ∃ entry ∈ popped now pendingClientTtlMs order, entry.1 = keyId ∧
          (s.pendingClients.lookup keyId).any (fun state => state.timestamp = entry.2) then none
      else s.pendingClients.lookup keyId := by
  induction order generalizing s with
  | nil => rfl
  | cons entry order ih =>
    obtain ⟨k, since⟩ := entry
    rw [HandshakeServer.prunePendingOrder, popped_cons]
    split
    · simp only [List.exists_mem_cons_iff]
      split
      · rename_i hsame
        rw [ih, HandshakeServer.dropPending]
        obtain ⟨state, hstate⟩ : ∃ state, s.pendingClients.lookup k = some state :=
          Option.isSome_iff_exists.mp (Option.isSome_of_any hsame)
        rw [hstate]
        by_cases hk : keyId = k
        · subst hk
          rw [hstate] at hsame
          simp only [AList.lookup_erase, Option.any_none, Bool.false_eq_true, and_false,
            exists_false, if_false, hstate, hsame, and_self, true_or, if_true]
        · simp only [AList.lookup_erase_ne hk, Ne.symm hk, false_and, false_or]
      · rename_i hsame
        rw [ih]
        by_cases hk : k = keyId
        · subst hk
          simp only [hsame, and_false, false_or, Bool.false_eq_true]
        · simp only [hk, false_and, false_or]
    · simp only [List.not_mem_nil, false_and, exists_false, if_false]

theorem pruneTimestamps_pending : (s.pruneTimestamps now).pendingClients = s.pendingClients ∧
    (s.pruneTimestamps now).pendingOrder = s.pendingOrder := by
  have hloop : ∀ (order : List (HandshakeSeenKey × UInt64)) (s : HandshakeServer),
      (s.pruneSeenOrder now order).pendingClients = s.pendingClients ∧
        (s.pruneSeenOrder now order).pendingOrder = s.pendingOrder := by
    intro order
    induction order with
    | nil => exact fun s => ⟨rfl, rfl⟩
    | cons entry order ih =>
      intro s
      rw [HandshakeServer.pruneSeenOrder]
      split
      · exact ih _
      · exact ⟨rfl, rfl⟩
  rw [HandshakeServer.pruneTimestamps]
  split
  · exact ⟨rfl, rfl⟩
  · exact hloop _ _

/-! ### The queue of seen timestamps -/

/-- The queue has each entry of the seen set that it has at all once, with its stamp. -/
structure Queued (seen : AList fun _ : HandshakeSeenKey => UInt64)
    (order : List (HandshakeSeenKey × UInt64)) : Prop where
  /-- A key is in the queue once. -/
  nodup : (order.map Prod.fst).Nodup
  /-- The stamp is that of the seen set. -/
  stamp : ∀ entry ∈ order, seen.lookup entry.1 = some entry.2

/-- The queue of a server and its seen set. -/
def SeenQueued (s : HandshakeServer) : Prop := Queued s.seenTimestamps s.seenOrder

theorem Queued.nil (seen : AList fun _ : HandshakeSeenKey => UInt64) : Queued seen [] :=
  ⟨List.nodup_nil, fun _ h => absurd h List.not_mem_nil⟩

/-- The front of the queue goes, from both. -/
theorem Queued.pop {seen : AList fun _ : HandshakeSeenKey => UInt64}
    {entry : HandshakeSeenKey × UInt64} {order : List (HandshakeSeenKey × UInt64)}
    (h : Queued seen (entry :: order)) : Queued (seen.erase entry.1) order := by
  obtain ⟨hfresh, hnodup⟩ := List.nodup_cons.mp h.nodup
  refine ⟨hnodup, fun e he => ?_⟩
  have hne : e.1 ≠ entry.1 := fun heq => hfresh (heq ▸ List.mem_map_of_mem he)
  rw [AList.lookup_erase_ne hne]
  exact h.stamp e (List.mem_cons_of_mem _ he)

/-- A new key goes to the end of the queue. -/
theorem Queued.push {seen : AList fun _ : HandshakeSeenKey => UInt64}
    {order : List (HandshakeSeenKey × UInt64)} (h : Queued seen order) {key : HandshakeSeenKey}
    (hkey : seen.lookup key = none) : Queued (seen.insert key now) (order ++ [(key, now)]) := by
  have hne : ∀ e ∈ order, e.1 ≠ key := by
    intro e he heq
    have hstamp := h.stamp e he
    rw [heq, hkey] at hstamp
    exact absurd hstamp (by simp)
  constructor
  · rw [List.map_append, List.nodup_append]
    refine ⟨h.nodup, List.nodup_singleton _, ?_⟩
    intro k hk k' hk' heq
    obtain ⟨e, he, rfl⟩ := List.mem_map.mp hk
    exact hne e he (heq.trans (List.mem_singleton.mp hk'))
  · intro e he
    rcases List.mem_append.mp he with he | he
    · rw [AList.lookup_insert_ne (hne e he)]
      exact h.stamp e he
    · rw [List.mem_singleton.mp he, AList.lookup_insert]

theorem SeenQueued.congr {s s' : HandshakeServer} (h : SeenQueued s)
    (hseen : s'.seenTimestamps = s.seenTimestamps) (horder : s'.seenOrder = s.seenOrder) :
    SeenQueued s' := by
  rw [SeenQueued, hseen, horder]
  exact h

theorem SeenQueued.pruneSeenOrder {order : List (HandshakeSeenKey × UInt64)}
    (h : Queued s.seenTimestamps order) : SeenQueued (s.pruneSeenOrder now order) := by
  induction order generalizing s with
  | nil => exact h
  | cons entry order ih =>
    rw [HandshakeServer.pruneSeenOrder]
    split
    · exact ih _ h.pop
    · exact h

theorem SeenQueued.evictSeenOrder {order : List (HandshakeSeenKey × UInt64)}
    (h : Queued s.seenTimestamps order) : SeenQueued (s.evictSeenOrder order) := by
  induction order generalizing s with
  | nil => exact h
  | cons entry order ih =>
    rw [HandshakeServer.evictSeenOrder]
    split
    · exact ih _ h.pop
    · exact h

theorem SeenQueued.dropPending {s : HandshakeServer} (h : SeenQueued s) (keyId : UInt64) :
    SeenQueued (s.dropPending keyId) := by
  rw [HandshakeServer.dropPending]
  split <;> exact h

theorem SeenQueued.prunePendingOrder {s : HandshakeServer} (h : SeenQueued s)
    (order : List (UInt64 × UInt64)) : SeenQueued (s.prunePendingOrder now order) := by
  induction order generalizing s with
  | nil => exact h
  | cons entry order ih =>
    rw [HandshakeServer.prunePendingOrder]
    split
    · split
      · exact ih (h.dropPending entry.1)
      · exact ih h
    · exact h

theorem SeenQueued.evictPendingOrder {s : HandshakeServer} (h : SeenQueued s)
    (order : List (UInt64 × UInt64)) : SeenQueued (s.evictPendingOrder order) := by
  induction order generalizing s with
  | nil => exact h
  | cons entry order ih =>
    rw [HandshakeServer.evictPendingOrder]
    split
    · exact ih (h.dropPending entry.1)
    · exact h

theorem SeenQueued.pruneTimestamps {s : HandshakeServer} (h : SeenQueued s) :
    SeenQueued (s.pruneTimestamps now) := by
  rw [HandshakeServer.pruneTimestamps]
  split
  · exact h
  · exact SeenQueued.pruneSeenOrder now _ h

theorem SeenQueued.enterSeen {s : HandshakeServer} (h : SeenQueued s) (key : HandshakeSeenKey) :
    SeenQueued (s.enterSeen key now) := by
  have hpruned : SeenQueued ((s.pruneTimestamps now).prunePending now) :=
    (h.pruneTimestamps now).prunePendingOrder now _
  have hevicted : SeenQueued ((s.pruneTimestamps now).prunePending now).evictPending.evictSeen :=
    SeenQueued.evictSeenOrder _ (hpruned.evictPendingOrder _)
  simp only [HandshakeServer.enterSeen]
  split
  · exact hevicted
  · rename_i hnew
    rw [Bool.not_eq_true, Option.isSome_eq_false_iff, Option.isNone_iff_eq_none] at hnew
    exact hevicted.push now hnew

theorem SeenQueued.processInit {s : HandshakeServer} (h : SeenQueued s) (init : List UInt8)
    (addr : Option ℕ) : SeenQueued (s.processInit L init now addr).1 := by
  rw [processInit_eq]
  split
  · have hentered := h.enterSeen now (initPair init)
    simp only [HandshakeServer.setPending, HandshakeServer.freeExisting]
    split <;> split <;> exact hentered
  · exact h

theorem SeenQueued.buildResp {s : HandshakeServer} (h : SeenQueued s) (keyId : UInt64)
    (ip : UInt32) (mtu : UInt16) (calls : RespCalls S) (out : SessionKeys) :
    SeenQueued (s.buildResp L keyId ip mtu calls out).1 := by
  simp only [HandshakeServer.buildResp]
  split
  · exact h
  · split
    · exact h
    · split
      · exact h
      · split
        · exact h
        · split
          · exact h
          · split <;> exact h

/-- **Every step keeps the queue and the seen set together.** -/
theorem SeenQueued.step {st st' : Workers} {ev : Event S} (h : SeenQueued st.server)
    (hstep : step L st ev = some st') : SeenQueued st'.server := by
  cases ev with
  | readClock w init now =>
    rw [Pruning.step] at hstep
    obtain ⟨-, hst⟩ := Option.ite_none_right_eq_some.mp hstep
    rw [← Option.some.inj hst]
    exact h
  | processInit w addr =>
    rw [Pruning.step] at hstep
    split at hstep
    · exact absurd hstep (by simp)
    · rw [← Option.some.inj hstep]
      exact h.processInit L _ _ addr
  | buildResp keyId ip mtu calls out =>
    rw [← Option.some.inj hstep]
    exact h.buildResp L keyId ip mtu calls out
  | addUser keyId masterKey =>
    rw [← Option.some.inj hstep]
    exact h
  | removeUser keyId =>
    rw [← Option.some.inj hstep]
    exact SeenQueued.dropPending (s := { st.server with
      masterKeys := st.server.masterKeys.erase keyId }) h keyId

/-! ### Exactly when pruning takes only what is old -/

/-- **One pruning** takes only what is old exactly if it pops nothing that was stamped
after its reading. -/
theorem prunesOld_iff {s : HandshakeServer} (h : SeenQueued s) :
    PrunesOld s now ↔ InOrder s now := by
  have hpending : ∀ keyId,
      ((s.pruneTimestamps now).prunePending now).pendingClients.lookup keyId =
        if ∃ entry ∈ popped now pendingClientTtlMs s.pendingOrder, entry.1 = keyId ∧
            (s.pendingClients.lookup keyId).any (fun state => state.timestamp = entry.2) then none
        else s.pendingClients.lookup keyId := by
    intro keyId
    rw [HandshakeServer.prunePending, lookup_prunePendingOrder, (pruneTimestamps_pending now s).1,
      (pruneTimestamps_pending now s).2]
  constructor
  · intro hold
    constructor
    · intro hruns entry hentry
      have hstamp := h.stamp entry ((List.takeWhile_sublist _).subset hentry)
      have hgone : (s.pruneTimestamps now).seenTimestamps.lookup entry.1 = none := by
        rw [HandshakeServer.pruneTimestamps, if_neg hruns, lookup_pruneSeenOrder,
          if_pos (List.mem_map_of_mem hentry)]
      have haged := hold.seen _ _ hstamp hgone
      rw [Aged] at haged
      rw [UInt64.le_iff_toNat_le]
      omega
    · intro entry hentry hsame
      obtain ⟨state, hstate, heq⟩ := (Option.any_eq_true _ _).mp hsame
      rw [decide_eq_true_eq] at heq
      have haged := hold.pending _ _ hstate ((hpending entry.1).trans
        (if_pos ⟨entry, hentry, rfl, hsame⟩))
      rw [Aged, heq] at haged
      rw [UInt64.le_iff_toNat_le]
      omega
  · intro horder
    constructor
    · intro key since hsince hgone
      rw [HandshakeServer.pruneTimestamps] at hgone
      split at hgone
      · rw [hsince] at hgone
        exact absurd hgone (by simp)
      · rename_i hruns
        rw [lookup_pruneSeenOrder] at hgone
        split at hgone
        · rename_i hmem
          obtain ⟨entry, hentry, rfl⟩ := List.mem_map.mp hmem
          have hstamp := h.stamp entry ((List.takeWhile_sublist _).subset hentry)
          obtain rfl : entry.2 = since := Option.some.inj (hstamp.symm.trans hsince)
          exact aged_of_popped now 305000 hentry (horder.seen hruns entry hentry)
        · rw [hsince] at hgone
          exact absurd hgone (by simp)
    · intro keyId state hstate hgone
      rw [hpending] at hgone
      split at hgone
      · rename_i hmem
        obtain ⟨entry, hentry, rfl, hsame⟩ := hmem
        have hle := horder.pending entry hentry hsame
        rw [hstate, Option.any_some, decide_eq_true_eq] at hsame
        rw [hsame]
        exact aged_of_popped now pendingClientTtlMs hentry hle
      · rw [hstate] at hgone
        exact absurd hgone (by simp)

/-- **Pruning under concurrent clock reads**: the prunings of a run take only what is old
exactly if no loop pops an entry stamped after the reading it uses. -/
theorem meets_prunesOld_iff (masterKeys : AList fun _ : UInt64 => List UInt8)
    (as : List (Event S)) :
    Meets (step L) (AtPruning L PrunesOld) (.start masterKeys) as ↔
      Meets (step L) (AtPruning L InOrder) (.start masterKeys) as := by
  have himp : ∀ {st : Workers} {ev : Event S}, SeenQueued st.server →
      (AtPruning L PrunesOld st ev ↔ AtPruning L InOrder st ev) := by
    intro st ev h
    cases ev with
    | processInit w addr =>
      exact forall₄_congr fun init now _ _ => prunesOld_iff now h
    | readClock _ _ _ | buildResp _ _ _ _ _ | addUser _ _ | removeUser _ => exact Iff.rfl
  have hstart : SeenQueued (Workers.start masterKeys).server := Queued.nil _
  constructor
  · exact Meets.imp (fun h _ hstep => h.step L hstep) (fun h => (himp h).mp) hstart
  · exact Meets.imp (fun h _ hstep => h.step L hstep) (fun h => (himp h).mpr) hstart

end

/-! ### A reading one millisecond behind -/

/-- A second user of the small library. -/
def smallNeighbour : HandshakeClient UInt8 := ⟨le64 6, Vector.replicate 32 8, some 4⟩

/-- The master keys of the two. -/
def smallMasterKeys : AList fun _ : UInt64 => List UInt8 :=
  smallServer.masterKeys.insert 6 (Vector.replicate 32 8).toList

/-- Two workers read the clock, one millisecond apart, for packets of the two users. The
later reading is processed first. -/
def overtakenRun : List (Event UInt8) :=
  [.readClock 0 (smallNeighbour.buildInit smallLibrary .ok 1700000000000) 1700000000000,
    .readClock 1 (smallClient.buildInit smallLibrary .ok 1700000000001) 1700000000001,
    .processInit 1 (some 0)]

/-- **The other worker prunes what was entered a moment ago**: its reading is one
millisecond behind the stamp of the pending client of user 5. -/
theorem not_prunesOld :
    ¬∀ as : List (Event UInt8), Meets (step smallLibrary) (AtPruning smallLibrary PrunesOld)
      (.start smallMasterKeys) as := by
  intro h
  have hrun : (runs (step smallLibrary) (.start smallMasterKeys) overtakenRun).any (fun st =>
      decide (st.inFlight 0 = some
        (smallNeighbour.buildInit smallLibrary .ok 1700000000000, 1700000000000)) &&
      authenticInit smallLibrary (st.server.masterKeys.lookup
        (initPair (smallNeighbour.buildInit smallLibrary .ok 1700000000000)).keyId)
        (smallNeighbour.buildInit smallLibrary .ok 1700000000000) 1700000000000 &&
      decide ((st.server.pendingClients.lookup 5).map ClientState.timestamp =
        some 1700000000001) &&
      (((st.server.pruneTimestamps 1700000000000).prunePending
        1700000000000).pendingClients.lookup 5).isNone) = true := by
    decide +kernel
  obtain ⟨st, hst, hbad⟩ := (Option.any_eq_true _ _).mp hrun
  simp only [Bool.and_eq_true, decide_eq_true_eq, Option.isNone_iff_eq_none] at hbad
  obtain ⟨⟨⟨hread, hauth⟩, hstate⟩, hgone⟩ := hbad
  obtain ⟨state, hlookup, hstamp⟩ := Option.map_eq_some_iff.mp hstate
  have hmeets := h (overtakenRun ++ [.processInit 0 (some 1)])
  have hprunes := (hmeets.of_append hst).1
  have hold := hprunes _ _ hread hauth
  have haged := hold.pending 5 state hlookup hgone
  rw [Aged, hstamp] at haged
  exact absurd haged (by decide)

end Pruning

end Handshake

end Aegs
