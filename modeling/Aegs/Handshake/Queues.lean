import Aegs.Handshake.Pruning
import Aegs.Handshake.Replay
import Aegs.Lib.StampedQueue

/-!
# The tables of the handshake server and their queues

The pending clients and the seen timestamps are tables of bounded size, each with a queue
that says what goes when room is needed. The two keep up with their queues differently.
An entry of the seen set leaves only with its record, so the keys of the set and of the
queue are the same and a key is queued once. A pending client also leaves on its own – it
is answered, its user is removed, a new request replaces it – and its records stay behind;
but every pending client has its own record, which is what the eviction loop needs to make
room.

`Aegs.Handshake.Tables` says all of it, and holds after any calls at any readings of the
clock (`Aegs.Handshake.tables_serveAll`).
-/

namespace Aegs

namespace Handshake

open StampedQueue Pruning

/-- Every pending client has a record with its timestamp. -/
def PendingCovered (s : HandshakeServer) : Prop :=
  Covers ClientState.timestamp s.pendingClients s.pendingOrder

/-- Every seen timestamp has a record with its stamp. -/
def SeenCovered (s : HandshakeServer) : Prop := Covers id s.seenTimestamps s.seenOrder

/-- **The tables and their queues** between two calls. -/
structure Tables (s : HandshakeServer) : Prop where
  /-- `MAX_PENDING_CLIENTS` is kept. -/
  pendingBound : s.pendingClients.entries.length ≤ maxPendingClients
  /-- `MAX_SEEN_TIMESTAMPS` is kept. -/
  seenBound : s.seenTimestamps.entries.length ≤ maxSeenTimestamps
  /-- A pending client is queued with its timestamp. -/
  pendingQueued : ∀ keyId state, s.pendingClients.lookup keyId = some state →
    (keyId, state.timestamp) ∈ s.pendingOrder
  /-- What is seen is queued, and what is queued is seen. -/
  seenKeys : ∀ key, key ∈ s.seenTimestamps ↔ key ∈ s.seenOrder.map Prod.fst
  /-- A key is queued once. -/
  seenNodup : (s.seenOrder.map Prod.fst).Nodup

/-! ### What each loop leaves alone -/

section

variable (s : HandshakeServer) (now : UInt64)

theorem dropPending_pendingClients (keyId : UInt64) :
    (s.dropPending keyId).pendingClients = s.pendingClients.erase keyId := by
  rw [HandshakeServer.dropPending]
  split
  · rename_i hnone
    exact (erase_of_lookup_eq_none hnone).symm
  · rfl

theorem dropPending_pendingOrder (keyId : UInt64) :
    (s.dropPending keyId).pendingOrder = s.pendingOrder := by
  rw [HandshakeServer.dropPending]
  split <;> rfl

theorem dropPending_seen (keyId : UInt64) :
    (s.dropPending keyId).seenTimestamps = s.seenTimestamps ∧
      (s.dropPending keyId).seenOrder = s.seenOrder := by
  rw [HandshakeServer.dropPending]
  split <;> exact ⟨rfl, rfl⟩

theorem prunePendingOrder_seen (order : List (UInt64 × UInt64)) :
    (s.prunePendingOrder now order).seenTimestamps = s.seenTimestamps ∧
      (s.prunePendingOrder now order).seenOrder = s.seenOrder := by
  induction order generalizing s with
  | nil => exact ⟨rfl, rfl⟩
  | cons entry order ih =>
    rw [HandshakeServer.prunePendingOrder]
    split
    · split
      · have hdrop := dropPending_seen s entry.1
        exact ⟨(ih _).1.trans hdrop.1, (ih _).2.trans hdrop.2⟩
      · exact ih s
    · exact ⟨rfl, rfl⟩

theorem evictPendingOrder_seen (order : List (UInt64 × UInt64)) :
    (s.evictPendingOrder order).seenTimestamps = s.seenTimestamps ∧
      (s.evictPendingOrder order).seenOrder = s.seenOrder := by
  induction order generalizing s with
  | nil => exact ⟨rfl, rfl⟩
  | cons entry order ih =>
    rw [HandshakeServer.evictPendingOrder]
    split
    · have hdrop := dropPending_seen s entry.1
      exact ⟨(ih _).1.trans hdrop.1, (ih _).2.trans hdrop.2⟩
    · exact ⟨rfl, rfl⟩

theorem evictSeenOrder_pending (order : List (HandshakeSeenKey × UInt64)) :
    (s.evictSeenOrder order).pendingClients = s.pendingClients ∧
      (s.evictSeenOrder order).pendingOrder = s.pendingOrder := by
  induction order generalizing s with
  | nil => exact ⟨rfl, rfl⟩
  | cons entry order ih =>
    rw [HandshakeServer.evictSeenOrder]
    split
    · exact ih _
    · exact ⟨rfl, rfl⟩

/-- Freeing the old key changes no table. -/
theorem freeExisting_eq (keyId : UInt64) :
    ∃ freed, s.freeExisting keyId = { s with freed := freed } := by
  rw [HandshakeServer.freeExisting]
  split
  · exact ⟨s.freed, rfl⟩
  · exact ⟨_, rfl⟩

/-! ### The pending clients -/

theorem prunePendingOrder_covered {order : List (UInt64 × UInt64)}
    (h : Covers ClientState.timestamp s.pendingClients order) :
    PendingCovered (s.prunePendingOrder now order) := by
  induction order generalizing s with
  | nil => exact h
  | cons entry order ih =>
    rw [HandshakeServer.prunePendingOrder]
    split
    · split
      · apply ih
        rw [dropPending_pendingClients]
        exact h.evict
      · rename_i hother
        refine ih s (h.skip fun state hstate htime => ?_)
        rw [hstate, Option.any_some, decide_eq_true_eq] at hother
        exact hother htime
    · exact h

/-- **The eviction loop makes room**, since it takes out whatever client the record at the
front names and every client has a record. -/
theorem evictPendingOrder_covered {order : List (UInt64 × UInt64)}
    (h : Covers ClientState.timestamp s.pendingClients order) :
    PendingCovered (s.evictPendingOrder order) ∧
      (s.evictPendingOrder order).pendingClients.entries.length < maxPendingClients := by
  induction order generalizing s with
  | nil => exact ⟨h, h.length_eq_zero.trans_lt (by decide)⟩
  | cons entry order ih =>
    rw [HandshakeServer.evictPendingOrder]
    split
    · apply ih
      rw [dropPending_pendingClients]
      exact h.evict
    · rename_i hroom
      exact ⟨h, Nat.lt_of_not_le hroom⟩

/-! ### The seen set -/

theorem pruneSeenOrder_covered {order : List (HandshakeSeenKey × UInt64)}
    (h : Covers id s.seenTimestamps order) : SeenCovered (s.pruneSeenOrder now order) := by
  induction order generalizing s with
  | nil => exact h
  | cons entry order ih =>
    rw [HandshakeServer.pruneSeenOrder]
    split
    · exact ih { s with seenTimestamps := s.seenTimestamps.erase entry.1 } h.evict
    · exact h

theorem evictSeenOrder_covered {order : List (HandshakeSeenKey × UInt64)}
    (h : Covers id s.seenTimestamps order) :
    SeenCovered (s.evictSeenOrder order) ∧
      (s.evictSeenOrder order).seenTimestamps.entries.length < maxSeenTimestamps := by
  induction order generalizing s with
  | nil => exact ⟨h, h.length_eq_zero.trans_lt (by decide)⟩
  | cons entry order ih =>
    rw [HandshakeServer.evictSeenOrder]
    split
    · exact ih { s with seenTimestamps := s.seenTimestamps.erase entry.1 } h.evict
    · rename_i hroom
      exact ⟨h, Nat.lt_of_not_le hroom⟩

end

/-! ### The invariant -/

/-- What the queues owe the tables, at every point of a call. -/
structure Queues (s : HandshakeServer) : Prop where
  /-- Every pending client has its record. -/
  pending : PendingCovered s
  /-- Every seen timestamp has its record. -/
  seen : SeenCovered s
  /-- Every record is that of a seen timestamp, and no other has its key. -/
  queued : SeenQueued s

/-- The queues and the bounds, between two calls. -/
structure Kept (s : HandshakeServer) : Prop extends Queues s where
  /-- There is room for the pending clients. -/
  pendingBound : s.pendingClients.entries.length ≤ maxPendingClients
  /-- There is room for the seen timestamps. -/
  seenBound : s.seenTimestamps.entries.length ≤ maxSeenTimestamps

theorem Kept.tables {s : HandshakeServer} (h : Kept s) : Tables s where
  pendingBound := h.pendingBound
  seenBound := h.seenBound
  pendingQueued := h.pending
  seenKeys key := by
    rw [← AList.lookup_isSome, Option.isSome_iff_exists]
    constructor
    · rintro ⟨since, hsince⟩
      exact List.mem_map_of_mem (h.seen key since hsince)
    · intro hkey
      obtain ⟨entry, hentry, rfl⟩ := List.mem_map.mp hkey
      exact ⟨entry.2, h.queued.stamp entry hentry⟩
  seenNodup := h.queued.nodup

theorem Kept.start (masterKeys : AList fun _ : UInt64 => List UInt8) :
    Kept (.start masterKeys) where
  pending := Covers.empty
  seen := Covers.empty
  queued := Queued.nil _
  pendingBound := Nat.zero_le _
  seenBound := Nat.zero_le _

section

variable {s : HandshakeServer}

theorem Queues.pruneTimestamps (h : Queues s) (now : UInt64) : Queues (s.pruneTimestamps now) := by
  have hpending := pruneTimestamps_pending now s
  constructor
  · rw [PendingCovered, hpending.1, hpending.2]
    exact h.pending
  · rw [HandshakeServer.pruneTimestamps]
    split
    · exact h.seen
    · exact pruneSeenOrder_covered _ now h.seen
  · exact h.queued.pruneTimestamps now

theorem Queues.prunePending (h : Queues s) (now : UInt64) : Queues (s.prunePending now) := by
  have hseen := prunePendingOrder_seen s now s.pendingOrder
  constructor
  · exact prunePendingOrder_covered s now h.pending
  · rw [SeenCovered, HandshakeServer.prunePending, hseen.1, hseen.2]
    exact h.seen
  · exact h.queued.prunePendingOrder now _

/-- Both evictions leave room for one more. -/
theorem Queues.evict (h : Queues s) :
    Queues s.evictPending.evictSeen ∧
      s.evictPending.evictSeen.pendingClients.entries.length < maxPendingClients ∧
      s.evictPending.evictSeen.seenTimestamps.entries.length < maxSeenTimestamps := by
  obtain ⟨hcovered, hroom⟩ := evictPendingOrder_covered s h.pending
  have hseen := evictPendingOrder_seen s s.pendingOrder
  have hcovers : Covers id s.evictPending.seenTimestamps s.evictPending.seenOrder := by
    rw [HandshakeServer.evictPending, hseen.1, hseen.2]
    exact h.seen
  obtain ⟨hseenCovered, hseenRoom⟩ := evictSeenOrder_covered s.evictPending hcovers
  have hpending := evictSeenOrder_pending s.evictPending s.evictPending.seenOrder
  refine ⟨⟨?_, hseenCovered, ?_⟩, ?_, hseenRoom⟩
  · rw [PendingCovered, HandshakeServer.evictSeen, hpending.1, hpending.2]
    exact hcovered
  · exact SeenQueued.evictSeenOrder _ (h.queued.evictPendingOrder _)
  · rw [HandshakeServer.evictSeen, hpending.1]
    exact hroom

/-- A new pair is seen and queued. -/
theorem Queues.see (h : Queues s) (now : UInt64) {key : HandshakeSeenKey}
    (hnew : s.seenTimestamps.lookup key = none) :
    Queues { s with
      seenTimestamps := s.seenTimestamps.insert key now
      seenOrder := s.seenOrder ++ [(key, now)] } where
  pending := h.pending
  seen := h.seen.push key now
  queued := h.queued.push now hnew

/-- **Admitting a request** leaves room for its client. -/
theorem Queues.enterSeen (h : Queues s) (key : HandshakeSeenKey) (now : UInt64) :
    Queues (s.enterSeen key now) ∧
      (s.enterSeen key now).pendingClients.entries.length < maxPendingClients ∧
      (s.enterSeen key now).seenTimestamps.entries.length ≤ maxSeenTimestamps := by
  obtain ⟨hqueues, hpending, hseen⟩ := ((h.pruneTimestamps now).prunePending now).evict
  simp only [HandshakeServer.enterSeen]
  split
  · exact ⟨hqueues, hpending, hseen.le⟩
  · rename_i hnew
    rw [Bool.not_eq_true, Option.isSome_eq_false_iff, Option.isNone_iff_eq_none] at hnew
    exact ⟨hqueues.see now hnew, hpending, (length_insert_le _ _ _).trans hseen⟩

/-- A pending client goes and its record stays. -/
theorem Kept.erasePending (h : Kept s) (keyId : UInt64) {s' : HandshakeServer}
    (hpending : s'.pendingClients = s.pendingClients.erase keyId)
    (horder : s'.pendingOrder = s.pendingOrder)
    (hseen : s'.seenTimestamps = s.seenTimestamps ∧ s'.seenOrder = s.seenOrder) : Kept s' where
  pending := by
    rw [PendingCovered, hpending, horder]
    exact h.pending.erase keyId
  seen := by
    rw [SeenCovered, hseen.1, hseen.2]
    exact h.seen
  queued := h.queued.congr hseen.1 hseen.2
  pendingBound := by
    rw [hpending]
    exact (length_erase_le _ _).trans h.pendingBound
  seenBound := by
    rw [hseen.1]
    exact h.seenBound

variable {S : Type} (L : Library S)

/-- The new client takes the room there is. -/
theorem Queues.setPending (h : Queues s)
    (hpending : s.pendingClients.entries.length < maxPendingClients)
    (hseen : s.seenTimestamps.entries.length ≤ maxSeenTimestamps) (keyId : UInt64)
    (raw : Vector UInt8 32) (now : UInt64) (addr : Option ℕ) :
    Kept (s.setPending keyId raw now addr).1 := by
  obtain ⟨freed, hfree⟩ := freeExisting_eq s keyId
  simp only [HandshakeServer.setPending, hfree]
  cases addr with
  | none => exact ⟨⟨h.pending, h.seen, h.queued⟩, hpending.le, hseen⟩
  | some a =>
    constructor
    · exact ⟨h.pending.push _ _, h.seen, h.queued⟩
    · exact (length_insert_le _ _ _).trans hpending
    · exact hseen

theorem Kept.processInit (h : Kept s) (init : List UInt8) (now : UInt64) (addr : Option ℕ) :
    Kept (s.processInit L init now addr).1 := by
  rw [processInit_eq]
  split
  · obtain ⟨hqueues, hpending, hseen⟩ := h.enterSeen (initPair init) now
    exact hqueues.setPending hpending hseen _ _ now addr
  · exact h

/-- A response takes out the client it answers, whatever becomes of it. -/
theorem buildResp_tables (s : HandshakeServer) (keyId : UInt64) (ip : UInt32) (mtu : UInt16)
    (calls : RespCalls S) (out : SessionKeys) :
    (s.buildResp L keyId ip mtu calls out).1.pendingClients = s.pendingClients.erase keyId ∧
      (s.buildResp L keyId ip mtu calls out).1.pendingOrder = s.pendingOrder ∧
      (s.buildResp L keyId ip mtu calls out).1.seenTimestamps = s.seenTimestamps ∧
      (s.buildResp L keyId ip mtu calls out).1.seenOrder = s.seenOrder := by
  simp only [HandshakeServer.buildResp]
  split
  · rename_i hnone
    exact ⟨(erase_of_lookup_eq_none hnone).symm, rfl, rfl, rfl⟩
  · split
    · exact ⟨rfl, rfl, rfl, rfl⟩
    · split
      · exact ⟨rfl, rfl, rfl, rfl⟩
      · split
        · exact ⟨rfl, rfl, rfl, rfl⟩
        · split
          · exact ⟨rfl, rfl, rfl, rfl⟩
          · split <;> exact ⟨rfl, rfl, rfl, rfl⟩

theorem Kept.buildResp (h : Kept s) (keyId : UInt64) (ip : UInt32) (mtu : UInt16)
    (calls : RespCalls S) (out : SessionKeys) : Kept (s.buildResp L keyId ip mtu calls out).1 := by
  obtain ⟨hpending, horder, hseen⟩ := buildResp_tables L s keyId ip mtu calls out
  exact h.erasePending keyId hpending horder hseen

theorem Kept.addUser (h : Kept s) (keyId : UInt64) (masterKey : List UInt8) :
    Kept (s.addUser keyId masterKey) :=
  ⟨⟨h.pending, h.seen, h.queued⟩, h.pendingBound, h.seenBound⟩

theorem Kept.removeUser (h : Kept s) (keyId : UInt64) : Kept (s.removeUser keyId) :=
  h.erasePending keyId (dropPending_pendingClients _ keyId) (dropPending_pendingOrder _ keyId)
    (dropPending_seen _ keyId)

/-- **Every call keeps the tables and their queues.** -/
theorem Kept.serve {st : Served} (h : Kept st.server) (op : Op S) :
    Kept (serve L st op).server := by
  cases op with
  | processInit init now addr => exact h.processInit L init now addr
  | buildResp keyId ip mtu calls out => exact h.buildResp L keyId ip mtu calls out
  | addUser keyId masterKey => exact h.addUser keyId masterKey
  | removeUser keyId => exact h.removeUser keyId

/-- **The tables of the handshake server** are bounded and agree with their queues after
any calls, at any readings of the clock. -/
theorem tables_serveAll (masterKeys : AList fun _ : UInt64 => List UInt8) (ops : List (Op S)) :
    Tables (serveAll L masterKeys ops).server := by
  suffices hkept : Kept (serveAll L masterKeys ops).server from hkept.tables
  rw [serveAll]
  induction ops using List.reverseRecOn with
  | nil => exact .start masterKeys
  | append_singleton ops op ih =>
    rw [List.foldl_append]
    exact ih.serve L op

end

end Handshake

end Aegs
