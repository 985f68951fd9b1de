import Aegs.Handshake.Server
import Aegs.Replay.Filter

/-!
# Sessions and the session table

`Session` with the fields `server.cpp` keeps in it, and `SessionTable` as one
completed operation after another sees it. The sixty-four shards of the key index
and of the endpoint index partition one map each by key, so each index is one map
here. A `Session*` is an address in the heap of the table; `new` hands out a fresh
one, and after `delete` nothing in the table refers to the old one.

Clock readings that the source keeps as seconds in a `double` are integers, in
milliseconds.
-/

namespace Aegs

namespace Server

open Handshake

/-- The address and the port of a `sockaddr_in`. -/
structure Endpoint where
  /-- `sin_addr.s_addr`. -/
  addr : UInt32
  /-- `sin_port`. -/
  port : UInt16
deriving DecidableEq

/-- `make_endpoint_key`. -/
def makeEndpointKey (e : Endpoint) : UInt64 := (e.addr.toUInt64 <<< 16) ||| e.port.toUInt64

/-- `SessionIdentity`. -/
structure SessionIdentity where
  /-- `key_id_raw`. -/
  keyIdRaw : UInt64
  /-- `base_key_id_raw`, zero until the slot serves another one's key id. -/
  baseKeyIdRaw : UInt64
  /-- `session_id`. -/
  sessionId : UInt64
  /-- `generation`. -/
  generation : UInt64

/-- `SessionCrypto`. -/
structure SessionCrypto where
  /-- `master_key`. -/
  masterKey : Vector UInt8 32
  /-- `mask_key`. -/
  maskKey : Vector UInt8 32
  /-- `alt_mask_key`. -/
  altMaskKey : Vector UInt8 32
  /-- `has_alt_mask_key`. -/
  hasAltMaskKey : Bool
  /-- `session_keys`. -/
  sessionKeys : SessionKeys
  /-- `v3_handshake_done`. -/
  v3HandshakeDone : Bool

/-- `SessionKeys` with every byte zero. -/
def zeroKeys : SessionKeys := ⟨Vector.replicate 32 0, Vector.replicate 32 0, 0, 0, 0⟩

/-- `SessionCrypto{}`. -/
def SessionCrypto.empty : SessionCrypto :=
  ⟨Vector.replicate 32 0, Vector.replicate 32 0, Vector.replicate 32 0, false, zeroKeys, false⟩

/-- `SessionRouting`. -/
structure SessionRouting where
  /-- `assigned_ip`. -/
  assignedIp : UInt32
  /-- `client_addr`. -/
  clientAddr : Endpoint
  /-- `has_client`. -/
  hasClient : Bool
  /-- `last_server_fd`. -/
  lastServerFd : ℤ
  /-- `uses_mimicry`. -/
  usesMimicry : Bool
  /-- `mimic_type`. -/
  mimicType : UInt8
  /-- `uses_alt_mask`. -/
  usesAltMask : Bool

/-- `SessionRouting{}`. -/
def SessionRouting.empty : SessionRouting := ⟨0, ⟨0, 0⟩, false, -1, false, 0, false⟩

/-- `Session`, with the contents of its two snapshots. -/
structure Session where
  /-- `identity`. -/
  identity : SessionIdentity
  /-- `crypto_snap_`. -/
  crypto : SessionCrypto
  /-- `routing_snap_`. -/
  routing : SessionRouting
  /-- `counters.tx_seq`. -/
  txSeq : UInt64
  /-- `counters.last_activity`. -/
  lastActivity : ℤ
  /-- `replay_filter`. -/
  replayFilter : AntiReplayFilter

/-- `Session()`. -/
def Session.fresh : Session where
  identity := ⟨0, 0, 0, 1⟩
  crypto := .empty
  routing := .empty
  txSeq := 0
  lastActivity := 0
  replayFilter := .reset

/-- `recycle`, with no reader on the session. -/
def Session.recycle (s : Session) : Session := { s with
  identity := { s.identity with generation := s.identity.generation + 1 }
  crypto := .empty
  routing := .empty
  txSeq := 0
  replayFilter := .reset }

/-- `SessionTable`, with the sessions it points to. -/
structure SessionTable where
  /-- The session objects. -/
  heap : ℕ → Session
  /-- The address of the next `new Session()`. -/
  next : ℕ
  /-- `by_key_id`, over all shards. -/
  byKeyId : AList fun _ : UInt64 => ℕ
  /-- `by_endpoint`, over all shards. -/
  byEndpoint : AList fun _ : UInt64 => ℕ
  /-- `routes_`. -/
  routes : AList fun _ : UInt32 => ℕ

namespace SessionTable

/-- `SessionTable()`. -/
def empty : SessionTable := ⟨fun _ => .fresh, 0, ∅, ∅, ∅⟩

variable (t : SessionTable)

/-- `assigned_ip`, as the routing snapshot has it. -/
def assignedIp (p : ℕ) : UInt32 := (t.heap p).routing.assignedIp

/-- `find_by_key_id`. -/
def findByKeyId (keyId : UInt64) : Option ℕ := t.byKeyId.lookup keyId

/-- `find_by_assigned_ip`. -/
def findByAssignedIp (ip : UInt32) : Option ℕ := if ip = 0 then none else t.routes.lookup ip

/-- Stores to the session at `p`. -/
def setSession (p : ℕ) (s : Session) : SessionTable :=
  { t with heap := Function.update t.heap p s }

/-- `insert_session` of the session that `new` made. -/
def insertSession (s : Session) : SessionTable := { t with
  heap := Function.update t.heap t.next s
  next := t.next + 1
  byKeyId := t.byKeyId.insert s.identity.keyIdRaw t.next }

/-- The new session is found under its key id, and the others as before. -/
theorem findByKeyId_insertSession (s : Session) (keyId : UInt64) :
    (t.insertSession s).findByKeyId keyId =
      if keyId = s.identity.keyIdRaw then some t.next else t.findByKeyId keyId := by
  rw [findByKeyId, insertSession]
  split
  · rename_i heq
    rw [heq, AList.lookup_insert]
  · rename_i hne
    exact AList.lookup_insert_ne hne

/-- What is found after the insertion is the new session or was found before. -/
theorem findByKeyId_of_insertSession (s : Session) (keyId : UInt64) (p : ℕ)
    (h : (t.insertSession s).findByKeyId keyId = some p) :
    (keyId = s.identity.keyIdRaw ∧ p = t.next) ∨ t.findByKeyId keyId = some p := by
  rw [findByKeyId_insertSession] at h
  split at h
  · rename_i heq
    exact Or.inl ⟨heq, (Option.some.inj h).symm⟩
  · exact Or.inr h

/-- `map_ip`. -/
def mapIp (ip : UInt32) (p : ℕ) : SessionTable :=
  if ip = 0 then t else { t with routes := t.routes.insert ip p }

/-- `unmap_ip`. -/
def unmapIp (ip : UInt32) : SessionTable :=
  if ip = 0 then t else { t with routes := t.routes.erase ip }

section

variable (ip : UInt32) (p : ℕ)

@[simp] theorem heap_mapIp : (t.mapIp ip p).heap = t.heap := by
  rw [mapIp]
  split <;> rfl

@[simp] theorem next_mapIp : (t.mapIp ip p).next = t.next := by
  rw [mapIp]
  split <;> rfl

@[simp] theorem byKeyId_mapIp : (t.mapIp ip p).byKeyId = t.byKeyId := by
  rw [mapIp]
  split <;> rfl

@[simp] theorem byEndpoint_mapIp : (t.mapIp ip p).byEndpoint = t.byEndpoint := by
  rw [mapIp]
  split <;> rfl

@[simp] theorem heap_unmapIp : (t.unmapIp ip).heap = t.heap := by
  rw [unmapIp]
  split <;> rfl

@[simp] theorem next_unmapIp : (t.unmapIp ip).next = t.next := by
  rw [unmapIp]
  split <;> rfl

@[simp] theorem byKeyId_unmapIp : (t.unmapIp ip).byKeyId = t.byKeyId := by
  rw [unmapIp]
  split <;> rfl

@[simp] theorem byEndpoint_unmapIp : (t.unmapIp ip).byEndpoint = t.byEndpoint := by
  rw [unmapIp]
  split <;> rfl

theorem routes_unmapIp :
    (t.unmapIp ip).routes = if ip = 0 then t.routes else t.routes.erase ip := by
  rw [unmapIp]
  split <;> rfl

end

/-- `update_endpoint`. -/
def updateEndpoint (key : UInt64) (p : ℕ) : SessionTable :=
  { t with byEndpoint := t.byEndpoint.insert key p }

/-- The loop over the endpoint index that erases the entries of some sessions. -/
def eraseEndpoints (gone : ℕ → Bool) : SessionTable := { t with
  byEndpoint := t.byEndpoint.entries.foldl
    (fun m entry => if gone entry.2 then m.erase entry.1 else m) t.byEndpoint }

/-- `find_by_endpoint`. -/
def findByEndpoint (key : UInt64) : Option ℕ := t.byEndpoint.lookup key

@[simp] theorem findByEndpoint_setSession (key : UInt64) (p : ℕ) (s : Session) :
    (t.setSession p s).findByEndpoint key = t.findByEndpoint key := rfl

/-- What an erasing loop over some entries leaves of a map was there before, and no entry
it erased has that key. -/
theorem lookup_foldl_erase {gone : ℕ → Bool} (entries : List (Sigma fun _ : UInt64 => ℕ))
    {m : AList fun _ : UInt64 => ℕ} {key : UInt64} {p : ℕ}
    (h : (entries.foldl (fun m entry => if gone entry.2 then m.erase entry.1 else m) m).lookup key =
      some p) :
    m.lookup key = some p ∧ ∀ entry ∈ entries, gone entry.2 = true → entry.1 ≠ key := by
  induction entries generalizing m with
  | nil => exact ⟨h, nofun⟩
  | cons entry entries ih =>
    obtain ⟨hlookup, hrest⟩ := ih h
    simp only at hlookup
    split at hlookup
    · have hne : entry.1 ≠ key := by
        rintro rfl
        exact absurd ((AList.lookup_erase _ _).symm.trans hlookup) (by simp)
      refine ⟨(AList.lookup_erase_ne hne.symm).symm.trans hlookup, fun e he hgone => ?_⟩
      rcases List.mem_cons.mp he with rfl | he
      · exact hne
      · exact hrest e he hgone
    · rename_i hstays
      refine ⟨hlookup, fun e he hgone => ?_⟩
      rcases List.mem_cons.mp he with rfl | he
      · exact absurd hgone hstays
      · exact hrest e he hgone

/-- An entry that is left was there before, and its session is not one of those gone. -/
theorem findByEndpoint_eraseEndpoints {gone : ℕ → Bool} {key : UInt64} {p : ℕ}
    (h : (t.eraseEndpoints gone).findByEndpoint key = some p) :
    t.findByEndpoint key = some p ∧ gone p = false := by
  obtain ⟨hlookup, hkept⟩ := lookup_foldl_erase _ h
  refine ⟨hlookup, Bool.eq_false_iff.mpr fun hgone => ?_⟩
  exact hkept ⟨key, p⟩ (AList.mem_lookup_iff.mp hlookup) hgone rfl

/-- `cleanup_idle_endpoints`. -/
def cleanupIdleEndpoints (now timeout : ℤ) : SessionTable :=
  t.eraseEndpoints fun p =>
    !(t.heap p).routing.hasClient || decide (now - (t.heap p).lastActivity > timeout)

/-- `remove_session`. -/
def removeSession (keyId : UInt64) : SessionTable :=
  match t.findByKeyId keyId with
  | none => t
  | some p =>
    let t := { t with byKeyId := t.byKeyId.erase keyId }
    let t := t.unmapIp (t.assignedIp p)
    let t := t.eraseEndpoints fun q => q = p
    t.setSession p (t.heap p).recycle

/-- What `remove_session` does to the addresses and the route table. -/
theorem removeSession_eq {keyId : UInt64} {p : ℕ} (h : t.findByKeyId keyId = some p) :
    (t.removeSession keyId).next = t.next ∧
      (t.removeSession keyId).byKeyId = t.byKeyId.erase keyId ∧
      (t.removeSession keyId).routes = (t.unmapIp (t.assignedIp p)).routes ∧
      (t.removeSession keyId).assignedIp p = 0 ∧
      ∀ q, q ≠ p → (t.removeSession keyId).assignedIp q = t.assignedIp q := by
  simp only [removeSession, h, setSession, eraseEndpoints, assignedIp, next_unmapIp,
    byKeyId_unmapIp, heap_unmapIp, Function.update_self, routes_unmapIp, true_and]
  refine ⟨rfl, fun q hq => ?_⟩
  rw [Function.update_of_ne hq]

/-- A session that is removed is not found any more, and the others are. -/
theorem findByKeyId_removeSession (keyId k : UInt64) :
    (t.removeSession keyId).findByKeyId k = if k = keyId then none else t.findByKeyId k := by
  rcases hfound : t.findByKeyId keyId with _ | p
  · rw [removeSession, hfound]
    simp only
    split
    · rename_i heq
      rw [heq, hfound]
    · rfl
  · rw [findByKeyId, (t.removeSession_eq hfound).2.1]
    split
    · rename_i heq
      rw [heq, AList.lookup_erase]
    · rename_i hne
      rw [AList.lookup_erase_ne hne]
      rfl

theorem next_removeSession (keyId : UInt64) : (t.removeSession keyId).next = t.next := by
  rcases hfound : t.findByKeyId keyId with _ | p
  · rw [removeSession, hfound]
  · exact (t.removeSession_eq hfound).1

/-- The other sessions stay as they are. -/
theorem heap_removeSession_of_ne {keyId : UInt64} {p q : ℕ} (h : t.findByKeyId keyId = some p)
    (hq : q ≠ p) : (t.removeSession keyId).heap q = t.heap q := by
  simp only [removeSession, h, setSession, eraseEndpoints, heap_unmapIp]
  rw [Function.update_of_ne hq]

/-- The endpoint index loses the entries of the session removed. -/
theorem findByEndpoint_removeSession {keyId key : UInt64} {p q : ℕ}
    (h : t.findByKeyId keyId = some p) (hq : (t.removeSession keyId).findByEndpoint key = some q) :
    t.findByEndpoint key = some q ∧ q ≠ p := by
  simp only [removeSession, h] at hq
  rw [findByEndpoint_setSession] at hq
  obtain ⟨hbefore, hne⟩ := findByEndpoint_eraseEndpoints _ hq
  rw [findByEndpoint, byEndpoint_unmapIp] at hbefore
  exact ⟨hbefore, of_decide_eq_false hne⟩

end SessionTable

end Server

end Aegs
