import Mathlib.Data.List.AList
import Aegs.Handshake.Client

/-!
# The handshake server

`HandshakeServer`: the registered users, the pending clients with the queue that
evicts them, and the timestamps seen with theirs. Every public operation holds
`m_mutex` throughout, so it is one function of the state; the clock that
`process_init` reads, which may go backwards, and the outcomes of the library
calls are arguments.

A key object is its address and the public key it holds. `freed` is history: the
addresses given to `EVP_PKEY_free`, latest first.
-/

namespace Aegs

namespace Handshake

open Bytes

/-- `MAX_PENDING_CLIENTS`. -/
def maxPendingClients : ℕ := 1024

/-- `MAX_SEEN_TIMESTAMPS`. -/
def maxSeenTimestamps : ℕ := 100000

/-- `PENDING_CLIENT_TTL_MS`. -/
def pendingClientTtlMs : UInt64 := 30000

/-- An `EVP_PKEY` that holds a client's public key. -/
structure EvpPkey where
  /-- Its address. -/
  addr : ℕ
  /-- The raw public key. -/
  raw : Vector UInt8 32
deriving DecidableEq

/-- `HandshakeServer::ClientState`. -/
structure ClientState where
  /-- `client_ephemeral_pkey`. -/
  clientEphemeralPkey : EvpPkey
  /-- `timestamp`. -/
  timestamp : UInt64
deriving DecidableEq

/-- `HandshakeSeenKey`. -/
structure HandshakeSeenKey where
  /-- `key_id`. -/
  keyId : UInt64
  /-- `timestamp`. -/
  timestamp : UInt64
deriving DecidableEq

/-- `HandshakeServer`. -/
structure HandshakeServer where
  /-- `m_master_keys`. -/
  masterKeys : AList fun _ : UInt64 => List UInt8
  /-- `m_seen_timestamps`. -/
  seenTimestamps : AList fun _ : HandshakeSeenKey => UInt64
  /-- `m_seen_order`. -/
  seenOrder : List (HandshakeSeenKey × UInt64)
  /-- `m_last_prune_time`. -/
  lastPruneTime : UInt64
  /-- `m_pending_clients`. -/
  pendingClients : AList fun _ : UInt64 => ClientState
  /-- `m_pending_order`. -/
  pendingOrder : List (UInt64 × UInt64)
  /-- History: the addresses freed. -/
  freed : List ℕ

/-- A server with these users. -/
def HandshakeServer.start (masterKeys : AList fun _ : UInt64 => List UInt8) :
    HandshakeServer where
  masterKeys := masterKeys
  seenTimestamps := ∅
  seenOrder := []
  lastPruneTime := 0
  pendingClients := ∅
  pendingOrder := []
  freed := []

/-! ### Pruning and eviction -/

/-- The loop of `prune_timestamps` over the front of `m_seen_order`. -/
def HandshakeServer.pruneSeenOrder (s : HandshakeServer) (nowMs : UInt64) :
    List (HandshakeSeenKey × UInt64) → HandshakeServer
  | [] => { s with seenOrder := [] }
  | (key, since) :: order =>
    if nowMs - since > 305000 then
      pruneSeenOrder { s with seenTimestamps := s.seenTimestamps.erase key } nowMs order
    else { s with seenOrder := (key, since) :: order }

/-- `prune_timestamps`, every five seconds. -/
def HandshakeServer.pruneTimestamps (s : HandshakeServer) (nowMs : UInt64) : HandshakeServer :=
  if nowMs - s.lastPruneTime < 5000 then s
  else { s with lastPruneTime := nowMs }.pruneSeenOrder nowMs s.seenOrder

/-- The pending client of a key id is freed and erased. -/
def HandshakeServer.dropPending (s : HandshakeServer) (keyId : UInt64) : HandshakeServer :=
  match s.pendingClients.lookup keyId with
  | none => s
  | some state => { s with
    pendingClients := s.pendingClients.erase keyId
    freed := state.clientEphemeralPkey.addr :: s.freed }

/-- The loop of `prune_pending` over the front of `m_pending_order`. -/
def HandshakeServer.prunePendingOrder (s : HandshakeServer) (nowMs : UInt64) :
    List (UInt64 × UInt64) → HandshakeServer
  | [] => { s with pendingOrder := [] }
  | (keyId, since) :: order =>
    if nowMs - since > pendingClientTtlMs then
      if (s.pendingClients.lookup keyId).any (fun state => state.timestamp = since) then
        prunePendingOrder (s.dropPending keyId) nowMs order
      else prunePendingOrder s nowMs order
    else { s with pendingOrder := (keyId, since) :: order }

/-- `prune_pending`. -/
def HandshakeServer.prunePending (s : HandshakeServer) (nowMs : UInt64) : HandshakeServer :=
  s.prunePendingOrder nowMs s.pendingOrder

/-- The loop that evicts pending clients at capacity. -/
def HandshakeServer.evictPendingOrder (s : HandshakeServer) :
    List (UInt64 × UInt64) → HandshakeServer
  | [] => { s with pendingOrder := [] }
  | (keyId, since) :: order =>
    if s.pendingClients.entries.length ≥ maxPendingClients then
      evictPendingOrder (s.dropPending keyId) order
    else { s with pendingOrder := (keyId, since) :: order }

/-- The eviction of pending clients at capacity, oldest first. -/
def HandshakeServer.evictPending (s : HandshakeServer) : HandshakeServer :=
  s.evictPendingOrder s.pendingOrder

/-- The loop that evicts seen timestamps at capacity. -/
def HandshakeServer.evictSeenOrder (s : HandshakeServer) :
    List (HandshakeSeenKey × UInt64) → HandshakeServer
  | [] => { s with seenOrder := [] }
  | (key, since) :: order =>
    if s.seenTimestamps.entries.length ≥ maxSeenTimestamps then
      evictSeenOrder { s with seenTimestamps := s.seenTimestamps.erase key } order
    else { s with seenOrder := (key, since) :: order }

/-- The eviction of seen timestamps at capacity, oldest first. -/
def HandshakeServer.evictSeen (s : HandshakeServer) : HandshakeServer :=
  s.evictSeenOrder s.seenOrder

/-! ### The operations -/

section

variable {S : Type} (L : Library S)

/-- The timestamp is more than five minutes away from the clock. -/
def skewRejected (now ts : UInt64) : Bool :=
  let diff := now.toInt64 - ts.toInt64
  diff < -300000 || diff > 300000

/-- What `process_init` does before it looks at the pending client of the key id:
both prunings, both evictions, and the entry in the seen set unless it is there. -/
def HandshakeServer.enterSeen (s : HandshakeServer) (key : HandshakeSeenKey) (now : UInt64) :
    HandshakeServer :=
  let s := (s.pruneTimestamps now).prunePending now
  let s := s.evictPending.evictSeen
  let isRetransmit := (s.seenTimestamps.lookup key).isSome
  if isRetransmit then s
  else { s with
    seenTimestamps := s.seenTimestamps.insert key now
    seenOrder := s.seenOrder ++ [(key, now)] }

/-- The stale ephemeral key of a pending client is freed. -/
def HandshakeServer.freeExisting (s : HandshakeServer) (keyId : UInt64) : HandshakeServer :=
  match s.pendingClients.lookup keyId with
  | none => s
  | some existing => { s with freed := existing.clientEphemeralPkey.addr :: s.freed }

/-- The new pending client of `key_id_out`. The key of the old one is freed first,
the new one is at the address `addr` if the library makes it. -/
def HandshakeServer.setPending (s : HandshakeServer) (keyId : UInt64) (raw : Vector UInt8 32)
    (now : UInt64) (addr : Option ℕ) : HandshakeServer × Option UInt64 :=
  let s := s.freeExisting keyId
  match addr with
  | none => (s, none)
  | some a =>
    ({ s with
      pendingClients := s.pendingClients.insert keyId ⟨⟨a, raw⟩, now⟩
      pendingOrder := s.pendingOrder ++ [(keyId, now)] }, some keyId)

/-- `HandshakeServer::process_init` at the time `now`, with `key_id_out` if it
returns true. -/
def HandshakeServer.processInit (s : HandshakeServer) (init : List UInt8) (now : UInt64)
    (addr : Option ℕ) : HandshakeServer × Option UInt64 :=
  if init.length < 72 ∨ init.getD 0 0 ≠ 0x01 then (s, none)
  else
    let keyId := ofLe64 (copyOut init 8 8)
    let ts := ofBe64 (copyOut init 48 8)
    if skewRejected now ts then (s, none)
    else
      match s.masterKeys.lookup keyId with
      | none => (s, none)
      | some masterKey =>
        if computeMac L (init.take 56) masterKey ≠ copyOut init 56 16 then (s, none)
        else (s.enterSeen ⟨keyId, ts⟩ now).setPending keyId (copyOut init 16 32) now addr

/-- The key id and the timestamp of a request. -/
def initPair (init : List UInt8) : HandshakeSeenKey :=
  ⟨ofLe64 (copyOut init 8 8), ofBe64 (copyOut init 48 8)⟩

/-- The request is of the right size and type, inside the skew window, and carries
the MAC of the master key registered for its key id. -/
def authenticInit (masterKey : Option (List UInt8)) (init : List UInt8) (now : UInt64) : Bool :=
  decide (72 ≤ init.length) && decide (init.getD 0 0 = 0x01) &&
    !skewRejected now (initPair init).timestamp &&
    masterKey.any fun key => computeMac L (init.take 56) key = copyOut init 56 16

theorem authenticInit_iff {masterKey : Option (List UInt8)} {init : List UInt8} {now : UInt64} :
    authenticInit L masterKey init now = true ↔
      72 ≤ init.length ∧ init.getD 0 0 = 0x01 ∧ skewRejected now (initPair init).timestamp = false ∧
        ∃ key, masterKey = some key ∧ computeMac L (init.take 56) key = copyOut init 56 16 := by
  simp only [authenticInit, Bool.and_eq_true, decide_eq_true_eq, Bool.not_eq_true',
    Option.any_eq_true, and_assoc]

/-- **`process_init`** answers authentic requests and leaves the server alone on
others. Whether the pair was seen before does not matter. -/
theorem processInit_eq (s : HandshakeServer) (init : List UInt8) (now : UInt64)
    (addr : Option ℕ) :
    s.processInit L init now addr =
      if authenticInit L (s.masterKeys.lookup (initPair init).keyId) init now then
        (s.enterSeen (initPair init) now).setPending (initPair init).keyId (copyOut init 16 32) now
          addr
      else (s, none) := by
  split
  · rename_i hauth
    obtain ⟨hlen, htype, hskew, key, hkey, hmac⟩ := (authenticInit_iff L).mp hauth
    rw [initPair] at hskew hkey
    simp only [HandshakeServer.processInit, hkey]
    rw [if_neg (by simp only [htype]; simpa using hlen), if_neg (by simp [hskew]),
      if_neg (not_not.mpr hmac)]
    rfl
  · rename_i hauth
    rw [authenticInit_iff] at hauth
    simp only [HandshakeServer.processInit]
    split
    · rfl
    · rename_i hgood
      split
      · rfl
      · rename_i hskew
        split
        · rfl
        · rename_i key hkey
          split
          · rfl
          · rename_i hmac
            have htype : init.getD 0 0 = 0x01 := by
              by_contra hne
              exact hgood (Or.inr hne)
            exact absurd ⟨by omega, htype, Bool.eq_false_of_not_eq_true hskew, key, hkey,
              not_not.mp hmac⟩ hauth

/-- A key pair that `generate_x25519` made, with the address of its object. -/
structure Generated (S : Type) where
  /-- The private key. -/
  key : S
  /-- Its address. -/
  addr : ℕ

/-- The library calls of one `build_resp`. -/
structure RespCalls (S : Type) where
  /-- `generate_x25519`. -/
  keygen : Option (Generated S)
  /-- `ecdh_derive` goes through. -/
  derive : Bool
  /-- `RAND_bytes` for the session id. -/
  rand : Option UInt64
  /-- `extract_x25519_pub` goes through. -/
  getPublic : Bool
  /-- The cipher calls go through. -/
  cipher : Bool

/-- The 48 bytes of `build_resp` ahead of the ciphertext, in its buffer. -/
def respHeader (sessionId : UInt64) (pub : Vector UInt8 32) : Vector UInt8 80 :=
  let resp := copyIn (Vector.replicate 80 0) 0 #v[0x02]
  let resp := copyIn resp 8 (le64 sessionId)
  copyIn resp 16 pub

/-- `plain_config`: the address, most significant byte first, and the MTU, least
significant byte first. -/
def plainConfig (assignedIp : UInt32) (mtu : UInt16) : Vector UInt8 16 :=
  let plain := copyIn (Vector.replicate 16 0) 0 (be32 assignedIp)
  copyIn plain 4 (le16 mtu)

/-- The response with its encrypted block. -/
def respPacket (configKey : Vector UInt8 32) (sessionId : UInt64) (pub : Vector UInt8 32)
    (assignedIp : UInt32) (mtu : UInt16) : Vector UInt8 80 :=
  let resp := respHeader sessionId pub
  let sealed := L.encrypt configKey zeroNonce (resp.toList.take 48) (plainConfig assignedIp mtu)
  copyIn (copyIn resp 48 sealed.1) 64 sealed.2

/-- `HandshakeServer::build_resp` into the caller's record `out`, empty on
failure. -/
def HandshakeServer.buildResp (s : HandshakeServer) (keyId : UInt64) (assignedIp : UInt32)
    (mtu : UInt16) (calls : RespCalls S) (out : SessionKeys) :
    HandshakeServer × List UInt8 × SessionKeys :=
  match s.pendingClients.lookup keyId with
  | none => (s, [], out)
  | some state =>
    let s := { s with pendingClients := s.pendingClients.erase keyId }
    let freeClient := { s with freed := state.clientEphemeralPkey.addr :: s.freed }
    match s.masterKeys.lookup keyId with
    | none => (freeClient, [], out)
    | some masterKey =>
      match calls.keygen with
      | none => (freeClient, [], out)
      | some server =>
        let secret := ecdhDerive L calls.derive (some server.key) state.clientEphemeralPkey.raw
        let freeServer := { freeClient with freed := server.addr :: freeClient.freed }
        if secret.isEmpty then (freeServer, [], out)
        else
          let out := { out with
            recvKey := L.hkdf secret masterKey "aegs-c2s"
            sendKey := L.hkdf secret masterKey "aegs-s2c" }
          let configKey := L.hkdf secret masterKey "aegs-cfg"
          match calls.rand with
          -- the server's ephemeral key is not freed here
          | none => (freeClient, [], out)
          | some sessionId =>
            let out := { out with
              sessionId := sessionId
              assignedIp := assignedIp
              mtu := mtu }
            if ¬calls.getPublic ∨ ¬calls.cipher then (freeServer, [], out)
            else
              (freeServer,
                (respPacket L configKey sessionId (L.pub server.key) assignedIp mtu).toList, out)

/-- `HandshakeServer::add_user`. -/
def HandshakeServer.addUser (s : HandshakeServer) (keyId : UInt64) (masterKey : List UInt8) :
    HandshakeServer :=
  { s with masterKeys := s.masterKeys.insert keyId masterKey }

/-- `HandshakeServer::remove_user`. -/
def HandshakeServer.removeUser (s : HandshakeServer) (keyId : UInt64) : HandshakeServer :=
  { s with masterKeys := s.masterKeys.erase keyId }.dropPending keyId

end

/-! ### What pruning and eviction leave alone -/

section

/-- The users are the same, and the pending clients are some of those there were. -/
structure Shrinks (s s' : HandshakeServer) : Prop where
  /-- No user comes or goes. -/
  masterKeys : s'.masterKeys = s.masterKeys
  /-- No pending client comes or changes. -/
  pending : ∀ keyId state, s'.pendingClients.lookup keyId = some state →
    s.pendingClients.lookup keyId = some state

theorem Shrinks.refl (s : HandshakeServer) : Shrinks s s := ⟨rfl, fun _ _ h => h⟩

theorem Shrinks.trans {s s' s'' : HandshakeServer} (h : Shrinks s s') (h' : Shrinks s' s'') :
    Shrinks s s'' :=
  ⟨h'.masterKeys.trans h.masterKeys, fun _ _ hs => h.pending _ _ (h'.pending _ _ hs)⟩

/-- The seen set and the queues do not matter. -/
theorem Shrinks.congr {r s s' : HandshakeServer} (h : Shrinks s s')
    (hmaster : s.masterKeys = r.masterKeys) (hpending : s.pendingClients = r.pendingClients) :
    Shrinks r s' :=
  ⟨h.masterKeys.trans hmaster, fun _ _ hs => hpending ▸ h.pending _ _ hs⟩

theorem lookup_of_lookup_erase {m : AList fun _ : UInt64 => ClientState} {keyId keyId' : UInt64}
    {state : ClientState} (h : (m.erase keyId).lookup keyId' = some state) :
    m.lookup keyId' = some state := by
  by_cases hk : keyId' = keyId
  · rw [hk, AList.lookup_erase] at h
    exact absurd h (by simp)
  · rwa [AList.lookup_erase_ne hk] at h

variable (s : HandshakeServer) (now : UInt64)

theorem dropPending_shrinks (keyId : UInt64) : Shrinks s (s.dropPending keyId) := by
  rw [HandshakeServer.dropPending]
  split
  · exact .refl s
  · exact ⟨rfl, fun _ _ => lookup_of_lookup_erase⟩

theorem pruneSeenOrder_shrinks (order : List (HandshakeSeenKey × UInt64)) :
    Shrinks s (s.pruneSeenOrder now order) := by
  induction order generalizing s with
  | nil => exact ⟨rfl, fun _ _ h => h⟩
  | cons entry order ih =>
    rw [HandshakeServer.pruneSeenOrder]
    split
    · exact (ih _).congr rfl rfl
    · exact ⟨rfl, fun _ _ h => h⟩

theorem pruneTimestamps_shrinks : Shrinks s (s.pruneTimestamps now) := by
  rw [HandshakeServer.pruneTimestamps]
  split
  · exact .refl s
  · exact (pruneSeenOrder_shrinks _ _ _).congr rfl rfl

theorem prunePendingOrder_shrinks (order : List (UInt64 × UInt64)) :
    Shrinks s (s.prunePendingOrder now order) := by
  induction order generalizing s with
  | nil => exact ⟨rfl, fun _ _ h => h⟩
  | cons entry order ih =>
    rw [HandshakeServer.prunePendingOrder]
    split
    · split
      · exact (dropPending_shrinks s _).trans (ih _)
      · exact ih _
    · exact ⟨rfl, fun _ _ h => h⟩

theorem evictPendingOrder_shrinks (order : List (UInt64 × UInt64)) :
    Shrinks s (s.evictPendingOrder order) := by
  induction order generalizing s with
  | nil => exact ⟨rfl, fun _ _ h => h⟩
  | cons entry order ih =>
    rw [HandshakeServer.evictPendingOrder]
    split
    · exact (dropPending_shrinks s _).trans (ih _)
    · exact ⟨rfl, fun _ _ h => h⟩

theorem evictSeenOrder_shrinks (order : List (HandshakeSeenKey × UInt64)) :
    Shrinks s (s.evictSeenOrder order) := by
  induction order generalizing s with
  | nil => exact ⟨rfl, fun _ _ h => h⟩
  | cons entry order ih =>
    rw [HandshakeServer.evictSeenOrder]
    split
    · exact (ih _).congr rfl rfl
    · exact ⟨rfl, fun _ _ h => h⟩

/-- Admitting a request registers and forgets no user, and adds no pending client. -/
theorem enterSeen_shrinks (key : HandshakeSeenKey) : Shrinks s (s.enterSeen key now) := by
  have hpruned : Shrinks s ((s.pruneTimestamps now).prunePending now) :=
    (pruneTimestamps_shrinks s now).trans (prunePendingOrder_shrinks _ now _)
  have hevicted : Shrinks ((s.pruneTimestamps now).prunePending now)
      ((s.pruneTimestamps now).prunePending now).evictPending.evictSeen :=
    (evictPendingOrder_shrinks _ _).trans (evictSeenOrder_shrinks _ _)
  have hseen := hpruned.trans hevicted
  simp only [HandshakeServer.enterSeen]
  split
  · exact hseen
  · exact hseen.trans ⟨rfl, fun _ _ h => h⟩

theorem freeExisting_shrinks (keyId : UInt64) : Shrinks s (s.freeExisting keyId) := by
  rw [HandshakeServer.freeExisting]
  split
  · exact .refl s
  · exact ⟨rfl, fun _ _ h => h⟩

variable {S : Type} (L : Library S)

/-- A request adds at most the client it carries to those pending. -/
theorem processInit_pending (init : List UInt8) (addr : Option ℕ) {keyId : UInt64}
    {state : ClientState}
    (h : (s.processInit L init now addr).1.pendingClients.lookup keyId = some state) :
    s.pendingClients.lookup keyId = some state ∨
      state.clientEphemeralPkey.raw = copyOut init 16 32 := by
  rw [processInit_eq] at h
  split at h
  · have hshrinks := (enterSeen_shrinks s now (initPair init)).trans
      (freeExisting_shrinks _ (initPair init).keyId)
    simp only [HandshakeServer.setPending] at h
    cases addr with
    | none => exact Or.inl (hshrinks.pending keyId state h)
    | some a =>
      by_cases hk : keyId = (initPair init).keyId
      · rw [hk, AList.lookup_insert] at h
        exact Or.inr (by rw [← Option.some.inj h])
      · rw [AList.lookup_insert_ne hk] at h
        exact Or.inl (hshrinks.pending keyId state h)
  · exact Or.inl h

/-- A request registers and forgets no user. -/
theorem processInit_masterKeys (init : List UInt8) (addr : Option ℕ) :
    (s.processInit L init now addr).1.masterKeys = s.masterKeys := by
  rw [processInit_eq]
  split
  · have hshrinks := (enterSeen_shrinks s now (initPair init)).trans
      (freeExisting_shrinks _ (initPair init).keyId)
    simp only [HandshakeServer.setPending]
    cases addr
    · exact hshrinks.masterKeys
    · exact hshrinks.masterKeys
  · rfl

/-- A response takes the client it answers from those pending. -/
theorem buildResp_shrinks (keyId : UInt64) (ip : UInt32) (mtu : UInt16) (calls : RespCalls S)
    (out : SessionKeys) : Shrinks s (s.buildResp L keyId ip mtu calls out).1 := by
  simp only [HandshakeServer.buildResp]
  split
  · exact .refl s
  · split
    · exact ⟨rfl, fun _ _ => lookup_of_lookup_erase⟩
    · split
      · exact ⟨rfl, fun _ _ => lookup_of_lookup_erase⟩
      · split
        · exact ⟨rfl, fun _ _ => lookup_of_lookup_erase⟩
        · split
          · exact ⟨rfl, fun _ _ => lookup_of_lookup_erase⟩
          · split <;> exact ⟨rfl, fun _ _ => lookup_of_lookup_erase⟩

end

end Handshake

end Aegs
