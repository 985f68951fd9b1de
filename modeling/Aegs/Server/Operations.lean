import Aegs.Server.IpPool
import Aegs.Server.Resumption
import Aegs.Server.Table

/-!
# The operations of the server

What `process_udp_packet` does with a handshake request (opcode 0x01) and with the
two kinds of resumption (0x04 and 0x05), what the collector thread does in
`cleanup_maps`, and what `sync_users_from_db` does with the rows of the database,
each as one completed operation on the server's state.

The datagram is the one that is left after camouflage is stripped. Bans and rate
limits only drop datagrams, so a dropped one is no operation. The order in which a
loop visits an `unordered_map` is part of the operation.
-/

namespace Aegs

namespace Server

open Bytes Handshake

/-- The state of the server. -/
structure State where
  /-- `hs_server`. -/
  hs : HandshakeServer
  /-- `ip_pool`. -/
  pool : IpPool
  /-- `g_sessions`. -/
  sessions : SessionTable
  /-- `g_resumption`. -/
  resumption : ResumptionManager
  /-- `g_user_slots`. -/
  userSlots : AList fun _ : UInt64 => List UInt64
  /-- `g_active_tokens`. -/
  activeTokens : AList fun _ : String => UInt64
  /-- `last_cleanup`. -/
  lastCleanup : ℤ

/-- The server before its first synchronisation. -/
def init (pool : IpPool) (bootSecret : Vector UInt8 32) : State where
  hs := .start ∅
  pool := pool
  sessions := .empty
  resumption := .start bootSecret
  userSlots := ∅
  activeTokens := ∅
  lastCleanup := 0

/-- A datagram with its circumstances. -/
structure Datagram where
  /-- `pkt_data`. -/
  data : List UInt8
  /-- `caddr`. -/
  caddr : Endpoint
  /-- `fd`. -/
  fd : ℤ
  /-- `pkt_mimic_type`. -/
  mimicType : UInt8
  /-- `now`. -/
  now : ℤ

/-- The routing that a handshake or resume stores. -/
def Datagram.routing (d : Datagram) (ip : UInt32) : SessionRouting where
  assignedIp := ip
  clientAddr := d.caddr
  hasClient := true
  lastServerFd := d.fd
  usesMimicry := d.mimicType = 1
  mimicType := d.mimicType
  usesAltMask := false

/-- The library calls and clock readings of one handshake. -/
structure HandshakeCalls (S : Type) where
  /-- The clock in `process_init`. -/
  initMs : UInt64
  /-- Where the library puts the client's key, if it makes it. -/
  addr : Option ℕ
  /-- The calls of `build_resp`. -/
  resp : RespCalls S
  /-- What `SessionKeys sk` holds before anything is written to it. -/
  keys : SessionKeys
  /-- The clock in `issue`. -/
  issueMs : UInt64
  /-- The calls of `issue`. -/
  issue : IssueCalls

/-- The library calls and clock readings that both kinds of resumption make. -/
structure ResumeCalls where
  /-- The clock in `verify`. -/
  verifyMs : UInt64
  /-- The calls of `verify`. -/
  verify : VerifyCalls
  /-- The clock in `issue`. -/
  issueMs : UInt64
  /-- The calls of `issue`. -/
  issue : IssueCalls

/-- The library calls of a fast resume that derive its two keys. -/
structure ExpandCalls where
  /-- `hkdf_expand` into `recv_key` goes through. -/
  recv : Bool
  /-- `hkdf_expand` into `send_key` goes through. -/
  send : Bool

/-- The library calls of a PFS resume that derive its two keys. -/
structure PfsCalls (S : Type) where
  /-- `generate_x25519_key`. -/
  keygen : Option S
  /-- `extract_x25519_pub` goes through. -/
  getPublic : Bool
  /-- `compute_ecdh_shared` goes through. -/
  derive : Bool
  /-- `derive_pfs_keys` goes through. -/
  expand : Bool

/-- How the database's tokens become key ids and keys. -/
structure KeyDerivation where
  /-- `compute_key_id`, the bytes of the key id. -/
  computeKeyId : String → Vector UInt8 8
  /-- The key id that `sscanf` reads from the database's hexadecimal digits. -/
  scanKeyId : String → UInt64
  /-- `derive_master_key` of a token and a salt. -/
  deriveMasterKey : String → String → Option (Vector UInt8 32)

section

variable {S : Type} (L : Library S) (T : TokenCipher) (D : KeyDerivation)

/-- `hkdf_expand`, of 32 bytes. -/
def hkdfExpand (masterKey : Vector UInt8 32) (info : String) : Vector UInt8 32 :=
  L.hkdf masterKey.toList ("aegis-v2-salt".toList.map (·.toUInt8)) info

/-! ### Handshakes -/

/-- `is_slot_busy`: another endpoint was active on the slot within the last minute. -/
def Session.isSlotBusy (s : Session) (caddr : Endpoint) (now : ℤ) : Bool :=
  s.routing.hasClient && decide (s.routing.clientAddr ≠ caddr) &&
    decide (now - s.lastActivity < 60000)

/-- What auto-slot balancing asks of the slot it moves a device to. -/
def Session.isSlotFree (s : Session) (caddr : Endpoint) (now : ℤ) : Bool :=
  !s.routing.hasClient || decide (now - s.lastActivity ≥ 60000) ||
    decide (s.routing.clientAddr = caddr)

/-- Auto-slot balancing: the session a handshake with this key id installs its keys in. -/
def State.chooseSlot (st : State) (keyId : UInt64) (p : ℕ) (caddr : Endpoint) (now : ℤ) : ℕ :=
  if (st.sessions.heap p).isSlotBusy caddr now then
    let slots := (st.userSlots.lookup keyId).getD []
    (slots.findSome? fun altKid =>
      if altKid = keyId then none
      else (st.sessions.findByKeyId altKid).filter fun q =>
        (st.sessions.heap q).isSlotFree caddr now).getD p
  else p

/-- The session a handshake is moved to is one of the table. -/
theorem chooseSlot_mem {st : State} {keyId : UInt64} {p : ℕ} (caddr : Endpoint) (now : ℤ)
    (hp : st.sessions.findByKeyId keyId = some p) :
    ∃ keyId', st.sessions.findByKeyId keyId' = some (st.chooseSlot keyId p caddr now) := by
  simp only [State.chooseSlot]
  split
  · rcases hfound : ((st.userSlots.lookup keyId).getD []).findSome? fun altKid =>
        if altKid = keyId then none
        else (st.sessions.findByKeyId altKid).filter fun q =>
          (st.sessions.heap q).isSlotFree caddr now with _ | q
    · exact ⟨keyId, hp⟩
    · obtain ⟨altKid, -, halt⟩ := List.exists_of_findSome?_eq_some hfound
      split at halt
      · exact absurd halt (by simp)
      · exact ⟨altKid, (Option.filter_eq_some_iff.mp halt).1⟩
  · exact ⟨keyId, hp⟩

/-- The address of a handshake: the one its session has, or a new one, mapped to it.
None when the pool is exhausted. -/
def State.assignIp (st : State) (p : ℕ) : Option (State × UInt32) :=
  if st.sessions.assignedIp p ≠ 0 then some (st, st.sessions.assignedIp p)
  else
    match st.pool.allocate with
    | (_, none) => none
    | (pool, some ip) => some ({ st with pool := pool, sessions := st.sessions.mapIp ip p }, ip)

/-- The crypto snapshot of a handshake. A device that was moved to another slot keeps
the mask keys of the slot it asked for. -/
def SessionCrypto.install (c : SessionCrypto) (keys : SessionKeys) (moved : Bool)
    (orig : SessionCrypto) : SessionCrypto :=
  let c := { c with sessionKeys := keys, v3HandshakeDone := true }
  if moved then
    { c with
      maskKey := orig.maskKey
      altMaskKey := orig.altMaskKey
      hasAltMaskKey := orig.hasAltMaskKey }
  else c

/-- The session `s` after a handshake that asked for the session `orig`. -/
def Session.install (s orig : Session) (keyId : UInt64) (moved : Bool) (keys : SessionKeys)
    (ip : UInt32) (d : Datagram) : Session where
  identity := { s.identity with
    generation := s.identity.generation + 1
    sessionId := keys.sessionId
    baseKeyIdRaw := if moved then keyId else s.identity.baseKeyIdRaw }
  crypto := s.crypto.install keys moved orig.crypto
  routing := d.routing ip
  txSeq := 0
  lastActivity := d.now
  replayFilter := .reset

/-- The token for a session, sealed under the master key it had. -/
def State.issueToken (st : State) (s : Session) (ip : UInt32) (now : UInt64) (calls : IssueCalls) :
    Option ResumptionToken :=
  st.resumption.issue L T s.identity.sessionId ip s.crypto.masterKey (le64 s.identity.keyIdRaw)
    now calls

/-- The request has been accepted, and its address assigned: the response is built and
the session installed. Returns the datagrams sent, which may be an empty one. -/
def State.install (st : State) (keyId : UInt64) (orig p : ℕ) (ip : UInt32) (d : Datagram)
    (calls : HandshakeCalls S) : State × List (List UInt8) :=
  let (hs, resp, keys) := st.hs.buildResp L keyId ip 1280 calls.resp calls.keys
  let s := (st.sessions.heap p).install (st.sessions.heap orig) keyId (p ≠ orig) keys ip d
  let sessions := (st.sessions.setSession p s).updateEndpoint (makeEndpointKey d.caddr) p
  let st := { st with hs := hs, sessions := sessions }
  let token := (st.issueToken L T s ip calls.issueMs calls.issue).map fun tok => 0x03 :: tok.bytes
  (st, resp :: token.toList)

/-- **A handshake**: opcode 0x01 of `process_udp_packet`. -/
def State.handshake (st : State) (d : Datagram) (calls : HandshakeCalls S) :
    State × List (List UInt8) :=
  match st.hs.processInit L d.data calls.initMs calls.addr with
  | (hs, none) => ({ st with hs := hs }, [])
  | (hs, some keyId) =>
    let st := { st with hs := hs }
    match st.sessions.findByKeyId keyId with
    | none => (st, [])
    | some orig =>
      let p := st.chooseSlot keyId orig d.caddr d.now
      match st.assignIp p with
      | none => (st, [])
      | some (st, ip) => st.install L T keyId orig p ip d calls

/-! ### Resumption -/

/-- The session of a token's key id, if `verify` accepts the token under its master
key, with the session id and the address in the token. -/
def State.verifyToken (st : State) (tok : ResumptionToken) (calls : ResumeCalls) :
    State × Option (ℕ × UInt64 × UInt32) :=
  match st.sessions.findByKeyId (ofLe64 tok.keyId) with
  | none => (st, none)
  | some p =>
    let (resumption, payload) := st.resumption.verify L T tok (st.sessions.heap p).crypto.masterKey
      calls.verifyMs calls.verify
    ({ st with resumption := resumption }, payload.map fun r => (p, r.1, r.2))

/-- `assigned`: the address the session has, or else the one in the token. -/
def SessionTable.resumedIp (t : SessionTable) (p : ℕ) (ip : UInt32) : UInt32 :=
  if t.assignedIp p ≠ 0 then t.assignedIp p else ip

/-- The session after a resume. -/
def Session.resume (s : Session) (sessionId : UInt64) (recvKey sendKey : Vector UInt8 32)
    (ip : UInt32) (d : Datagram) : Session where
  identity := { s.identity with
    generation := s.identity.generation + 1
    sessionId := sessionId }
  crypto := { s.crypto with
    sessionKeys := { s.crypto.sessionKeys with recvKey := recvKey, sendKey := sendKey }
    v3HandshakeDone := true }
  routing := d.routing ip
  txSeq := 0
  lastActivity := d.now
  replayFilter := .reset

/-- What both kinds of resume do with the session once its keys are derived. Returns
the token for the next resumption. -/
def State.resume (st : State) (p : ℕ) (sessionId : UInt64) (ip : UInt32)
    (recvKey sendKey : Vector UInt8 32) (d : Datagram) (calls : ResumeCalls) :
    State × Option ResumptionToken :=
  let assigned := st.sessions.resumedIp p ip
  let s := (st.sessions.heap p).resume sessionId recvKey sendKey assigned d
  let sessions := (st.sessions.setSession p s).updateEndpoint (makeEndpointKey d.caddr) p
  let st := { st with sessions := sessions.mapIp assigned p }
  (st, st.issueToken L T s assigned calls.issueMs calls.issue)

/-- The keys of a fast resume. A key that is not derived stays as it was. -/
def fastKeys (c : SessionCrypto) (nonce : Vector UInt8 32) (calls : ExpandCalls) :
    Vector UInt8 32 × Vector UInt8 32 :=
  let info := "aegs-resume-" ++ hexEncode nonce.toList
  (if calls.recv then hkdfExpand L c.masterKey (info ++ "-s2c") else c.sessionKeys.recvKey,
    if calls.send then hkdfExpand L c.masterKey (info ++ "-c2s") else c.sessionKeys.sendKey)

/-- **A fast resume**: opcode 0x04 of `process_udp_packet`. -/
def State.fastResume (st : State) (d : Datagram) (calls : ResumeCalls) (expand : ExpandCalls) :
    State × List (List UInt8) :=
  let tok := ResumptionToken.read d.data 1
  match st.verifyToken L T tok calls with
  | (st, none) => (st, [])
  | (st, some (p, sessionId, ip)) =>
    let keys := fastKeys L (st.sessions.heap p).crypto tok.nonce expand
    let (st, token) := st.resume L T p sessionId ip keys.1 keys.2 d calls
    (st, (token.map fun tok => 0x03 :: tok.bytes).toList)

/-- The server's public key and the shared secret of a PFS resume, if the library makes
the key and all that is derived from it. -/
def pfsSecret (peer : Vector UInt8 32) (calls : PfsCalls S) :
    Option (Vector UInt8 32 × List UInt8) :=
  match calls.keygen with
  | none => none
  | some key =>
    let secret := ecdhDerive L calls.derive (some key) peer
    if calls.getPublic ∧ secret.length = 32 ∧ calls.expand then some (L.pub key, secret) else none

/-- `PfsResumptionResponse` with its tag. -/
def pfsResponse (masterKey pub : Vector UInt8 32) (tok : ResumptionToken) : List UInt8 :=
  let body := 0x06 :: pub.toList ++ tok.bytes
  body ++ (computeMac L body masterKey.toList).toList

/-- **A PFS resume**: opcode 0x05 of `process_udp_packet`. -/
def State.pfsResume (st : State) (d : Datagram) (calls : ResumeCalls) (pfs : PfsCalls S) :
    State × List (List UInt8) :=
  let tok := ResumptionToken.read d.data 1
  match st.verifyToken L T tok calls with
  | (st, none) => (st, [])
  | (st, some (p, sessionId, ip)) =>
    match pfsSecret L (copyOut d.data 97 32) pfs with
    | none => (st, [])
    | some (pub, secret) =>
      let masterKey := (st.sessions.heap p).crypto.masterKey
      let keys := derivePfsKeys L secret masterKey tok.nonce
      let (st, token) := st.resume L T p sessionId ip keys.1 keys.2 d calls
      (st, (token.map (pfsResponse L masterKey pub)).toList)

/-! ### The collector thread -/

/-- The session after it was found idle. -/
def Session.idle (s : Session) : Session := { s with
  routing := .empty
  crypto := { s.crypto with sessionKeys := zeroKeys, v3HandshakeDone := false } }

/-- What `cleanup_maps` does with one session. -/
def State.cleanupSession (st : State) (now : ℤ) (p : ℕ) : State :=
  let s := st.sessions.heap p
  if s.routing.hasClient ∧ now - s.lastActivity > 600000 then
    let ip := s.routing.assignedIp
    let sessions := st.sessions.setSession p s.idle
    if ip ≠ 0 then { st with sessions := sessions.unmapIp ip, pool := st.pool.release ip }
    else { st with sessions := sessions }
  else st

/-- `cleanup_maps`, over the sessions in this order. -/
def State.cleanupMaps (st : State) (now : ℤ) (order : List ℕ) : State :=
  if now - st.lastCleanup < 30000 then st
  else
    let st := { st with
      lastCleanup := now
      sessions := st.sessions.cleanupIdleEndpoints now 600000 }
    order.foldl (fun st p => st.cleanupSession now p) st

/-! ### The database -/

/-- The session of a new device. -/
def newDevice (keyId : UInt64) (masterKey : Vector UInt8 32) (now : ℤ) : Session :=
  { Session.fresh with
    identity := ⟨keyId, 0, 0, 1⟩
    crypto := { SessionCrypto.empty with
      masterKey := masterKey
      maskKey := hkdfExpand L masterKey "aegis-v2-header-mask"
      altMaskKey := hkdfExpand L masterKey "aegs-v2-header-mask"
      hasAltMaskKey := true }
    lastActivity := now }

/-- `register_device_session_helper` at the time `now`. -/
def State.registerDevice (st : State) (now : ℤ) (token customKidHex : String) : State × UInt64 :=
  let kidHex := if customKidHex ≠ "" then customKidHex
    else hexEncode (D.computeKeyId token).toList
  let kidRaw := if customKidHex ≠ "" then D.scanKeyId customKidHex
    else ofLe64 (D.computeKeyId token)
  match st.sessions.findByKeyId kidRaw with
  | some _ => (st, kidRaw)
  | none =>
    match D.deriveMasterKey token kidHex with
    | none => (st, 0)
    | some masterKey =>
      ({ st with
        hs := st.hs.addUser kidRaw masterKey.toList
        sessions := st.sessions.insertSession (newDevice L kidRaw masterKey now) }, kidRaw)

/-- The slots `#2` to `#4` of a base token. -/
def State.registerSlots (st : State) (now : ℤ) (token : String) (slots : List UInt64) :
    State × List UInt64 :=
  ["#2", "#3", "#4"].foldl
    (fun (st, slots) suffix =>
      let (st, keyId) := st.registerDevice L D now (token ++ suffix) ""
      (st, if keyId ≠ 0 then slots ++ [keyId] else slots))
    (st, slots)

/-- A row of the database whose token is not active yet. -/
def State.registerUser (st : State) (now : ℤ) (token kidHex : String) : State :=
  let (st, k1) := st.registerDevice L D now token kidHex
  let slots := if k1 ≠ 0 then [k1] else []
  let (st, slots) :=
    if '#' ∈ token.toList then (st, slots)
    else
      let (st, kSlot1) := st.registerDevice L D now (token ++ "#1") ""
      let slots := if kSlot1 ≠ 0 ∧ kSlot1 ≠ k1 then slots ++ [kSlot1] else slots
      st.registerSlots L D now token slots
  if k1 ≠ 0 then
    { st with
      userSlots := st.userSlots.insert k1 slots
      activeTokens := st.activeTokens.insert token k1 }
  else st

/-- One slot of a revoked user: its address goes back to the pool, and then the session
with its route is removed. -/
def State.revokeSlot (st : State) (keyId : UInt64) : State :=
  let assignedIp := ((st.sessions.findByKeyId keyId).map st.sessions.assignedIp).getD 0
  { st with
    hs := st.hs.removeUser keyId
    pool := if assignedIp ≠ 0 then st.pool.release assignedIp else st.pool
    sessions := st.sessions.removeSession keyId }

/-- A revoked user. -/
def State.revokeUser (st : State) (token : String) : State :=
  let baseKid := (st.activeTokens.lookup token).getD 0
  let st :=
    match st.userSlots.lookup baseKid with
    | some slots =>
      let st := slots.foldl State.revokeSlot st
      { st with userSlots := st.userSlots.erase baseKid }
    | none => st.revokeSlot baseKid
  { st with activeTokens := st.activeTokens.erase token }

/-- Step 1 of `sync_users_from_db`: the rows that are new, in this order. -/
def State.registerUsers (st : State) (now : ℤ) (rows : List (String × String)) : State :=
  rows.foldl (fun st row =>
    if (st.activeTokens.lookup row.1).isSome then st else st.registerUser L D now row.1 row.2) st

section

variable {P : State → Prop}

/-- **What registering a device keeps, and storing the slots of a user, registering users
keeps.** -/
theorem registerUsers_rec
    (hdevice : ∀ {st}, P st → ∀ now token kidHex, P (st.registerDevice L D now token kidHex).1)
    (hslots : ∀ {st}, P st → ∀ (k1 : UInt64) slots activeTokens, k1 ≠ 0 →
      P { st with userSlots := st.userSlots.insert k1 slots, activeTokens := activeTokens })
    {st : State} (h : P st) (now : ℤ) (rows : List (String × String)) :
    P (st.registerUsers L D now rows) := by
  have hfold : ∀ {st}, P st → ∀ token slots, P (st.registerSlots L D now token slots).1 :=
    fun {st} h token slots => List.foldlRecOn (motive := fun r : State × List UInt64 => P r.1)
      _ _ h fun r hr suffix _ => hdevice hr now (token ++ suffix) ""
  refine List.foldlRecOn (motive := P) rows _ h fun st h row _ => ?_
  split
  · exact h
  · have hfirst := hdevice h now row.1 row.2
    rw [State.registerUser]
    rcases hk1 : st.registerDevice L D now row.1 row.2 with ⟨st₁, k1⟩
    rw [hk1] at hfirst
    have hbase := fun slots =>
      hfold (hdevice hfirst now (row.1 ++ "#1") "") row.1 slots
    simp only
    split
    · rename_i hne
      split
      · exact hslots hfirst _ _ _ hne
      · exact hslots (hbase _) _ _ _ hne
    · split
      · exact hfirst
      · exact hbase _

/-- **What removing a slot keeps, and forgetting slots and a token, removing a user
keeps.** -/
theorem revokeUser_rec (hslot : ∀ {st}, P st → ∀ keyId, P (st.revokeSlot keyId))
    (hforget : ∀ {st}, P st → ∀ (keyId : UInt64),
      P { st with userSlots := st.userSlots.erase keyId })
    (htoken : ∀ {st}, P st → ∀ activeTokens, P { st with activeTokens := activeTokens })
    {st : State} (h : P st) (token : String) : P (st.revokeUser token) := by
  rw [State.revokeUser]
  split
  · exact htoken (hforget (List.foldlRecOn (motive := P) _ _ h fun st h keyId _ =>
      hslot h keyId) _) _
  · exact htoken (hslot h _) _

end

/-- `tokens_to_remove`: the active tokens that are in no row. -/
def State.tokensToRemove (st : State) (rows : List (String × String)) : List String :=
  st.activeTokens.keys.filter fun token => token ∉ rows.map Prod.fst

/-! ### Steps -/

/-- A completed operation. -/
inductive Operation (S : Type)
  /-- Opcode 0x01. -/
  | handshake (d : Datagram) (calls : HandshakeCalls S)
  /-- Opcode 0x04. -/
  | fastResume (d : Datagram) (calls : ResumeCalls) (expand : ExpandCalls)
  /-- Opcode 0x05. -/
  | pfsResume (d : Datagram) (calls : ResumeCalls) (pfs : PfsCalls S)
  /-- `cleanup_maps`, with the order in which it visits the sessions. -/
  | cleanup (now : ℤ) (order : List ℕ)
  /-- `sync_users_from_db` after the scan, with the rows in the order of the map they
  are collected in, and the tokens to remove in the order they are found. -/
  | sync (now : ℤ) (rows : List (String × String)) (revoked : List String)

/-- One operation, if it is one: a datagram has the opcode and the length that
`process_udp_packet` asks for, and a loop visits what is there, once. -/
def step (st : State) : Operation S → Option State
  | .handshake d calls =>
    if d.data.head? = some 0x01 ∧ d.data.length = 72 then some (st.handshake L T d calls).1
    else none
  | .fastResume d calls expand =>
    if d.data.head? = some 0x04 ∧ d.data.length = 97 then some (st.fastResume L T d calls expand).1
    else none
  | .pfsResume d calls pfs =>
    if d.data.head? = some 0x05 ∧ d.data.length = 129 then some (st.pfsResume L T d calls pfs).1
    else none
  | .cleanup now order =>
    if order.Perm (st.sessions.byKeyId.entries.map fun entry => entry.2) then
      some (st.cleanupMaps now order)
    else none
  | .sync now rows revoked =>
    let st' := st.registerUsers L D now rows
    if (rows.map Prod.fst).Nodup ∧ revoked.Perm (st'.tokensToRemove rows) then
      some (revoked.foldl State.revokeUser st')
    else none

end

end Server

end Aegs
