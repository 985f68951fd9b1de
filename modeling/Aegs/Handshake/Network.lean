import Mathlib.Data.Fintype.Basic
import Aegs.Lib.Transition
import Aegs.Handshake.Agreement

/-!
# A handshake over a lossy network

One client and the server's handshake path, with a network between them that
drops, delays, reorders and duplicates what either sends
(`Aegs.Handshake.Network.step`). The client makes a fresh key for each of its three
attempts, reads one datagram an attempt and keeps the first response it accepts.
Any number of server workers take a request through `process_init`, `build_resp`
and `set_crypto`, each a step of its own; the response is sent after the keys are
installed.

## Who has the last word

Every request the server accepts replaces the keys of the session, and the client
keeps those of one response. A copy of a request that arrives after the client is
done, or one of an earlier attempt, therefore leaves the two ends with different
keys (`Aegs.Handshake.Network.not_agreed`). They agree in every run in which the
client's response is the last one installed, with no worker on its way to install
another, and no request is accepted after it
(`Aegs.Handshake.Network.agreed_of_meets`).
-/

namespace Aegs

namespace Handshake

namespace Network

open Bytes Transition

/-- The key id and the master key of the user. -/
structure User where
  /-- The key id. -/
  keyId : Vector UInt8 8
  /-- The master key. -/
  masterKey : Vector UInt8 32

/-- The key id as the server reads it. -/
def User.id (user : User) : UInt64 := ofLe64 user.keyId

/-- A response in flight. -/
structure Resp where
  /-- The datagram, empty when `build_resp` failed. -/
  bytes : List UInt8
  /-- History: the client's public key it was built for. -/
  answers : Vector UInt8 32
  /-- History: the keys the server derived for it. -/
  keys : SessionKeys
deriving DecidableEq

/-- Where a server worker stands. -/
inductive Worker
  /-- Between two requests. -/
  | idle
  /-- `process_init` returned true. -/
  | accepted (keyId : UInt64)
  /-- `build_resp` is done. -/
  | built (r : Resp)
deriving DecidableEq

/-- Where the client stands. -/
inductive Phase (S : Type)
  /-- No attempt is open. -/
  | idle
  /-- An attempt waits for its datagram. -/
  | waiting (hc : HandshakeClient S)
  /-- It has accepted a response. -/
  | accepted (keys : SessionKeys)

/-- The client, the server and what is between them. -/
structure State (S ι : Type) where
  /-- The client. -/
  phase : Phase S
  /-- The attempts made. -/
  attempts : ℕ
  /-- The client's `session_keys`, which a rejected response may have written to. -/
  clientKeys : SessionKeys
  /-- The requests in flight. -/
  inits : List (List UInt8)
  /-- The responses in flight. -/
  resps : List Resp
  /-- The handshake server. -/
  server : HandshakeServer
  /-- The `session_keys` of the server's session. -/
  sessionKeys : SessionKeys
  /-- The workers. -/
  worker : ι → Worker
  /-- History: the response whose keys were installed last. -/
  installed : Option Resp

/-- The choices of a run. -/
inductive Action (S ι : Type)
  /-- The client makes a key and sends a request. -/
  | attempt (key : S) (calls : Calls) (now : UInt64)
  /-- The client gives up waiting. -/
  | timeout
  /-- A response reaches the client. -/
  | deliver (r : Resp) (calls : Calls)
  /-- A request reaches a worker. -/
  | receive (w : ι) (p : List UInt8) (now : UInt64) (addr : Option ℕ)
  /-- A worker builds its response, into a record that holds `out`. -/
  | build (w : ι) (ip : UInt32) (calls : RespCalls S) (out : SessionKeys)
  /-- A worker installs its keys and sends its response. -/
  | install (w : ι)
  /-- The network duplicates a request. -/
  | duplicateInit (p : List UInt8)
  /-- The network drops a request. -/
  | dropInit (p : List UInt8)
  /-- The network duplicates a response. -/
  | duplicateResp (r : Resp)
  /-- The network drops a response. -/
  | dropResp (r : Resp)

section

variable {S ι : Type} (L : Library S) (user : User)

/-- `HANDSHAKE_MAX_RETRIES`. -/
def maxRetries : ℕ := 3

/-- The public key pending under a key id. -/
def pendingPublic (s : HandshakeServer) (keyId : UInt64) : Vector UInt8 32 :=
  ((s.pendingClients.lookup keyId).map fun state => state.clientEphemeralPkey.raw).getD
    (Vector.replicate 32 0)

/-- One step. -/
def step [DecidableEq ι] (st : State S ι) : Action S ι → Option (State S ι)
  | .attempt key calls now => match st.phase with
    | .idle =>
      let hc : HandshakeClient S := ⟨user.keyId, user.masterKey, some key⟩
      let packet := hc.buildInit L calls now
      if st.attempts < maxRetries ∧ packet ≠ [] then
        some { st with
          phase := .waiting hc
          attempts := st.attempts + 1
          inits := packet :: st.inits }
      else none
    | _ => none
  | .timeout => match st.phase with
    | .waiting _ => some { st with phase := .idle }
    | _ => none
  | .deliver r calls => match st.phase with
    | .waiting hc =>
      if r ∈ st.resps then
        let result := hc.processResp L calls r.bytes st.clientKeys
        some { st with
          phase := if result.1 then .accepted result.2 else .idle
          clientKeys := result.2
          resps := st.resps.erase r }
      else none
    | _ => none
  | .receive w p now addr => match st.worker w with
    | .idle =>
      if p ∈ st.inits then
        let result := st.server.processInit L p now addr
        some { st with
          server := result.1
          inits := st.inits.erase p
          worker := match result.2 with
            | none => st.worker
            | some keyId => Function.update st.worker w (.accepted keyId) }
      else none
    | _ => none
  | .build w ip calls out => match st.worker w with
    | .accepted keyId =>
      let result := st.server.buildResp L keyId ip 1280 calls out
      some { st with
        server := result.1
        worker := Function.update st.worker w
          (.built ⟨result.2.1, pendingPublic st.server keyId, result.2.2⟩) }
    | _ => none
  | .install w => match st.worker w with
    | .built r => some { st with
        sessionKeys := r.keys
        installed := some r
        resps := r :: st.resps
        worker := Function.update st.worker w .idle }
    | _ => none
  | .duplicateInit p => if p ∈ st.inits then some { st with inits := p :: st.inits } else none
  | .dropInit p => if p ∈ st.inits then some { st with inits := st.inits.erase p } else none
  | .duplicateResp r => if r ∈ st.resps then some { st with resps := r :: st.resps } else none
  | .dropResp r => if r ∈ st.resps then some { st with resps := st.resps.erase r } else none

/-- Nothing is sent, and the server knows the user. -/
def init (masterKeys : AList fun _ : UInt64 => List UInt8) (keys : SessionKeys) : State S ι where
  phase := .idle
  attempts := 0
  clientKeys := keys
  inits := []
  resps := []
  server := .start (masterKeys.insert user.id user.masterKey.toList)
  sessionKeys := keys
  worker := fun _ => .idle
  installed := none

/-- **Agreement**: once the client has accepted a response and no request is in flight
or in a worker's hands, the keys of the server's session are the client's. -/
def Agreed (st : State S ι) : Prop :=
  ∀ keys, st.phase = .accepted keys → st.inits = [] → (∀ w, st.worker w = .idle) →
    st.sessionKeys.sendKey = keys.recvKey ∧ st.sessionKeys.recvKey = keys.sendKey

/-- The client has this ephemeral public key. -/
def Asks (hc : HandshakeClient S) (pub : Vector UInt8 32) : Prop :=
  ∃ e, hc.ephemeralPkey = some e ∧ L.pub e = pub

/-- The client's open attempt has this public key. -/
def Phase.asks : Phase S → Vector UInt8 32 → Prop
  | .waiting hc, pub => Asks L hc pub
  | _, _ => False

/-- The client has accepted a response. -/
def Phase.isAccepted : Phase S → Bool
  | .accepted _ => true
  | _ => false

/-- **The client has the last word**: a response to the client's open attempt reaches
it only while that response is the last one installed and no worker is between
`process_init` and `set_crypto`, and no authentic request reaches the server once
the client has accepted. -/
def LastWord (st : State S ι) : Action S ι → Prop
  | .deliver r _ => st.phase.asks L r.answers →
      st.installed = some r ∧ ∀ w, st.worker w = .idle
  | .receive _ p now addr => st.phase.isAccepted = true →
      authenticInit L (st.server.masterKeys.lookup (initPair p).keyId) p now = false ∨ addr = none
  | _ => True

instance (hc : HandshakeClient S) (pub : Vector UInt8 32) : Decidable (Asks L hc pub) :=
  match he : hc.ephemeralPkey with
  | none => isFalse fun h => by
    obtain ⟨e, he', -⟩ := h
    rw [he] at he'
    exact absurd he' (by simp)
  | some e => decidable_of_iff (L.pub e = pub)
    ⟨fun h => ⟨e, he, h⟩, fun ⟨e', he', h⟩ => Option.some.inj (he.symm.trans he') ▸ h⟩

instance : ∀ (phase : Phase S) (pub : Vector UInt8 32), Decidable (phase.asks L pub)
  | .waiting hc, pub => inferInstanceAs (Decidable (Asks L hc pub))
  | .idle, _ | .accepted _, _ => isFalse id

instance [Fintype ι] (st : State S ι) : ∀ a, Decidable (LastWord L st a)
  | .deliver r _ => inferInstanceAs (Decidable (st.phase.asks L r.answers →
      st.installed = some r ∧ ∀ w, st.worker w = .idle))
  | .receive _ p now addr => inferInstanceAs (Decidable (st.phase.isAccepted = true →
      authenticInit L (st.server.masterKeys.lookup (initPair p).keyId) p now = false ∨ addr = none))
  | .attempt .. | .timeout | .build .. | .install _ | .duplicateInit _ | .dropInit _
  | .duplicateResp _ | .dropResp _ => isTrue trivial

/-! ### Responses are bound to the key they answer -/

/-- **The library is ideal** on the keys that handshakes derive. -/
structure Ideal : Prop where
  /-- X25519 is commutative. -/
  commutes : L.Commutes
  /-- Decryption undoes encryption. -/
  decrypts : L.Decrypts
  /-- X25519 is injective in the public key. -/
  injective : ∀ e a b, L.derive e (L.pub a) = L.derive e (L.pub b) → L.pub a = L.pub b
  /-- HKDF has no collisions among X25519 secrets. -/
  collisionFree : ∀ e e' a b salt info, L.hkdf (L.derive e (L.pub a)) salt info =
    L.hkdf (L.derive e' (L.pub b)) salt info → L.derive e (L.pub a) = L.derive e' (L.pub b)
  /-- The cipher opens nothing that was sealed under another key. -/
  binds : ∀ e e' a b salt info nonce aad plain dec,
    let key := L.hkdf (L.derive e (L.pub a)) salt info
    let key' := L.hkdf (L.derive e' (L.pub b)) salt info
    L.decrypt key nonce aad (L.encrypt key' nonce aad plain).1 (L.encrypt key' nonce aad plain).2 =
      some dec → key = key'

/-- The datagram is a request of the client. -/
def FromClient (p : List UInt8) : Prop :=
  ∃ e now, ∃ mac : Vector UInt8 16,
    p = (copyIn (initBody user.keyId (L.pub e) now) 56 mac).toList

/-- The response was built for an ephemeral key of the client, and its keys are the
ones it was built with. -/
def Genuine (r : Resp) : Prop :=
  ∃ a e sessionId ip mtu, r.answers = L.pub a ∧
    let secret := L.derive e (L.pub a)
    r.bytes = (respPacket L (L.hkdf secret user.masterKey.toList "aegs-cfg") sessionId (L.pub e) ip
      mtu).toList ∧
    r.keys.recvKey = L.hkdf secret user.masterKey.toList "aegs-c2s" ∧
    r.keys.sendKey = L.hkdf secret user.masterKey.toList "aegs-s2c"

/-- **What the client accepts** was built for its key, and gives it the keys of the
server. -/
theorem answers_of_accepted (hL : Ideal L) {r : Resp} (hr : Genuine L user r)
    {hc : HandshakeClient S} (hmaster : hc.masterKey = user.masterKey) {calls : Calls}
    {out out' : SessionKeys} (h : hc.processResp L calls r.bytes out = (true, out')) :
    Asks L hc r.answers ∧ r.keys.sendKey = out'.recvKey ∧ r.keys.recvKey = out'.sendKey := by
  obtain ⟨a, e', sessionId, ip, mtu, hanswers, hbytes, hrecv, hsend⟩ := hr
  obtain ⟨-, e, dec, he, hopen, hout⟩ := processResp_eq_true L h
  rw [hbytes, pub_respPacket, take_respPacket, cipher_respPacket, tag_respPacket, hmaster] at hopen
  have hkey := hL.binds e e' e' a _ _ _ _ _ _ hopen
  have hsecret := hL.collisionFree e e' e' a _ _ hkey
  rw [hbytes, pub_respPacket, hmaster, hsecret] at hout
  rw [hL.commutes e e'] at hsecret
  refine ⟨⟨e, he, ?_⟩, ?_, ?_⟩
  · rw [hanswers]
    exact hL.injective e' e a hsecret
  · rw [hsend, hout]
  · rw [hrecv, hout]

/-- **The invariant.** -/
structure Consistent (st : State S ι) : Prop where
  /-- The server knows the user. -/
  known : st.server.masterKeys.lookup user.id = some user.masterKey.toList
  /-- Requests are the client's. -/
  inits : ∀ p ∈ st.inits, FromClient L user p
  /-- Pending keys are ephemeral keys. -/
  pending : ∀ keyId state, st.server.pendingClients.lookup keyId = some state →
    ∃ e, state.clientEphemeralPkey.raw = L.pub e
  /-- A response that is not empty is genuine. -/
  resps : ∀ r ∈ st.resps, r.bytes = [] ∨ Genuine L user r
  /-- A worker answers the user. -/
  accepted : ∀ w keyId, st.worker w = .accepted keyId → keyId = user.id
  /-- So is one that is about to be sent. -/
  built : ∀ w r, st.worker w = .built r → r.bytes = [] ∨ Genuine L user r
  /-- The client has the user's master key. -/
  waiting : ∀ hc, st.phase = .waiting hc → hc.masterKey = user.masterKey
  /-- The session holds the keys of the response installed last. -/
  installed : ∀ r, st.installed = some r → st.sessionKeys = r.keys
  /-- Once the client has accepted, nobody installs keys any more. -/
  done : ∀ keys, st.phase = .accepted keys → (∀ w, st.worker w = .idle) ∧
    st.sessionKeys.sendKey = keys.recvKey ∧ st.sessionKeys.recvKey = keys.sendKey

variable {L user} {st : State S ι}

theorem Consistent.agreed (h : Consistent L user st) : Agreed st :=
  fun keys hphase _ _ => (h.done keys hphase).2

/-- While a worker is busy the client has not accepted. -/
theorem Consistent.not_accepted (h : Consistent L user st) {w : ι} (hw : st.worker w ≠ .idle)
    (keys : SessionKeys) : st.phase ≠ .accepted keys :=
  fun hphase => hw ((h.done keys hphase).1 w)

/-- **A response reaches the client**, which accepts it only as the last word. -/
theorem Consistent.deliver (hL : Ideal L) (h : Consistent L user st) {hc : HandshakeClient S}
    (hphase : st.phase = .waiting hc) {r : Resp} (hr : r ∈ st.resps) {calls : Calls}
    {ok : Bool} {out : SessionKeys}
    (hresult : hc.processResp L calls r.bytes st.clientKeys = (ok, out))
    (hlast : Asks L hc r.answers → st.installed = some r ∧ ∀ w, st.worker w = .idle) :
    Consistent L user { st with
      phase := if ok then .accepted out else .idle
      clientKeys := out
      resps := st.resps.erase r } := by
  refine { h with
    resps := fun r' hr' => h.resps r' (List.mem_of_mem_erase hr')
    waiting := fun hc' hphase' => ?_
    done := fun keys hphase' => ?_ }
  · cases ok <;> simp at hphase'
  · cases ok with
    | false => simp at hphase'
    | true =>
      obtain rfl : out = keys := by simpa using hphase'
      rcases h.resps r hr with hempty | hgenuine
      · rw [hempty] at hresult
        exact absurd (processResp_eq_true L hresult).1 (by decide)
      · obtain ⟨hasks, hsend, hrecv⟩ := answers_of_accepted L user hL hgenuine
          (h.waiting hc hphase) hresult
        obtain ⟨hinstalled, hidle⟩ := hlast hasks
        refine ⟨hidle, ?_⟩
        simp only [h.installed r hinstalled]
        exact ⟨hsend, hrecv⟩

theorem consistent_init (masterKeys : AList fun _ : UInt64 => List UInt8) (keys : SessionKeys) :
    Consistent L user (init user masterKeys keys : State S ι) where
  known := AList.lookup_insert _
  inits := fun _ hp => absurd hp List.not_mem_nil
  pending := fun keyId state hs => by simp [init, HandshakeServer.start] at hs
  resps := fun _ hr => absurd hr List.not_mem_nil
  accepted := fun w keyId hw => by simp [init] at hw
  built := fun w r hw => by simp [init] at hw
  waiting := fun hc hphase => by simp [init] at hphase
  installed := fun r hr => by simp [init] at hr
  done := fun keys hphase => by simp [init] at hphase

variable [DecidableEq ι]

/-- **A request reaches a worker**, an authentic one only before the client has
accepted. -/
theorem Consistent.receive (h : Consistent L user st) {w : ι} (hw : st.worker w = .idle)
    {p : List UInt8} (hp : p ∈ st.inits) {now : UInt64} {addr : Option ℕ}
    (hlast : st.phase.isAccepted = true →
      authenticInit L (st.server.masterKeys.lookup (initPair p).keyId) p now = false ∨
        addr = none) :
    Consistent L user { st with
      server := (st.server.processInit L p now addr).1
      inits := st.inits.erase p
      worker := match (st.server.processInit L p now addr).2 with
        | none => st.worker
        | some keyId => Function.update st.worker w (.accepted keyId) } := by
  obtain ⟨e, now', mac, hbytes⟩ := h.inits p hp
  have hpending : ∀ keyId state,
      (st.server.processInit L p now addr).1.pendingClients.lookup keyId = some state →
        ∃ e, state.clientEphemeralPkey.raw = L.pub e := by
    intro keyId state hstate
    rcases processInit_pending st.server now L p addr hstate with hold | hnew
    · exact h.pending keyId state hold
    · rw [hbytes, pub_initBody] at hnew
      exact ⟨e, hnew⟩
  have hknown : (st.server.processInit L p now addr).1.masterKeys.lookup user.id =
      some user.masterKey.toList := by
    rw [processInit_masterKeys]
    exact h.known
  rcases hresult : st.server.processInit L p now addr with ⟨server', _ | keyId⟩
  · rw [hresult] at hpending hknown
    exact { h with
      known := hknown
      inits := fun p' hp' => h.inits p' (List.mem_of_mem_erase hp')
      pending := hpending }
  · have hid : keyId = user.id := by
      have hkey := (processInit_eq_some L hresult).2.1
      rw [hbytes, keyId_initBody] at hkey
      exact hkey
    -- the request was accepted, so the client had not
    have hopen : ∀ keys, st.phase ≠ .accepted keys := by
      intro keys hphase
      have hrejected := hlast (by rw [hphase]; rfl)
      have hnone : (st.server.processInit L p now addr).2 = none := by
        rw [processInit_eq]
        rcases hrejected with hauth | rfl
        · rw [if_neg (by simp [hauth])]
        · split <;> rfl
      rw [hresult] at hnone
      exact absurd hnone (by simp)
    rw [hresult] at hpending hknown
    refine { h with
      known := hknown
      inits := fun p' hp' => h.inits p' (List.mem_of_mem_erase hp')
      pending := hpending
      accepted := fun w' keyId' hw' => ?_
      built := fun w' r hw' => ?_
      done := fun keys hphase => absurd hphase (hopen keys) }
    · by_cases hww : w' = w
      · subst hww
        simp only [Function.update_self, Worker.accepted.injEq] at hw'
        exact hw' ▸ hid
      · simp only [Function.update_of_ne hww] at hw'
        exact h.accepted w' keyId' hw'
    · by_cases hww : w' = w
      · subst hww
        simp only [Function.update_self] at hw'
        exact absurd hw' (by simp)
      · simp only [Function.update_of_ne hww] at hw'
        exact h.built w' r hw'

/-- **A worker builds its response.** -/
theorem Consistent.build (h : Consistent L user st) {w : ι} {keyId : UInt64}
    (hw : st.worker w = .accepted keyId) (ip : UInt32) (calls : RespCalls S) (out : SessionKeys) :
    Consistent L user { st with
      server := (st.server.buildResp L keyId ip 1280 calls out).1
      worker := Function.update st.worker w
        (.built ⟨(st.server.buildResp L keyId ip 1280 calls out).2.1,
          pendingPublic st.server keyId,
          (st.server.buildResp L keyId ip 1280 calls out).2.2⟩) } := by
  have hshrinks := buildResp_shrinks st.server L keyId ip 1280 calls out
  have hid := h.accepted w keyId hw
  have hopen := h.not_accepted (w := w) (by rw [hw]; simp)
  have hgenuine : (st.server.buildResp L keyId ip 1280 calls out).2.1 = [] ∨ Genuine L user
      ⟨(st.server.buildResp L keyId ip 1280 calls out).2.1,
        pendingPublic st.server keyId, (st.server.buildResp L keyId ip 1280 calls out).2.2⟩ := by
    rcases hresult : st.server.buildResp L keyId ip 1280 calls out with ⟨server', resp, keys⟩
    by_cases hempty : resp = []
    · exact Or.inl hempty
    · obtain ⟨state, masterKey, server, sessionId, hstate, hmaster, -, -, hbytes, hkeys⟩ :=
        buildResp_eq L hresult hempty
      rw [hid, h.known] at hmaster
      obtain rfl := Option.some.inj hmaster
      obtain ⟨a, ha⟩ := h.pending keyId state hstate
      rw [ha] at hbytes hkeys
      refine Or.inr ⟨a, server.key, sessionId, ip, 1280, ?_, hbytes, ?_, ?_⟩
      · simp [pendingPublic, hstate, ha]
      · rw [hkeys]
      · rw [hkeys]
  refine { h with
    known := by rw [hshrinks.masterKeys]; exact h.known
    pending := fun k state hs => h.pending k state (hshrinks.pending k state hs)
    accepted := fun w' keyId' hw' => ?_
    built := fun w' r hw' => ?_
    done := fun keys hphase => absurd hphase (hopen keys) }
  · by_cases hww : w' = w
    · subst hww
      simp only [Function.update_self] at hw'
      exact absurd hw' (by simp)
    · simp only [Function.update_of_ne hww] at hw'
      exact h.accepted w' keyId' hw'
  · by_cases hww : w' = w
    · subst hww
      simp only [Function.update_self, Worker.built.injEq] at hw'
      exact hw' ▸ hgenuine
    · simp only [Function.update_of_ne hww] at hw'
      exact h.built w' r hw'

/-- **A worker installs its keys** and sends its response. -/
theorem Consistent.install (h : Consistent L user st) {w : ι} {r : Resp}
    (hw : st.worker w = .built r) :
    Consistent L user { st with
      sessionKeys := r.keys
      installed := some r
      resps := r :: st.resps
      worker := Function.update st.worker w .idle } := by
  have hopen := h.not_accepted (w := w) (by rw [hw]; simp)
  refine { h with
    resps := fun r' hr' => ?_
    accepted := fun w' keyId' hw' => ?_
    built := fun w' r' hw' => ?_
    installed := fun r' hr' => by rw [← Option.some.inj hr']
    done := fun keys hphase => absurd hphase (hopen keys) }
  · rcases List.mem_cons.mp hr' with rfl | hr'
    · exact h.built w r' hw
    · exact h.resps r' hr'
  · by_cases hww : w' = w
    · subst hww
      simp only [Function.update_self] at hw'
      exact absurd hw' (by simp)
    · simp only [Function.update_of_ne hww] at hw'
      exact h.accepted w' keyId' hw'
  · by_cases hww : w' = w
    · subst hww
      simp only [Function.update_self] at hw'
      exact absurd hw' (by simp)
    · simp only [Function.update_of_ne hww] at hw'
      exact h.built w' r' hw'

/-- Every step the condition allows keeps the invariant. -/
theorem Consistent.step (hL : Ideal L) (h : Consistent L user st) {t : State S ι}
    {a : Action S ι} (hok : LastWord L st a) (hstep : step L user st a = some t) :
    Consistent L user t := by
  cases a with
  | attempt key calls now =>
    cases hphase : st.phase with
    | idle =>
      simp only [Network.step, hphase] at hstep
      split at hstep
      · rename_i hsend
        obtain rfl := Option.some.inj hstep
        obtain ⟨e, -, mac, hpacket⟩ := buildInit_eq L rfl hsend.2
        refine { h with
          inits := fun p hp => ?_
          waiting := fun hc hphase' => ?_
          done := fun keys hphase' => absurd hphase' (by simp) }
        · rcases List.mem_cons.mp hp with rfl | hp
          · exact ⟨e, now, mac, hpacket⟩
          · exact h.inits p hp
        · rw [← Phase.waiting.inj hphase']
      · exact absurd hstep (by simp)
    | waiting _ | accepted _ => simp [Network.step, hphase] at hstep
  | timeout =>
    cases hphase : st.phase with
    | waiting hc =>
      simp only [Network.step, hphase, Option.some.injEq] at hstep
      subst hstep
      exact { h with
        waiting := fun _ hphase' => absurd hphase' (by simp)
        done := fun _ hphase' => absurd hphase' (by simp) }
    | idle | accepted _ => simp [Network.step, hphase] at hstep
  | deliver r calls =>
    cases hphase : st.phase with
    | waiting hc =>
      simp only [Network.step, hphase] at hstep
      split at hstep
      · rename_i hr
        obtain rfl := Option.some.inj hstep
        simp only [LastWord, hphase, Phase.asks] at hok
        exact h.deliver hL hphase hr rfl hok
      · exact absurd hstep (by simp)
    | idle | accepted _ => simp [Network.step, hphase] at hstep
  | receive w p now addr =>
    cases hw : st.worker w with
    | idle =>
      simp only [Network.step, hw] at hstep
      split at hstep
      · rename_i hp
        obtain rfl := Option.some.inj hstep
        exact h.receive hw hp hok
      · exact absurd hstep (by simp)
    | accepted _ | built _ => simp [Network.step, hw] at hstep
  | build w ip calls out =>
    cases hw : st.worker w with
    | accepted keyId =>
      simp only [Network.step, hw, Option.some.injEq] at hstep
      subst hstep
      exact h.build hw ip calls out
    | idle | built _ => simp [Network.step, hw] at hstep
  | install w =>
    cases hw : st.worker w with
    | built r =>
      simp only [Network.step, hw, Option.some.injEq] at hstep
      subst hstep
      exact h.install hw
    | idle | accepted _ => simp [Network.step, hw] at hstep
  | duplicateInit p =>
    simp only [Network.step] at hstep
    split at hstep
    · rename_i hp
      obtain rfl := Option.some.inj hstep
      exact { h with inits := List.forall_mem_cons.mpr ⟨h.inits p hp, h.inits⟩ }
    · exact absurd hstep (by simp)
  | dropInit p =>
    simp only [Network.step] at hstep
    split at hstep
    · obtain rfl := Option.some.inj hstep
      exact { h with inits := fun p' hp' => h.inits p' (List.mem_of_mem_erase hp') }
    · exact absurd hstep (by simp)
  | duplicateResp r =>
    simp only [Network.step] at hstep
    split at hstep
    · rename_i hr
      obtain rfl := Option.some.inj hstep
      exact { h with resps := List.forall_mem_cons.mpr ⟨h.resps r hr, h.resps⟩ }
    · exact absurd hstep (by simp)
  | dropResp r =>
    simp only [Network.step] at hstep
    split at hstep
    · obtain rfl := Option.some.inj hstep
      exact { h with resps := fun r' hr' => h.resps r' (List.mem_of_mem_erase hr') }
    · exact absurd hstep (by simp)

/-! ### Runs -/

variable (L user)

/-- **The two ends agree** in every state of a run in which the client has the last
word. -/
theorem agreed_of_meets (hL : Ideal L) (masterKeys : AList fun _ : UInt64 => List UInt8)
    (keys : SessionKeys) (as : List (Action S ι)) (st : State S ι)
    (hok : Meets (Network.step L user) (LastWord L) (init user masterKeys keys) as)
    (hrun : runs (Network.step L user) (init user masterKeys keys) as = some st) : Agreed st :=
  (inv_of_meets (I := Consistent L user) (fun h hok hstep => h.step hL hok hstep)
    (consistent_init masterKeys keys) hok hrun).agreed

end

/-! ### A copy that arrives late -/

theorem smallLibrary_ideal : Ideal smallLibrary where
  commutes := smallLibrary_commutes
  decrypts := smallLibrary_decrypts
  injective := fun e a b h => by
    have hab : a = b := by simpa [smallLibrary] using h
    rw [hab]
  collisionFree := fun e e' a b salt info h => by
    have h0 := congrArg (fun v : Vector UInt8 32 => v[0]) h
    simpa [smallLibrary] using h0
  binds := fun e e' a b salt info nonce aad plain dec => by
    intro key key' h
    have htag : smallTag key' aad plain = smallTag key aad
        ((plain.map (· ^^^ key'[0])).map (· ^^^ key[0])) := by
      by_contra hne
      simp only [smallLibrary] at h
      rw [if_neg hne] at h
      exact absurd h (by simp)
    have h0 : key[0] = key'[0] := by
      rw [← smallTag_zero key aad, ← htag, smallTag_zero]
    simpa [key, key', smallLibrary] using h0

/-- The user of the small library. -/
def smallUser : User := ⟨le64 5, Vector.replicate 32 9⟩

/-- The request of its first attempt. -/
def smallRequest : List UInt8 := smallClient.buildInit smallLibrary .ok 1000

/-- The library calls of a server that draws this key and session id. -/
def smallCalls (key : UInt8) (sessionId : UInt64) : RespCalls UInt8 :=
  ⟨some ⟨key, 1⟩, true, some sessionId, true, true⟩

/-- Its response to the request. -/
def smallResponse (key : UInt8) (sessionId : UInt64) : Resp :=
  let result := smallInit.1.buildResp smallLibrary 5 0x0A080002 1280 (smallCalls key sessionId)
    emptyKeys
  ⟨result.2.1, Vector.replicate 32 3, result.2.2⟩

/-- The one worker answers the request with this key and session id. -/
def answerRun (key : UInt8) (sessionId : UInt64) : List (Action UInt8 Unit) :=
  [.receive () smallRequest 2000 (some 0),
    .build () 0x0A080002 (smallCalls key sessionId) emptyKeys, .install ()]

/-- The request is duplicated on its way, the client accepts the response to one copy,
and the other one arrives. -/
def lateCopyRun : List (Action UInt8 Unit) :=
  [.attempt 3 .ok 1000, .duplicateInit smallRequest] ++ answerRun 4 77 ++
    [.deliver (smallResponse 4 77) .ok] ++ answerRun 6 78

/-- Both ends are done, with different keys. -/
def disagrees (st : State UInt8 Unit) : Bool :=
  match st.phase with
  | .accepted keys => decide (st.inits = [] ∧ st.worker () = .idle ∧
      st.sessionKeys.sendKey ≠ keys.recvKey)
  | _ => false

/-- **A late copy of a request** leaves the two ends with different keys. -/
theorem not_agreed : ¬∀ (as : List (Action UInt8 Unit)) (st : State UInt8 Unit),
    runs (step smallLibrary smallUser) (init smallUser ∅ emptyKeys) as = some st → Agreed st := by
  intro h
  have hrun : (runs (step smallLibrary smallUser) (init smallUser ∅ emptyKeys) lateCopyRun).map
      disagrees = some true := by
    decide +kernel
  obtain ⟨st, hst, hbad⟩ := Option.map_eq_some_iff.mp hrun
  have hagreed := h lateCopyRun st hst
  rw [disagrees] at hbad
  split at hbad
  · rename_i keys hphase
    obtain ⟨hinits, hidle, hne⟩ := of_decide_eq_true hbad
    exact hne (hagreed keys hphase hinits fun _ => hidle).1
  · exact absurd hbad (by decide)

/-- Both copies are answered, the first response is lost, and the client accepts the
second. -/
def lostResponseRun : List (Action UInt8 Unit) :=
  [.attempt 3 .ok 1000, .duplicateInit smallRequest] ++ answerRun 4 77 ++
    [.dropResp (smallResponse 4 77)] ++ answerRun 6 78 ++ [.deliver (smallResponse 6 78) .ok]

theorem agreed_lostResponseRun :
    ∃ st, runs (step smallLibrary smallUser) (init smallUser ∅ emptyKeys) lostResponseRun =
      some st ∧ st.phase.isAccepted = true ∧ Agreed st := by
  obtain ⟨st, hst, haccepted⟩ := Option.map_eq_some_iff.mp
    (show (runs (step smallLibrary smallUser) (init smallUser ∅ emptyKeys) lostResponseRun).map
      (fun st => st.phase.isAccepted) = some true by decide +kernel)
  exact ⟨st, hst, haccepted, agreed_of_meets smallLibrary smallUser smallLibrary_ideal ∅ emptyKeys
    lostResponseRun st (by decide +kernel) hst⟩

end Network

end Handshake

end Aegs
