import Aegs.Handshake.Eviction
import Aegs.Lib.Ownership

/-!
# The key objects of the handshake server

`m_pending_clients` owns the client keys that `process_init` imports: they are freed by
hand where an entry is pruned, evicted, replaced, answered, removed with its user, or left
when the server is destroyed. A number stands for an object here, not for its address in
memory, so that a new object is never one there was before.

One path breaks the ownership. `process_init` frees the key of the pending client it is
about to replace, and returns when the library does not make the new one: the entry stays
in the map with a key that is gone. So no run frees a key twice, uses one that is freed,
or keeps one in the map, exactly if no import fails over a pending client
(`Aegs.Handshake.KeyObjects.meets_owned_iff`).
-/

namespace Aegs

namespace Handshake

namespace KeyObjects

open Bytes Ownership Transition

/-! ### The system -/

/-- The server with the history of its key objects. -/
structure Objects where
  /-- The server. -/
  server : HandshakeServer
  /-- `m_static_pkey`, null when it could not be made. -/
  staticPkey : Option ℕ
  /-- History: the objects there have been. -/
  drawn : List ℕ
  /-- History: those of clients that `process_init` imported. -/
  imported : List ℕ
  /-- The destructor has run. -/
  destroyed : Bool

/-- A server with these users and this static key. -/
def Objects.start (masterKeys : AList fun _ : UInt64 => List UInt8) (staticPkey : Option ℕ) :
    Objects where
  server := .start masterKeys
  staticPkey := staticPkey
  drawn := staticPkey.toList
  imported := []
  destroyed := false

/-- The address of the key of a pending client. -/
def slot (s : HandshakeServer) (keyId : UInt64) : Option ℕ :=
  (s.pendingClients.lookup keyId).map fun state => state.clientEphemeralPkey.addr

/-- The keys of the pending clients. -/
def pendingPkeys (s : HandshakeServer) : List ℕ :=
  s.pendingClients.entries.map fun entry => entry.2.clientEphemeralPkey.addr

/-- `HandshakeServer::~HandshakeServer`. -/
def destroy (s : HandshakeServer) (staticPkey : Option ℕ) : HandshakeServer :=
  { s with
    freed := (pendingPkeys s).reverse ++ (staticPkey.toList ++ s.freed)
    seenOrder := []
    pendingOrder := []
    pendingClients := ∅ }

/-- A call on the server, or its end. -/
inductive Call (S : Type)
  /-- A public operation. -/
  | op (op : Op S)
  /-- The destructor. -/
  | destroy

section

variable {S : Type} (L : Library S)

/-- One call, with new objects for those that it makes. -/
def step (st : Objects) : Call S → Option Objects
  | .op (.processInit init now addr) =>
    if st.destroyed = false ∧ ∀ a ∈ addr, a ∉ st.drawn then
      let r := st.server.processInit L init now addr
      some { st with
        server := r.1
        drawn := addr.toList ++ st.drawn
        imported := if r.2.isSome then addr.toList ++ st.imported else st.imported }
    else none
  | .op (.buildResp keyId ip mtu calls out) =>
    if st.destroyed = false ∧ ∀ server ∈ calls.keygen, server.addr ∉ st.drawn then
      some { st with
        server := (st.server.buildResp L keyId ip mtu calls out).1
        drawn := (calls.keygen.map Generated.addr).toList ++ st.drawn }
    else none
  | .op (.addUser keyId masterKey) =>
    if st.destroyed = false then some { st with server := st.server.addUser keyId masterKey }
    else none
  | .op (.removeUser keyId) =>
    if st.destroyed = false then some { st with server := st.server.removeUser keyId } else none
  | .destroy =>
    if st.destroyed = false then
      some { st with
        server := KeyObjects.destroy st.server st.staticPkey
        destroyed := true }
    else none

/-! ### The property and the condition -/

/-- The objects that a call hands to the library, each with what has been freed by then:
`build_resp` derives the secret from its own key and the client's, frees the client's, and
takes its own public key. -/
def uses (s : HandshakeServer) : Call S → List (ℕ × List ℕ)
  | .op (.buildResp keyId _ _ calls _) =>
    match s.pendingClients.lookup keyId, s.masterKeys.lookup keyId, calls.keygen with
    | some state, some _, some server =>
      let client := state.clientEphemeralPkey
      let secret := ecdhDerive L calls.derive (some server.key) client.raw
      let derives := [(server.addr, s.freed), (client.addr, s.freed)]
      if secret.isEmpty ∨ calls.rand = none then derives
      else derives ++ [(server.addr, client.addr :: s.freed)]
    | _, _, _ => []
  | _ => []

/-- **The keys are in order**: those in the map are live, none has been freed twice, and an
imported one is in the map or has been freed – once, when the server is gone. -/
structure Sound (st : Objects) : Prop where
  /-- What is pending is imported and live. -/
  live : ∀ keyId state, st.server.pendingClients.lookup keyId = some state →
    state.clientEphemeralPkey.addr ∈ st.imported ∧
      state.clientEphemeralPkey.addr ∉ st.server.freed
  /-- Nothing is freed twice. -/
  once : st.server.freed.Nodup
  /-- No imported key is lost. -/
  held : ∀ a ∈ st.imported, a ∈ st.server.freed ∨
    ∃ keyId state, st.server.pendingClients.lookup keyId = some state ∧
      state.clientEphemeralPkey.addr = a
  /-- In the end each is freed once. -/
  ended : st.destroyed = true → ∀ a ∈ st.imported, st.server.freed.count a = 1

/-- **A call uses no key that has been freed, and leaves the keys in order.** -/
def Owned (st : Objects) (c : Call S) : Prop :=
  ∀ st', step L st c = some st' → (∀ u ∈ uses L st.server c, u.1 ∉ u.2) ∧ Sound st'

/-- **No import fails over a pending client**: where the library does not make the key of
an authentic request, its key id is not pending, after the prunings and the evictions. -/
def Replaces (st : Objects) : Call S → Prop
  | .op (.processInit init now none) =>
    authenticInit L (st.server.masterKeys.lookup (initPair init).keyId) init now = true →
      (st.server.enterSeen (initPair init) now).pendingClients.lookup (initPair init).keyId = none
  | _ => True

/-! ### What the calls do to the slots -/

variable {s s' : HandshakeServer} {keyId : UInt64}

theorem slot_eq_some {a : ℕ} : slot s keyId = some a ↔
    ∃ state, s.pendingClients.lookup keyId = some state ∧ state.clientEphemeralPkey.addr = a :=
  Option.map_eq_some_iff

theorem slot_of_erase (h : s'.pendingClients = s.pendingClients.erase keyId) :
    slot s' = Function.update (slot s) keyId none := by
  funext k
  rw [slot, h]
  by_cases hk : k = keyId
  · rw [hk, AList.lookup_erase, Function.update_self]
    rfl
  · rw [AList.lookup_erase_ne hk, Function.update_of_ne hk]
    rfl

theorem slot_of_insert {state : ClientState}
    (h : s'.pendingClients = s.pendingClients.insert keyId state) :
    slot s' = Function.update (slot s) keyId (some state.clientEphemeralPkey.addr) := by
  funext k
  rw [slot, h]
  by_cases hk : k = keyId
  · rw [hk, AList.lookup_insert, Function.update_self]
    rfl
  · rw [AList.lookup_insert_ne hk, Function.update_of_ne hk]
    rfl

theorem pruneTimestamps_freed (s : HandshakeServer) (now : UInt64) :
    (s.pruneTimestamps now).freed = s.freed := by
  have hloop : ∀ (order : List (HandshakeSeenKey × UInt64)) (s : HandshakeServer),
      (s.pruneSeenOrder now order).freed = s.freed := by
    intro order
    induction order with
    | nil => exact fun s => rfl
    | cons entry order ih =>
      intro s
      rw [HandshakeServer.pruneSeenOrder]
      split
      · exact ih _
      · rfl
  rw [HandshakeServer.pruneTimestamps]
  split
  · rfl
  · exact hloop _ _

theorem evictSeenOrder_freed (s : HandshakeServer) (order : List (HandshakeSeenKey × UInt64)) :
    (s.evictSeenOrder order).freed = s.freed := by
  induction order generalizing s with
  | nil => rfl
  | cons entry order ih =>
    rw [HandshakeServer.evictSeenOrder]
    split
    · exact ih _
    · rfl

/-- What a response frees: the client's key, and its own unless `RAND_bytes` fails. -/
theorem buildResp_freed {state : ClientState} (hstate : s.pendingClients.lookup keyId = some state)
    (ip : UInt32) (mtu : UInt16) (calls : RespCalls S) (out : SessionKeys) :
    (s.buildResp L keyId ip mtu calls out).1.freed =
        state.clientEphemeralPkey.addr :: s.freed ∨
      ∃ server, calls.keygen = some server ∧
        (s.buildResp L keyId ip mtu calls out).1.freed =
          server.addr :: state.clientEphemeralPkey.addr :: s.freed := by
  simp only [HandshakeServer.buildResp, hstate]
  split
  · exact Or.inl rfl
  · split
    · exact Or.inl rfl
    · rename_i server hserver
      split
      · exact Or.inr ⟨server, hserver, rfl⟩
      · split
        · exact Or.inl rfl
        · split <;> exact Or.inr ⟨server, hserver, rfl⟩

theorem buildResp_of_lookup_eq_none (hnone : s.pendingClients.lookup keyId = none) (ip : UInt32)
    (mtu : UInt16) (calls : RespCalls S) (out : SessionKeys) :
    (s.buildResp L keyId ip mtu calls out).1 = s := by
  simp only [HandshakeServer.buildResp, hnone]

/-! ### The ledger -/

/-- The slots own the imported keys, and no object is new that was there before. -/
structure Ledger (staticPkey : Option ℕ) (drawn imported : List ℕ) (s : HandshakeServer) :
    Prop where
  /-- The map owns the imported keys. -/
  owns : Owns imported s.freed (slot s)
  /-- What was freed was there. -/
  freedDrawn : ∀ a ∈ s.freed, a ∈ drawn
  /-- What was imported was there. -/
  importedDrawn : ∀ a ∈ imported, a ∈ drawn
  /-- The static key is live and nobody else's. -/
  static : ∀ a ∈ staticPkey, a ∈ drawn ∧ a ∉ s.freed ∧ a ∉ imported

variable {staticPkey : Option ℕ} {drawn imported : List ℕ}

/-- The seen set and the queues do not matter. -/
theorem Ledger.congr (h : Ledger staticPkey drawn imported s)
    (hpending : s'.pendingClients = s.pendingClients) (hfreed : s'.freed = s.freed) :
    Ledger staticPkey drawn imported s' where
  owns := by
    rw [hfreed, show slot s' = slot s from funext fun k => by rw [slot, slot, hpending]]
    exact h.owns
  freedDrawn := by
    rw [hfreed]
    exact h.freedDrawn
  importedDrawn := h.importedDrawn
  static := by
    rw [hfreed]
    exact h.static

/-- More objects there were. -/
theorem Ledger.draw (h : Ledger staticPkey drawn imported s) (new : List ℕ) :
    Ledger staticPkey (new ++ drawn) imported s where
  owns := h.owns
  freedDrawn := fun a ha => List.mem_append_right _ (h.freedDrawn a ha)
  importedDrawn := fun a ha => List.mem_append_right _ (h.importedDrawn a ha)
  static := fun a ha => ⟨List.mem_append_right _ (h.static a ha).1, (h.static a ha).2⟩

/-- **A pending client goes with its key.** -/
theorem Ledger.release (h : Ledger staticPkey drawn imported s) {state : ClientState}
    (hstate : s.pendingClients.lookup keyId = some state) (s' : HandshakeServer)
    (hpending : s'.pendingClients = s.pendingClients.erase keyId)
    (hfreed : s'.freed = state.clientEphemeralPkey.addr :: s.freed) :
    Ledger staticPkey drawn imported s' := by
  have hslot : slot s keyId = some state.clientEphemeralPkey.addr :=
    slot_eq_some.mpr ⟨state, hstate, rfl⟩
  have hknown := h.owns.known keyId _ hslot
  constructor
  · rw [hfreed, slot_of_erase hpending]
    exact h.owns.release hslot
  · rw [hfreed]
    intro a ha
    rcases List.mem_cons.mp ha with rfl | ha
    · exact h.importedDrawn _ hknown
    · exact h.freedDrawn a ha
  · exact h.importedDrawn
  · rw [hfreed]
    intro a ha
    obtain ⟨hdrawn, hlive, hforeign⟩ := h.static a ha
    refine ⟨hdrawn, fun hmem => ?_, hforeign⟩
    rcases List.mem_cons.mp hmem with rfl | hmem
    · exact hforeign hknown
    · exact hlive hmem

/-- A new object is freed at once. -/
theorem Ledger.free (h : Ledger staticPkey drawn imported s) {b : ℕ} (hnew : b ∉ drawn)
    (hpending : s'.pendingClients = s.pendingClients) (hfreed : s'.freed = b :: s.freed) :
    Ledger staticPkey (b :: drawn) imported s' where
  owns := by
    rw [hfreed, show slot s' = slot s from funext fun k => by rw [slot, slot, hpending]]
    exact h.owns.free (fun hb => hnew (h.importedDrawn b hb)) fun hb => hnew (h.freedDrawn b hb)
  freedDrawn := by
    rw [hfreed]
    intro a ha
    rcases List.mem_cons.mp ha with rfl | ha
    · exact List.mem_cons_self
    · exact List.mem_cons_of_mem b (h.freedDrawn a ha)
  importedDrawn := fun a ha => List.mem_cons_of_mem b (h.importedDrawn a ha)
  static := by
    rw [hfreed]
    intro a ha
    obtain ⟨hdrawn, hlive, hforeign⟩ := h.static a ha
    refine ⟨List.mem_cons_of_mem b hdrawn, fun hmem => ?_, hforeign⟩
    rcases List.mem_cons.mp hmem with rfl | hmem
    · exact hnew hdrawn
    · exact hlive hmem

/-- A new key is pending where none is. -/
theorem Ledger.put (h : Ledger staticPkey drawn imported s) (state : ClientState)
    (hnew : state.clientEphemeralPkey.addr ∉ drawn) (hslot : slot s keyId = none)
    (hpending : s'.pendingClients = s.pendingClients.insert keyId state)
    (hfreed : s'.freed = s.freed) :
    Ledger staticPkey (state.clientEphemeralPkey.addr :: drawn)
      (state.clientEphemeralPkey.addr :: imported) s' where
  owns := by
    rw [hfreed, slot_of_insert hpending]
    exact h.owns.put hslot (fun ha => hnew (h.importedDrawn _ ha))
      fun ha => hnew (h.freedDrawn _ ha)
  freedDrawn := by
    rw [hfreed]
    exact fun a ha => List.mem_cons_of_mem _ (h.freedDrawn a ha)
  importedDrawn := by
    intro a ha
    rcases List.mem_cons.mp ha with rfl | ha
    · exact List.mem_cons_self
    · exact List.mem_cons_of_mem _ (h.importedDrawn a ha)
  static := by
    rw [hfreed]
    intro a ha
    obtain ⟨hdrawn, hlive, hforeign⟩ := h.static a ha
    refine ⟨List.mem_cons_of_mem _ hdrawn, hlive, fun hmem => ?_⟩
    rcases List.mem_cons.mp hmem with rfl | hmem
    · exact hnew hdrawn
    · exact hforeign hmem

theorem Ledger.dropPending (h : Ledger staticPkey drawn imported s) (keyId : UInt64) :
    Ledger staticPkey drawn imported (s.dropPending keyId) := by
  cases hstate : s.pendingClients.lookup keyId with
  | none => simpa only [HandshakeServer.dropPending, hstate] using h
  | some state =>
    apply h.release hstate _ (dropPending_pendingClients s keyId)
    simp only [HandshakeServer.dropPending, hstate]

theorem Ledger.prunePendingOrder (h : Ledger staticPkey drawn imported s) (now : UInt64)
    (order : List (UInt64 × UInt64)) :
    Ledger staticPkey drawn imported (s.prunePendingOrder now order) := by
  induction order generalizing s with
  | nil => exact h.congr rfl rfl
  | cons entry order ih =>
    rw [HandshakeServer.prunePendingOrder]
    split
    · split
      · exact ih (h.dropPending entry.1)
      · exact ih h
    · exact h.congr rfl rfl

theorem Ledger.evictPendingOrder (h : Ledger staticPkey drawn imported s)
    (order : List (UInt64 × UInt64)) :
    Ledger staticPkey drawn imported (s.evictPendingOrder order) := by
  induction order generalizing s with
  | nil => exact h.congr rfl rfl
  | cons entry order ih =>
    rw [HandshakeServer.evictPendingOrder]
    split
    · exact ih (h.dropPending entry.1)
    · exact h.congr rfl rfl

/-- **Pruning and eviction** free what they take out of the map. -/
theorem Ledger.enterSeen (h : Ledger staticPkey drawn imported s) (key : HandshakeSeenKey)
    (now : UInt64) : Ledger staticPkey drawn imported (s.enterSeen key now) := by
  have htimes : Ledger staticPkey drawn imported (s.pruneTimestamps now) :=
    h.congr (Pruning.pruneTimestamps_pending now s).1 (pruneTimestamps_freed s now)
  have hpruned : Ledger staticPkey drawn imported ((s.pruneTimestamps now).prunePending now) :=
    htimes.prunePendingOrder now _
  have hevicted : Ledger staticPkey drawn imported
      ((s.pruneTimestamps now).prunePending now).evictPending :=
    hpruned.evictPendingOrder _
  have hroom : Ledger staticPkey drawn imported
      ((s.pruneTimestamps now).prunePending now).evictPending.evictSeen :=
    hevicted.congr (evictSeenOrder_pending _ _).1 (evictSeenOrder_freed _ _)
  simp only [HandshakeServer.enterSeen]
  split
  · exact hroom
  · exact hroom.congr rfl rfl

/-- **A request** whose key is made, or replaces none, keeps the ledger. -/
theorem Ledger.processInit (h : Ledger staticPkey drawn imported s) (init : List UInt8)
    (now : UInt64) {addr : Option ℕ} (hnew : ∀ a ∈ addr, a ∉ drawn)
    (hreplaces : addr = none →
      authenticInit L (s.masterKeys.lookup (initPair init).keyId) init now = true →
        (s.enterSeen (initPair init) now).pendingClients.lookup (initPair init).keyId = none) :
    Ledger staticPkey (addr.toList ++ drawn)
      (if (s.processInit L init now addr).2.isSome then addr.toList ++ imported else imported)
      (s.processInit L init now addr).1 := by
  rw [processInit_eq]
  split
  · rename_i hauth
    have hentered := h.enterSeen (initPair init) now
    cases hexisting : (s.enterSeen (initPair init) now).pendingClients.lookup
        (initPair init).keyId with
    | none =>
      have hfree : (s.enterSeen (initPair init) now).freeExisting (initPair init).keyId =
          s.enterSeen (initPair init) now := by
        simp only [HandshakeServer.freeExisting, hexisting]
      cases addr with
      | none =>
        simp only [HandshakeServer.setPending, hfree]
        exact hentered
      | some a =>
        have hslot : slot (s.enterSeen (initPair init) now) (initPair init).keyId = none := by
          rw [slot, hexisting]
          rfl
        simp only [HandshakeServer.setPending, hfree]
        exact hentered.put ⟨⟨a, copyOut init 16 32⟩, now⟩ (hnew a rfl) hslot rfl rfl
    | some existing =>
      cases addr with
      | none =>
        rw [hreplaces rfl hauth] at hexisting
        exact absurd hexisting.symm (Option.some_ne_none existing)
      | some a =>
        -- the old key goes with its entry, and the new one is pending where none is
        have hreleased := hentered.release hexisting
          { s.enterSeen (initPair init) now with
            pendingClients := (s.enterSeen (initPair init) now).pendingClients.erase
              (initPair init).keyId
            freed := existing.clientEphemeralPkey.addr ::
              (s.enterSeen (initPair init) now).freed } rfl rfl
        have hslot : slot { s.enterSeen (initPair init) now with
            pendingClients := (s.enterSeen (initPair init) now).pendingClients.erase
              (initPair init).keyId
            freed := existing.clientEphemeralPkey.addr ::
              (s.enterSeen (initPair init) now).freed } (initPair init).keyId = none := by
          rw [slot, AList.lookup_erase]
          rfl
        simp only [HandshakeServer.setPending, HandshakeServer.freeExisting, hexisting]
        exact hreleased.put ⟨⟨a, copyOut init 16 32⟩, now⟩ (hnew a rfl) hslot
          (StampedQueue.insert_erase _ _ _).symm rfl
  · exact h.draw _

/-- **A response** frees the client's key and, at most, its own. -/
theorem Ledger.buildResp (h : Ledger staticPkey drawn imported s) (keyId : UInt64) (ip : UInt32)
    (mtu : UInt16) {calls : RespCalls S} (hnew : ∀ server ∈ calls.keygen, server.addr ∉ drawn)
    (out : SessionKeys) :
    Ledger staticPkey ((calls.keygen.map Generated.addr).toList ++ drawn) imported
      (s.buildResp L keyId ip mtu calls out).1 := by
  cases hstate : s.pendingClients.lookup keyId with
  | none =>
    rw [buildResp_of_lookup_eq_none L hstate]
    exact h.draw _
  | some state =>
    have hpending := (buildResp_tables L s keyId ip mtu calls out).1
    rcases buildResp_freed L hstate ip mtu calls out with hfreed | ⟨server, hserver, hfreed⟩
    · exact (h.release hstate _ hpending hfreed).draw _
    · have hreleased := h.release hstate
        { s with
          pendingClients := s.pendingClients.erase keyId
          freed := state.clientEphemeralPkey.addr :: s.freed } rfl rfl
      rw [hserver]
      exact hreleased.free (hnew server hserver) hpending hfreed

/-- What a response hands to the library has not been freed. -/
theorem Ledger.uses (h : Ledger staticPkey drawn imported s) {ip : UInt32} {mtu : UInt16}
    {calls : RespCalls S} (hnew : ∀ server ∈ calls.keygen, server.addr ∉ drawn)
    {out : SessionKeys} :
    ∀ u ∈ uses L s (.op (.buildResp keyId ip mtu calls out)), u.1 ∉ u.2 := by
  simp only [KeyObjects.uses]
  split
  · rename_i state _ server hstate _ hserver
    have hslot := slot_eq_some.mpr ⟨state, hstate, rfl⟩
    have hown : server.addr ∉ s.freed :=
      fun hmem => hnew server hserver (h.freedDrawn _ hmem)
    have hclient : state.clientEphemeralPkey.addr ∉ s.freed := h.owns.live keyId _ hslot
    have hother : server.addr ≠ state.clientEphemeralPkey.addr := by
      intro heq
      exact hnew server hserver (heq ▸ h.importedDrawn _ (h.owns.known keyId _ hslot))
    have hderives : ∀ u ∈ [(server.addr, s.freed), (state.clientEphemeralPkey.addr, s.freed)],
        u.1 ∉ u.2 := by
      intro u hu
      rcases List.mem_cons.mp hu with rfl | hu
      · exact hown
      · rw [List.mem_singleton.mp hu]
        exact hclient
    split
    · exact hderives
    · intro u hu
      rcases List.mem_append.mp hu with hu | hu
      · exact hderives u hu
      · rw [List.mem_singleton.mp hu]
        intro hmem
        rcases List.mem_cons.mp hmem with heq | hmem
        · exact hother heq
        · exact hown hmem
  · exact fun u hu => absurd hu List.not_mem_nil

/-! ### The invariant -/

/-- The ledger while the server is there, and an empty map afterwards. -/
structure Inv (st : Objects) : Prop where
  /-- Before the end. -/
  running : st.destroyed = false → Ledger st.staticPkey st.drawn st.imported st.server
  /-- After it. -/
  ended : st.destroyed = true → st.server.pendingClients = ∅

/-- What the map owns is in order. -/
theorem sound_of_owns {st : Objects} (h : Owns st.imported st.server.freed (slot st.server))
    (hended : st.destroyed = true → ∀ a ∈ st.imported, st.server.freed.count a = 1) :
    Sound st where
  live := by
    intro keyId state hstate
    have hslot := slot_eq_some.mpr ⟨state, hstate, rfl⟩
    exact ⟨h.known keyId _ hslot, h.live keyId _ hslot⟩
  once := h.once
  held := by
    intro a ha
    rcases h.held a ha with hfreed | ⟨keyId, hslot⟩
    · exact Or.inl hfreed
    · exact Or.inr ⟨keyId, slot_eq_some.mp hslot⟩
  ended := hended

/-- A state of a server that is there. -/
theorem inv_of_ledger {st : Objects} {P : Prop}
    (h : Ledger st.staticPkey st.drawn st.imported st.server) (hrunning : st.destroyed = false)
    (hP : P) : Inv st ∧ P ∧ Sound st := by
  have hnot : st.destroyed ≠ true := by
    rw [hrunning]
    exact Bool.false_ne_true
  exact ⟨⟨fun _ => h, fun hend => absurd hend hnot⟩, hP,
    sound_of_owns h.owns fun hend => absurd hend hnot⟩

theorem Inv.start (masterKeys : AList fun _ : UInt64 => List UInt8) (staticPkey : Option ℕ) :
    Inv (.start masterKeys staticPkey) where
  running _ := by
    constructor
    · exact Owns.empty
    · exact fun _ h => absurd h List.not_mem_nil
    · exact fun _ h => absurd h List.not_mem_nil
    · exact fun a ha => ⟨Option.mem_toList.mpr ha, List.not_mem_nil, List.not_mem_nil⟩
  ended h := absurd h Bool.false_ne_true

/-! ### The end -/

theorem mem_pendingPkeys {a : ℕ} : a ∈ pendingPkeys s ↔ ∃ keyId, slot s keyId = some a := by
  rw [pendingPkeys, List.mem_map]
  constructor
  · rintro ⟨⟨keyId, state⟩, hmem, rfl⟩
    exact ⟨keyId, slot_eq_some.mpr ⟨state, AList.mem_lookup_iff.mpr hmem, rfl⟩⟩
  · rintro ⟨keyId, hslot⟩
    obtain ⟨state, hstate, rfl⟩ := slot_eq_some.mp hslot
    exact ⟨⟨keyId, state⟩, AList.mem_lookup_iff.mp hstate, rfl⟩

/-- No two pending clients have the same key. -/
theorem Ledger.nodup_pendingPkeys (h : Ledger staticPkey drawn imported s) :
    (pendingPkeys s).Nodup := by
  refine List.Nodup.map_on ?_ s.pendingClients.nodupKeys.nodup
  rintro ⟨k, state⟩ hmem ⟨k', state'⟩ hmem' heq
  have hstate := AList.mem_lookup_iff.mpr hmem
  have hstate' := AList.mem_lookup_iff.mpr hmem'
  obtain rfl := h.owns.unique k k' _ (slot_eq_some.mpr ⟨state, hstate, rfl⟩)
    (slot_eq_some.mpr ⟨state', hstate', heq.symm⟩)
  rw [Option.some.inj (hstate.symm.trans hstate')]

/-- **The destructor** frees every key that is left, once. -/
theorem Ledger.destroy (h : Ledger staticPkey drawn imported s) :
    Owns imported (KeyObjects.destroy s staticPkey).freed fun _ : UInt64 => none := by
  have hstatic : Owns imported (staticPkey.toList ++ s.freed) (slot s) := by
    cases staticPkey with
    | none => exact h.owns
    | some a => exact h.owns.free (h.static a rfl).2.2 (h.static a rfl).2.1
  exact hstatic.releaseAll (List.nodup_reverse.mpr h.nodup_pendingPkeys) fun a =>
    List.mem_reverse.trans mem_pendingPkeys

/-! ### Exactly when the keys stay in order -/

/-- **One call** that replaces no key it cannot import uses live keys only and leaves them
in order. -/
theorem Inv.step {st st' : Objects} {c : Call S} (h : Inv st) (hreplaces : Replaces L st c)
    (hstep : step L st c = some st') :
    Inv st' ∧ (∀ u ∈ KeyObjects.uses L st.server c, u.1 ∉ u.2) ∧ Sound st' := by
  cases c with
  | op o =>
    cases o with
    | processInit init now addr =>
      obtain ⟨⟨hrunning, hnew⟩, hst⟩ := Option.ite_none_right_eq_some.mp hstep
      obtain rfl := Option.some.inj hst
      have hledger := (h.running hrunning).processInit L init now hnew
        (by rintro rfl; exact hreplaces)
      exact inv_of_ledger hledger hrunning fun u hu => absurd hu List.not_mem_nil
    | buildResp keyId ip mtu calls out =>
      obtain ⟨⟨hrunning, hnew⟩, hst⟩ := Option.ite_none_right_eq_some.mp hstep
      obtain rfl := Option.some.inj hst
      have hledger := (h.running hrunning).buildResp L keyId ip mtu hnew out
      exact inv_of_ledger hledger hrunning ((h.running hrunning).uses L hnew)
    | addUser keyId masterKey =>
      obtain ⟨hrunning, hst⟩ := Option.ite_none_right_eq_some.mp hstep
      obtain rfl := Option.some.inj hst
      have hledger : Ledger st.staticPkey st.drawn st.imported
          (st.server.addUser keyId masterKey) :=
        (h.running hrunning).congr rfl rfl
      exact inv_of_ledger hledger hrunning fun u hu => absurd hu List.not_mem_nil
    | removeUser keyId =>
      obtain ⟨hrunning, hst⟩ := Option.ite_none_right_eq_some.mp hstep
      obtain rfl := Option.some.inj hst
      have hforgotten : Ledger st.staticPkey st.drawn st.imported
          { st.server with masterKeys := st.server.masterKeys.erase keyId } :=
        (h.running hrunning).congr rfl rfl
      exact inv_of_ledger (hforgotten.dropPending keyId) hrunning
        fun u hu => absurd hu List.not_mem_nil
  | destroy =>
    obtain ⟨hrunning, hst⟩ := Option.ite_none_right_eq_some.mp hstep
    obtain rfl := Option.some.inj hst
    have howns := (h.running hrunning).destroy
    refine ⟨⟨fun hfalse => absurd hfalse (by simp), fun _ => rfl⟩,
      fun u hu => absurd hu List.not_mem_nil, ?_⟩
    exact sound_of_owns howns fun _ a ha => howns.count_eq_one ha

/-- **One call** keeps the keys in order exactly if it replaces none that it cannot
import. -/
theorem owned_iff {st : Objects} (h : Inv st) (c : Call S) : Owned L st c ↔ Replaces L st c := by
  constructor
  · intro howned
    cases c with
    | destroy => trivial
    | op o =>
      cases o with
      | buildResp _ _ _ _ _ | addUser _ _ | removeUser _ => trivial
      | processInit init now addr =>
        cases addr with
        | some a => trivial
        | none =>
          intro hauth
          by_contra hsome
          obtain ⟨existing, hexisting⟩ := Option.ne_none_iff_exists'.mp hsome
          cases hdestroyed : st.destroyed with
          | true =>
            have hpending := (enterSeen_shrinks st.server now (initPair init)).pending _ _ hexisting
            rw [h.ended hdestroyed, AList.lookup_empty] at hpending
            exact absurd hpending.symm (Option.some_ne_none existing)
          | false =>
            have hsound := (howned _ (if_pos ⟨hdestroyed, fun _ ha => nomatch ha⟩)).2
            have hcall : (st.server.processInit L init now none).1 =
                (st.server.enterSeen (initPair init) now).freeExisting (initPair init).keyId := by
              rw [processInit_eq, if_pos hauth]
              rfl
            -- the key has been freed, and its entry is still there
            have hfreed : (st.server.processInit L init now none).1.freed =
                existing.clientEphemeralPkey.addr ::
                  (st.server.enterSeen (initPair init) now).freed := by
              rw [hcall]
              simp only [HandshakeServer.freeExisting, hexisting]
            have hstays : (st.server.processInit L init now none).1.pendingClients.lookup
                (initPair init).keyId = some existing := by
              rw [hcall]
              simp only [HandshakeServer.freeExisting, hexisting]
            have hlive := (hsound.live _ existing hstays).2
            exact hlive (hfreed ▸ List.mem_cons_self)
  · intro hreplaces st' hstep
    exact (h.step L hreplaces hstep).2

/-- **Ownership of the client keys**: in a run of calls, with any outcomes of the library
calls, the keys stay in order and no freed one is used, exactly if no import fails over a
pending client. -/
theorem meets_owned_iff (masterKeys : AList fun _ : UInt64 => List UInt8) (staticPkey : Option ℕ)
    (as : List (Call S)) :
    Meets (step L) (Owned L) (.start masterKeys staticPkey) as ↔
      Meets (step L) (Replaces L) (.start masterKeys staticPkey) as := by
  constructor
  · exact Meets.imp (fun h howned hstep => (h.step L ((owned_iff L h _).mp howned) hstep).1)
      (fun h => (owned_iff L h _).mp) (.start masterKeys staticPkey)
  · exact Meets.imp (fun h hreplaces hstep => (h.step L hreplaces hstep).1)
      (fun h => (owned_iff L h _).mpr) (.start masterKeys staticPkey)

end

/-- A client begins a handshake. -/
def beginCall : List (Call UInt8) :=
  [.op (.processInit (smallClient.buildInit smallLibrary .ok 1000) 1000 (some 1))]

/-- It begins again, and its second key is not made. -/
def failedCall : Call UInt8 :=
  .op (.processInit (smallClient.buildInit smallLibrary .ok 1000) 1000 none)

/-- **The key that was freed is still pending.** -/
theorem not_meets_owned :
    ¬∀ as : List (Call UInt8), Meets (step smallLibrary) (Owned smallLibrary)
      (.start smallServer.masterKeys (some 0)) as := by
  intro h
  have hrun : (runs (step smallLibrary) (.start smallServer.masterKeys (some 0))
      (beginCall ++ [failedCall])).any (fun st =>
        (slot st.server 5).any fun a => decide (a ∈ st.server.freed)) = true := by
    decide +kernel
  obtain ⟨st, hst, hslot⟩ := (Option.any_eq_true _ _).mp hrun
  obtain ⟨a, ha, hfreed⟩ := (Option.any_eq_true _ _).mp hslot
  obtain ⟨state, hstate, rfl⟩ := slot_eq_some.mp ha
  obtain ⟨before, hbefore, hlast⟩ := runs_snoc.mp hst
  have howned := ((h (beginCall ++ [failedCall])).of_append hbefore).1
  have hsound := (howned st hlast).2
  exact (hsound.live 5 state hstate).2 (of_decide_eq_true hfreed)

end KeyObjects

end Handshake

end Aegs
