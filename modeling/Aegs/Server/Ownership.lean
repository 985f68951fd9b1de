import Aegs.Lib.Lease
import Aegs.Lib.Transition
import Aegs.Handshake.Agreement
import Aegs.Server.Operations

/-!
# Who owns an address

A session's address stands in three places: in its routing snapshot, in the pool's
map of allocated addresses and in the route table. The three together are a book of
leases (`Aegs.Server.book`), and every operation of the server but one moves it as a
book may move: handshakes grant, the collector and revocations drop, and new sessions
come without an address.

The exception is a resume of a session that has no address. It enters the address of
its token for the session, in the routing and in the route table, and asks the pool
for nothing. The token outlives the lease it was issued for: a user who is revoked and
registered again keeps the master key, so the token still verifies, and its address is
free by then or somebody else's (`Aegs.Server.not_owned`). Without such a resume the
book is sound in every state reached (`Aegs.Server.owned_of_meets`).
-/

namespace Aegs

namespace Server

open Bytes Handshake Lease Transition

/-- **Every address has one owner**: it is allocated, nobody else has it, and the route
table has its session. -/
structure Owned (st : State) : Prop where
  /-- The address of a session is marked in the pool. -/
  allocated : ∀ keyId p, st.sessions.findByKeyId keyId = some p →
    st.sessions.assignedIp p ≠ 0 → st.pool.IsAllocated (st.sessions.assignedIp p)
  /-- Two sessions have different addresses. -/
  unique : ∀ keyId keyId' p p', st.sessions.findByKeyId keyId = some p →
    st.sessions.findByKeyId keyId' = some p' → keyId ≠ keyId' →
    st.sessions.assignedIp p ≠ 0 → st.sessions.assignedIp p ≠ st.sessions.assignedIp p'
  /-- The route table has the session of an address. -/
  routed : ∀ keyId p, st.sessions.findByKeyId keyId = some p → st.sessions.assignedIp p ≠ 0 →
    st.sessions.findByAssignedIp (st.sessions.assignedIp p) = some p

/-- The book of leases of a pool and a session table. -/
def book (pool : IpPool) (t : SessionTable) : Book ℕ UInt32 where
  held p ip := (∃ keyId, t.findByKeyId keyId = some p) ∧ t.assignedIp p = ip ∧ ip ≠ 0
  granted := pool.IsAllocated
  owner ip p := t.routes.lookup ip = some p

/-- What holds between the operations. -/
structure Ownership (pool : IpPool) (t : SessionTable) : Prop where
  /-- The pool gives nothing out twice. -/
  exclusive : pool.Exclusive
  /-- Sessions were made before the next one. -/
  fresh : ∀ keyId p, t.findByKeyId keyId = some p → p < t.next
  /-- A session has one key id. -/
  distinct : ∀ keyId keyId' p, t.findByKeyId keyId = some p → t.findByKeyId keyId' = some p →
    keyId = keyId'
  /-- What has an address is a session of the table. -/
  listed : ∀ p, t.assignedIp p ≠ 0 → ∃ keyId, t.findByKeyId keyId = some p
  /-- The three places of an address agree. -/
  sound : (book pool t).Sound

theorem Ownership.owned {st : State} (h : Ownership st.pool st.sessions) : Owned st := by
  have hheld : ∀ keyId p, st.sessions.findByKeyId keyId = some p → st.sessions.assignedIp p ≠ 0 →
      (book st.pool st.sessions).held p (st.sessions.assignedIp p) := fun keyId p hp hip =>
    ⟨⟨keyId, hp⟩, rfl, hip⟩
  refine ⟨fun keyId p hp hip => h.sound.granted p _ (hheld keyId p hp hip),
    fun keyId keyId' p p' hp hp' hne hip heq => ?_, fun keyId p hp hip => ?_⟩
  · have hsame := h.sound.eq_of_held (hheld keyId p hp hip)
      (heq ▸ hheld keyId' p' hp' (heq ▸ hip))
    exact hne (h.distinct keyId keyId' p hp (hsame ▸ hp'))
  · rw [SessionTable.findByAssignedIp, if_neg hip]
    exact (h.sound.owner p _ (hheld keyId p hp hip) p).mpr rfl

/-! ### Tables that hold the same addresses, one more or one less -/

section

variable {pool pool' : IpPool} {t t' : SessionTable}

/-- The book depends on the key index, the addresses and what the route table says. -/
theorem Ownership.congr (h : Ownership pool t) (hkeys : t'.byKeyId = t.byKeyId)
    (hnext : t'.next = t.next) (hroutes : ∀ ip, t'.routes.lookup ip = t.routes.lookup ip)
    (hips : ∀ q, t'.assignedIp q = t.assignedIp q) : Ownership pool t' := by
  have hfind : ∀ keyId, t'.findByKeyId keyId = t.findByKeyId keyId := fun keyId => by
    rw [SessionTable.findByKeyId, hkeys, SessionTable.findByKeyId]
  have hbook : book pool t' = book pool t := by
    simp only [book, hfind, hips, hroutes]
  exact ⟨h.exclusive, fun keyId p hp => hnext ▸ h.fresh keyId p (hfind keyId ▸ hp),
    fun keyId keyId' p hp hp' => h.distinct keyId keyId' p (hfind keyId ▸ hp) (hfind keyId' ▸ hp'),
    fun p hp => (h.listed p (hips p ▸ hp)).imp fun keyId hk => (hfind keyId).trans hk,
    hbook ▸ h.sound⟩

/-- A session gets an address from the pool. -/
theorem Ownership.grant (h : Ownership pool t) {keyId : UInt64} {p : ℕ} {ip : UInt32}
    (hp : t.findByKeyId keyId = some p) (halloc : pool.allocate = (pool', some ip))
    (hkeys : t'.byKeyId = t.byKeyId) (hnext : t'.next = t.next)
    (hroutes : t'.routes = t.routes.insert ip p) (hip : t'.assignedIp p = ip)
    (hips : ∀ q, q ≠ p → t'.assignedIp q = t.assignedIp q) : Ownership pool' t' := by
  obtain ⟨hexclusive, hnew, hallocated⟩ := IpPool.allocate_eq_some h.exclusive halloc
  have hzero : ip ≠ 0 := IpPool.ne_zero_of_allocate h.exclusive halloc
  have hfind : ∀ keyId, t'.findByKeyId keyId = t.findByKeyId keyId := fun keyId => by
    rw [SessionTable.findByKeyId, hkeys, SessionTable.findByKeyId]
  have hbook : book pool' t' = (book pool t).grant p ip := by
    apply Book.ext
    · funext q j
      by_cases hq : q = p
      · subst hq
        simp only [book, Book.grant, hfind, eq_iff_iff]
        constructor
        · rintro ⟨-, hj, -⟩
          exact Or.inl ⟨trivial, hj.symm.trans hip⟩
        · rintro (⟨-, rfl⟩ | ⟨hne, -⟩)
          · exact ⟨⟨keyId, hp⟩, hip, hzero⟩
          · exact absurd rfl hne
      · simp [book, Book.grant, hfind, hips q hq, hq]
    · funext j
      exact propext (hallocated j)
    · funext j q
      rcases eq_or_ne j ip with rfl | hj
      · simp [book, Book.grant, hroutes, eq_comm]
      · simp [book, Book.grant, hroutes, hj, AList.lookup_insert_ne]
  refine ⟨hexclusive, fun keyId p hp => hnext ▸ h.fresh keyId p (hfind keyId ▸ hp),
    fun keyId keyId' p hp hp' => h.distinct keyId keyId' p (hfind keyId ▸ hp) (hfind keyId' ▸ hp'),
    fun q hq => ?_, hbook ▸ h.sound.grant p hnew⟩
  rcases eq_or_ne q p with rfl | hne
  · exact ⟨keyId, (hfind keyId).trans hp⟩
  · exact (h.listed q (hips q hne ▸ hq)).imp fun k hk => (hfind k).trans hk

/-- A session's address, if it has one, goes back to the pool, and its route goes. The
session stays without an address, or is gone. -/
theorem Ownership.drop (h : Ownership pool t) {keyId : UInt64} {p : ℕ}
    (hp : t.findByKeyId keyId = some p) (hnext : t'.next = t.next)
    (hfind : ∀ keyId q, t'.findByKeyId keyId = some q → t.findByKeyId keyId = some q)
    (hkept : ∀ keyId q, q ≠ p → t.findByKeyId keyId = some q → t'.findByKeyId keyId = some q)
    (hroutes : t'.routes = (t.unmapIp (t.assignedIp p)).routes) (hip : t'.assignedIp p = 0)
    (hips : ∀ q, q ≠ p → t'.assignedIp q = t.assignedIp q)
    (hpool : pool' = if t.assignedIp p ≠ 0 then pool.release (t.assignedIp p) else pool) :
    Ownership pool' t' := by
  have hheld : ∀ ip, (book pool t).held p ip ↔ t.assignedIp p = ip ∧ ip ≠ 0 := fun ip =>
    ⟨fun hip => hip.2, fun hip => ⟨⟨keyId, hp⟩, hip⟩⟩
  have hbook : book pool' t' = (book pool t).drop p := by
    apply Book.ext
    · funext q j
      by_cases hq : q = p
      · subst hq
        simp only [book, Book.drop, hip, ne_eq, not_true_eq_false, false_and, eq_iff_iff, iff_false]
        rintro ⟨-, rfl, hj⟩
        exact hj rfl
      · simp only [book, Book.drop, hips q hq, ne_eq, hq, not_false_eq_true, true_and, eq_iff_iff]
        exact and_congr_left fun _ =>
          ⟨fun h => h.imp fun k hk => hfind k q hk, fun h => h.imp fun k hk => hkept k q hq hk⟩
    · funext j
      change pool'.IsAllocated j = (pool.IsAllocated j ∧ ¬(book pool t).held p j)
      rw [hheld, hpool, eq_iff_iff]
      split
      · rename_i hne
        rw [IpPool.isAllocated_release]
        constructor
        · rintro ⟨hj, hall⟩
          exact ⟨hall, fun hheld => hj hheld.1.symm⟩
        · rintro ⟨hall, hj⟩
          refine ⟨?_, hall⟩
          rintro rfl
          exact hj ⟨rfl, hne⟩
      · rename_i hzero
        rw [not_not] at hzero
        constructor
        · intro hall
          exact ⟨hall, fun hheld => hheld.2 (hheld.1.symm.trans hzero)⟩
        · exact And.left
    · funext j q
      change (t'.routes.lookup j = some q) =
        (t.routes.lookup j = some q ∧ ¬(book pool t).held p j)
      rw [hheld, hroutes, SessionTable.unmapIp, eq_iff_iff]
      split
      · rename_i hzero
        constructor
        · intro hj
          exact ⟨hj, fun hheld => hheld.2 (hheld.1.symm.trans hzero)⟩
        · exact And.left
      · rename_i hne
        rcases eq_or_ne j (t.assignedIp p) with rfl | hj
        · simp [hne]
        · simp [AList.lookup_erase_ne hj, hj.symm]
  have hexclusive : pool'.Exclusive := by
    rw [hpool]
    split
    · exact h.exclusive.release _
    · exact h.exclusive
  refine ⟨hexclusive, fun keyId q hq => hnext ▸ h.fresh keyId q (hfind keyId q hq),
    fun keyId keyId' q hq hq' => h.distinct keyId keyId' q (hfind keyId q hq) (hfind keyId' q hq'),
    fun q hq => ?_, hbook ▸ h.sound.drop p⟩
  have hne : q ≠ p := fun hsame => hq (hsame ▸ hip)
  exact (h.listed q (hips q hne ▸ hq)).imp fun k hk => hkept k q hne hk

/-- A new session comes without an address. -/
theorem Ownership.insertSession (h : Ownership pool t) {s : Session}
    (hnone : t.findByKeyId s.identity.keyIdRaw = none) (hip : s.routing.assignedIp = 0) :
    Ownership pool (t.insertSession s) := by
  have hold : ∀ keyId, keyId ≠ s.identity.keyIdRaw →
      (t.insertSession s).findByKeyId keyId = t.findByKeyId keyId := fun keyId hne => by
    rw [SessionTable.findByKeyId_insertSession, if_neg hne]
  have hcases := fun keyId q => t.findByKeyId_of_insertSession s keyId q
  have hips : ∀ q, q ≠ t.next → (t.insertSession s).assignedIp q = t.assignedIp q := fun q hq => by
    simp [SessionTable.assignedIp, SessionTable.insertSession, hq]
  have hnext : (t.insertSession s).assignedIp t.next = 0 := by
    simp [SessionTable.assignedIp, SessionTable.insertSession, hip]
  have hbook : book pool (t.insertSession s) = book pool t := by
    apply Book.ext
    · funext q j
      simp only [book, eq_iff_iff]
      constructor
      · rintro ⟨⟨keyId, hq⟩, hj, hne⟩
        rcases hcases keyId q hq with ⟨-, rfl⟩ | hq
        · exact absurd (hj.symm.trans hnext) hne
        · exact ⟨⟨keyId, hq⟩, hips q (h.fresh keyId q hq).ne ▸ hj, hne⟩
      · rintro ⟨⟨keyId, hq⟩, hj, hne⟩
        refine ⟨⟨keyId, ?_⟩, (hips q (h.fresh keyId q hq).ne).trans hj, hne⟩
        have hkey : keyId ≠ s.identity.keyIdRaw := by
          rintro rfl
          exact absurd (hnone.symm.trans hq) (by simp)
        exact (hold keyId hkey).trans hq
    · rfl
    · rfl
  refine ⟨h.exclusive, fun keyId q hq => ?_, fun keyId keyId' q hq hq' => ?_, fun q hq => ?_,
    hbook ▸ h.sound⟩
  · have hlt : q ≤ t.next := by
      rcases hcases keyId q hq with ⟨-, rfl⟩ | hq
      · exact le_rfl
      · exact (h.fresh keyId q hq).le
    exact Nat.lt_succ_of_le hlt
  · rcases hcases keyId q hq with ⟨rfl, rfl⟩ | hq
    · rcases hcases keyId' t.next hq' with ⟨rfl, -⟩ | hq'
      · rfl
      · exact absurd (h.fresh keyId' _ hq') (lt_irrefl _)
    · rcases hcases keyId' q hq' with ⟨rfl, rfl⟩ | hq'
      · exact absurd (h.fresh keyId _ hq) (lt_irrefl _)
      · exact h.distinct keyId keyId' q hq hq'
  · have hne : q ≠ t.next := fun hsame => hq (hsame ▸ hnext)
    obtain ⟨keyId, hk⟩ := h.listed q (hips q hne ▸ hq)
    refine ⟨keyId, (hold keyId ?_).trans hk⟩
    rintro rfl
    exact absurd (hnone.symm.trans hk) (by simp)

end

/-! ### The operations -/

section

variable {S : Type} (L : Library S) (T : TokenCipher) (D : KeyDerivation)

/-- The book of leases of the server is sound. -/
def State.Books (st : State) : Prop := Ownership st.pool st.sessions

/-- The address of a handshake is the one its session has, or comes from the pool and
has a route already. -/
theorem assignIp_eq_some {st st' : State} {p : ℕ} {ip : UInt32}
    (h : st.assignIp p = some (st', ip)) :
    (st' = st ∧ ip = st.sessions.assignedIp p) ∨ ∃ pool, st.pool.allocate = (pool, some ip) ∧
      st' = { st with pool := pool, sessions := st.sessions.mapIp ip p } := by
  rw [State.assignIp] at h
  split at h
  · obtain ⟨rfl, rfl⟩ := Prod.mk.inj (Option.some.inj h)
    exact Or.inl ⟨rfl, rfl⟩
  · split at h
    · exact absurd h (by simp)
    · rename_i pool ip' halloc
      obtain ⟨rfl, rfl⟩ := Prod.mk.inj (Option.some.inj h)
      exact Or.inr ⟨pool, halloc, rfl⟩

/-- Storing a session, and its endpoint. -/
theorem assignedIp_store (t : SessionTable) (p q : ℕ) (s : Session) (key : UInt64) :
    ((t.setSession p s).updateEndpoint key p).assignedIp q =
      if q = p then s.routing.assignedIp else t.assignedIp q := by
  by_cases hq : q = p
  · simp [SessionTable.assignedIp, SessionTable.updateEndpoint, SessionTable.setSession, hq]
  · simp [SessionTable.assignedIp, SessionTable.updateEndpoint, SessionTable.setSession, hq]

/-- What a handshake installs changes one address. -/
theorem assignedIp_install (st : State) (keyId : UInt64) (orig p q : ℕ) (ip : UInt32)
    (d : Datagram) (calls : HandshakeCalls S) :
    (st.install L T keyId orig p ip d calls).1.sessions.assignedIp q =
      if q = p then ip else st.sessions.assignedIp q :=
  assignedIp_store st.sessions p q _ _

/-- **A handshake** keeps the address of its session or takes one from the pool. -/
theorem handshake_books {st : State} (h : st.Books) (d : Datagram) (calls : HandshakeCalls S) :
    (st.handshake L T d calls).1.Books := by
  rw [State.handshake]
  split
  · exact h
  · rename_i hs keyId hinit
    simp only
    split
    · exact h
    · rename_i orig horig
      obtain ⟨keyId', hp⟩ := @chooseSlot_mem { st with hs := hs } keyId orig d.caddr d.now horig
      split
      · exact h
      · rename_i st' ip hassign
        generalize State.chooseSlot { st with hs := hs } keyId orig d.caddr d.now = p at *
        rcases assignIp_eq_some hassign with ⟨rfl, rfl⟩ | ⟨pool, halloc, rfl⟩
        · refine h.congr rfl rfl (fun _ => rfl) fun q => ?_
          rw [assignedIp_install]
          split
          · rename_i hq
            rw [hq]
          · rfl
        · have hne : ip ≠ 0 := IpPool.ne_zero_of_allocate h.exclusive halloc
          have hmap : st.sessions.mapIp ip p =
              { st.sessions with routes := st.sessions.routes.insert ip p } := if_neg hne
          simp only [hmap]
          refine h.grant hp halloc rfl rfl rfl ?_ fun q hq => ?_
          · rw [assignedIp_install, if_pos rfl]
          · rw [assignedIp_install, if_neg hq]
            rfl

/-- `verify` touches neither the pool nor the sessions. -/
theorem verifyToken_eq (st : State) (tok : ResumptionToken) (calls : ResumeCalls) :
    (st.verifyToken L T tok calls).1.pool = st.pool ∧
      (st.verifyToken L T tok calls).1.sessions = st.sessions ∧
      ∀ p sessionId ip, (st.verifyToken L T tok calls).2 = some (p, sessionId, ip) →
        st.sessions.findByKeyId (ofLe64 tok.keyId) = some p := by
  rw [State.verifyToken]
  split
  · exact ⟨rfl, rfl, fun _ _ _ h => absurd h (by simp)⟩
  · rename_i p hp
    refine ⟨rfl, rfl, fun p' sessionId ip hpayload => ?_⟩
    obtain ⟨r, -, hr⟩ := Option.map_eq_some_iff.mp hpayload
    exact (Prod.mk.inj hr).1 ▸ hp

/-- **A resume** of a session that has an address, or with a token that names none,
leaves every address where it is. -/
theorem resume_books {st : State} (h : st.Books) {keyId : UInt64} {p : ℕ} {ip : UInt32}
    (hp : st.sessions.findByKeyId keyId = some p) (hip : st.sessions.assignedIp p ≠ 0 ∨ ip = 0)
    (sessionId : UInt64) (recvKey sendKey : Vector UInt8 32) (d : Datagram) (calls : ResumeCalls) :
    (st.resume L T p sessionId ip recvKey sendKey d calls).1.Books := by
  have hsame : st.sessions.resumedIp p ip = st.sessions.assignedIp p := by
    rw [SessionTable.resumedIp]
    split
    · rfl
    · rename_i hzero
      rw [not_not] at hzero
      rw [hzero, hip.resolve_left (not_not.mpr hzero)]
  have hips : ∀ q, (st.resume L T p sessionId ip recvKey sendKey d calls).1.sessions.assignedIp q =
      st.sessions.assignedIp q := by
    intro q
    have hstore := assignedIp_store st.sessions p q ((st.sessions.heap p).resume sessionId recvKey
      sendKey (st.sessions.resumedIp p ip) d) (makeEndpointKey d.caddr)
    simp only [State.resume, SessionTable.mapIp]
    split
    all_goals
      refine hstore.trans ?_
      split
      · rename_i hq
        rw [hq]
        exact hsame
      · rfl
  refine h.congr ?_ ?_ (fun j => ?_) hips
  · simp only [State.resume, SessionTable.mapIp]
    split <;> rfl
  · simp only [State.resume, SessionTable.mapIp]
    split <;> rfl
  · simp only [State.resume, SessionTable.mapIp, hsame]
    split
    · rfl
    · rename_i hne
      rcases eq_or_ne j (st.sessions.assignedIp p) with rfl | hj
      · have hroute := (h.sound.owner p _ ⟨⟨keyId, hp⟩, rfl, hne⟩ p).mpr rfl
        exact (AList.lookup_insert _).trans hroute.symm
      · exact AList.lookup_insert_ne hj

/-- An idle session gives its address back. -/
theorem cleanupSession_books {st : State} (h : st.Books) (now : ℤ) {keyId : UInt64} {p : ℕ}
    (hp : st.sessions.findByKeyId keyId = some p) : (st.cleanupSession now p).Books := by
  have hidle : ∀ q, (st.sessions.setSession p (st.sessions.heap p).idle).assignedIp q =
      if q = p then 0 else st.sessions.assignedIp q :=
    fun q => assignedIp_store st.sessions p q _ 0
  have hroutes := SessionTable.routes_unmapIp
  rw [State.cleanupSession]
  split
  · simp only
    split
    · rename_i hne
      refine h.drop hp (by simp [SessionTable.setSession]) ?_ ?_ ?_ ?_ ?_ (if_pos hne).symm
      · intro keyId q hq
        simpa [SessionTable.findByKeyId, SessionTable.setSession] using hq
      · intro keyId q _ hq
        simpa [SessionTable.findByKeyId, SessionTable.setSession] using hq
      · rw [hroutes, hroutes]
        rfl
      · rw [SessionTable.assignedIp, SessionTable.heap_unmapIp]
        exact (hidle p).trans (if_pos rfl)
      · intro q hq
        rw [SessionTable.assignedIp, SessionTable.heap_unmapIp]
        exact (hidle q).trans (if_neg hq)
    · rename_i hzero
      refine h.drop hp rfl (fun _ _ hq => hq) (fun _ _ _ hq => hq) ?_
        ((hidle p).trans (if_pos rfl)) (fun q hq => (hidle q).trans (if_neg hq))
        (if_neg hzero).symm
      rw [hroutes, if_pos (show st.sessions.assignedIp p = 0 from not_not.mp hzero)]
      rfl
  · exact h

/-- The collector leaves the key index alone. -/
theorem byKeyId_cleanupSession (st : State) (now : ℤ) (p : ℕ) :
    (st.cleanupSession now p).sessions.byKeyId = st.sessions.byKeyId := by
  rw [State.cleanupSession]
  split
  · simp only
    split
    · exact SessionTable.byKeyId_unmapIp _ _
    · rfl
  · rfl

/-- **The collector** gives addresses back. -/
theorem cleanupMaps_books {st : State} (h : st.Books) (now : ℤ) {order : List ℕ}
    (horder : ∀ p ∈ order, ∃ keyId, st.sessions.findByKeyId keyId = some p) :
    (st.cleanupMaps now order).Books := by
  rw [State.cleanupMaps]
  split
  · exact h
  · have hstep : ∀ st' : State, st'.Books ∧ st'.sessions.byKeyId = st.sessions.byKeyId →
        ∀ p ∈ order, (st'.cleanupSession now p).Books ∧
          (st'.cleanupSession now p).sessions.byKeyId = st.sessions.byKeyId := by
      rintro st' ⟨h', hkeys⟩ p hp
      obtain ⟨keyId, hfind⟩ := horder p hp
      have hfind' : st'.sessions.findByKeyId keyId = some p := by
        rw [SessionTable.findByKeyId, hkeys]
        exact hfind
      exact ⟨cleanupSession_books h' now hfind', (byKeyId_cleanupSession st' now p).trans hkeys⟩
    have hstart : ({ st with
        lastCleanup := now
        sessions := st.sessions.cleanupIdleEndpoints now 600000 } : State).Books :=
      h.congr rfl rfl (fun _ => rfl) fun _ => rfl
    exact (List.foldlRecOn
      (motive := fun st' : State => st'.Books ∧ st'.sessions.byKeyId = st.sessions.byKeyId)
      order (fun st p => st.cleanupSession now p) ⟨hstart, rfl⟩ hstep).1

/-- A device that is registered comes without an address. -/
theorem registerDevice_books {st : State} (h : st.Books) (now : ℤ) (token customKidHex : String) :
    (st.registerDevice L D now token customKidHex).1.Books := by
  simp only [State.registerDevice]
  split
  · exact h
  · rename_i hnone
    split
    · exact h
    · exact h.insertSession hnone rfl

/-- The rows that are new. -/
theorem registerUsers_books {st : State} (h : st.Books) (now : ℤ) (rows : List (String × String)) :
    (st.registerUsers L D now rows).Books :=
  registerUsers_rec L D (P := State.Books)
    (fun h now token kidHex => registerDevice_books L D h now token kidHex)
    (fun h _ _ _ _ => h) h now rows

/-- A revoked slot gives its address back, and its session goes. -/
theorem revokeSlot_books {st : State} (h : st.Books) (keyId : UInt64) :
    (st.revokeSlot keyId).Books := by
  rcases hfind : st.sessions.findByKeyId keyId with _ | p
  · have hremove : st.sessions.removeSession keyId = st.sessions := by
      rw [SessionTable.removeSession, hfind]
    have hpool : (st.revokeSlot keyId).pool = st.pool := by simp [State.revokeSlot, hfind]
    rw [State.Books, hpool, State.revokeSlot, hremove]
    exact h
  · obtain ⟨hnext, hkeys, hroutes, hip, hips⟩ := st.sessions.removeSession_eq hfind
    refine h.drop hfind hnext (fun k q hq => ?_) (fun k q hq hk => ?_) hroutes hip hips ?_
    · rw [SessionTable.findByKeyId, State.revokeSlot, hkeys] at hq
      rcases eq_or_ne k keyId with rfl | hne
      · exact absurd ((AList.lookup_erase _ _).symm.trans hq) (by simp)
      · exact (AList.lookup_erase_ne hne).symm.trans hq
    · have hne : k ≠ keyId := by
        rintro rfl
        exact hq (Option.some.inj (hk.symm.trans hfind))
      rw [SessionTable.findByKeyId, State.revokeSlot, hkeys]
      exact (AList.lookup_erase_ne hne).trans hk
    · simp [State.revokeSlot, hfind]

/-- A revoked user gives the addresses of all slots back. -/
theorem revokeUser_books {st : State} (h : st.Books) (token : String) :
    (st.revokeUser token).Books :=
  revokeUser_rec (P := State.Books) (fun h keyId => revokeSlot_books h keyId) (fun h _ => h)
    (fun h _ => h) h token

/-! ### Runs -/

/-- What a resume finds: a session that has an address, or a token that names none or is
rejected. -/
def State.findsAddress (st : State) (tok : ResumptionToken) (calls : ResumeCalls) : Bool :=
  match (st.verifyToken L T tok calls).2 with
  | none => true
  | some (p, _, ip) => decide (st.sessions.assignedIp p ≠ 0 ∨ ip = 0)

/-- **No address comes from a token**: every accepted resume finds its session with an
address, or its token names none. -/
def noAddressFromToken (st : State) : Operation S → Bool
  | .fastResume d calls _ => st.findsAddress L T (.read d.data 1) calls
  | .pfsResume d calls pfs =>
    (pfsSecret L (copyOut d.data 97 32) pfs).isNone || st.findsAddress L T (.read d.data 1) calls
  | _ => true

/-- What an accepted token leads to: the same pool and sessions, and a session of the
table that has an address unless the token names none. -/
theorem verifyToken_books {st st' : State} (h : st.Books) {tok : ResumptionToken}
    {calls : ResumeCalls} (hok : st.findsAddress L T tok calls = true) {p : ℕ} {sessionId : UInt64}
    {ip : UInt32} (hverify : st.verifyToken L T tok calls = (st', some (p, sessionId, ip))) :
    st'.Books ∧ (∃ keyId, st'.sessions.findByKeyId keyId = some p) ∧
      (st'.sessions.assignedIp p ≠ 0 ∨ ip = 0) := by
  obtain ⟨hpool, hsessions, hfind⟩ := verifyToken_eq L T st tok calls
  rw [hverify] at hpool hsessions hfind
  simp only [State.findsAddress, hverify, decide_eq_true_eq] at hok
  rw [State.Books, hpool, hsessions]
  exact ⟨h, ⟨_, hfind p sessionId ip rfl⟩, hok⟩

/-- A token that is rejected changes neither the pool nor the sessions. -/
theorem verifyToken_none {st st' : State} (h : st.Books) {tok : ResumptionToken}
    {calls : ResumeCalls} (hverify : st.verifyToken L T tok calls = (st', none)) : st'.Books := by
  obtain ⟨hpool, hsessions, -⟩ := verifyToken_eq L T st tok calls
  rw [hverify] at hpool hsessions
  rwa [State.Books, hpool, hsessions]

theorem fastResume_books {st : State} (h : st.Books) {d : Datagram} {calls : ResumeCalls}
    {expand : ExpandCalls} (hok : st.findsAddress L T (.read d.data 1) calls = true) :
    (st.fastResume L T d calls expand).1.Books := by
  rw [State.fastResume]
  rcases hverify : st.verifyToken L T (.read d.data 1) calls with ⟨st', _ | ⟨p, sessionId, ip⟩⟩
  · exact verifyToken_none L T h hverify
  · obtain ⟨h', ⟨keyId, hp⟩, hip⟩ := verifyToken_books L T h hok hverify
    exact resume_books L T h' hp hip sessionId _ _ d calls

theorem pfsResume_books {st : State} (h : st.Books) {d : Datagram} {calls : ResumeCalls}
    {pfs : PfsCalls S} (hok : (pfsSecret L (copyOut d.data 97 32) pfs).isNone = true ∨
      st.findsAddress L T (.read d.data 1) calls = true) :
    (st.pfsResume L T d calls pfs).1.Books := by
  rw [State.pfsResume]
  rcases hverify : st.verifyToken L T (.read d.data 1) calls with ⟨st', _ | ⟨p, sessionId, ip⟩⟩
  · exact verifyToken_none L T h hverify
  · simp only
    split
    · obtain ⟨hpool, hsessions, -⟩ := verifyToken_eq L T st (.read d.data 1) calls
      rw [hverify] at hpool hsessions
      rwa [State.Books, hpool, hsessions]
    · rename_i pub secret hsecret
      rw [hsecret] at hok
      obtain ⟨h', ⟨keyId, hp⟩, hip⟩ := verifyToken_books L T h (hok.resolve_left (by simp)) hverify
      exact resume_books L T h' hp hip sessionId _ _ d calls

/-- One operation of a server whose book is sound. -/
theorem step_books {st st' : State} {op : Operation S} (h : st.Books)
    (hok : noAddressFromToken L T st op = true) (hstep : step L T D st op = some st') :
    st'.Books := by
  cases op with
  | handshake d calls =>
    simp only [step, Option.ite_none_right_eq_some] at hstep
    obtain ⟨-, hst⟩ := hstep
    exact Option.some.inj hst ▸ handshake_books L T h d calls
  | fastResume d calls expand =>
    simp only [step, Option.ite_none_right_eq_some] at hstep
    obtain ⟨-, hst⟩ := hstep
    exact Option.some.inj hst ▸ fastResume_books L T h hok
  | pfsResume d calls pfs =>
    simp only [step, Option.ite_none_right_eq_some] at hstep
    obtain ⟨-, hst⟩ := hstep
    exact Option.some.inj hst ▸ pfsResume_books L T h (Bool.or_eq_true_iff.mp hok)
  | cleanup now order =>
    simp only [step, Option.ite_none_right_eq_some] at hstep
    obtain ⟨horder, hst⟩ := hstep
    refine Option.some.inj hst ▸ cleanupMaps_books h now fun p hp => ?_
    obtain ⟨entry, hentry, hp⟩ := List.mem_map.mp (horder.mem_iff.mp hp)
    exact ⟨entry.1, hp ▸ AList.mem_lookup_iff.mpr hentry⟩
  | sync now rows revoked =>
    simp only [step, Option.ite_none_right_eq_some] at hstep
    obtain ⟨-, hst⟩ := hstep
    exact Option.some.inj hst ▸ List.foldlRecOn (motive := State.Books) revoked _
      (registerUsers_books L D h now rows) fun _ h' token _ => revokeUser_books h' token

/-- A server that has no session. -/
theorem init_books {pool : IpPool} (hpool : pool.Exclusive) (bootSecret : Vector UInt8 32) :
    (init pool bootSecret).Books := by
  refine ⟨hpool, ?_, ?_, fun p hp => absurd rfl hp, ⟨?_, ?_⟩⟩
  · intro keyId p hp
    exact absurd hp (by simp [init, SessionTable.empty, SessionTable.findByKeyId])
  · intro keyId keyId' p hp
    exact absurd hp (by simp [init, SessionTable.empty, SessionTable.findByKeyId])
  · rintro p ip ⟨⟨keyId, hp⟩, -⟩
    exact absurd hp (by simp [init, SessionTable.empty, SessionTable.findByKeyId])
  · rintro p ip ⟨⟨keyId, hp⟩, -⟩
    exact absurd hp (by simp [init, SessionTable.empty, SessionTable.findByKeyId])

/-- **Every address has one owner** in every state of a run in which no address comes
from a token. -/
theorem owned_of_meets {ip : UInt32} {prefixLen : ℕ} {pool : IpPool}
    (hpool : IpPool.ofCidr ip prefixLen = some pool) (bootSecret : Vector UInt8 32)
    (ops : List (Operation S)) (st : State)
    (hok : Meets (step L T D) (fun st op => noAddressFromToken L T st op = true)
      (init pool bootSecret) ops)
    (hrun : runs (step L T D) (init pool bootSecret) ops = some st) : Owned st :=
  (inv_of_meets (I := State.Books) (fun h hok hstep => step_books L T D h hok hstep)
    (init_books (IpPool.exclusive_ofCidr hpool) bootSecret) hok hrun).owned

end

/-! ### A token that outlives its lease -/

/-- A cipher that masks with the first byte of the key, with a tag that depends on the key,
the associated data and the plaintext. -/
def smallCipher : TokenCipher where
  encrypt key _ aad plain :=
    (plain.map (· ^^^ getElem key 0 zero_lt_32),
      Vector.replicate 16 (getElem key 0 zero_lt_32 + aad.sum + plain.toList.sum))
  decrypt key _ aad cipher tag :=
    let plain := cipher.map (· ^^^ getElem key 0 zero_lt_32)
    if tag = Vector.replicate 16 (getElem key 0 zero_lt_32 + aad.sum + plain.toList.sum) then
      some plain
    else none

/-- One master key, and the key id 5. -/
def smallDerivation : KeyDerivation where
  computeKeyId _ := le64 5
  scanKeyId _ := 5
  deriveMasterKey _ _ := some (Vector.replicate 32 9)

/-- The rows of a database with one user. -/
def smallRows : List (String × String) := [("user#1", "0500000000000000")]

/-- The pool of `10.8.0.0/24`. -/
def smallPool : IpPool := (IpPool.ofCidr 0x0A080000 24).get (by decide)

/-- The server with this pool. -/
def smallStart : State := init smallPool (Vector.replicate 32 1)

/-- A datagram of the user's device, at this time. -/
def smallDatagram (data : List UInt8) (now : ℤ) : Datagram := ⟨data, ⟨0x0100007F, 5000⟩, 3, 0, now⟩

/-- The handshake of the user. -/
def smallHandshake : Operation UInt8 :=
  .handshake (smallDatagram (smallClient.buildInit smallLibrary .ok 1000) 2000)
    ⟨2000, some 0, ⟨some ⟨4, 1⟩, true, some 77, true, true⟩, emptyKeys, 2000,
      ⟨true, some (Vector.replicate 32 8), true⟩⟩

/-- The token that the handshake issues. -/
def smallToken : List UInt8 :=
  ((smallStart.resumption.issue smallLibrary smallCipher 77 0x0A080002 (Vector.replicate 32 9)
    (le64 5) 2000 ⟨true, some (Vector.replicate 32 8), true⟩).map fun tok => tok.bytes).getD []

/-- The fast resume with this token, one minute later. -/
def smallResume : Operation UInt8 :=
  .fastResume (smallDatagram (0x04 :: smallToken) 62000)
    ⟨62000, ⟨true, true⟩, 62000, ⟨true, some (Vector.replicate 32 7), true⟩⟩ ⟨true, true⟩

/-- The user connects, is revoked, registered again, and resumes with the old token. -/
def revokedRun : List (Operation UInt8) :=
  [.sync 1000 smallRows [], smallHandshake, .sync 20000 [] ["user#1"], .sync 40000 smallRows [],
    smallResume]

/-- The session of the user has an address that is not allocated. -/
def takesFreeAddress (st : State) : Bool :=
  match st.sessions.findByKeyId 5 with
  | none => false
  | some p => decide (st.sessions.assignedIp p ≠ 0 ∧
      ¬st.pool.IsAllocated (st.sessions.assignedIp p))

/-- **A token that outlives its lease** gives a session an address that the pool still
has. -/
theorem not_owned : ¬∀ (ops : List (Operation UInt8)) (st : State),
    runs (step smallLibrary smallCipher smallDerivation) smallStart ops = some st → Owned st := by
  intro h
  have hrun : (runs (step smallLibrary smallCipher smallDerivation) smallStart revokedRun).map
      takesFreeAddress = some true := by
    decide +kernel
  obtain ⟨st, hst, hbad⟩ := Option.map_eq_some_iff.mp hrun
  have howned := h revokedRun st hst
  rw [takesFreeAddress] at hbad
  split at hbad
  · exact absurd hbad (by decide)
  · rename_i p hp
    obtain ⟨hne, hfree⟩ := of_decide_eq_true hbad
    exact hfree (howned.allocated 5 p hp hne)

/-- The user connects and resumes while the session has its address. -/
def resumedRun : List (Operation UInt8) := [.sync 1000 smallRows [], smallHandshake, smallResume]

/-- The session of the user has this address. -/
def hasAddress (ip : UInt32) (st : State) : Bool :=
  match st.sessions.findByKeyId 5 with
  | none => false
  | some p => decide (st.sessions.assignedIp p = ip)

theorem owned_resumedRun :
    ∃ st, runs (step smallLibrary smallCipher smallDerivation) smallStart resumedRun = some st ∧
      hasAddress 0x0A080002 st = true ∧ Owned st := by
  obtain ⟨st, hst, hhas⟩ := Option.map_eq_some_iff.mp
    (show (runs (step smallLibrary smallCipher smallDerivation) smallStart resumedRun).map
      (hasAddress 0x0A080002) = some true by decide +kernel)
  exact ⟨st, hst, hhas, owned_of_meets smallLibrary smallCipher smallDerivation
    (Option.some_get _).symm (Vector.replicate 32 1) resumedRun st (by decide +kernel) hst⟩

end Server

end Aegs
