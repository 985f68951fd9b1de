import Aegs.Handshake.Agreement
import Aegs.Server.Control

/-!
# What the collector takes away

The collector unmaps the address of the session it cleans up or removes, and wipes the
routing and the keys of an idle one. This file is about whose they are by then
(`Aegs.Server.Control.OwnOnly`).

A revocation releases the address before it unmaps it: a worker that allocates it and
maps it to another session in between loses its route. An idle cleanup decides on what
it read at the check: a handshake that completes before the wipe is wiped
(`Aegs.Server.Control.not_ownOnly`).

## Why it holds otherwise

As long as threads do not cross in one of four places
(`Aegs.Server.Control.NoCrossing`), every address in the routing of a session, in the
hands of a worker or in those of the collector is leased to that session, and a mapped
lease is the only thing the route table can have for an address
(`Aegs.Server.Control.Leased`). The one exception is the address a revocation has
released, until it is unmapped.
-/

namespace Aegs

namespace Server

namespace Control

open Handshake Transition

/-- **The collector takes away what belongs to its session**: the routes it erased led
to the session they were erased for, and what it wiped was not stored by a handshake
after the idle check. -/
structure OwnOnly (log : List Event) : Prop where
  /-- No route of another session is erased. -/
  routes : ∀ p ip q, .unmapped p ip (some q) ∈ log → q = p
  /-- No handshake stored to the session between the idle check and the wipe. -/
  wipes : ∀ p n n', .wiped p n n' ∈ log → n' = n

/-! ### Who has a session, and who has an address -/

section

variable {S ι : Type}

/-- The session whose routing the worker has read, until it stores the new one. -/
def Worker.session : Worker S → Option ℕ
  | .chosen j | .allocated j _ | .addressed j _ | .built j _ _ | .touched j _ _ | .keyed j _ =>
    some j.session
  | .rest | .accepted .. | .routed _ => none

/-- The session and the address that the worker is about to map to it. -/
def Worker.pending : Worker S → Option (ℕ × UInt32)
  | .allocated j ip => some (j.session, ip)
  | _ => none

/-- The session and the address that the worker is going to store in its routing. -/
def Worker.carried : Worker S → Option (ℕ × UInt32)
  | .addressed j ip | .built j ip _ | .touched j ip _ | .keyed j ip => some (j.session, ip)
  | _ => none

/-- The session whose keys the worker has stored, and not yet its routing. -/
def Worker.keyedSession : Worker S → Option ℕ
  | .keyed j _ => some j.session
  | _ => none

/-- A worker that has an address to store has the session. -/
theorem Worker.session_of_carried {x : Worker S} {p : ℕ} {ip : UInt32}
    (h : x.carried = some (p, ip)) : x.session = some p := by
  cases x with
  | addressed | built | touched | keyed =>
    exact congrArg some (Prod.mk.inj (Option.some.inj h)).1
  | _ => exact nomatch h

/-- So does one that has stored the keys. -/
theorem Worker.session_of_keyedSession {x : Worker S} {p : ℕ} (h : x.keyedSession = some p) :
    x.session = some p := by
  cases x with
  | keyed => exact h
  | _ => exact nomatch h

/-- The idle session, with its address, ahead of the wipe of its routing. -/
def Collector.about : Collector → Option (ℕ × UInt32)
  | .checked p ip _ => some (p, ip)
  | _ => none

/-- The idle session, with its address, whose routing is wiped. -/
def Collector.wiped : Collector → Option (ℕ × UInt32)
  | .routingWiped p ip _ | .cryptoLoaded p ip _ _ | .keysWiped p ip | .unmapped p ip => some (p, ip)
  | _ => none

/-- The idle session between the wipe of its routing and that of its keys. -/
def Collector.wiping : Collector → Option ℕ
  | .routingWiped p _ _ | .cryptoLoaded p _ _ _ => some p
  | _ => none

/-- The idle session ahead of a wipe, with the stores to it at the check. -/
def Collector.stamp : Collector → Option (ℕ × ℕ)
  | .checked p _ n | .routingWiped p _ n | .cryptoLoaded p _ n _ => some (p, n)
  | _ => none

/-- The session that is erased from the key index, ahead of the second look at its
address. -/
def Collector.leaving : Collector → Option ℕ
  | .erased p _ => some p
  | _ => none

/-- The session that is erased from the key index, ahead of its `unmap_ip`. -/
def Collector.gone : Collector → Option ℕ
  | .erased p _ | .reloaded p _ _ => some p
  | _ => none

/-- The session that is being removed, with the address that is released and still to
be unmapped. -/
def State.removing (s : State S ι) : Option (ℕ × UInt32) :=
  match s.collector with
  | .released keyId ip => (s.server.sessions.findByKeyId keyId).map fun p => (p, ip)
  | .erased p ip => some (p, ip)
  | .reloaded p _ ip' => some (p, ip')
  | _ => none

/-- The session a handshake with this key id is going to use. -/
def State.choice (s : State S ι) (keyId : UInt64) (d : Datagram) : Option ℕ :=
  (s.server.sessions.findByKeyId keyId).map fun orig =>
    s.server.chooseSlot keyId orig d.caddr d.now

/-- What the condition below asks of the step a worker is about to make. -/
def Worker.Clear (s : State S ι) : Worker S → Prop
  | .accepted keyId d _ => ∀ p ∈ s.choice keyId d, ∀ x ∈ s.collector.about, x.1 ≠ p
  | .allocated j ip => ∀ x ∈ s.removing, x.2 = ip → x.1 = j.session
  | .touched j _ _ => s.collector.wiping ≠ some j.session
  | _ => True

/-- **No crossing.** A session passes the idle check only while no worker is in a
handshake of it; no worker reads the routing of a session between the idle check and
the wipe of the routing, or stores its keys between the wipe of the routing and that
of the keys; and no worker maps an address to another session between its release by
a revocation and its unmapping. -/
def NoCrossing (s : State S ι) : Action S ι → Prop
  | .check now p =>
    (s.session p).routing.hasClient ∧ now - (s.session p).lastActivity > 600000 →
      ∀ w, (s.worker w).session ≠ some p
  | .next w => (s.worker w).Clear s
  | _ => True

instance (s : State S ι) : ∀ x : Worker S, Decidable (x.Clear s)
  | .accepted keyId d _ =>
    inferInstanceAs (Decidable (∀ p ∈ s.choice keyId d, ∀ x ∈ s.collector.about, x.1 ≠ p))
  | .allocated j ip => inferInstanceAs (Decidable (∀ x ∈ s.removing, x.2 = ip → x.1 = j.session))
  | .touched j _ _ => inferInstanceAs (Decidable (s.collector.wiping ≠ some j.session))
  | .rest | .chosen _ | .addressed .. | .built .. | .keyed .. | .routed _ => isTrue trivial

instance [Fintype ι] (s : State S ι) : ∀ a, Decidable (NoCrossing s a)
  | .check now p => inferInstanceAs (Decidable
    ((s.session p).routing.hasClient ∧ now - (s.session p).lastActivity > 600000 →
      ∀ w, (s.worker w).session ≠ some p))
  | .next w => inferInstanceAs (Decidable ((s.worker w).Clear s))
  | .receive .. | .register .. | .setSlots .. | .revoke _ | .collect => isTrue trivial

/-! ### The invariant -/

/-- The session is in the key index. -/
def State.Live (s : State S ι) (p : ℕ) : Prop :=
  ∃ keyId, s.server.sessions.findByKeyId keyId = some p

/-- The session is in the key index, or its removal will look at its address again. -/
def State.Present (s : State S ι) (p : ℕ) : Prop := s.Live p ∨ s.collector.leaving = some p

/-- The address is leased to the session and mapped, or its removal has released it. -/
def State.Backed (s : State S ι) (p : ℕ) (ip : UInt32) : Prop :=
  s.lease ip = some (p, true) ∨ s.removing = some (p, ip)

/-- **Every address is leased to the session it is with.** -/
structure Leased (s : State S ι) : Prop where
  /-- The pool gives nothing out twice. -/
  exclusive : s.server.pool.Exclusive
  /-- What is leased is allocated. -/
  allocated : ∀ ip x, s.lease ip = some x → s.server.pool.IsAllocated ip
  /-- A mapped lease has no route but its own. -/
  route : ∀ ip p q, s.lease ip = some (p, true) → s.server.sessions.routes.lookup ip = some q →
    q = p
  /-- Sessions were made before the next one. -/
  fresh : ∀ p, s.Live p → p < s.server.sessions.next
  /-- So were those of the workers. -/
  jobs : ∀ w p, (s.worker w).session = some p → p < s.server.sessions.next
  /-- A session has one key id. -/
  distinct : ∀ keyId keyId' p, s.server.sessions.findByKeyId keyId = some p →
    s.server.sessions.findByKeyId keyId' = some p → keyId = keyId'
  /-- An address to be mapped is leased and not mapped. -/
  pending : ∀ w p ip, (s.worker w).pending = some (p, ip) → s.lease ip = some (p, false)
  /-- One worker maps it. -/
  pendingOnce : ∀ w w' p p' ip, (s.worker w).pending = some (p, ip) →
    (s.worker w').pending = some (p', ip) → w = w'
  /-- What a worker is going to store is leased to the session. -/
  carried : ∀ w p ip, (s.worker w).carried = some (p, ip) → s.Present p → s.Backed p ip
  /-- So is what is stored. -/
  held : ∀ p, s.Present p → s.server.sessions.assignedIp p ≠ 0 →
    s.Backed p (s.server.sessions.assignedIp p)
  /-- So is what an idle cleanup is going to unmap; the session is in the key index. -/
  cleaning : ∀ p ip, s.collector.about = some (p, ip) ∨ s.collector.wiped = some (p, ip) →
    s.Live p ∧ (ip ≠ 0 → s.lease ip = some (p, true))
  /-- An idle session has the address of the check, and no worker has the session. -/
  about : ∀ p ip, s.collector.about = some (p, ip) →
    s.server.sessions.assignedIp p = ip ∧ ∀ w, (s.worker w).session ≠ some p
  /-- Once it is wiped, the address is with the collector alone. -/
  apart : ∀ p ip, s.collector.wiped = some (p, ip) → ip ≠ 0 →
    s.server.sessions.assignedIp p ≠ ip ∧ ∀ w, (s.worker w).carried ≠ some (p, ip)
  /-- No handshake stored to the session since the check. -/
  stamp : ∀ p n, s.collector.stamp = some (p, n) → n = s.installs.count p
  /-- And none is about to store the routing that goes with its keys. -/
  wiping : ∀ p, s.collector.wiping = some p → ∀ w, (s.worker w).keyedSession ≠ some p
  /-- What a revocation is going to release is leased. -/
  found : ∀ keyId ip, s.collector = .found keyId ip → ip ≠ 0 →
    ∃ p, s.server.sessions.findByKeyId keyId = some p ∧ s.lease ip = some (p, true)
  /-- What it has released has no route but that of the session. -/
  removing : ∀ p ip, s.removing = some (p, ip) → ip ≠ 0 →
    ∀ q, s.server.sessions.routes.lookup ip = some q → q = p
  /-- A session that is erased is not in the key index. -/
  gone : ∀ p, s.collector.gone = some p → ¬s.Live p
  /-- So far everything went well. -/
  log : OwnOnly s.log

/-! ### The steps of a worker -/

variable {s : State S ι}

/-- What holds of the other workers and of `x` holds of all once `w` is at `x`. -/
theorem forall_goto [DecidableEq ι] {P : ι → Worker S → Prop} {w : ι} {x : Worker S}
    (hother : ∀ w', P w' (s.worker w')) (hx : P w x) (w' : ι) : P w' ((s.goto w x).worker w') := by
  rcases eq_or_ne w' w with rfl | hne
  · rwa [goto_worker]
  · rw [goto_worker_of_ne s hne]
    exact hother w'

/-- A worker goes on and nothing else changes. -/
theorem Leased.goto [DecidableEq ι] (h : Leased s) (w : ι) {x : Worker S}
    (hjobs : ∀ p, x.session = some p → p < s.server.sessions.next)
    (hpending : ∀ p ip, x.pending = some (p, ip) → s.lease ip = some (p, false) ∧
      ∀ w' p', (s.worker w').pending = some (p', ip) → w' = w)
    (hcarried : ∀ p ip, x.carried = some (p, ip) → s.Present p → s.Backed p ip)
    (habout : ∀ p ip, s.collector.about = some (p, ip) → x.session ≠ some p)
    (hapart : ∀ p ip, s.collector.wiped = some (p, ip) → ip ≠ 0 → x.carried ≠ some (p, ip))
    (hwiping : ∀ p, s.collector.wiping = some p → x.keyedSession ≠ some p) :
    Leased (s.goto w x) := by
  refine { h with
    jobs := forall_goto (P := fun _ y => ∀ p, y.session = some p → p < s.server.sessions.next)
      h.jobs hjobs
    pending := forall_goto
      (P := fun _ y => ∀ p ip, y.pending = some (p, ip) → s.lease ip = some (p, false))
      h.pending fun p ip hx => (hpending p ip hx).1
    pendingOnce := ?_
    carried := forall_goto
      (P := fun _ y => ∀ p ip, y.carried = some (p, ip) → s.Present p → s.Backed p ip)
      h.carried hcarried
    about := fun p ip hp => ⟨(h.about p ip hp).1,
      forall_goto (P := fun _ y => y.session ≠ some p) (h.about p ip hp).2 (habout p ip hp)⟩
    apart := fun p ip hp hip => ⟨(h.apart p ip hp hip).1,
      forall_goto (P := fun _ y => y.carried ≠ some (p, ip)) (h.apart p ip hp hip).2
        (hapart p ip hp hip)⟩
    wiping := fun p hp =>
      forall_goto (P := fun _ y => y.keyedSession ≠ some p) (h.wiping p hp) (hwiping p hp) }
  intro w₁ w₂ p p' ip
  by_cases hw₁ : w₁ = w <;> by_cases hw₂ : w₂ = w
  · exact fun _ _ => hw₁.trans hw₂.symm
  · rw [hw₁, goto_worker, goto_worker_of_ne s hw₂]
    exact fun h₁ h₂ => ((hpending p ip h₁).2 w₂ p' h₂).symm
  · rw [hw₂, goto_worker, goto_worker_of_ne s hw₁]
    exact fun h₁ h₂ => (hpending p' ip h₂).2 w₁ p h₁
  · rw [goto_worker_of_ne s hw₁, goto_worker_of_ne s hw₂]
    exact h.pendingOnce w₁ w₂ p p' ip

/-- The server changes in what no address depends on. -/
theorem Leased.frame (h : Leased s) (server : Server.State) (hpool : server.pool = s.server.pool)
    (hkeys : server.sessions.byKeyId = s.server.sessions.byKeyId)
    (hnext : server.sessions.next = s.server.sessions.next)
    (hroutes : server.sessions.routes = s.server.sessions.routes)
    (hips : ∀ p, server.sessions.assignedIp p = s.server.sessions.assignedIp p) :
    Leased { s with server := server } := by
  have hfind : ∀ keyId, server.sessions.findByKeyId keyId = s.server.sessions.findByKeyId keyId :=
    fun keyId => by rw [SessionTable.findByKeyId, hkeys, SessionTable.findByKeyId]
  have hlive : ∀ p, ({ s with server := server } : State S ι).Live p ↔ s.Live p := fun p => by
    simp only [State.Live, hfind]
  have hremoving : ({ s with server := server } : State S ι).removing = s.removing := by
    simp only [State.removing, hfind]
  have hbacked : ∀ p ip, ({ s with server := server } : State S ι).Backed p ip ↔ s.Backed p ip :=
    fun p ip => by rw [State.Backed, hremoving, State.Backed]
  have hpresent : ∀ p, ({ s with server := server } : State S ι).Present p ↔ s.Present p :=
    fun p => by rw [State.Present, hlive, State.Present]
  constructor
  · exact hpool ▸ h.exclusive
  · exact fun ip x hx => hpool ▸ h.allocated ip x hx
  · exact fun ip p q => hroutes ▸ h.route ip p q
  · exact fun p hp => hnext ▸ h.fresh p ((hlive p).mp hp)
  · exact fun w p hp => hnext ▸ h.jobs w p hp
  · exact fun keyId keyId' p hp hp' => h.distinct keyId keyId' p (hfind keyId ▸ hp)
      (hfind keyId' ▸ hp')
  · exact h.pending
  · exact h.pendingOnce
  · exact fun w p ip hw hp => (hbacked p ip).mpr (h.carried w p ip hw ((hpresent p).mp hp))
  · exact fun p hp hne => (hbacked p _).mpr
      (hips p ▸ h.held p ((hpresent p).mp hp) (hips p ▸ hne))
  · exact fun p ip hp => ⟨(hlive p).mpr (h.cleaning p ip hp).1, (h.cleaning p ip hp).2⟩
  · exact fun p ip hp => ⟨(hips p).trans (h.about p ip hp).1, (h.about p ip hp).2⟩
  · exact fun p ip hp hip => ⟨hips p ▸ (h.apart p ip hp hip).1, (h.apart p ip hp hip).2⟩
  · exact h.stamp
  · exact h.wiping
  · exact fun keyId ip hc hip => hfind keyId ▸ h.found keyId ip hc hip
  · exact fun p ip hp hip => hroutes ▸ h.removing p ip (hremoving ▸ hp) hip
  · exact fun p hp hlive' => h.gone p hp ((hlive p).mp hlive')
  · exact h.log

/-- An address is leased to a session, ahead of `map_ip`. -/
theorem Leased.allocate (h : Leased s) {pool : IpPool} {ip : UInt32} (p : ℕ)
    (halloc : s.server.pool.allocate = (pool, some ip)) :
    Leased { s with
      server := { s.server with pool := pool }
      lease := Function.update s.lease ip (some (p, false)) } ∧ s.lease ip = none := by
  obtain ⟨hexclusive, hnew, hiff⟩ := IpPool.allocate_eq_some h.exclusive halloc
  have hnone : s.lease ip = none := by
    by_contra hne
    obtain ⟨x, hx⟩ := Option.ne_none_iff_exists'.mp hne
    exact hnew (h.allocated ip x hx)
  have hkept : ∀ j x, s.lease j = some x →
      Function.update s.lease ip (some (p, false)) j = some x := by
    intro j x hj
    have hne : j ≠ ip := by
      rintro rfl
      exact absurd (hnone.symm.trans hj) (by simp)
    rwa [Function.update_of_ne hne]
  refine ⟨{ h with
    exclusive := hexclusive
    allocated := fun j x hj => ?_
    route := fun j q r hj => ?_
    pending := fun w q j hw => hkept _ _ (h.pending w q j hw)
    carried := fun w q j hw hq => (h.carried w q j hw hq).imp (hkept _ _) id
    held := fun q hq hne => (h.held q hq hne).imp (hkept _ _) id
    cleaning := fun q j hq =>
      ⟨(h.cleaning q j hq).1, fun hj => hkept _ _ ((h.cleaning q j hq).2 hj)⟩
    found := fun keyId j hc hj => ?_ }, hnone⟩
  · rcases eq_or_ne j ip with rfl | hne
    · exact (hiff j).mpr (Or.inl rfl)
    · exact (hiff j).mpr (Or.inr (h.allocated j x ((Function.update_of_ne hne _ _).symm.trans hj)))
  · rcases eq_or_ne j ip with rfl | hne
    · exact absurd ((Function.update_self j _ _).symm.trans hj) (by simp)
    · exact h.route j q r ((Function.update_of_ne hne _ _).symm.trans hj)
  · obtain ⟨q, hq, hlease⟩ := h.found keyId j hc hj
    exact ⟨q, hq, hkept _ _ hlease⟩

/-- A leased address that no worker has to map any more is mapped, to nobody's loss. -/
theorem Leased.map (h : Leased s) {p : ℕ} {ip : UInt32} (hlease : s.lease ip = some (p, false))
    (hpending : ∀ w q, (s.worker w).pending ≠ some (q, ip))
    (hclear : ∀ x ∈ s.removing, x.2 = ip → x.1 = p) :
    Leased { s.setTable (s.server.sessions.mapIp ip p) with
      lease := Function.update s.lease ip (some (p, true)) } := by
  have hne0 : ip ≠ 0 := by
    rintro rfl
    exact h.exclusive.zero_not (h.allocated 0 _ hlease)
  have hmap : s.server.sessions.mapIp ip p =
      { s.server.sessions with routes := s.server.sessions.routes.insert ip p } := if_neg hne0
  have hkept : ∀ j q, s.lease j = some (q, true) →
      Function.update s.lease ip (some (p, true)) j = some (q, true) := by
    intro j q hj
    have hne : j ≠ ip := by
      rintro rfl
      exact absurd (hlease.symm.trans hj) (by simp)
    rwa [Function.update_of_ne hne]
  rw [hmap]
  refine { h with
    allocated := fun j x hj => ?_
    route := fun j q r hj hr => ?_
    pending := fun w q j hw => ?_
    carried := fun w q j hw hq => (h.carried w q j hw hq).imp (hkept _ _) id
    held := fun q hq hne => (h.held q hq hne).imp (hkept _ _) id
    cleaning := fun q j hq =>
      ⟨(h.cleaning q j hq).1, fun hj => hkept _ _ ((h.cleaning q j hq).2 hj)⟩
    found := fun keyId j hc hj => ?_
    removing := fun q j hq hj r hr => ?_ }
  · rcases eq_or_ne j ip with rfl | hne
    · exact h.allocated j _ hlease
    · exact h.allocated j x ((Function.update_of_ne hne _ _).symm.trans hj)
  · rcases eq_or_ne j ip with rfl | hne
    · have hq := Option.some.inj ((Function.update_self j _ s.lease).symm.trans hj)
      have hr' := Option.some.inj ((AList.lookup_insert _).symm.trans hr)
      exact hr'.symm.trans (congrArg Prod.fst hq)
    · exact h.route j q r ((Function.update_of_ne hne _ _).symm.trans hj)
        ((AList.lookup_insert_ne hne).symm.trans hr)
  · have hne : j ≠ ip := by
      rintro rfl
      exact hpending w q hw
    exact (Function.update_of_ne hne _ _).trans (h.pending w q j hw)
  · obtain ⟨q, hq, hlease'⟩ := h.found keyId j hc hj
    exact ⟨q, hq, hkept _ _ hlease'⟩
  · rcases eq_or_ne j ip with rfl | hne
    · have hr' := Option.some.inj ((AList.lookup_insert _).symm.trans hr)
      exact hr'.symm.trans (hclear (q, j) hq rfl).symm
    · exact h.removing q j hq hj r ((AList.lookup_insert_ne hne).symm.trans hr)

/-- A store to a session that has the address of `x` from then on. -/
theorem Leased.store (h : Leased s) (p : ℕ) {x : Session}
    (hheld : s.Present p → x.routing.assignedIp ≠ 0 → s.Backed p x.routing.assignedIp)
    (habout : ∀ ip, s.collector.about = some (p, ip) → x.routing.assignedIp = ip)
    (hapart : ∀ ip, s.collector.wiped = some (p, ip) → ip ≠ 0 → x.routing.assignedIp ≠ ip) :
    Leased (s.store p x) := by
  have hips : ∀ q, (s.store p x).server.sessions.assignedIp q =
      if q = p then x.routing.assignedIp else s.server.sessions.assignedIp q := by
    intro q
    by_cases hq : q = p
    · simp [State.store, State.setTable, SessionTable.assignedIp, SessionTable.setSession, hq]
    · simp [State.store, State.setTable, SessionTable.assignedIp, SessionTable.setSession, hq]
  refine { h with
    held := fun q hq hne => ?_
    about := fun q ip hq => ⟨?_, (h.about q ip hq).2⟩
    apart := fun q ip hq hip => ⟨?_, (h.apart q ip hq hip).2⟩ }
  · rw [hips] at hne ⊢
    split at hne
    · rename_i heq
      subst heq
      rw [if_pos rfl]
      exact hheld hq hne
    · rename_i heq
      rw [if_neg heq]
      exact h.held q hq hne
  · rw [hips]
    split
    · rename_i heq
      subst heq
      exact habout ip hq
    · exact (h.about q ip hq).1
  · rw [hips]
    split
    · rename_i heq
      subst heq
      exact hapart ip hq hip
    · exact (h.apart q ip hq hip).1

/-- A store of a handshake to a session that is not between its idle check and the last
wipe. -/
theorem Leased.install (h : Leased s) (p : ℕ) (hstamp : ∀ m, s.collector.stamp ≠ some (p, m)) :
    Leased { s with installs := p :: s.installs } := by
  refine { h with stamp := fun q m hq => ?_ }
  have hne : q ≠ p := by
    rintro rfl
    exact hstamp m hq
  exact (h.stamp q m hq).trans (List.count_cons_of_ne hne.symm).symm

/-- A store that leaves the routing of the session alone. -/
theorem Leased.storeRest (h : Leased s) (p : ℕ) {x : Session}
    (hx : x.routing = (s.session p).routing) : Leased (s.store p x) := by
  refine h.frame _ rfl rfl rfl rfl fun q => ?_
  by_cases hq : q = p
  · subst hq
    simpa [State.session, SessionTable.assignedIp, SessionTable.setSession] using
      congrArg SessionRouting.assignedIp hx
  · simp [SessionTable.assignedIp, SessionTable.setSession, hq]

/-- The collector is ahead of the first wipe of a session or between its two wipes. -/
theorem Collector.stamp_cases {c : Collector} {p n : ℕ} (h : c.stamp = some (p, n)) :
    (∃ ip, c.about = some (p, ip)) ∨ c.wiping = some p := by
  cases c with
  | checked q ip m => exact Or.inl ⟨ip, by rw [(Prod.mk.inj (Option.some.inj h)).1]; rfl⟩
  | routingWiped q ip m => exact Or.inr (congrArg some (Prod.mk.inj (Option.some.inj h)).1)
  | cryptoLoaded q ip m c => exact Or.inr (congrArg some (Prod.mk.inj (Option.some.inj h)).1)
  | _ => exact absurd h (by simp [Collector.stamp])

section

variable [DecidableEq ι]

/-- A worker that gives up its session and its address. -/
theorem Leased.gotoFree (h : Leased s) (w : ι) {x : Worker S} (hsession : x.session = none)
    (hpending : x.pending = none) (hcarried : x.carried = none) (hkeyed : x.keyedSession = none) :
    Leased (s.goto w x) := by
  refine h.goto w ?_ ?_ ?_ ?_ ?_ ?_
  · simp [hsession]
  · simp [hpending]
  · simp [hcarried]
  · simp [hsession]
  · simp [hcarried]
  · simp [hkeyed]

/-- A worker that goes on with its session and its address. -/
theorem Leased.gotoSame (h : Leased s) (w : ι) {x : Worker S}
    (hsession : x.session = (s.worker w).session) (hpending : x.pending = none)
    (hcarried : x.carried = (s.worker w).carried)
    (hkeyed : ∀ p, s.collector.wiping = some p → x.keyedSession ≠ some p) :
    Leased (s.goto w x) := by
  refine h.goto w ?_ ?_ ?_ ?_ ?_ hkeyed
  · exact hsession ▸ h.jobs w
  · simp [hpending]
  · exact hcarried ▸ h.carried w
  · exact fun p ip hp => hsession ▸ (h.about p ip hp).2 w
  · exact fun p ip hp hip => hcarried ▸ (h.apart p ip hp hip).2 w

/-- A worker reads the routing of a session that the collector is not about to wipe. -/
theorem Leased.choose (h : Leased s) (w : ι) {j : Job S} (hlive : s.Live j.session)
    (hclear : ∀ x ∈ s.collector.about, x.1 ≠ j.session) :
    Leased (s.goto w (if s.server.sessions.assignedIp j.session ≠ 0 then
      .addressed j (s.server.sessions.assignedIp j.session) else .chosen j)) := by
  split
  · rename_i hne
    refine h.goto w ?_ ?_ ?_ ?_ ?_ ?_
    · exact fun p hp => Option.some.inj hp ▸ h.fresh _ hlive
    · exact fun p ip hp => nomatch hp
    · intro p ip hp hpresent
      obtain ⟨rfl, rfl⟩ := Prod.mk.inj (Option.some.inj hp)
      exact h.held _ hpresent hne
    · exact fun p ip hp hsession => hclear (p, ip) hp (Option.some.inj hsession).symm
    · intro p ip hp hip hcarried
      obtain ⟨rfl, heq⟩ := Prod.mk.inj (Option.some.inj hcarried)
      exact (h.apart _ ip hp hip).1 heq
    · exact fun p hp hkeyed => nomatch hkeyed
  · refine h.goto w ?_ ?_ ?_ ?_ ?_ ?_
    · exact fun p hp => Option.some.inj hp ▸ h.fresh _ hlive
    · exact fun p ip hp => nomatch hp
    · exact fun p ip hp => nomatch hp
    · exact fun p ip hp hsession => hclear (p, ip) hp (Option.some.inj hsession).symm
    · exact fun p ip hp hip hcarried => nomatch hcarried
    · exact fun p hp hkeyed => nomatch hkeyed

/-- A worker allocates an address. -/
theorem Leased.gotoAllocated (h : Leased s) {w : ι} {j : Job S} (hw : s.worker w = .chosen j)
    {pool : IpPool} {ip : UInt32} (halloc : s.server.pool.allocate = (pool, some ip)) :
    Leased ({ s with
      server := { s.server with pool := pool }
      lease := Function.update s.lease ip (some (j.session, false)) }.goto w
        (.allocated j ip)) := by
  have hsession : (s.worker w).session = some j.session := by
    rw [hw]
    rfl
  obtain ⟨h', hnone⟩ := h.allocate j.session halloc
  refine h'.goto w ?_ ?_ ?_ ?_ ?_ ?_
  · exact fun p hp => h.jobs w p (hsession.trans hp)
  · intro p ip' hp
    obtain ⟨rfl, rfl⟩ := Prod.mk.inj (Option.some.inj hp)
    refine ⟨Function.update_self _ _ _, fun w' p' hw' => ?_⟩
    exact absurd (hnone.symm.trans (h.pending w' p' _ hw')) (by simp)
  · exact fun p ip' hp => nomatch hp
  · exact fun p ip' hp hp' => (h.about p ip' hp).2 w (hsession.trans hp')
  · exact fun p ip' hp hip hcarried => nomatch hcarried
  · exact fun p hp hkeyed => nomatch hkeyed

/-- A worker maps its address, while no removal of another session is going to unmap
it. -/
theorem Leased.gotoMapped (h : Leased s) {w : ι} {j : Job S} {ip : UInt32}
    (hw : s.worker w = .allocated j ip) (hclear : ∀ x ∈ s.removing, x.2 = ip → x.1 = j.session) :
    Leased ({ s.setTable (s.server.sessions.mapIp ip j.session) with
      lease := Function.update s.lease ip (some (j.session, true)) }.goto w (.addressed j ip)) := by
  have hsession : (s.worker w).session = some j.session := by
    rw [hw]
    rfl
  have hpending : (s.worker w).pending = some (j.session, ip) := by
    rw [hw]
    rfl
  have hlease := h.pending w _ _ hpending
  -- the worker lets go of the address before it is mapped, and has it again afterwards
  have hfree : Leased (s.goto w .rest) := h.gotoFree w rfl rfl rfl rfl
  have hnobody : ∀ w' q, ((s.goto w .rest).worker w').pending ≠ some (q, ip) := by
    intro w' q hw'
    rcases eq_or_ne w' w with rfl | hne
    · rw [goto_worker] at hw'
      cases hw'
    · rw [goto_worker_of_ne s hne] at hw'
      exact hne (h.pendingOnce w' w q _ ip hw' hpending)
  have hmapped := hfree.map (p := j.session) hlease hnobody hclear
  have hstate : ({ s.setTable (s.server.sessions.mapIp ip j.session) with
      lease := Function.update s.lease ip (some (j.session, true)) } : State S ι).goto w
        (.addressed j ip) =
      ({ (s.goto w .rest).setTable (s.server.sessions.mapIp ip j.session) with
        lease := Function.update s.lease ip (some (j.session, true)) } : State S ι).goto w
          (.addressed j ip) := by
    simp [State.goto, State.setTable]
  rw [hstate]
  refine hmapped.goto w ?_ ?_ ?_ ?_ ?_ ?_
  · intro p hp
    simpa [State.setTable] using h.jobs w p (hsession.trans hp)
  · exact fun p ip' hp => by cases hp
  · intro p ip' hp hpresent
    obtain ⟨rfl, rfl⟩ := Prod.mk.inj (Option.some.inj hp)
    exact Or.inl (Function.update_self _ _ _)
  · exact fun p ip' hp hp' => (h.about p ip' hp).2 w (hsession.trans hp')
  · intro p ip' hp hip hcarried
    obtain ⟨rfl, rfl⟩ := Prod.mk.inj (Option.some.inj hcarried)
    exact absurd (hlease.symm.trans ((h.cleaning _ _ (Or.inr hp)).2 hip)) (by simp)
  · exact fun p hp hkeyed => by cases hkeyed

/-- A worker stores the keys of a session that the collector is not wiping. -/
theorem Leased.gotoKeyed (h : Leased s) {w : ι} {j : Job S} {ip : UInt32} {keys : SessionKeys}
    (hw : s.worker w = .touched j ip keys) (hclear : s.collector.wiping ≠ some j.session)
    {x : Session} (hx : x.routing = (s.session j.session).routing) :
    Leased ({ s.store j.session x with
      installs := j.session :: s.installs }.goto w (.keyed j ip)) := by
  have hstamp : ∀ m, s.collector.stamp ≠ some (j.session, m) := by
    intro m hm
    rcases Collector.stamp_cases hm with ⟨ip', habout⟩ | hwiping
    · exact (h.about _ ip' habout).2 w (by rw [hw]; rfl)
    · exact hclear hwiping
  refine ((h.storeRest j.session hx).install j.session hstamp).gotoSame w ?_ rfl ?_ ?_
  · exact (congrArg Worker.session hw).symm
  · exact (congrArg Worker.carried hw).symm
  · exact fun p hp hkeyed => hclear (hp.trans hkeyed.symm)

/-- A worker stores the routing. -/
theorem Leased.gotoRouted (h : Leased s) {w : ι} {j : Job S} {ip : UInt32}
    (hw : s.worker w = .keyed j ip) {x : Session} (hx : x.routing.assignedIp = ip) :
    Leased ({ s.store j.session x with
      installs := j.session :: s.installs }.goto w (.routed j)) := by
  have hcarried : (s.worker w).carried = some (j.session, ip) := by
    rw [hw]
    rfl
  have hnotAbout : ∀ ip', s.collector.about ≠ some (j.session, ip') := fun ip' habout =>
    (h.about _ ip' habout).2 w (by rw [hw]; rfl)
  have hstamp : ∀ m, s.collector.stamp ≠ some (j.session, m) := by
    intro m hm
    rcases Collector.stamp_cases hm with ⟨ip', habout⟩ | hwiping
    · exact hnotAbout ip' habout
    · exact h.wiping _ hwiping w (by rw [hw]; rfl)
  have hstore : Leased (s.store j.session x) := by
    refine h.store j.session ?_ ?_ ?_
    · exact fun hpresent _ => hx ▸ h.carried w _ ip hcarried hpresent
    · exact fun ip' habout => absurd habout (hnotAbout ip')
    · rintro ip' hwiped hip rfl
      exact (h.apart _ _ hwiped hip).2 w (hcarried.trans (by rw [hx]))
  exact (hstore.install j.session hstamp).gotoFree w rfl rfl rfl rfl

/-- **A step of a worker** that crosses nobody. -/
theorem Leased.next (L : Library S) {s' : State S ι} (h : Leased s) {w : ι}
    (hok : (s.worker w).Clear s) (hstep : Control.next L s w = some s') : Leased s' := by
  rw [Control.next] at hstep
  cases hw : s.worker w with
  | rest =>
    rw [hw] at hstep
    exact absurd hstep (by simp)
  | accepted keyId d calls =>
    rw [hw] at hstep hok
    simp only at hstep
    split at hstep
    · exact Option.some.inj hstep ▸ h.gotoFree w rfl rfl rfl rfl
    · rename_i orig horig
      have hclear := hok (s.server.chooseSlot keyId orig d.caddr d.now) (by
        simp [State.choice, horig])
      exact Option.some.inj hstep ▸ h.choose w (j := ⟨keyId, orig, _, _, _, d, calls⟩)
        (chooseSlot_mem d.caddr d.now horig) hclear
  | chosen j =>
    rw [hw] at hstep
    simp only at hstep
    split at hstep
    · exact Option.some.inj hstep ▸ h.gotoFree w rfl rfl rfl rfl
    · rename_i pool ip halloc
      exact Option.some.inj hstep ▸ h.gotoAllocated hw halloc
  | allocated j ip =>
    rw [hw] at hstep hok
    exact Option.some.inj hstep ▸ h.gotoMapped hw hok
  | addressed j ip =>
    rw [hw] at hstep
    obtain rfl := Option.some.inj hstep
    refine Leased.gotoSame ?_ w ?_ rfl ?_ ?_
    · exact h.frame _ rfl rfl rfl rfl fun _ => rfl
    · exact (congrArg Worker.session hw).symm
    · exact (congrArg Worker.carried hw).symm
    · exact fun p hp hkeyed => by cases hkeyed
  | built j ip keys =>
    rw [hw] at hstep
    obtain rfl := Option.some.inj hstep
    refine Leased.gotoSame ?_ w ?_ rfl ?_ ?_
    · exact h.storeRest j.session rfl
    · exact (congrArg Worker.session hw).symm
    · exact (congrArg Worker.carried hw).symm
    · exact fun p hp hkeyed => by cases hkeyed
  | touched j ip keys =>
    rw [hw] at hstep hok
    obtain rfl := Option.some.inj hstep
    refine h.gotoKeyed hw hok ?_
    rfl
  | keyed j ip =>
    rw [hw] at hstep
    obtain rfl := Option.some.inj hstep
    refine h.gotoRouted hw ?_
    rfl
  | routed j =>
    rw [hw] at hstep
    obtain rfl := Option.some.inj hstep
    refine Leased.gotoFree ?_ w rfl rfl rfl rfl
    exact h.frame _ rfl rfl rfl rfl fun _ => rfl

end

/-! ### The steps of the collector -/

/-- The log of a wipe that hits what the check saw. -/
theorem OwnOnly.wiped {log : List Event} (h : OwnOnly log) {p n n' : ℕ} (heq : n' = n) :
    OwnOnly (.wiped p n n' :: log) := by
  refine ⟨fun q ip r hr => ?_, fun q m m' hm => ?_⟩
  · rcases List.mem_cons.mp hr with hr | hr
    · exact absurd hr (by simp)
    · exact h.routes q ip r hr
  · rcases List.mem_cons.mp hm with hm | hm
    · obtain ⟨-, rfl, rfl⟩ := Event.wiped.inj hm
      exact heq
    · exact h.wipes q m m' hm

/-- The log of a route that is erased for its session. -/
theorem OwnOnly.unmapped {log : List Event} (h : OwnOnly log) {p : ℕ} {ip : UInt32}
    {owner : Option ℕ} (howner : ∀ q, owner = some q → q = p) :
    OwnOnly (.unmapped p ip owner :: log) := by
  refine ⟨fun q ip' r hr => ?_, fun q m m' hm => ?_⟩
  · rcases List.mem_cons.mp hr with hr | hr
    · obtain ⟨rfl, rfl, heq⟩ := Event.unmapped.inj hr
      exact howner r heq.symm
    · exact h.routes q ip' r hr
  · rcases List.mem_cons.mp hm with hm | hm
    · exact absurd hm (by simp)
    · exact h.wipes q m m' hm

/-- The collector goes on with no more in its hands than before, or begins a
revocation. -/
theorem Leased.onward {c : Collector} (h : Leased (s.collectorTo c)) (c' : Collector)
    (hremoving : ∀ x, (s.collectorTo c).removing = some x → (s.collectorTo c').removing = some x)
    (hremoving' : ∀ p ip, (s.collectorTo c').removing = some (p, ip) → ip ≠ 0 →
      (s.collectorTo c).removing = some (p, ip))
    (hleaving : ∀ p, c'.leaving = some p → c.leaving = some p)
    (habout : ∀ x, c'.about = some x → c.about = some x)
    (hwiped : ∀ x, c'.wiped = some x → c.wiped = some x)
    (hstamp : ∀ x, c'.stamp = some x → c.stamp = some x)
    (hwiping : ∀ p, c'.wiping = some p → c.wiping = some p)
    (hgone : ∀ p, c'.gone = some p → c.gone = some p)
    (hfound : ∀ keyId ip, c' = .found keyId ip → ip ≠ 0 →
      ∃ p, s.server.sessions.findByKeyId keyId = some p ∧ s.lease ip = some (p, true)) :
    Leased (s.collectorTo c') := by
  have hpresent : ∀ p, (s.collectorTo c').Present p → (s.collectorTo c).Present p := fun p hp =>
    hp.imp id (hleaving p)
  have hbacked : ∀ p ip, (s.collectorTo c).Backed p ip → (s.collectorTo c').Backed p ip :=
    fun p ip hb => hb.imp id (hremoving (p, ip))
  exact { h with
    carried := fun w p ip hw hp => hbacked p ip (h.carried w p ip hw (hpresent p hp))
    held := fun p hp hne => hbacked p _ (h.held p (hpresent p hp) hne)
    cleaning := fun p ip hp => h.cleaning p ip (hp.imp (habout _) (hwiped _))
    about := fun p ip hp => h.about p ip (habout _ hp)
    apart := fun p ip hp => h.apart p ip (hwiped _ hp)
    stamp := fun p n hp => h.stamp p n (hstamp _ hp)
    wiping := fun p hp => h.wiping p (hwiping p hp)
    found := hfound
    removing := fun p ip hp hne => h.removing p ip (hremoving' p ip hp hne) hne
    gone := fun p hp => h.gone p (hgone p hp) }

/-- The collector comes to rest. -/
theorem Leased.rest {c : Collector} (h : Leased (s.collectorTo c))
    (hremoving : (s.collectorTo c).removing = none) : Leased (s.collectorTo .rest) := by
  refine h.onward .rest ?_ ?_ ?_ ?_ ?_ ?_ ?_ ?_ ?_
  · simp [hremoving]
  · exact fun p ip hp => nomatch hp
  · exact fun p hp => nomatch hp
  · exact fun x hx => nomatch hx
  · exact fun x hx => nomatch hx
  · exact fun x hx => nomatch hx
  · exact fun p hp => nomatch hp
  · exact fun p hp => nomatch hp
  · exact fun keyId ip hc => nomatch hc

/-- An idle session passes the check, with no worker in a handshake of it. -/
theorem Leased.check (h : Leased (s.collectorTo .rest)) {p : ℕ} (hlive : s.Live p)
    (hfree : ∀ w, (s.worker w).session ≠ some p) : Leased (s.collectorTo
      (.checked p (s.server.sessions.assignedIp p) (s.installs.count p))) := by
  refine { h with
    cleaning := fun q ip hq => ?_
    about := fun q ip hq => ?_
    apart := fun q ip hq => nomatch hq
    stamp := fun q n hq => ?_
    wiping := fun q hq => nomatch hq
    found := fun keyId ip hc => nomatch hc }
  · rcases hq with hq | hq
    · obtain ⟨rfl, rfl⟩ := Prod.mk.inj (Option.some.inj hq)
      refine ⟨hlive, fun hne => ?_⟩
      rcases h.held p (Or.inl hlive) hne with hlease | hremoving
      · exact hlease
      · exact nomatch hremoving
    · exact nomatch hq
  · obtain ⟨rfl, rfl⟩ := Prod.mk.inj (Option.some.inj hq)
    exact ⟨rfl, hfree⟩
  · obtain ⟨rfl, rfl⟩ := Prod.mk.inj (Option.some.inj hq)
    rfl

/-- The routing of an idle session is wiped. -/
theorem Leased.wipeRouting {p n : ℕ} {ip : UInt32} (h : Leased (s.collectorTo (.checked p ip n)))
    {x : Session} (hx : x.routing.assignedIp = 0) :
    Leased ({ s.store p x with
      log := .wiped p n (s.installs.count p) :: s.log }.collectorTo (.routingWiped p ip n)) := by
  have hips : ∀ q, q ≠ p → (s.store p x).server.sessions.assignedIp q =
      s.server.sessions.assignedIp q := by
    intro q hq
    simp [State.store, State.setTable, SessionTable.assignedIp, SessionTable.setSession, hq]
  have hself : (s.store p x).server.sessions.assignedIp p = 0 := by
    simp [State.store, State.setTable, SessionTable.assignedIp, SessionTable.setSession, hx]
  have hfree := (h.about p ip rfl).2
  refine { h with
    held := fun q hq hne => ?_
    cleaning := fun q ip' hq => ?_
    about := fun q ip' hq => by cases hq
    apart := fun q ip' hq hip => ?_
    stamp := h.stamp
    wiping := fun q hq w hw => ?_
    found := fun keyId ip' hc => by cases hc
    log := h.log.wiped (h.stamp p n rfl).symm }
  · have hqp : q ≠ p := by
      rintro rfl
      exact hne hself
    have hip := hips q hqp
    exact hip ▸ h.held q hq (hip ▸ hne)
  · rcases hq with hq | hq
    · cases hq
    · exact h.cleaning q ip' (Or.inl hq)
  · obtain ⟨rfl, rfl⟩ := Prod.mk.inj (Option.some.inj hq)
    exact ⟨fun heq => hip (heq.symm.trans hself), fun w hw =>
      hfree w (Worker.session_of_carried hw)⟩
  · obtain rfl := Option.some.inj hq
    exact hfree w (Worker.session_of_keyedSession hw)

/-- The keys of an idle session are wiped. -/
theorem Leased.wipeKeys {p n : ℕ} {ip : UInt32} {c : SessionCrypto}
    (h : Leased (s.collectorTo (.cryptoLoaded p ip n c))) {x : Session}
    (hx : x.routing = (s.session p).routing) :
    Leased ({ s.store p x with
      log := .wiped p n (s.installs.count p) :: s.log }.collectorTo (.keysWiped p ip)) := by
  have h' := h.storeRest p hx
  exact { h' with
    cleaning := fun q ip' hq => h'.cleaning q ip' hq
    about := fun q ip' hq => nomatch hq
    stamp := fun q m hq => nomatch hq
    wiping := fun q hq => nomatch hq
    found := fun keyId ip' hc => nomatch hc
    log := h.log.wiped (h.stamp p n rfl).symm }

/-- `unmap_ip` does not move the collector. -/
theorem unmap_collectorTo (s : State S ι) (c : Collector) (p : ℕ) (ip : UInt32) :
    (s.collectorTo c).unmap p ip = (s.unmap p ip).collectorTo c := by
  rw [State.unmap, State.unmap]
  split <;> rfl

/-- What a revocation that has released an address is going to unmap. -/
theorem removing_released (s : State S ι) (keyId : UInt64) (ip : UInt32) :
    (s.collectorTo (.released keyId ip)).removing =
      (s.server.sessions.findByKeyId keyId).map fun p => (p, ip) := rfl

/-- A route is erased, on behalf of the session it leads to, if it leads anywhere. -/
theorem Leased.unmap (h : Leased s) (p : ℕ) (ip : UInt32)
    (hroute : ip ≠ 0 → ∀ q, s.server.sessions.routes.lookup ip = some q → q = p) :
    Leased (s.unmap p ip) := by
  rw [State.unmap]
  split
  · exact h
  · rename_i hne
    have hunmap : s.server.sessions.unmapIp ip =
        { s.server.sessions with routes := s.server.sessions.routes.erase ip } := if_neg hne
    have hold : ∀ j q, (s.server.sessions.routes.erase ip).lookup j = some q →
        s.server.sessions.routes.lookup j = some q := by
      intro j q hq
      rcases eq_or_ne j ip with rfl | hj
      · exact absurd ((AList.lookup_erase _ _).symm.trans hq) (by simp)
      · exact (AList.lookup_erase_ne hj).symm.trans hq
    rw [hunmap]
    exact { h with
      route := fun j q r hj hr => h.route j q r hj (hold j r hr)
      removing := fun q j hq hj r hr => h.removing q j hq hj r (hold j r hr)
      log := h.log.unmapped (hroute hne) }

/-- The collector releases what is with it alone, or what a revocation has found. -/
theorem Leased.release {c : Collector} (h : Leased (s.collectorTo c)) {p : ℕ} {ip : UInt32}
    (hne : ip ≠ 0) (hlease : s.lease ip = some (p, true)) (c' : Collector)
    (hnothing : (s.collectorTo c).removing = none) (hleaving' : c'.leaving = none)
    (habout : c'.about = none) (hwiped : c'.wiped = none)
    (hstamp : c'.stamp = none) (hwiping : c'.wiping = none) (hgone : c'.gone = none)
    (hfound : ∀ keyId j, c' ≠ .found keyId j)
    (hremoving : ∀ q j, (s.collectorTo c').removing = some (q, j) → q = p ∧ j = ip)
    (hreleased : (s.Live p → s.server.sessions.assignedIp p ≠ ip ∧
      ∀ w, (s.worker w).carried ≠ some (p, ip)) ∨ (s.collectorTo c').removing = some (p, ip)) :
    Leased ((s.release ip).collectorTo c') := by
  have hkept : ∀ j x, j ≠ ip → s.lease j = some x →
      Function.update s.lease ip none j = some x := fun j x hj hx =>
    (Function.update_of_ne hj _ _).trans hx
  have hold : ∀ j x, Function.update s.lease ip none j = some x → j ≠ ip ∧ s.lease j = some x := by
    intro j x hx
    rcases eq_or_ne j ip with rfl | hj
    · exact absurd ((Function.update_self _ _ _).symm.trans hx) (by simp)
    · exact ⟨hj, (Function.update_of_ne hj _ _).symm.trans hx⟩
  have hlive : ∀ q, ({ s with
      server := { s.server with pool := s.server.pool.release ip }
      lease := Function.update s.lease ip none }.collectorTo c').Present q → s.Live q :=
    fun q hq => hq.resolve_right fun hl => absurd (hleaving'.symm.trans hl) (by simp)
  have hbacked : ∀ q j, (s.Live q ∧ (s.server.sessions.assignedIp q = j ∨
      ∃ w, (s.worker w).carried = some (q, j))) → (s.collectorTo c).Backed q j →
      ({ s with
        server := { s.server with pool := s.server.pool.release ip }
        lease := Function.update s.lease ip none }.collectorTo c').Backed q j := by
    rintro q j ⟨hq, hhas⟩ (hb | hb)
    · rcases eq_or_ne j ip with rfl | hj
      · obtain rfl : q = p := (congrArg Prod.fst (Option.some.inj (hlease.symm.trans hb))).symm
        rcases hreleased with hgive | hgive
        · rcases hhas with hip | ⟨w, hw⟩
          · exact absurd hip (hgive hq).1
          · exact absurd hw ((hgive hq).2 w)
        · exact Or.inr hgive
      · exact Or.inl (hkept j _ hj hb)
    · exact absurd (hnothing.symm.trans hb) (by simp)
  rw [State.release, if_neg hne]
  refine { h with
    exclusive := h.exclusive.release ip
    allocated := fun j x hx => (IpPool.isAllocated_release ip j).mpr
      ⟨(hold j x hx).1, h.allocated j x (hold j x hx).2⟩
    route := fun j q r hj hr => h.route j q r (hold j _ hj).2 hr
    pending := fun w q j hw => hkept j _ ?_ (h.pending w q j hw)
    carried := fun w q j hw hq =>
      hbacked q j ⟨hlive q hq, Or.inr ⟨w, hw⟩⟩ (h.carried w q j hw (Or.inl (hlive q hq)))
    held := fun q hq hne' =>
      hbacked q _ ⟨hlive q hq, Or.inl rfl⟩ (h.held q (Or.inl (hlive q hq)) hne')
    cleaning := fun q j hq => ?_
    about := fun q j hq => absurd (habout.symm.trans hq) (by simp)
    apart := fun q j hq => absurd (hwiped.symm.trans hq) (by simp)
    stamp := fun q n hq => absurd (hstamp.symm.trans hq) (by simp)
    wiping := fun q hq => absurd (hwiping.symm.trans hq) (by simp)
    found := fun keyId j hc => absurd hc (hfound keyId j)
    removing := fun q j hq hj r hr => ?_
    gone := fun q hq => absurd (hgone.symm.trans hq) (by simp) }
  · rintro rfl
    exact absurd (hlease.symm.trans (h.pending w q j hw)) (by simp)
  · rcases hq with hq | hq
    · exact absurd (habout.symm.trans hq) (by simp)
    · exact absurd (hwiped.symm.trans hq) (by simp)
  · obtain ⟨rfl, rfl⟩ := hremoving q j hq
    exact h.route j q r hlease hr

/-- The collector erases the key id of the session it removes. -/
theorem Leased.erase {keyId : UInt64} {p : ℕ} {ip : UInt32}
    (h : Leased (s.collectorTo (.released keyId ip)))
    (hp : s.server.sessions.findByKeyId keyId = some p) :
    Leased ((s.setTable { s.server.sessions with
      byKeyId := s.server.sessions.byKeyId.erase keyId }).collectorTo (.erased p ip)) := by
  have hfind : ∀ k q, (s.server.sessions.byKeyId.erase keyId).lookup k = some q →
      k ≠ keyId ∧ s.server.sessions.findByKeyId k = some q := by
    intro k q hq
    rcases eq_or_ne k keyId with rfl | hk
    · exact absurd ((AList.lookup_erase _ _).symm.trans hq) (by simp)
    · exact ⟨hk, (AList.lookup_erase_ne hk).symm.trans hq⟩
  have hremoving : (s.collectorTo (.released keyId ip)).removing = some (p, ip) := by
    simp [State.removing, State.collectorTo, hp]
  have hpresent : ∀ q, ((s.setTable { s.server.sessions with
      byKeyId := s.server.sessions.byKeyId.erase keyId }).collectorTo (.erased p ip)).Present q →
      (s.collectorTo (.released keyId ip)).Present q := by
    rintro q (⟨k, hk⟩ | hq)
    · exact Or.inl ⟨k, (hfind k q hk).2⟩
    · obtain rfl := Option.some.inj hq
      exact Or.inl ⟨keyId, hp⟩
  have hbacked : ∀ q j, (s.collectorTo (.released keyId ip)).Backed q j →
      ((s.setTable { s.server.sessions with
        byKeyId := s.server.sessions.byKeyId.erase keyId }).collectorTo
          (.erased p ip)).Backed q j :=
    fun q j hb => hb.imp id fun hr => hremoving.symm.trans hr
  refine { h with
    fresh := fun q hq => h.fresh q (hq.imp fun k hk => (hfind k q hk).2)
    distinct := fun k k' q hk hk' => h.distinct k k' q (hfind k q hk).2 (hfind k' q hk').2
    carried := fun w q j hw hq => hbacked q j (h.carried w q j hw (hpresent q hq))
    held := fun q hq hne => hbacked q _ (h.held q (hpresent q hq) hne)
    cleaning := fun q j hq => ?_
    about := fun q j hq => by cases hq
    apart := fun q j hq => by cases hq
    stamp := fun q n hq => by cases hq
    wiping := fun q hq => by cases hq
    found := fun k j hc => by cases hc
    removing := fun q j hq => h.removing q j (hremoving.trans hq)
    gone := fun q hq hlive => ?_ }
  · rcases hq with hq | hq
    · cases hq
    · cases hq
  · obtain ⟨k, hk⟩ := hlive
    obtain rfl := Option.some.inj hq
    exact (hfind k p hk).1 (h.distinct k keyId p (hfind k p hk).2 hp)

/-- The collector looks at the address of the session again. -/
theorem Leased.reload {p : ℕ} {ip : UInt32} (h : Leased (s.collectorTo (.erased p ip))) :
    Leased (s.collectorTo (.reloaded p ip (s.server.sessions.assignedIp p))) := by
  have hlive : ∀ q, (s.collectorTo (.reloaded p ip (s.server.sessions.assignedIp p))).Present q →
      s.Live q ∧ q ≠ p := by
    rintro q (hq | hq)
    · refine ⟨hq, ?_⟩
      rintro rfl
      exact h.gone q rfl hq
    · exact nomatch hq
  have hbacked : ∀ q j, q ≠ p → (s.collectorTo (.erased p ip)).Backed q j →
      s.lease j = some (q, true) := by
    rintro q j hq (hb | hb)
    · exact hb
    · exact absurd (Prod.mk.inj (Option.some.inj hb)).1.symm hq
  refine { h with
    carried := fun w q j hw hq => Or.inl
      (hbacked q j (hlive q hq).2 (h.carried w q j hw (Or.inl (hlive q hq).1)))
    held := fun q hq hne => Or.inl
      (hbacked q _ (hlive q hq).2 (h.held q (Or.inl (hlive q hq).1) hne))
    cleaning := fun q j hq => ?_
    about := fun q j hq => nomatch hq
    apart := fun q j hq => nomatch hq
    stamp := fun q n hq => nomatch hq
    wiping := fun q hq => nomatch hq
    found := fun k j hc => nomatch hc
    removing := fun q j hq hj r hr => ?_
    gone := h.gone }
  · rcases hq with hq | hq
    · exact nomatch hq
    · exact nomatch hq
  · obtain ⟨rfl, rfl⟩ := Prod.mk.inj (Option.some.inj hq)
    rcases h.held p (Or.inr rfl) hj with hb | hb
    · exact h.route _ p r hb hr
    · exact h.removing p _ hb hj r hr

/-- The collector is done with the address of the session it removes. -/
theorem Leased.forget {p : ℕ} {ip ip' : UInt32} (h : Leased (s.collectorTo (.reloaded p ip ip'))) :
    Leased (s.collectorTo (.purging p)) := by
  have hlease : ∀ q j, s.Live q → (s.collectorTo (.reloaded p ip ip')).Backed q j →
      s.lease j = some (q, true) := by
    rintro q j hq (hb | hb)
    · exact hb
    · obtain ⟨rfl, -⟩ := Prod.mk.inj (Option.some.inj hb)
      exact absurd hq (h.gone p rfl)
  have hlive : ∀ q, (s.collectorTo (.purging p)).Present q → s.Live q := fun q hq =>
    hq.resolve_right fun hl => nomatch hl
  refine { h with
    carried := fun w q j hw hq => Or.inl
      (hlease q j (hlive q hq) (h.carried w q j hw (Or.inl (hlive q hq))))
    held := fun q hq hne => Or.inl (hlease q _ (hlive q hq) (h.held q (Or.inl (hlive q hq)) hne))
    cleaning := fun q j hq => ?_
    about := fun q j hq => nomatch hq
    apart := fun q j hq => nomatch hq
    stamp := fun q n hq => nomatch hq
    wiping := fun q hq => nomatch hq
    found := fun k j hc => nomatch hc
    removing := fun q j hq => nomatch hq
    gone := fun q hq => nomatch hq }
  rcases hq with hq | hq
  · exact nomatch hq
  · exact nomatch hq

/-- The collector has found no address to release. -/
theorem Leased.revokeNone {keyId : UInt64} {ip : UInt32}
    (h : Leased (s.collectorTo (.found keyId ip))) (hip : ip = 0) :
    Leased (s.collectorTo (.released keyId ip)) := by
  refine h.onward _ ?_ ?_ ?_ ?_ ?_ ?_ ?_ ?_ ?_
  · exact fun x hx => nomatch hx
  · intro p j hp hne
    rw [removing_released, Option.map_eq_some_iff] at hp
    obtain ⟨q, -, hq⟩ := hp
    exact absurd ((Prod.mk.inj hq).2.symm.trans hip) hne
  · exact fun p hp => nomatch hp
  · exact fun x hx => nomatch hx
  · exact fun x hx => nomatch hx
  · exact fun x hx => nomatch hx
  · exact fun p hp => nomatch hp
  · exact fun p hp => nomatch hp
  · exact fun k j hc => nomatch hc

/-- The endpoints are purged, the collector waits. -/
theorem Leased.awaitReaders {p : ℕ} (h : Leased (s.collectorTo (.purging p))) :
    Leased (s.collectorTo (.quiescing p)) := by
  refine h.onward _ ?_ ?_ ?_ ?_ ?_ ?_ ?_ ?_ ?_
  · exact fun x hx => nomatch hx
  · exact fun q j hq => nomatch hq
  · exact fun q hq => nomatch hq
  · exact fun x hx => nomatch hx
  · exact fun x hx => nomatch hx
  · exact fun x hx => nomatch hx
  · exact fun q hq => nomatch hq
  · exact fun q hq => nomatch hq
  · exact fun k j hc => nomatch hc

/-- **A step of the collector**. -/
theorem Leased.collect [Fintype ι] [DecidableEq ι] {s' : State S ι} (h : Leased s)
    (hstep : Control.collect s = some s') : Leased s' := by
  rw [Control.collect] at hstep
  have hself : s = s.collectorTo s.collector := rfl
  cases hc : s.collector with
  | rest =>
    rw [hc] at hstep
    exact absurd hstep (by simp)
  | checked p ip n =>
    rw [hc] at hstep
    rw [hself, hc] at h
    exact Option.some.inj hstep ▸ h.wipeRouting rfl
  | routingWiped p ip n =>
    rw [hc] at hstep
    rw [hself, hc] at h
    refine Option.some.inj hstep ▸ h.onward _ ?_ ?_ ?_ ?_ ?_ ?_ ?_ ?_ ?_
    · exact fun x hx => hx
    · exact fun q j hq _ => hq
    · exact fun q hq => hq
    · exact fun x hx => hx
    · exact fun x hx => hx
    · exact fun x hx => hx
    · exact fun q hq => hq
    · exact fun q hq => hq
    · exact fun keyId j hfound => by cases hfound
  | cryptoLoaded p ip n c =>
    rw [hc] at hstep
    rw [hself, hc] at h
    exact Option.some.inj hstep ▸ h.wipeKeys rfl
  | keysWiped p ip =>
    rw [hc] at hstep
    rw [hself, hc] at h
    have hunmapped := h.unmap p ip fun hne q hq =>
      h.route ip p q ((h.cleaning p ip (Or.inr rfl)).2 hne) hq
    rw [unmap_collectorTo] at hunmapped
    refine Option.some.inj hstep ▸ hunmapped.onward _ ?_ ?_ ?_ ?_ ?_ ?_ ?_ ?_ ?_
    · exact fun x hx => by cases hx
    · exact fun q j hq => by cases hq
    · exact fun q hq => by cases hq
    · exact fun x hx => by cases hx
    · exact fun x hx => hx
    · exact fun x hx => by cases hx
    · exact fun q hq => by cases hq
    · exact fun q hq => by cases hq
    · exact fun keyId j hfound => by cases hfound
  | unmapped p ip =>
    rw [hc] at hstep
    rw [hself, hc] at h
    obtain rfl := Option.some.inj hstep
    by_cases hne : ip = 0
    · rw [State.release, if_pos hne]
      exact h.rest rfl
    · refine h.release hne ((h.cleaning p ip (Or.inr rfl)).2 hne) .rest rfl rfl rfl rfl rfl rfl rfl
        ?_ ?_ (Or.inl fun _ => h.apart p ip rfl hne)
      · exact fun keyId j hfound => by cases hfound
      · exact fun q j hq => by cases hq
  | found keyId ip =>
    rw [hc] at hstep
    rw [hself, hc] at h
    obtain rfl := Option.some.inj hstep
    by_cases hne : ip = 0
    · rw [State.release, if_pos hne]
      exact h.revokeNone hne
    · obtain ⟨p, hp, hlease⟩ := h.found keyId ip rfl hne
      have hremoving : (s.collectorTo (.released keyId ip)).removing = some (p, ip) := by
        rw [removing_released, show s.server.sessions.findByKeyId keyId = some p from hp]
        rfl
      refine h.release hne hlease (.released keyId ip) rfl rfl rfl rfl rfl rfl rfl ?_ ?_
        (Or.inr hremoving)
      · exact fun k j hfound => by cases hfound
      · intro q j hq
        obtain ⟨rfl, rfl⟩ := Prod.mk.inj (Option.some.inj (hremoving.symm.trans hq))
        exact ⟨rfl, rfl⟩
  | released keyId ip =>
    rw [hc] at hstep
    rw [hself, hc] at h
    simp only at hstep
    split at hstep
    · rename_i hnone
      refine Option.some.inj hstep ▸ h.rest ?_
      rw [removing_released, hnone]
      rfl
    · rename_i p hp
      exact Option.some.inj hstep ▸ h.erase hp
  | erased p ip =>
    rw [hc] at hstep
    rw [hself, hc] at h
    exact Option.some.inj hstep ▸ h.reload
  | reloaded p ip ip' =>
    rw [hc] at hstep
    rw [hself, hc] at h
    have hunmapped := h.unmap p ip' (h.removing p ip' rfl)
    rw [unmap_collectorTo] at hunmapped
    exact Option.some.inj hstep ▸ hunmapped.forget
  | purging p =>
    rw [hc] at hstep
    rw [hself, hc] at h
    have hpurged := h.frame { s.server with
      sessions := s.server.sessions.eraseEndpoints fun q => q = p } rfl rfl rfl rfl fun _ => rfl
    exact Option.some.inj hstep ▸ hpurged.awaitReaders
  | quiescing p =>
    rw [hc] at hstep
    rw [hself, hc] at h
    simp only at hstep
    split at hstep
    · have hrecycled := h.store p (x := (s.session p).recycle) (fun _ hne => absurd rfl hne)
        (fun ip hip => by cases hip) (fun ip hip => by cases hip)
      exact Option.some.inj hstep ▸ Leased.rest (c := .quiescing p) hrecycled rfl
    · exact absurd hstep (by simp)

/-! ### The other steps, and runs -/

/-- A new session enters the table. -/
theorem Leased.insertSession (h : Leased (s.collectorTo .rest)) {x : Session}
    (hip : x.routing.assignedIp = 0) :
    Leased ((s.setTable (s.server.sessions.insertSession x)).collectorTo .rest) := by
  have hcases := fun keyId q =>
    s.server.sessions.findByKeyId_of_insertSession x keyId q
  have hips : ∀ q, q ≠ s.server.sessions.next →
      (s.server.sessions.insertSession x).assignedIp q = s.server.sessions.assignedIp q :=
    fun q hq => by simp [SessionTable.assignedIp, SessionTable.insertSession, hq]
  have hnew : (s.server.sessions.insertSession x).assignedIp s.server.sessions.next = 0 := by
    simp [SessionTable.assignedIp, SessionTable.insertSession, hip]
  have hpresent : ∀ q,
      ((s.setTable (s.server.sessions.insertSession x)).collectorTo .rest).Present q →
      q = s.server.sessions.next ∨ s.Live q := by
    rintro q (⟨keyId, hq⟩ | hq)
    · exact (hcases keyId q hq).imp (fun hq => hq.2) fun hq => ⟨keyId, hq⟩
    · cases hq
  refine { h with
    fresh := fun q hq => ?_
    jobs := fun w q hq => Nat.lt_succ_of_lt (h.jobs w q hq)
    distinct := fun keyId keyId' q hq hq' => ?_
    carried := fun w q j hw hq => ?_
    held := fun q hq hne => ?_
    cleaning := fun q j hq => ?_
    about := fun q j hq => by cases hq
    apart := fun q j hq => by cases hq
    found := fun keyId j hc => by cases hc
    gone := fun q hq => by cases hq }
  · obtain ⟨keyId, hq⟩ := hq
    rcases hcases keyId q hq with ⟨-, rfl⟩ | hq
    · exact Nat.lt_succ_self _
    · exact Nat.lt_succ_of_lt (h.fresh q ⟨keyId, hq⟩)
  · rcases hcases keyId q hq with ⟨hkey, hnext⟩ | hq <;>
      rcases hcases keyId' q hq' with ⟨hkey', hnext'⟩ | hq'
    · exact hkey.trans hkey'.symm
    · exact absurd hnext (h.fresh q ⟨keyId', hq'⟩).ne
    · exact absurd hnext' (h.fresh q ⟨keyId, hq⟩).ne
    · exact h.distinct keyId keyId' q hq hq'
  · rcases hpresent q hq with rfl | hq
    · exact absurd (h.jobs w _ (Worker.session_of_carried hw)) (lt_irrefl _)
    · exact h.carried w q j hw (Or.inl hq)
  · rcases hpresent q hq with rfl | hq
    · exact absurd hnew hne
    · have hold := hips q (h.fresh q hq).ne
      exact hold ▸ h.held q (Or.inl hq) (hold ▸ hne)
  · rcases hq with hq | hq
    · cases hq
    · cases hq

/-- A device is registered. -/
theorem Leased.register (L : Library S) (D : KeyDerivation) (h : Leased (s.collectorTo .rest))
    (now : ℤ) (token customKidHex : String) :
    Leased ({ s with
      server := (s.server.registerDevice L D now token customKidHex).1 }.collectorTo .rest) := by
  rw [State.registerDevice]
  split
  · exact h
  · split
    · exact h
    · rename_i masterKey _
      have hentered := fun keyId => h.insertSession (x := newDevice L keyId masterKey now) rfl
      exact (hentered _).frame _ rfl rfl rfl rfl fun _ => rfl

/-- A revocation begins: what the session holds is leased to it. -/
theorem Leased.revoke (h : Leased (s.collectorTo .rest)) (keyId : UInt64) (hs : HandshakeServer) :
    Leased ({ s with server := { s.server with hs := hs } }.collectorTo (.found keyId
      (((s.server.sessions.findByKeyId keyId).map s.server.sessions.assignedIp).getD 0))) := by
  have hframe := h.frame { s.server with hs := hs } rfl rfl rfl rfl fun _ => rfl
  refine hframe.onward _ ?_ ?_ ?_ ?_ ?_ ?_ ?_ ?_ ?_
  · exact fun x hx => nomatch hx
  · exact fun q j hq => nomatch hq
  · exact fun q hq => nomatch hq
  · exact fun x hx => nomatch hx
  · exact fun x hx => nomatch hx
  · exact fun x hx => nomatch hx
  · exact fun q hq => nomatch hq
  · exact fun q hq => nomatch hq
  · intro k ip hc hne
    obtain ⟨rfl, rfl⟩ := Collector.found.inj hc
    rcases hfind : s.server.sessions.findByKeyId keyId with _ | p
    · rw [hfind] at hne
      exact absurd rfl hne
    · rw [hfind] at hne
      refine ⟨p, rfl, ?_⟩
      rcases h.held p (Or.inl ⟨keyId, hfind⟩) hne with hlease | hremoving
      · exact hlease
      · exact nomatch hremoving

/-- The values of the key index are the sessions in it. -/
theorem live_of_mem {p : ℕ}
    (hp : p ∈ s.server.sessions.byKeyId.entries.map fun entry => entry.2) : s.Live p := by
  obtain ⟨⟨keyId, q⟩, hmem, rfl⟩ := List.mem_map.mp hp
  exact ⟨keyId, AList.mem_lookup_iff.mpr hmem⟩

/-- **A step** that crosses nobody. -/
theorem Leased.step [Fintype ι] [DecidableEq ι] (L : Library S) (D : KeyDerivation)
    {s' : State S ι} {a : Action S ι} (h : Leased s) (hok : NoCrossing s a)
    (hstep : Control.step L D s a = some s') : Leased s' := by
  obtain ⟨server, worker, collector, lease, installs, log⟩ := s
  cases a with
  | receive w d calls =>
    rw [Control.step] at hstep
    split at hstep
    · obtain rfl := Option.some.inj hstep
      have hframe := fun hs => h.frame { server with hs := hs } rfl rfl rfl rfl
        fun _ => rfl
      split
      · exact hframe _
      · exact (hframe _).gotoFree w rfl rfl rfl rfl
    · exact absurd hstep (by simp)
  | next w => exact h.next L hok hstep
  | register now token customKidHex =>
    rw [Control.step] at hstep
    split at hstep
    · rename_i hrest
      obtain rfl : collector = .rest := hrest
      exact Option.some.inj hstep ▸ Leased.register L D h now token customKidHex
    · exact absurd hstep (by simp)
  | setSlots keyId slots =>
    simp only [Control.step] at hstep
    split at hstep
    · obtain rfl := Option.some.inj hstep
      exact h.frame _ rfl rfl rfl rfl fun _ => rfl
    · exact absurd hstep (by simp)
  | check now p =>
    rw [Control.step] at hstep
    split at hstep
    · rename_i hrest
      obtain rfl : collector = .rest := hrest
      split at hstep
      · rename_i hp
        simp only at hstep
        split at hstep
        · rename_i hidle
          exact Option.some.inj hstep ▸ Leased.check h (live_of_mem hp) (hok hidle)
        · exact Option.some.inj hstep ▸ h
      · exact absurd hstep (by simp)
    · exact absurd hstep (by simp)
  | revoke keyId =>
    rw [Control.step] at hstep
    split at hstep
    · rename_i hrest
      obtain rfl : collector = .rest := hrest
      exact Option.some.inj hstep ▸ Leased.revoke h keyId _
    · exact absurd hstep (by simp)
  | collect => exact h.collect hstep

/-- Threads at rest on a server that has given out nothing. -/
theorem leased_start {pool : IpPool} (hpool : pool.Exclusive) (boot : Vector UInt8 32) :
    Leased (start (init pool boot) : State S ι) := by
  have hempty : ∀ p, ¬(start (init pool boot) : State S ι).Live p := fun p ⟨keyId, hp⟩ => by
    exact nomatch hp
  constructor
  · exact hpool
  · exact fun ip x hx => nomatch hx
  · exact fun ip p q hip => nomatch hip
  · exact fun p hp => absurd hp (hempty p)
  · exact fun w p hp => nomatch hp
  · exact fun keyId keyId' p hp => absurd ⟨keyId, hp⟩ (hempty p)
  · exact fun w p ip hp => nomatch hp
  · exact fun w w' p p' ip hp => nomatch hp
  · exact fun w p ip hp => nomatch hp
  · exact fun p hp => absurd hp (fun hp => hp.elim (hempty p) fun hl => nomatch hl)
  · exact fun p ip hp => hp.elim (fun hp => nomatch hp) fun hp => nomatch hp
  · exact fun p ip hp => nomatch hp
  · exact fun p ip hp => nomatch hp
  · exact fun p n hp => nomatch hp
  · exact fun p hp => nomatch hp
  · exact fun keyId ip hc => nomatch hc
  · exact fun p ip hp => nomatch hp
  · exact fun p hp => nomatch hp
  · exact ⟨fun p ip q hp => (nomatch hp), fun p n n' hp => nomatch hp⟩

/-- **The collector takes away what belongs to its session** in every state of a run in
which the threads do not cross. -/
theorem ownOnly_of_meets [Fintype ι] [DecidableEq ι] (L : Library S) (D : KeyDerivation)
    {ip : UInt32} {prefixLen : ℕ} {pool : IpPool} (hpool : IpPool.ofCidr ip prefixLen = some pool)
    (bootSecret : Vector UInt8 32) (as : List (Action S ι)) (t : State S ι)
    (hok : Meets (Control.step L D) NoCrossing (start (init pool bootSecret)) as)
    (hrun : runs (Control.step L D) (start (init pool bootSecret)) as = some t) : OwnOnly t.log :=
  (inv_of_meets (I := Leased) (fun h hok hstep => h.step L D hok hstep)
    (leased_start (IpPool.exclusive_ofCidr hpool) bootSecret) hok hrun).log

end

/-! ### Crossings -/

section

open Bytes

/-- One master key, and the key ids 5 and 6. -/
def pairDerivation : KeyDerivation where
  computeKeyId _ := le64 5
  scanKeyId hex := if hex = "05" then 5 else 6
  deriveMasterKey _ _ := some (Vector.replicate 32 9)

/-- Two workers on a server with the addresses of `10.8.0.0/30` or a larger network. -/
def pairStart (pool : IpPool) : State UInt8 (Fin 2) := start (init pool (Vector.replicate 32 1))

/-- The pool with one address. -/
def onePool : IpPool := (IpPool.ofCidr 0x0A080000 30).get (by decide)

/-- The pool with five addresses. -/
def fivePool : IpPool := (IpPool.ofCidr 0x0A080000 29).get (by decide)

/-- Two devices are registered. -/
def registerPair : List (Action UInt8 (Fin 2)) :=
  [.register 1000 "user" "05", .register 1000 "other" "06"]

/-- The worker `w` receives a request of the device `keyId` at the address `ip`, and takes
`n` steps. -/
def requestSteps (w : Fin 2) (keyId now : UInt64) (ip : UInt32) (n : ℕ) :
    List (Action UInt8 (Fin 2)) :=
  let client : HandshakeClient UInt8 := ⟨le64 keyId, Vector.replicate 32 9, some 3⟩
  .receive w
    ⟨client.buildInit smallLibrary .ok now, ⟨ip, 5000⟩, 3, 0, (now.toNat : ℤ)⟩
    ⟨now, some 0, ⟨some ⟨4, 1⟩, true, some 77, true, true⟩, emptyKeys, now,
      ⟨true, some (Vector.replicate 32 8), true⟩⟩ :: List.replicate n (.next w)

/-- The session of the first device is revoked; once its address is released, the second
device connects and has it mapped, and only then is it unmapped. -/
def releasedRun : List (Action UInt8 (Fin 2)) :=
  registerPair ++ requestSteps 0 5 2000 1 8 ++ [.revoke 5, .collect] ++ requestSteps 1 6 3000 2 3 ++
    List.replicate 3 .collect

/-- The session of the first device is found idle and its routing is wiped; the device
connects again, and then its keys are wiped. -/
def reconnectedRun : List (Action UInt8 (Fin 2)) :=
  registerPair ++ requestSteps 0 5 2000 1 8 ++ [.check 700000 0, .collect] ++
    requestSteps 1 5 700000 2 8 ++ List.replicate 2 .collect

/-- **A revocation erases the route of the session that has the address by then, and an
idle cleanup wipes what a handshake has stored since the check.** -/
theorem not_ownOnly :
    (∃ t, runs (step smallLibrary pairDerivation) (pairStart onePool) releasedRun = some t ∧
      t.log = [.unmapped 0 0x0A080002 (some 1)] ∧ ¬OwnOnly t.log) ∧
    ∃ t, runs (step smallLibrary pairDerivation) (pairStart fivePool) reconnectedRun = some t ∧
      t.log = [.wiped 0 2 4, .wiped 0 2 2] ∧ ¬OwnOnly t.log := by
  constructor
  · obtain ⟨t, ht, hlog⟩ := Option.map_eq_some_iff.mp
      (show (runs (step smallLibrary pairDerivation) (pairStart onePool) releasedRun).map
          State.log =
        some [.unmapped 0 0x0A080002 (some 1)] by decide +kernel)
    refine ⟨t, ht, hlog, fun h => ?_⟩
    exact absurd (h.routes 0 0x0A080002 1 (by simp [hlog])) (by decide)
  · obtain ⟨t, ht, hlog⟩ := Option.map_eq_some_iff.mp
      (show (runs (step smallLibrary pairDerivation) (pairStart fivePool) reconnectedRun).map
        State.log = some [.wiped 0 2 4, .wiped 0 2 2] by decide +kernel)
    refine ⟨t, ht, hlog, fun h => ?_⟩
    exact absurd (h.wipes 0 2 4 (by simp [hlog])) (by decide)

/-- The device connects, is idle until it is cleaned up, connects again and is revoked. -/
def quietRun : List (Action UInt8 (Fin 2)) :=
  registerPair ++ requestSteps 0 5 2000 1 8 ++ .check 700000 0 :: List.replicate 5 .collect ++
    requestSteps 1 5 700000 2 8 ++ .revoke 5 :: List.replicate 6 .collect

theorem ownOnly_quietRun :
    ∃ t, runs (step smallLibrary pairDerivation) (pairStart onePool) quietRun = some t ∧
      t.log = [.unmapped 0 0x0A080002 (some 0), .unmapped 0 0x0A080002 (some 0), .wiped 0 2 2,
        .wiped 0 2 2] ∧ OwnOnly t.log := by
  obtain ⟨t, ht, hlog⟩ := Option.map_eq_some_iff.mp
    (show (runs (step smallLibrary pairDerivation) (pairStart onePool) quietRun).map State.log =
      some [.unmapped 0 0x0A080002 (some 0), .unmapped 0 0x0A080002 (some 0), .wiped 0 2 2,
        .wiped 0 2 2] by decide +kernel)
  exact ⟨t, ht, hlog, ownOnly_of_meets smallLibrary pairDerivation (Option.some_get _).symm
    (Vector.replicate 32 1) quietRun t (by decide +kernel) ht⟩

end

end Control

end Server

end Aegs
