import Aegs.Server.Dispatch
import Aegs.Server.Ownership

/-!
# What goes through the TUN device

Two filters stand at the TUN device. On the way in, the ACL of `process_udp_packet` looks at
the source address of what a session has sent. It looks at IPv4 packets of at least twenty
bytes from a session with an address, and takes that address in either byte order; everything
else slips past it (`Aegs.Server.Slips`). So what is written comes from the session's own
address exactly if no payload slips past (`Aegs.Server.meets_writesOwnSource_iff`).

On the way out, the isolation check of `worker_loop` drops what comes from a client: a packet
whose source address is that of a session, and not its destination. It takes the address in
one byte order, and reads it from the same bytes of whatever the packet is. What the ACL has
held against the address of its session is recognised, as long as the session has that address:
the route of an address leads to its owner. So clients stay apart if nothing that slipped past
the ACL, or whose session has another address by then, is for another client
(`Aegs.Server.isolated_of_meets`).
-/

namespace Aegs

namespace Server

open Bytes Handshake Transition Wire

/-! ### On the way in -/

/-- **An IPv4 packet from the session's address.** -/
def Session.OwnSource (s : Session) (inner : List UInt8) : Prop :=
  20 ≤ inner.length ∧ ipVersion inner = 4 ∧ s.routing.assignedIp ≠ 0 ∧
    srcIp inner = s.routing.assignedIp

/-- **A payload slips past the ACL** of a session with this address: it is too short or not of
IPv4, there is no address, or the source is the address the other way round. -/
def Slips (ip : UInt32) (payload : List UInt8) : Prop :=
  payload.length < 20 ∨ ipVersion payload ≠ 4 ∨ ip = 0 ∨
    (srcIp payload = bswap32 ip ∧ srcIp payload ≠ ip)

instance decidableSlips (ip : UInt32) (payload : List UInt8) : Decidable (Slips ip payload) :=
  inferInstanceAs (Decidable (_ ∨ _ ∨ _ ∨ (_ ∧ _)))

/-- **What the ACL lets through**: what comes from the session's address, and what slips past. -/
theorem tunAcl_eq_some_iff {s : Session} {payload inner : List UInt8} :
    s.tunAcl payload = some inner ↔
      inner = payload ∧ (s.OwnSource payload ∨ Slips s.routing.assignedIp payload) := by
  have hpass : ∀ {P : Prop}, P → (some payload = some inner ↔ inner = payload ∧ P) := fun hp =>
    ⟨fun h => ⟨(Option.some.inj h).symm, hp⟩, fun h => congrArg some h.1.symm⟩
  rw [Session.tunAcl]
  split_ifs with hlen hversion
  · simp only
    split_ifs with hip hsrc
    · refine iff_of_false (fun h => by cases h) ?_
      rintro ⟨-, ⟨-, -, -, hown⟩ | hshort | hother | hzero | ⟨hswap, -⟩⟩
      · exact hsrc.1 hown
      · exact absurd hlen (not_le.mpr hshort)
      · exact hother hversion
      · exact hip hzero
      · exact hsrc.2 hswap
    · -- the ACL takes the address in either byte order
      refine hpass ?_
      rcases eq_or_ne (srcIp payload) s.routing.assignedIp with hown | hother
      · exact Or.inl ⟨hlen, hversion, hip, hown⟩
      · have hswap : srcIp payload = bswap32 s.routing.assignedIp := by
          by_contra hne
          exact hsrc ⟨hother, hne⟩
        exact Or.inr (Or.inr (Or.inr (Or.inr ⟨hswap, hother⟩)))
    · exact hpass (Or.inr (Or.inr (Or.inr (Or.inl (not_not.mp hip)))))
  · exact hpass (Or.inr (Or.inr (Or.inl hversion)))
  · exact hpass (Or.inr (Or.inl (not_le.mp hlen)))

/-- What comes from the session's address does not slip past. -/
theorem Session.OwnSource.not_slips {s : Session} {payload : List UInt8}
    (h : s.OwnSource payload) : ¬Slips s.routing.assignedIp payload := by
  obtain ⟨hlen, hversion, hip, hown⟩ := h
  rintro (hshort | hother | hzero | ⟨-, hne⟩)
  · exact absurd hlen (not_le.mpr hshort)
  · exact hother hversion
  · exact hip hzero
  · exact hne hown

/-- **The payload that is put to the ACL**, and the session it is from. -/
def State.payload (C : DataCipher) (st : State) (e : Arrival) : Option (ℕ × List UInt8) :=
  if e.d.data.length < 56 then none
  else
    match st.dispatch C e with
    | (_, none) => none
    | (st, some m) =>
      ((st.decrypt C m e).bind (payloadOf m.hdr)).map fun payload => (m.session, payload)

section

variable {C : DataCipher} {st : State}

/-- The address of a session that authenticates a packet. -/
theorem assignedIp_authenticate (s : Session) (seq : UInt64) (usedAltMask : Bool) (d : Datagram) :
    (s.authenticate seq usedAltMask d).routing.assignedIp = s.routing.assignedIp := by
  simp only [Session.authenticate, SessionRouting.roam]
  split <;> rfl

/-- The ACL asks for the address of the session, and for nothing else of it. -/
theorem tunAcl_congr {s s' : Session} (h : s.routing.assignedIp = s'.routing.assignedIp) :
    s.tunAcl = s'.tunAcl := by
  funext inner
  rw [Session.tunAcl, Session.tunAcl, h]

/-- **What is written to the TUN device** is the payload, if the ACL lets it through. -/
theorem data_snd (e : Arrival) : (st.data C e).2 = (st.payload C e).bind fun r =>
    ((st.sessions.heap r.1).tunAcl r.2).map fun inner => (r.1, inner) := by
  have hheap : (st.dispatch C e).1.sessions.heap = st.sessions.heap := heap_dispatch
  rw [State.data, State.payload]
  split
  · rfl
  · rcases hdispatch : st.dispatch C e with ⟨st', _ | m⟩
    · rfl
    · rw [hdispatch] at hheap
      simp only at hheap ⊢
      rcases hframe : st'.decrypt C m e with _ | frame
      · rfl
      · simp only [Option.bind_some]
        rw [hheap, tunAcl_congr (assignedIp_authenticate (st.sessions.heap m.session) _ _ _)]
        cases payloadOf m.hdr frame <;> rfl

/-- What is written has gone through the ACL of its session. -/
theorem tunAcl_of_data {e : Arrival} {p : ℕ} {inner : List UInt8}
    (h : (st.data C e).2 = some (p, inner)) :
    st.payload C e = some (p, inner) ∧ (st.sessions.heap p).tunAcl inner = some inner := by
  rw [data_snd, Option.bind_eq_some_iff] at h
  obtain ⟨⟨q, payload⟩, hpayload, hmap⟩ := h
  obtain ⟨inner', hacl, heq⟩ := Option.map_eq_some_iff.mp hmap
  obtain ⟨rfl, rfl⟩ := Prod.mk.inj heq
  obtain ⟨rfl, -⟩ := tunAcl_eq_some_iff.mp hacl
  exact ⟨hpayload, hacl⟩

/-- **Nobody else is stored** than the session that it is written for. -/
theorem heap_data_of_ne {e : Arrival} {p q : ℕ} {inner : List UInt8}
    (h : (st.data C e).2 = some (p, inner)) (hq : q ≠ p) :
    (st.data C e).1.sessions.heap q = st.sessions.heap q := by
  have hheap : (st.dispatch C e).1.sessions.heap = st.sessions.heap := heap_dispatch
  rw [State.data] at h ⊢
  split at h
  · cases h
  · rename_i hlen
    rw [if_neg hlen]
    rcases hdispatch : st.dispatch C e with ⟨st', _ | m⟩
    · rw [hdispatch] at h
      cases h
    · rw [hdispatch] at h hheap
      simp only at h hheap ⊢
      split at h
      · cases h
      · obtain ⟨inner', -, heq⟩ := Option.map_eq_some_iff.mp h
        obtain ⟨rfl, -⟩ := Prod.mk.inj heq
        rw [← hheap]
        exact Function.update_of_ne hq _ _

end

/-- The event writes nothing to the TUN device but IPv4 packets from the address of the session
it is written for. -/
def WritesOwnSource {S : Type} (C : DataCipher) (st : State) (ev : Event S) : Prop :=
  ∀ e, ev = .data e → ∀ p inner, (st.data C e).2 = some (p, inner) →
    (st.sessions.heap p).OwnSource inner

/-- No payload of the event slips past the ACL. -/
def NoneSlips {S : Type} (C : DataCipher) (st : State) (ev : Event S) : Prop :=
  ∀ e, ev = .data e → ∀ p payload, st.payload C e = some (p, payload) →
    ¬Slips (st.sessions.heap p).routing.assignedIp payload

section

variable {S : Type} (L : Library S) (T : TokenCipher) (D : KeyDerivation) (C : DataCipher)

/-- **In a run of the server everything written to the TUN device comes from the address of its
session, exactly if no payload slips past the ACL.** -/
theorem meets_writesOwnSource_iff (isolation : Bool) (pool : IpPool)
    (bootSecret : Vector UInt8 32) (evs : List (Event S)) :
    Meets (advance L T D C isolation) (WritesOwnSource C) (init pool bootSecret) evs ↔
      Meets (advance L T D C isolation) (NoneSlips C) (init pool bootSecret) evs := by
  refine meets_congr fun st ev => ⟨fun h e hev p payload hpayload hslips => ?_,
    fun h e hev p inner hwritten => ?_⟩
  · -- what slips past is written
    have hacl := tunAcl_eq_some_iff.mpr ⟨rfl, Or.inr hslips⟩
    have hwritten : (st.data C e).2 = some (p, payload) := by
      rw [data_snd, hpayload, Option.bind_some, hacl]
      rfl
    exact (h e hev p payload hwritten).not_slips hslips
  · obtain ⟨hpayload, hacl⟩ := tunAcl_of_data hwritten
    exact (tunAcl_eq_some_iff.mp hacl).2.resolve_right (h e hev p inner hpayload)

end

/-- A packet of the user's first device with this payload, under the keys of its session. -/
def phonePacket (payload : List UInt8) : Arrival :=
  ⟨⟨encodePacket smallDataCipher 5 (Vector.replicate 32 98) (Vector.replicate 32 168) 1 payload 0
    (smallDraws (Vector.replicate 12 0)), ⟨1, 5000⟩, 3, 0, 3000⟩, [5, 49, 52, 50, 51], true,
    fun _ => true⟩

/-- **An IPv6 packet goes through**, from whatever address. -/
theorem not_writesOwnSource :
    ¬∀ (isolation : Bool) (pool : IpPool) (bootSecret : Vector UInt8 32)
      (evs : List (Event UInt8)),
      Meets (advance smallLibrary smallCipher letterDerivation smallDataCipher isolation)
        (WritesOwnSource smallDataCipher) (init pool bootSecret) evs := by
  intro h
  obtain ⟨st, hst, hwrites⟩ := Option.map_eq_some_iff.mp
    (show (runs (advance smallLibrary smallCipher letterDerivation smallDataCipher true)
      smallStart phoneRun).map (fun st => (st.data smallDataCipher
        (phonePacket (0x60 :: List.replicate 39 0))).2) =
          some (some (0, 0x60 :: List.replicate 39 0)) by decide +kernel)
  have hmeets := (h true smallPool (Vector.replicate 32 1) (phoneRun ++
    [.data (phonePacket (0x60 :: List.replicate 39 0))])).of_append hst
  obtain ⟨-, hversion, -⟩ := hmeets.1 _ rfl 0 _ hwrites
  exact absurd hversion (by decide)

/-! ### On the way out -/

/-- What was written to the TUN device, with the session it was written for. -/
structure Written where
  /-- The session. -/
  session : ℕ
  /-- The address of the session then. -/
  ip : UInt32
  /-- The packet. -/
  packet : List UInt8

/-- The server, and what it has written to the TUN device, latest first. -/
structure Traffic where
  /-- The server. -/
  server : State
  /-- History: what was written. -/
  written : List Written

/-- Owners and addresses are the same. -/
structure SameOwners (st st' : State) : Prop where
  /-- The pool is the same. -/
  pool : st'.pool = st.pool
  /-- The sessions are found under the same key ids. -/
  byKeyId : st'.sessions.byKeyId = st.sessions.byKeyId
  /-- None is new. -/
  next : st'.sessions.next = st.sessions.next
  /-- The routes are the same. -/
  routes : st'.sessions.routes = st.sessions.routes
  /-- So are the addresses. -/
  assignedIp : ∀ p, st'.sessions.assignedIp p = st.sessions.assignedIp p

theorem SameOwners.refl (st : State) : SameOwners st st := ⟨rfl, rfl, rfl, rfl, fun _ => rfl⟩

theorem SameOwners.trans {st st' st'' : State} (h : SameOwners st st') (h' : SameOwners st' st'') :
    SameOwners st st'' where
  pool := h'.pool.trans h.pool
  byKeyId := h'.byKeyId.trans h.byKeyId
  next := h'.next.trans h.next
  routes := h'.routes.trans h.routes
  assignedIp p := (h'.assignedIp p).trans (h.assignedIp p)

theorem SameOwners.books {st st' : State} (h : SameOwners st st') (hbooks : st.Books) :
    st'.Books := by
  rw [State.Books, h.pool]
  refine Ownership.congr hbooks h.byKeyId h.next (fun ip => ?_) h.assignedIp
  rw [h.routes]

/-- A session is stored with the address it has. -/
theorem sameOwners_setSession (st : State) {p : ℕ} {s : Session}
    (hip : s.routing.assignedIp = (st.sessions.heap p).routing.assignedIp) :
    SameOwners st { st with sessions := st.sessions.setSession p s } where
  pool := rfl
  byKeyId := rfl
  next := rfl
  routes := rfl
  assignedIp q := by
    refine (assignedIp_store st.sessions p q s 0).trans ?_
    split
    · rename_i hq
      rw [hq, hip]
      rfl
    · rfl

section

variable (C : DataCipher) (st : State)

theorem sameOwners_dispatch (e : Arrival) : SameOwners st (st.dispatch C e).1 := by
  rw [State.dispatch]
  split
  · exact .refl st
  · split
    · exact ⟨rfl, rfl, rfl, rfl, fun _ => rfl⟩
    · exact .refl st

/-- Packets leave owners and addresses alone. -/
theorem sameOwners_data (e : Arrival) : SameOwners st (st.data C e).1 := by
  have hdispatch := sameOwners_dispatch C st e
  rw [State.data]
  split
  · exact .refl st
  · rcases heq : st.dispatch C e with ⟨st', _ | m⟩
    · rwa [heq] at hdispatch
    · rw [heq] at hdispatch
      simp only
      split
      · exact hdispatch
      · exact hdispatch.trans (sameOwners_setSession st' (assignedIp_authenticate _ _ _ _))

theorem sameOwners_tun (isolation : Bool) (buffer : List UInt8) (now : ℤ)
    (draws : Option Draws) : SameOwners st (st.tun C isolation buffer now draws).1 := by
  rcases tun_eq C st isolation buffer now draws with htun | ⟨p, htun⟩
  · rw [htun]
    exact .refl st
  · rw [htun]
    exact sameOwners_setSession st rfl

/-- **The book of leases stays sound** in every event but a resume that takes an address from its
token. -/
theorem advance_books {S : Type} (L : Library S) (T : TokenCipher) (D : KeyDerivation)
    {isolation : Bool} {st st' : State} {ev : Event S} (h : st.Books)
    (hok : ∀ op, ev = .op op → noAddressFromToken L T st op = true)
    (hstep : advance L T D C isolation st ev = some st') : st'.Books := by
  cases ev with
  | op op => exact step_books L T D h (hok op rfl) hstep
  | data e =>
    obtain ⟨-, hst⟩ := Option.ite_none_right_eq_some.mp hstep
    exact Option.some.inj hst ▸ (sameOwners_data C st e).books h
  | tun buffer now draws =>
    obtain ⟨-, hst⟩ := Option.ite_none_right_eq_some.mp hstep
    exact Option.some.inj hst ▸ (sameOwners_tun C st isolation buffer now draws).books h

end

/-- The session can be sent packets. -/
def Session.Connected (s : Session) : Prop :=
  s.crypto.v3HandshakeDone = true ∧ s.routing.hasClient = true ∧ 0 ≤ s.routing.lastServerFd

/-- **A packet from the TUN device is sent** to the session that it is routed to, if that is
connected and the isolation check lets the packet through. -/
theorem tun_isSome_iff {C : DataCipher} {st : State} {isolation : Bool} {buffer : List UInt8}
    {now : ℤ} {draws : Option Draws} {p : ℕ} :
    (∃ sent, (st.tun C isolation buffer now draws).2 = some sent ∧ sent.session = p) ↔
      draws.isSome = true ∧ 20 ≤ buffer.length ∧ st.sessions.routeOf buffer = some p ∧
        ¬(isolation = true ∧ st.sessions.isolates buffer = true) ∧
          (st.sessions.heap p).Connected := by
  -- the checks in the order of the source; behind each that fails nothing is sent
  rw [State.tun]
  by_cases hlen : buffer.length < 20
  · rw [if_pos hlen]
    exact ⟨fun h => (by obtain ⟨_, hnone, -⟩ := h; cases hnone),
      fun h => absurd h.2.1 (not_le.mpr hlen)⟩
  rw [if_neg hlen]
  rcases hroute : st.sessions.routeOf buffer with _ | q
  · exact ⟨fun h => (by obtain ⟨_, hnone, -⟩ := h; cases hnone), fun h => by cases h.2.2.1⟩
  simp only
  by_cases hisolates : isolation = true ∧ st.sessions.isolates buffer = true
  · rw [if_pos hisolates]
    exact ⟨fun h => (by obtain ⟨_, hnone, -⟩ := h; cases hnone),
      fun h => absurd hisolates h.2.2.2.1⟩
  rw [if_neg hisolates]
  by_cases hdone : (st.sessions.heap q).crypto.v3HandshakeDone = true
  swap
  · rw [if_pos hdone]
    refine ⟨fun h => (by obtain ⟨_, hnone, -⟩ := h; cases hnone), fun h => ?_⟩
    obtain rfl := Option.some.inj h.2.2.1
    exact absurd h.2.2.2.2.1 hdone
  rw [if_neg (not_not.mpr hdone)]
  by_cases hclient : (st.sessions.heap q).routing.hasClient = true ∧
      0 ≤ (st.sessions.heap q).routing.lastServerFd
  swap
  · rw [if_pos (by rw [← not_le]; exact not_and_or.mp hclient)]
    refine ⟨fun h => (by obtain ⟨_, hnone, -⟩ := h; cases hnone), fun h => ?_⟩
    obtain rfl := Option.some.inj h.2.2.1
    exact absurd h.2.2.2.2.2 hclient
  rw [if_neg (by rw [← not_le]; exact fun h => not_and_or.mpr h hclient)]
  cases draws with
  | none => exact ⟨fun h => (by obtain ⟨_, hnone, -⟩ := h; cases hnone), fun h => by cases h.1⟩
  | some d =>
    constructor
    · rintro ⟨sent, hsent, rfl⟩
      obtain rfl := Option.some.inj hsent
      exact ⟨rfl, not_lt.mp hlen, rfl, hisolates, hdone, hclient⟩
    · rintro ⟨-, -, hq, -, -⟩
      obtain rfl := Option.some.inj hq
      exact ⟨_, rfl, rfl⟩

/-- A packet written for one session, which comes back from the TUN device, and another session;
both have addresses. -/
structure Traffic.Crosses (t : Traffic) (w : Written) (b : ℕ) : Prop where
  /-- It was written. -/
  written : w ∈ t.written
  /-- The session is another one. -/
  ne : b ≠ w.session
  /-- The first has an address. -/
  fromIp : t.server.sessions.assignedIp w.session ≠ 0
  /-- The other has one. -/
  toIp : t.server.sessions.assignedIp b ≠ 0

section

variable {S : Type} (L : Library S) (T : TokenCipher) (D : KeyDerivation) (C : DataCipher)

/-- What has been written after an event. -/
def Traffic.writtenAfter (t : Traffic) : Event S → List Written
  | .data e => ((t.server.data C e).2.map fun r =>
      ⟨r.1, t.server.sessions.assignedIp r.1, r.2⟩).toList ++ t.written
  | _ => t.written

/-- **One event**, with client isolation. -/
def carry (t : Traffic) (ev : Event S) : Option Traffic :=
  (advance L T D C true t.server ev).map fun st => ⟨st, t.writtenAfter C ev⟩

/-- Operations write nothing. -/
theorem runs_carry_op {st st' : State} {ops : List (Operation S)}
    (h : runs (advance L T D C true) st (ops.map .op) = some st') (written : List Written) :
    runs (carry L T D C) ⟨st, written⟩ (ops.map .op) = some ⟨st', written⟩ := by
  induction ops generalizing st with
  | nil => rw [List.map_nil, runs_nil, Option.some.inj h]
  | cons op ops ih =>
    rw [List.map_cons, runs_cons, Option.bind_eq_some_iff] at h
    obtain ⟨u, hu, hrest⟩ := h
    rw [List.map_cons, runs_cons, carry, hu, Option.map_some, Option.bind_some]
    exact ih hrest

/-- The event sends no packet that was written for one session to another. -/
def Isolated (t : Traffic) (ev : Event S) : Prop :=
  ∀ buffer now draws, ev = .tun buffer now draws → ∀ w b, w.packet = buffer → t.Crosses w b →
    ¬∃ sent, (t.server.tun C true buffer now draws).2 = some sent ∧ sent.session = b

/-- **No packet goes from one client to another, exactly if the isolation check recognises
those that would.** -/
theorem isolated_iff (t : Traffic) (ev : Event S) : Isolated C t ev ↔
    ∀ buffer now draws, ev = .tun buffer now draws → ∀ w b, w.packet = buffer → t.Crosses w b →
      draws.isSome = true → 20 ≤ buffer.length → t.server.sessions.routeOf buffer = some b →
        (t.server.sessions.heap b).Connected →
          srcIp buffer ≠ dstIp buffer ∧
            (t.server.sessions.findByAssignedIp (srcIp buffer)).isSome = true := by
  refine forall_congr' fun buffer => forall_congr' fun now => forall_congr' fun draws =>
    forall_congr' fun hev => forall_congr' fun w => forall_congr' fun b =>
      forall_congr' fun hpacket => forall_congr' fun hcross => ?_
  rw [tun_isSome_iff, SessionTable.isolates, decide_eq_true_iff]
  constructor
  · intro hnone hdraws hlen hroute hconnected
    by_contra hopen
    exact hnone ⟨hdraws, hlen, hroute, fun h => hopen h.2, hconnected⟩
  · rintro hseen ⟨hdraws, hlen, hroute, hopen, hconnected⟩
    exact hopen ⟨rfl, hseen hdraws hlen hroute hconnected⟩

/-- **A packet from the address of its session** is recognised, if the route of that address
is to the session. -/
theorem recognised_of_own {t : SessionTable} {buffer : List UInt8} {a b : ℕ} (hne : b ≠ a)
    (hown : t.findByAssignedIp (srcIp buffer) = some a) (hroute : t.routeOf buffer = some b) :
    srcIp buffer ≠ dstIp buffer ∧ (t.findByAssignedIp (srcIp buffer)).isSome = true := by
  refine ⟨fun hsame => ?_, by rw [hown]; rfl⟩
  rw [SessionTable.routeOf, ← hsame, hown] at hroute
  exact hne (Option.some.inj hroute).symm

/-- **The event keeps clients apart**: no resume enters the address of its token for a session
without one, and no packet comes back for another connected client that slipped past the ACL, or
whose session has another address by now. -/
def KeepsApart (t : Traffic) : Event S → Prop
  | .op op => noAddressFromToken L T t.server op = true
  | .data _ => True
  | .tun buffer _ draws => draws.isSome = true → 20 ≤ buffer.length →
      ∀ w b, w.packet = buffer → t.Crosses w b →
        Slips w.ip buffer ∨ t.server.sessions.assignedIp w.session ≠ w.ip →
          t.server.sessions.routeOf buffer = some b → ¬(t.server.sessions.heap b).Connected

/-- What is known of the traffic. -/
structure Traffic.Held (t : Traffic) : Prop where
  /-- Every address has one owner. -/
  books : t.server.Books
  /-- The ACL has let through what was written. -/
  admitted : ∀ w ∈ t.written, srcIp w.packet = w.ip ∨ Slips w.ip w.packet

theorem held_init {pool : IpPool} (hpool : pool.Exclusive) (bootSecret : Vector UInt8 32) :
    Traffic.Held ⟨init pool bootSecret, []⟩ where
  books := init_books hpool bootSecret
  admitted := by
    rintro w ⟨⟩

/-- **One event** that keeps clients apart. -/
theorem Traffic.Held.carry {t t' : Traffic} (h : t.Held) {ev : Event S}
    (hok : KeepsApart L T t ev) (hstep : Server.carry L T D C t ev = some t') : t'.Held := by
  obtain ⟨st, hadvance, rfl⟩ := Option.map_eq_some_iff.mp hstep
  refine ⟨advance_books C L T D h.books (fun op hop => ?_) hadvance, ?_⟩
  · subst hop
    exact hok
  · cases ev with
    | op op => exact h.admitted
    | tun buffer now draws => exact h.admitted
    | data e =>
      intro w hw
      rcases List.mem_append.mp hw with hnew | hold
      · obtain ⟨⟨p, inner⟩, hdata, rfl⟩ := Option.map_eq_some_iff.mp (Option.mem_toList.mp hnew)
        obtain ⟨-, hacl⟩ := tunAcl_of_data hdata
        exact (tunAcl_eq_some_iff.mp hacl).2.imp (fun hown => hown.2.2.2) id
      · exact h.admitted w hold

/-- **What the ACL has held against an address is recognised**: the session has that address, and
it owns the route. -/
theorem Traffic.Held.isolated {t : Traffic} (h : t.Held) {ev : Event S}
    (hok : KeepsApart L T t ev) : Isolated C t ev := by
  refine (isolated_iff C t ev).mpr ?_
  rintro buffer now draws rfl w b rfl hcross hdraws hlen hroute hconnected
  have hvouched := fun hslips => hok hdraws hlen w b rfl hcross hslips hroute hconnected
  obtain ⟨hnot, hsame⟩ := not_or.mp hvouched
  have hsrc : srcIp w.packet = t.server.sessions.assignedIp w.session :=
    ((h.admitted w hcross.written).resolve_right hnot).trans (not_not.mp hsame).symm
  obtain ⟨keyId, hkeyId⟩ := h.books.listed w.session hcross.fromIp
  have hrouted := h.books.owned.routed keyId w.session hkeyId hcross.fromIp
  exact recognised_of_own hcross.ne (hsrc ▸ hrouted) hroute

/-- **In a run of the server with client isolation whose events keep clients apart, no packet
goes from one client to another.** -/
theorem isolated_of_meets {ip : UInt32} {prefixLen : ℕ} {pool : IpPool}
    (hpool : IpPool.ofCidr ip prefixLen = some pool) (bootSecret : Vector UInt8 32)
    (evs : List (Event S))
    (hok : Meets (carry L T D C) (KeepsApart L T) ⟨init pool bootSecret, []⟩ evs) :
    Meets (carry L T D C) (Isolated C) ⟨init pool bootSecret, []⟩ evs :=
  hok.imp (I := Traffic.Held) (fun h hok hstep => h.carry L T D C hok hstep)
    (fun h hok => h.isolated L T C hok) (held_init (IpPool.exclusive_ofCidr hpool) bootSecret)

end

/-! ### A packet that crosses -/

section

variable {C : DataCipher} {st st' : State}

/-- **A data packet on the fast path**: only the session that the index has for the sender
matters. -/
theorem data_congr_fast {e : Arrival} {p : ℕ}
    (hfind : st.sessions.findByEndpoint e.epKey = some p)
    (hfind' : st'.sessions.findByEndpoint e.epKey = some p)
    (hheap : st'.sessions.heap p = st.sessions.heap p)
    (hmatch : (st.sessions.heap p).matchHeader C e.d.data ≠ none) :
    (st'.data C e).2 = (st.data C e).2 := by
  obtain ⟨r, hr⟩ := Option.ne_none_iff_exists'.mp hmatch
  have hdispatch : ∀ {st : State}, st.sessions.findByEndpoint e.epKey = some p →
      (st.sessions.heap p).matchHeader C e.d.data = some r →
        st.dispatch C e = (st, some ⟨p, r.1, r.2⟩) := by
    intro st hfind hr
    have hfast : st.fastMatch C e = some ⟨p, r.1, r.2⟩ := by
      rw [State.fastMatch, hfind, Option.bind_some, SessionTable.ask, hr, Option.map_some]
    rw [State.dispatch, hfast]
  have hdecrypt : ∀ m : Match, m.session = p → st'.decrypt C m e = st.decrypt C m e := by
    rintro m rfl
    simp only [State.decrypt, hheap]
  rw [State.data, State.data, hdispatch hfind hr, hdispatch hfind' (hheap ▸ hr)]
  simp only [hdecrypt ⟨p, r.1, r.2⟩ rfl, hheap]
  split
  · rfl
  · split <;> rfl

/-- The sessions after a store of one. -/
theorem heap_stored (t : SessionTable) (p : ℕ) (s : Session) (key : UInt64) :
    ((t.setSession p s).updateEndpoint key p).heap = Function.update t.heap p s := rfl

/-- Where a packet goes depends on the routes only. -/
theorem routeOf_congr {t t' : SessionTable} (h : t'.routes = t.routes) (buffer : List UInt8) :
    t'.routeOf buffer = t.routeOf buffer := by
  have hfind : ∀ ip, t'.findByAssignedIp ip = t.findByAssignedIp ip := fun ip => by
    rw [SessionTable.findByAssignedIp, SessionTable.findByAssignedIp, h]
  rw [SessionTable.routeOf, SessionTable.routeOf, hfind, hfind]

end

/-- What a handshake of the second device has found when it has its address. -/
def secondAdmitted (st : State) : Option (UInt64 × ℕ × ℕ × State × UInt32) :=
  (st.admitted smallLibrary secondRequest (phoneCalls 6 1001)).2

/-- The first device, with the address 10.8.0.2, writes the packet, and it would be routed to the
second. -/
def writesToSecond (inner : List UInt8) (st : State) : Bool :=
  (st.data smallDataCipher (phonePacket inner)).2 = some (0, inner) &&
    st.sessions.findByEndpoint (phonePacket inner).epKey = some 0 &&
    ((st.sessions.heap 0).matchHeader smallDataCipher (phonePacket inner).d.data).isSome &&
    st.sessions.routeOf inner = some 1 && st.sessions.assignedIp 0 = 0x0A080002 &&
    decide (st.sessions.ScanOrder [5, 49, 52, 50, 51]) &&
    !isOpcode (phonePacket inner).d.data && (phonePacket inner).epKey ≠
      makeEndpointKey secondRequest.caddr

/-- The second device is moved to another slot, with an address. -/
def reachesSecond (inner : List UInt8) (st : State) : Bool :=
  (secondAdmitted st).any fun r => (r.1, r.2.1, r.2.2.1) = (5, 0, 1) && r.2.2.2.2 ≠ 0 &&
    writesToSecond inner r.2.2.2.1

/-- The two devices are connected. -/
def bothPhones : List (Operation UInt8) :=
  [.sync 1000 phoneRows [], .handshake (phoneDatagram 1 232 241 2000) (phoneCalls 4 1000),
    .handshake secondRequest (phoneCalls 6 1001)]

/-- **A packet of the first device comes back** with the address of the second. -/
structure Returned (inner : List UInt8) (t : Traffic) : Prop where
  /-- It is all that was written. -/
  written : t.written = [⟨0, 0x0A080002, inner⟩]
  /-- The first device has its address still. -/
  fromIp : t.server.sessions.assignedIp 0 = 0x0A080002
  /-- The second has one. -/
  toIp : t.server.sessions.assignedIp 1 ≠ 0
  /-- The packet is routed to it. -/
  route : t.server.sessions.routeOf inner = some 1
  /-- It is connected. -/
  connected : (t.server.sessions.heap 1).Connected

/-- Both devices connect, and the first sends a packet. -/
theorem exists_returned {inner : List UInt8} (hreturns :
    (runs (advance smallLibrary smallCipher letterDerivation smallDataCipher true)
      smallStart phoneRun).map (reachesSecond inner) = some true) :
    ∃ t, runs (carry smallLibrary smallCipher letterDerivation smallDataCipher) ⟨smallStart, []⟩
        (bothPhones.map .op ++ [.data (phonePacket inner)]) = some t ∧ Returned inner t := by
  obtain ⟨st, hst, hreturns⟩ := Option.map_eq_some_iff.mp hreturns
  simp only [reachesSecond, Option.any_eq_true, Bool.and_eq_true, decide_eq_true_eq,
    Prod.mk.injEq] at hreturns
  obtain ⟨⟨keyId, orig, p, st', ip⟩, hadm, ⟨⟨rfl, rfl, rfl⟩, hip⟩, hwrites⟩ := hreturns
  simp only [writesToSecond, Bool.and_eq_true, decide_eq_true_eq, Bool.not_eq_true'] at hwrites
  obtain ⟨⟨⟨⟨⟨⟨⟨hdata, hfind⟩, hmatch⟩, hroute⟩, hassigned⟩, horder⟩, hopcode⟩, hkey⟩ := hwrites
  obtain ⟨keys, hsessions⟩ := sessions_handshake smallCipher hadm
  -- the second device is connected
  have hrequest : secondRequest.data.head? = some 0x01 ∧ secondRequest.data.length = 72 := by
    decide
  have hsecond : runs (advance smallLibrary smallCipher letterDerivation smallDataCipher true)
      smallStart (bothPhones.map .op) =
        some (st.handshake smallLibrary smallCipher secondRequest (phoneCalls 6 1001)).1 :=
    runs_snoc.mpr ⟨st, hst, by rw [advance, step, if_pos hrequest]⟩
  have hrun := runs_carry_op smallLibrary smallCipher letterDerivation smallDataCipher hsecond []
  generalize (st.handshake smallLibrary smallCipher secondRequest (phoneCalls 6 1001)).1 = st₃ at *
  -- the first writes the packet
  have hheap : st₃.sessions.heap 0 = st'.sessions.heap 0 := by
    rw [hsessions, heap_stored, Function.update_of_ne Nat.zero_ne_one]
  have hip₃ : st₃.sessions.assignedIp 0 = 0x0A080002 := by
    rw [← hassigned, SessionTable.assignedIp, hheap]
    rfl
  have hdata₃ : (st₃.data smallDataCipher (phonePacket inner)).2 = some (0, inner) := by
    refine (data_congr_fast hfind ?_ hheap (Option.isSome_iff_ne_none.mp hmatch)).trans hdata
    rw [hsessions]
    exact (AList.lookup_insert_ne hkey).trans hfind
  have hsame := sameOwners_data smallDataCipher st₃ (phonePacket inner)
  have hadvance : carry smallLibrary smallCipher letterDerivation smallDataCipher ⟨st₃, []⟩
      (.data (phonePacket inner)) =
        some ⟨(st₃.data smallDataCipher (phonePacket inner)).1, [⟨0, 0x0A080002, inner⟩]⟩ := by
    have horder₃ : st₃.sessions.ScanOrder (phonePacket inner).order := by
      rw [hsessions]
      exact horder
    have hopcode₃ : ¬isOpcode (phonePacket inner).d.data = true := Bool.eq_false_iff.mp hopcode
    rw [carry, advance, if_pos ⟨hopcode₃, horder₃⟩, Option.map_some, Traffic.writtenAfter, hdata₃,
      ← hip₃]
    rfl
  have hroutes : (st₃.data smallDataCipher (phonePacket inner)).1.sessions.routes =
      st'.sessions.routes := hsame.routes.trans (by rw [hsessions]; rfl)
  have hsecondSession : (st₃.data smallDataCipher (phonePacket inner)).1.sessions.heap 1 =
      (st'.sessions.heap 1).install (st'.sessions.heap 0) 5 true keys ip secondRequest := by
    rw [heap_data_of_ne hdata₃ Nat.one_ne_zero, hsessions, heap_stored, Function.update_self]
    rfl
  refine ⟨_, runs_snoc.mpr ⟨_, hrun, hadvance⟩, ⟨rfl, (hsame.assignedIp 0).trans hip₃, ?_,
    (routeOf_congr hroutes inner).trans hroute, ?_⟩⟩
  · rw [SessionTable.assignedIp, hsecondSession]
    exact hip
  · rw [hsecondSession]
    exact ⟨rfl, rfl, show (0 : ℤ) ≤ 3 by decide⟩

/-- An IPv4 packet of the first device to the second. -/
def toSecondPhone : List UInt8 := 0x45 :: List.replicate 11 0 ++ [10, 8, 0, 2, 10, 8, 0, 3]

/-- It comes back, and is dropped. -/
theorem isolated_toSecondPhone : ∃ t,
    runs (carry smallLibrary smallCipher letterDerivation smallDataCipher) ⟨smallStart, []⟩
        (bothPhones.map .op ++ [.data (phonePacket toSecondPhone)]) = some t ∧
      Returned toSecondPhone t ∧ Isolated (S := UInt8) smallDataCipher t
        (.tun toSecondPhone 4000 (some (smallDraws (Vector.replicate 12 0)))) := by
  have hreturns : (runs (advance smallLibrary smallCipher letterDerivation smallDataCipher true)
      smallStart phoneRun).map (reachesSecond toSecondPhone) = some true := by decide +kernel
  obtain ⟨t, hrun, hreturned⟩ := exists_returned hreturns
  have hpool : IpPool.ofCidr 0x0A080000 24 = some smallPool := (Option.some_get _).symm
  have hfirst : Meets (carry smallLibrary smallCipher letterDerivation smallDataCipher)
      (KeepsApart smallLibrary smallCipher) ⟨smallStart, []⟩
        (bothPhones.map .op ++ [.data (phonePacket toSecondPhone)]) :=
    ⟨rfl, fun _ _ => ⟨rfl, fun _ _ => ⟨rfl, fun _ _ => ⟨trivial, fun _ _ => trivial⟩⟩⟩⟩
  have hkeeps : Meets (carry smallLibrary smallCipher letterDerivation smallDataCipher)
      (KeepsApart smallLibrary smallCipher) ⟨smallStart, []⟩
        ((bothPhones.map .op ++ [.data (phonePacket toSecondPhone)]) ++
          [.tun toSecondPhone 4000 (some (smallDraws (Vector.replicate 12 0)))]) := by
    refine hfirst.append fun t' ht' => ⟨?_, fun _ _ => trivial⟩
    obtain rfl : t = t' := Option.some.inj (hrun.symm.trans ht')
    rintro - - w b - hcross hslips
    have hw := hcross.written
    rw [hreturned.written] at hw
    obtain rfl := List.mem_singleton.mp hw
    -- the ACL has held it against the address, which is still there
    rcases hslips with hslips | hmoved
    · exact absurd hslips (by decide)
    · exact absurd hreturned.fromIp hmoved
  exact ⟨t, hrun, hreturned, ((isolated_of_meets smallLibrary smallCipher letterDerivation
    smallDataCipher hpool (Vector.replicate 32 1) _ hkeeps).of_append hrun).1⟩

/-- An IPv6 packet, with the address of the second device where an IPv4 packet has its
destination. -/
def crossing : List UInt8 := 0x60 :: List.replicate 15 0 ++ [10, 8, 0, 3]

/-- **The first device reaches the second**, with client isolation. -/
theorem not_keptApart :
    ¬∀ (pool : IpPool) (bootSecret : Vector UInt8 32) (evs : List (Event UInt8)),
      Meets (carry smallLibrary smallCipher letterDerivation smallDataCipher)
        (Isolated smallDataCipher) ⟨init pool bootSecret, []⟩ evs := by
  intro h
  have hreturns : (runs (advance smallLibrary smallCipher letterDerivation smallDataCipher true)
      smallStart phoneRun).map (reachesSecond crossing) = some true := by decide +kernel
  obtain ⟨t, hrun, hreturned⟩ := exists_returned hreturns
  have hmeets : Meets (carry smallLibrary smallCipher letterDerivation smallDataCipher)
      (Isolated smallDataCipher) ⟨smallStart, []⟩ ((bothPhones.map .op ++
        [.data (phonePacket crossing)]) ++
          [.tun crossing 4000 (some (smallDraws (Vector.replicate 12 0)))]) :=
    h smallPool (Vector.replicate 32 1) _
  refine (hmeets.of_append hrun).1 _ _ _ rfl ⟨0, 0x0A080002, crossing⟩ 1 rfl ⟨?_,
    Nat.one_ne_zero, ?_, hreturned.toIp⟩ (tun_isSome_iff.mpr ⟨rfl, by decide, hreturned.route, ?_,
      hreturned.connected⟩)
  · rw [hreturned.written]
    exact List.mem_singleton.mpr rfl
  · rw [hreturned.fromIp]
    decide
  · -- its source bytes are no session's address
    rintro ⟨-, hisolates⟩
    rw [SessionTable.isolates] at hisolates
    have hzero : srcIp crossing = 0 := by decide
    rw [hzero, SessionTable.findByAssignedIp, if_pos rfl] at hisolates
    exact absurd hisolates (by decide)

end Server

end Aegs
