import Aegs.Server.DataPlane
import Aegs.Server.Ownership

/-!
# Packets that do not authenticate

A datagram on the data path may fail to match a session, be too short for the junk length in
its header, or fail the AEAD under the matched session's key. Nothing vouches for such a
packet, and the session it names is left as it was: the replay filter, the counters, the
routing and the crypto snapshot are written after the decryption only
(`Aegs.Server.heap_of_unauthentic`).

The endpoint index is not. The scan over the sessions enters the sender's endpoint for the
session it finds, and that is before the decryption; so whoever can send one header that is
masked for a session – a captured packet with another body will do – moves the entry of any
endpoint that he sends from. It is the only effect such a packet has, and it has it whenever
the scan finds a session (`Aegs.Server.unchanged_iff`).
-/

namespace Aegs

namespace Server

open Handshake Transition Wire

section

variable (C : DataCipher)

/-- **The packet authenticates**: it matches a session, is long enough, and decrypts under
that session's `recv_key`. -/
def State.authentic (st : State) (e : Arrival) : Bool :=
  56 ≤ e.d.data.length &&
    ((st.dispatch C e).2.any fun m => fits m.hdr e.d.data &&
      (openPacket C (st.sessions.heap m.session).crypto.sessionKeys.recvKey m.hdr
        e.d.data).isSome)

/-- **The packet is one for the scan, and the scan finds a session**: the session that the
index has for the endpoint does not recognise it, the limit lets it through, and some
session does recognise it. -/
def State.FoundByScan (st : State) (e : Arrival) : Prop :=
  56 ≤ e.d.data.length ∧
    (∀ p, st.sessions.findByEndpoint e.epKey = some p →
      (st.sessions.heap p).matchHeader C e.d.data = none) ∧
    e.roaming = true ∧
    ∃ keyId ∈ e.order, ∃ p, st.sessions.findByKeyId keyId = some p ∧
      (st.sessions.heap p).matchHeader C e.d.data ≠ none

variable {C} {st : State} {e : Arrival} {m : Match}

/-- A packet that does not authenticate gets no further than the matching. -/
theorem data_of_unauthentic (h : st.authentic C e = false) (hlen : 56 ≤ e.d.data.length) :
    (st.data C e).1 = (st.dispatch C e).1 := by
  have hheap : (st.dispatch C e).1.sessions.heap = st.sessions.heap := heap_dispatch
  rw [State.data, if_neg (by omega)]
  rcases hdispatch : st.dispatch C e with ⟨st', _ | m⟩
  · rfl
  · rw [hdispatch] at hheap
    rcases hframe : st'.decrypt C m e with _ | frame
    · simp only [hframe]
    · obtain ⟨-, hfits, -, hopen⟩ := decrypt_eq_some C hframe
      rw [show st'.sessions.heap = st.sessions.heap from hheap] at hopen
      simp [State.authentic, hdispatch, hlen, hfits, hopen] at h

/-- **No session is touched** by a packet that does not authenticate. -/
theorem heap_of_unauthentic (h : st.authentic C e = false) :
    (st.data C e).1.sessions.heap = st.sessions.heap := by
  by_cases hlen : 56 ≤ e.d.data.length
  · rw [data_of_unauthentic h hlen, heap_dispatch]
  · rw [State.data, if_pos (by omega)]

/-- The matching leaves the server as it was unless the scan finds a session. -/
theorem dispatch_eq_self_iff :
    (st.dispatch C e).1 = st ↔ st.fastMatch C e ≠ none ∨ st.slowMatch C e = none := by
  rw [State.dispatch]
  rcases hfast : st.fastMatch C e with _ | m
  · rcases hslow : st.slowMatch C e with _ | m
    · simp
    · simp only [ne_eq, not_true_eq_false, false_or, iff_false, reduceCtorEq]
      -- the entry was not there before: the session it names would have recognised the packet
      intro heq
      have hentry : st.sessions.findByEndpoint e.epKey = some m.session := by
        rw [← heq]
        exact AList.lookup_insert _
      obtain ⟨-, -, -, -, hask⟩ := slowMatch_eq_some hslow
      have hrefused := fastMatch_eq_none_iff.mp hfast _ hentry
      exact absurd (ask_eq_none.mpr hrefused) (by rw [hask]; exact Option.some_ne_none m)
  · simp

theorem foundByScan_iff (hlen : 56 ≤ e.d.data.length) :
    st.FoundByScan C e ↔ ¬(st.fastMatch C e ≠ none ∨ st.slowMatch C e = none) := by
  rw [not_or, not_not, fastMatch_eq_none_iff, slowMatch_eq_none_iff, State.FoundByScan,
    and_iff_right hlen]
  refine and_congr_right fun _ => ?_
  simp only [not_forall, exists_prop, ne_eq]

/-- **A packet that does not authenticate leaves the server exactly as it was unless the
scan finds a session for it.** -/
theorem unchanged_iff (C : DataCipher) (st : State) (e : Arrival)
    (h : st.authentic C e = false) : (st.data C e).1 = st ↔ ¬st.FoundByScan C e := by
  by_cases hlen : 56 ≤ e.d.data.length
  · rw [data_of_unauthentic h hlen, dispatch_eq_self_iff, foundByScan_iff hlen, not_not]
  · have hdata : (st.data C e).1 = st := by rw [State.data, if_pos (by omega)]
    exact iff_of_true hdata fun hfound => hlen hfound.1

/-- The event, if it is a datagram that does not authenticate, leaves the server as it is. -/
def LeavesUnchanged {S : Type} (C : DataCipher) (st : State) (ev : Event S) : Prop :=
  ∀ e, ev = .data e → st.authentic C e = false → (st.data C e).1 = st

/-- The event, if it is a datagram that does not authenticate, is not one for which the scan
finds a session. -/
def NotFoundByScan {S : Type} (C : DataCipher) (st : State) (ev : Event S) : Prop :=
  ∀ e, ev = .data e → st.authentic C e = false → ¬st.FoundByScan C e

/-- **In a run of the server the packets that do not authenticate change nothing, exactly if
the scan finds a session for none of them.** -/
theorem meets_leavesUnchanged_iff {S : Type} (L : Library S) (T : TokenCipher) (D : KeyDerivation)
    (C : DataCipher) (isolation : Bool) (pool : IpPool) (bootSecret : Vector UInt8 32)
    (evs : List (Event S)) :
    Meets (advance L T D C isolation) (LeavesUnchanged C) (init pool bootSecret) evs ↔
      Meets (advance L T D C isolation) (NotFoundByScan C) (init pool bootSecret) evs :=
  meets_congr fun st _ => forall_congr' fun e => forall_congr' fun _ => forall_congr' fun h =>
    unchanged_iff C st e h

end

/-! ### A captured header -/

/-- The mask key of the user of `smallRows`. -/
def smallMaskKey : Vector UInt8 32 :=
  hkdfExpand smallLibrary (Vector.replicate 32 9) "aegis-v2-header-mask"

/-- A packet for the user's session whose body nobody has sealed. -/
def forgedPacket : List UInt8 :=
  outerHeader smallDataCipher 5 smallMaskKey 0 (Vector.replicate 12 4) [] ++ List.replicate 40 1

/-- The packet comes from some endpoint. -/
def forgedArrival : Arrival := ⟨smallDatagram forgedPacket 3000, [5], true, fun _ => true⟩

/-- The server has an entry for that endpoint. -/
def hasEntry (st : State) : Bool := (st.sessions.findByEndpoint forgedArrival.epKey).isSome

/-- The packet authenticates; there is an entry before it, and after it. -/
def entries (st : State) : Bool × Bool × Option Bool :=
  (st.authentic smallDataCipher forgedArrival, hasEntry st,
    (advance smallLibrary smallCipher smallDerivation smallDataCipher true st
      (.data forgedArrival)).map hasEntry)

/-- **The endpoint index changes** on a packet that does not authenticate. -/
theorem not_leavesUnchanged : ¬∀ evs : List (Event UInt8),
    Meets (advance smallLibrary smallCipher smallDerivation smallDataCipher true)
      (LeavesUnchanged smallDataCipher) smallStart evs := by
  intro h
  obtain ⟨st, hst, hentries⟩ := Option.map_eq_some_iff.mp
    (show (runs (advance smallLibrary smallCipher smallDerivation smallDataCipher true) smallStart
      [.op (.sync 1000 smallRows [])]).map entries = some (false, false, some true) by
        decide +kernel)
  simp only [entries, Prod.mk.injEq] at hentries
  obtain ⟨hauthentic, hbefore, hafter⟩ := hentries
  obtain ⟨st', hst', hentry⟩ := Option.map_eq_some_iff.mp hafter
  have hmeets := (h ([.op (.sync 1000 smallRows [])] ++ [.data forgedArrival])).of_append hst
  have hsame := hmeets.1 forgedArrival rfl hauthentic
  obtain ⟨-, hdata⟩ := Option.ite_none_right_eq_some.mp hst'
  rw [← Option.some.inj hdata, hsame, hbefore] at hentry
  exact absurd hentry (by decide)

end Server

end Aegs
