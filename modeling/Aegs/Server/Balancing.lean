import Aegs.Server.Dispatch
import Aegs.Server.Registry

/-!
# A slot that has been lent

Auto-slot balancing lends a slot to a device that asked for another one. The slot takes over the
mask keys and serves the key id that was asked for; when the device is gone it keeps them. A
device that then asks for the slot by its own key id gets it, with the mask keys of another
token: its packets are masked with a key that the slot no longer has.

After a handshake the session recognises the packets of the device exactly when the slot that
was asked for still has the mask key of its own token (`Aegs.Server.acceptsOwn_iff`).
-/

namespace Aegs

namespace Server

open Bytes Handshake Transition Wire

/-- **The mask keys are told apart**: there is an IV under which neither of two other keys masks
the magic as this one does. -/
def TellsApart (C : DataCipher) : Prop := ∀ own k k' : Vector UInt8 32, k ≠ own → k' ≠ own →
  ∃ hdrIv, ∀ hdr, hasMagic hdr = true →
    hasMagic (maskUnmaskHeader C (maskUnmaskHeader C hdr own hdrIv) k hdrIv) = false ∧
      hasMagic (maskUnmaskHeader C (maskUnmaskHeader C hdr own hdrIv) k' hdrIv) = false

section

variable {S : Type} (L : Library S) (T : TokenCipher) (D : KeyDerivation) (C : DataCipher)

/-- The mask key of the session's own token. -/
def Session.ownMaskKey (s : Session) : Vector UInt8 32 :=
  hkdfExpand L s.crypto.masterKey "aegis-v2-header-mask"

/-- The handshake with this key id, for the session at `orig`, gets a response from the session
at `p`. -/
def State.Succeeds (st : State) (d : Datagram) (calls : HandshakeCalls S) (keyId : UInt64)
    (orig p : ℕ) : Prop :=
  (∃ st' ip, (st.admitted L d calls).2 = some (keyId, orig, p, st', ip)) ∧
    (st.handshake L T d calls).2.head? ≠ some []

/-- **After a handshake the session recognises the device's packets**: those with the key id
that was asked for, masked with the mask key of its token. -/
def AcceptsOwn (st : State) (ev : Event S) : Prop :=
  ∀ d calls, ev = .op (.handshake d calls) → ∀ keyId orig p, st.Succeeds L T d calls keyId orig p →
    ∀ (flag : UInt8) (hdrIv : Vector UInt8 12) (junk rest : List UInt8),
      ((st.handshake L T d calls).1.sessions.heap p).matchHeader C
        (outerHeader C keyId ((st.sessions.heap orig).ownMaskKey L) flag hdrIv junk ++ rest) ≠ none

/-- **The slot that is asked for has the mask key of its own token.** -/
def KeepsOwn (st : State) (ev : Event S) : Prop :=
  ∀ d calls, ev = .op (.handshake d calls) → ∀ keyId orig p, st.Succeeds L T d calls keyId orig p →
    (st.sessions.heap orig).ownMaskKey L ∈ (st.sessions.heap orig).slot.maskKeys

variable {C} {st : State}

/-- A session that does not have the key the header is masked with, under an IV that tells. -/
theorem matchHeader_eq_none {s : Session} {keyId : UInt64} {own : Vector UInt8 32} {flag : UInt8}
    {hdrIv : Vector UInt8 12} {junk rest : List UInt8}
    (h : ∀ k ∈ s.slot.maskKeys, hasMagic (unmaskedHeader C k
      (outerHeader C keyId own flag hdrIv junk ++ rest)) = false) :
    s.matchHeader C (outerHeader C keyId own flag hdrIv junk ++ rest) = none := by
  by_contra hmatch
  obtain ⟨r, hr⟩ := Option.ne_none_iff_exists'.mp hmatch
  obtain ⟨k, hk, hhdr, haccepts⟩ := matchHeader_eq_some hr
  rw [SessionIdentity.accepts, Bool.and_eq_true, hhdr, h k hk] at haccepts
  exact Bool.noConfusion haccepts.2

/-- A slot that does not have a key has at most two others. -/
theorem Slot.exists_other (x : Slot) {own : Vector UInt8 32} (h : own ∉ x.maskKeys) :
    ∃ k', k' ≠ own ∧ ∀ k ∈ x.maskKeys, k = x.maskKey ∨ k = k' := by
  rcases halt : x.hasAltMaskKey with _ | _
  · refine ⟨x.maskKey, fun heq => h (heq ▸ List.mem_cons_self), fun k hk => Or.inl ?_⟩
    simpa [Slot.maskKeys, halt] using hk
  · refine ⟨x.altMaskKey, fun heq => h ?_, fun k hk => ?_⟩
    · simp [Slot.maskKeys, halt, heq]
    · simpa [Slot.maskKeys, halt] using hk

/-- What the session chosen by a handshake recognises packets by. -/
theorem slot_of_succeeds {d : Datagram} {calls : HandshakeCalls S} {keyId : UInt64} {orig p : ℕ}
    {Q : Slot → Prop} (h : Slots Q st) (hs : st.Succeeds L T d calls keyId orig p) :
    ((st.handshake L T d calls).1.sessions.heap p).slot.maskKeys =
        (st.sessions.heap orig).slot.maskKeys ∧
      ((st.handshake L T d calls).1.sessions.heap p).identity.Serves keyId := by
  obtain ⟨⟨st', ip, hadm⟩, -⟩ := hs
  obtain ⟨horig, hchosen, -, -⟩ := admitted_eq_some L hadm
  obtain ⟨-, keys, hheap⟩ := sessions_of_admitted T hadm
  rw [hheap, Function.update_self]
  rcases eq_or_ne p orig with rfl | hne
  · rw [decide_eq_false (not_not.mpr rfl)]
    exact ⟨rfl, Or.inl (h.keyed keyId p horig)⟩
  · rw [decide_eq_true hne]
    exact ⟨rfl, Or.inr ⟨keyId_ne_zero_of_moved h.zero (hchosen ▸ hne), rfl⟩⟩

/-- **After a handshake the session recognises the device's packets exactly when the slot that
was asked for has the mask key of its own token.** -/
theorem acceptsOwn_iff (hC : TellsApart C) {Q : Slot → Prop} (h : Slots Q st) (ev : Event S) :
    AcceptsOwn L T C st ev ↔ KeepsOwn L T st ev := by
  refine forall_congr' fun d => forall_congr' fun calls => forall_congr' fun _ =>
    forall_congr' fun keyId => forall_congr' fun orig => forall_congr' fun p =>
      forall_congr' fun hs => ?_
  obtain ⟨hkeys, hserves⟩ := slot_of_succeeds L T h hs
  generalize (st.handshake L T d calls).1.sessions.heap p = s at *
  generalize (st.sessions.heap orig).ownMaskKey L = own
  rw [← hkeys]
  constructor
  · intro haccepts
    by_contra hnot
    obtain ⟨k', hk', hkeys'⟩ := s.slot.exists_other hnot
    obtain ⟨hdrIv, htells⟩ := hC own s.slot.maskKey k'
      (fun heq => hnot (heq ▸ List.mem_cons_self)) hk'
    refine haccepts 0 hdrIv [] [] (matchHeader_eq_none fun k hk => ?_)
    rw [unmaskedHeader, copyOut_outerHeader_hdr, copyOut_outerHeader_iv]
    obtain ⟨hfirst, hsecond⟩ := htells _ (hasMagic_plainHeader _ _ _)
    rcases hkeys' k hk with rfl | rfl
    · exact hfirst
    · exact hsecond
  · intro hmem flag hdrIv junk rest
    refine matchHeader_ne_none hmem ?_
    rw [unmaskedHeader_outerHeader]
    exact SessionIdentity.accepts_plainHeader hserves _ _

/-- **In every run of the server**, every handshake leaves a session that recognises the
device's packets exactly when every slot that is asked for has the mask key of its own
token. -/
theorem meets_acceptsOwn_iff (D : KeyDerivation) (hC : TellsApart C) (isolation : Bool)
    (pool : IpPool) (bootSecret : Vector UInt8 32) (evs : List (Event S)) :
    Meets (advance L T D C isolation) (AcceptsOwn L T C) (init pool bootSecret) evs ↔
      Meets (advance L T D C isolation) (KeepsOwn L T) (init pool bootSecret) evs := by
  have hslots : ∀ {st st' : State} {ev : Event S}, Slots (fun _ => True) st →
      advance L T D C isolation st ev = some st' → Slots (fun _ => True) st' := fun h hstep =>
    h.advance (fun _ _ _ => trivial) (fun _ _ _ _ _ _ _ _ _ _ => trivial) hstep
  constructor
  · exact Meets.imp (I := Slots fun _ => True) (fun h _ hstep => hslots h hstep)
      (fun h hok => (acceptsOwn_iff L T hC h _).mp hok) (slots_init _ pool bootSecret)
  · exact Meets.imp (I := Slots fun _ => True) (fun h _ hstep => hslots h hstep)
      (fun h hok => (acceptsOwn_iff L T hC h _).mpr hok) (slots_init _ pool bootSecret)

end

/-! ### A request that is answered -/

section

variable {S : Type} {L : Library S}

/-- The library makes every key, and the response. -/
structure RespCalls.GoesThrough (L : Library S) (calls : RespCalls S) (server : S) : Prop where
  /-- The server's key is this one. -/
  keygen : ∃ addr, calls.keygen = some ⟨server, addr⟩
  /-- The key exchange goes through. -/
  derive : calls.derive = true
  /-- It leaves a secret. -/
  secret : ∀ raw, L.derive server raw ≠ []
  /-- There is a session id. -/
  rand : calls.rand.isSome = true
  /-- There is a public key. -/
  getPublic : calls.getPublic = true
  /-- The cipher calls go through. -/
  cipher : calls.cipher = true

/-- Then a pending client of a registered user gets a response. -/
theorem buildResp_ne_nil {hs : HandshakeServer} {keyId : UInt64} {state : ClientState}
    (hstate : hs.pendingClients.lookup keyId = some state) {masterKey : List UInt8}
    (hmaster : hs.masterKeys.lookup keyId = some masterKey) {calls : RespCalls S} {server : S}
    (hcalls : RespCalls.GoesThrough L calls server) (ip : UInt32) (mtu : UInt16)
    (out : SessionKeys) : (hs.buildResp L keyId ip mtu calls out).2.1 ≠ [] := by
  obtain ⟨addr, hkeygen⟩ := hcalls.keygen
  obtain ⟨sessionId, hrand⟩ := Option.isSome_iff_exists.mp hcalls.rand
  have hsecret := hcalls.secret state.clientEphemeralPkey.raw
  have hnot : ¬(L.derive server state.clientEphemeralPkey.raw).isEmpty = true := by
    rwa [List.isEmpty_iff]
  have hlibrary : ¬(¬calls.getPublic = true ∨ ¬calls.cipher = true) := by
    simp [hcalls.getPublic, hcalls.cipher]
  simp only [HandshakeServer.buildResp, hstate, hmaster, hkeygen, hrand, ecdhDerive,
    hcalls.derive, if_true, if_neg hnot, if_neg hlibrary]
  intro hnil
  exact absurd (congrArg List.length hnil) (by simp)

/-- **An authentic request** for a slot that is its sender's own is answered from that
slot. -/
theorem succeeds_of_authentic (T : TokenCipher) {st : State} {d : Datagram}
    {calls : HandshakeCalls S} {keyId : UInt64} (hkeyId : (initPair d.data).keyId = keyId)
    {masterKey : List UInt8} (hmaster : st.hs.masterKeys.lookup keyId = some masterKey)
    (hauth : authenticInit L (some masterKey) d.data calls.initMs = true) {a : ℕ}
    (haddr : calls.addr = some a) {server : S}
    (hcalls : RespCalls.GoesThrough L calls.resp server) {p : ℕ}
    (hfind : st.sessions.findByKeyId keyId = some p)
    (hclient : (st.sessions.heap p).routing.clientAddr = d.caddr)
    (hip : st.sessions.assignedIp p ≠ 0) : st.Succeeds L T d calls keyId p p := by
  have hprocess : st.hs.processInit L d.data calls.initMs calls.addr =
      (st.hs.enterSeen (initPair d.data) calls.initMs).setPending keyId (copyOut d.data 16 32)
        calls.initMs (some a) := by
    rw [processInit_eq, hkeyId, hmaster, if_pos hauth, haddr]
  generalize hentered : (st.hs.enterSeen (initPair d.data) calls.initMs).setPending keyId
    (copyOut d.data 16 32) calls.initMs (some a) = r at hprocess
  obtain ⟨hs, out⟩ := r
  obtain rfl : out = some keyId := (congrArg Prod.snd hentered).symm
  obtain ⟨-, -, hkeys, b, hpending⟩ := processInit_eq_some L hprocess
  have hchoose : ({ st with hs := hs } : State).chooseSlot keyId p d.caddr d.now = p := by
    have hbusy : (st.sessions.heap p).isSlotBusy d.caddr d.now = false := by
      simp [Session.isSlotBusy, hclient]
    simp only [State.chooseSlot, hbusy, Bool.false_eq_true, if_false]
  have hassign : ({ st with hs := hs } : State).assignIp p =
      some ({ st with hs := hs }, st.sessions.assignedIp p) := by
    rw [State.assignIp, if_pos hip]
  have hadm : (st.admitted L d calls).2 =
      some (keyId, p, p, { st with hs := hs }, st.sessions.assignedIp p) := by
    rw [State.admitted, hprocess]
    simp only [hfind, hchoose, hassign, Option.map_some]
  refine ⟨⟨_, _, hadm⟩, ?_⟩
  rw [handshake_of_admitted L T hadm, State.install, List.head?_cons, Ne, Option.some.injEq]
  exact buildResp_ne_nil hpending (hkeys ▸ hmaster) hcalls _ _ _

end

/-! ### A slot that is asked for after it was lent -/

/-- A cipher whose mask shows two bytes of the key, which the IV asks for. -/
def tellingCipher : DataCipher := { smallDataCipher with
  keystream := fun key iv => Vector.ofFn fun i =>
    if i = 12 then key.toList.getD (iv.toList.getD 0 0).toNat 0
    else if i = 13 then key.toList.getD (iv.toList.getD 1 0).toNat 0
    else 0 }

/-- The bytes of the magic. -/
theorem getElem_of_hasMagic {hdr : Vector UInt8 16} (h : hasMagic hdr = true) :
    hdr[12] = 0x41 ∧ hdr[13] = 0x47 := by
  have hmagic : copyOut hdr.toList 12 4 = verMagic := of_decide_eq_true h
  have hbyte : ∀ i (hi : i < 4), verMagic[i] = hdr[12 + i] := fun i hi => by
    simp only [← hmagic, copyOut, Vector.getElem_ofFn]
    exact getD_toList hdr (by omega)
  exact ⟨(hbyte 0 (by omega)).symm, (hbyte 1 (by omega)).symm⟩

/-- Two keys differ in a byte. -/
theorem exists_getD_ne {k own : Vector UInt8 32} (hne : k ≠ own) :
    ∃ i : UInt8, k.toList.getD i.toNat 0 ≠ own.toList.getD i.toNat 0 := by
  by_contra hall
  rw [not_exists] at hall
  refine hne (Vector.ext fun i hi => ?_)
  have hi' : (UInt8.ofNat i).toNat = i := by
    rw [UInt8.toNat_ofNat']
    omega
  have heq := not_not.mp (hall (UInt8.ofNat i))
  rwa [hi', getD_toList _ hi, getD_toList _ hi] at heq

/-- A byte that two masks cancel in is one that they agree in. -/
theorem keystream_eq_of_masked {C : DataCipher} {hdr : Vector UInt8 16} {own k : Vector UInt8 32}
    {hdrIv : Vector UInt8 12} {i : ℕ} (hi : i < 16)
    (h : (maskUnmaskHeader C (maskUnmaskHeader C hdr own hdrIv) k hdrIv)[i] = hdr[i]) :
    (C.keystream k hdrIv)[i] = (C.keystream own hdrIv)[i] := by
  rw [maskUnmaskHeader, maskUnmaskHeader, Vector.getElem_zipWith, Vector.getElem_zipWith,
    UInt8.xor_assoc] at h
  have hxor : (C.keystream own hdrIv)[i] ^^^ (C.keystream k hdrIv)[i] = 0 :=
    (UInt8.xor_right_inj hdr[i]).mp (h.trans UInt8.xor_zero.symm)
  exact (UInt8.xor_eq_zero_iff.mp hxor).symm

theorem tellsApart_tellingCipher : TellsApart tellingCipher := by
  intro own k k' hk hk'
  obtain ⟨i, hi⟩ := exists_getD_ne hk
  obtain ⟨j, hj⟩ := exists_getD_ne hk'
  refine ⟨#v[i, j, 0, 0, 0, 0, 0, 0, 0, 0, 0, 0], fun hdr hmagic => ⟨?_, ?_⟩⟩
  · refine Bool.eq_false_of_not_eq_true fun hmasked => hi ?_
    have hbyte := keystream_eq_of_masked (by omega)
      ((getElem_of_hasMagic hmasked).1.trans (getElem_of_hasMagic hmagic).1.symm)
    simpa [tellingCipher] using hbyte
  · refine Bool.eq_false_of_not_eq_true fun hmasked => hj ?_
    have hbyte := keystream_eq_of_masked (by omega)
      ((getElem_of_hasMagic hmasked).2.trans (getElem_of_hasMagic hmagic).2.symm)
    simpa [tellingCipher] using hbyte

/-- A device at the address of the second asks for the slot that was lent. -/
def slotRequest : Datagram where
  data := [1, 0, 0, 0, 0, 0, 0, 0, 49, 0, 0, 0, 0, 0, 0, 0] ++ List.replicate 32 3 ++
    [0, 0, 0, 0, 0, 0, 3, 234] ++ List.replicate 16 159
  caddr := ⟨2, 5000⟩
  fd := 3
  mimicType := 0
  now := 4000

/-- The second device of the user is moved to the slot of key id 49, the server has that key
id's master key, and the slot's own mask key is not one of those it takes over. -/
def lendsSecond (st : State) : Bool :=
  ((st.admitted smallLibrary secondRequest (phoneCalls 6 1001)).2.any fun r =>
    (r.1, r.2.1, r.2.2.1) = (5, 0, 1) && r.2.2.2.2 != 0) &&
    st.hs.masterKeys.lookup 49 = some (List.replicate 32 49) &&
    st.sessions.findByKeyId 49 = some 1 &&
    !((st.sessions.heap 0).slot.maskKeys.contains
      ((st.sessions.heap 1).ownMaskKey smallLibrary))

/-- **A device asks for a slot that was lent**, and is not understood. -/
theorem not_acceptsOwn :
    ¬∀ (isolation : Bool) (pool : IpPool) (bootSecret : Vector UInt8 32)
      (evs : List (Event UInt8)),
      Meets (advance smallLibrary smallCipher letterDerivation tellingCipher isolation)
        (AcceptsOwn smallLibrary smallCipher tellingCipher) (init pool bootSecret) evs := by
  intro h
  obtain ⟨st, hst, hlends⟩ := Option.map_eq_some_iff.mp
    (show (runs (advance smallLibrary smallCipher letterDerivation tellingCipher true)
      smallStart phoneRun).map lendsSecond = some true by decide +kernel)
  simp only [lendsSecond, Bool.and_eq_true, Option.any_eq_true, decide_eq_true_eq, bne_iff_ne,
    Prod.mk.injEq, Bool.not_eq_true', List.contains_eq_mem, decide_eq_false_iff_not] at hlends
  obtain ⟨⟨⟨⟨⟨keyId, orig, p, st', ip⟩, hadm, ⟨rfl, rfl, rfl⟩, hip⟩, hmaster⟩, hfind⟩, hnot⟩ :=
    hlends
  -- the second device is moved
  have hopcode : secondRequest.data.head? = some 0x01 ∧ secondRequest.data.length = 72 := by
    decide
  have hsecond : runs (advance smallLibrary smallCipher letterDerivation tellingCipher true)
      smallStart (phoneRun ++ [secondPhone]) =
        some (st.handshake smallLibrary smallCipher secondRequest (phoneCalls 6 1001)).1 :=
    runs_snoc.mpr ⟨st, hst, by rw [secondPhone, advance, step, if_pos hopcode]⟩
  obtain ⟨hkeys, keys, hheap⟩ := sessions_of_admitted smallCipher hadm
  have hmaster' := (sameUsers_handshake (L := smallLibrary) (T := smallCipher) st secondRequest
    (phoneCalls 6 1001)).masterKeys
  generalize (st.handshake smallLibrary smallCipher secondRequest (phoneCalls 6 1001)).1 = st₂ at *
  have hslots : Slots (fun _ => True) st₂ := inv_of_runs (I := Slots fun _ => True)
    (fun h hstep => h.advance (fun _ _ _ => trivial)
      (fun _ _ _ _ _ _ _ _ _ _ => trivial) hstep) (slots_init _ smallPool _) hsecond
  have hlent : st₂.sessions.heap 1 =
      (st.sessions.heap 1).install (st.sessions.heap 0) 5 true keys ip secondRequest := by
    rw [hheap, Function.update_self]
    rfl
  -- the slot is asked for
  have hsucceeds :
      st₂.Succeeds smallLibrary smallCipher slotRequest (phoneCalls 7 1002) 49 1 1 := by
    refine succeeds_of_authentic smallCipher (by decide) (hmaster' ▸ hmaster) (by decide +kernel)
      rfl
      (show RespCalls.GoesThrough smallLibrary _ 7 from
        ⟨⟨1, rfl⟩, rfl, fun _ => List.cons_ne_nil _ _, rfl, rfl, rfl⟩) ?_ ?_ ?_
    · rw [SessionTable.findByKeyId, hkeys]
      exact hfind
    · rw [hlent]
      rfl
    · rw [SessionTable.assignedIp, hlent]
      exact hip
  have haccepts := ((h true smallPool (Vector.replicate 32 1) (phoneRun ++ [secondPhone] ++
    [.op (.handshake slotRequest (phoneCalls 7 1002))])).of_append hsecond).1
  have hkeeps := (acceptsOwn_iff smallLibrary smallCipher tellsApart_tellingCipher hslots _).mp
    haccepts _ _ rfl 49 1 1 hsucceeds
  rw [hlent] at hkeeps
  exact hnot hkeeps

/-- The slot that is asked for has its own mask key, whether or not the handshake goes
through. -/
def keepsOwn (st : State) : Event UInt8 → Bool
  | .op (.handshake d calls) => (st.admitted smallLibrary d calls).2.all fun r =>
    (st.sessions.heap r.2.1).slot.maskKeys.contains
      ((st.sessions.heap r.2.1).ownMaskKey smallLibrary)
  | _ => true

theorem keepsOwn_keepsOwn {st : State} {ev : Event UInt8} (h : keepsOwn st ev = true) :
    KeepsOwn smallLibrary smallCipher st ev := by
  rintro d calls rfl keyId orig p ⟨⟨st', ip, hadm⟩, -⟩
  rw [keepsOwn, hadm] at h
  exact List.contains_iff_mem.mp h

/-- With one device the slots have their own mask keys. -/
theorem acceptsOwn_phoneRun :
    Meets (advance smallLibrary smallCipher letterDerivation tellingCipher true)
      (AcceptsOwn smallLibrary smallCipher tellingCipher) smallStart phoneRun :=
  (meets_acceptsOwn_iff smallLibrary smallCipher letterDerivation tellsApart_tellingCipher true
    smallPool (Vector.replicate 32 1) phoneRun).mpr
      (Meets.imp (I := fun _ => True) (fun _ _ _ => trivial) (fun _ h => keepsOwn_keepsOwn h)
        trivial
        (show Meets _ (fun st ev => keepsOwn st ev = true) smallStart phoneRun by decide +kernel))

end Server

end Aegs
