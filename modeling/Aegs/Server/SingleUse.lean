import Aegs.Server.Ownership

/-!
# Tokens are used once

`verify` in its five steps, with any number of workers between them and a clock that does
not go back: it reads the clock, prunes and looks the nonce up under `mu_`, decrypts,
compares the expiry with the reading it made at the beginning, and enters the nonce under
`mu_` unless somebody else has in the meantime.

A nonce stays in the set until the token has expired, and the last step looks only at the
set. So a worker that is held up until the token has expired enters the nonce as if the
token were good, after the nonce of an earlier use has been pruned as well
(`Aegs.Server.SingleUse.not_singleUse`). Every token is used once, in time and for what it
was issued for in exactly the runs where no worker is held up that long
(`Aegs.Server.SingleUse.meets_singleUse_iff`).
-/

namespace Aegs

namespace Server

open Bytes Handshake Transition

/-- Decryption undoes encryption. -/
def TokenCipher.Correct (T : TokenCipher) : Prop := ∀ key iv aad plain,
  T.decrypt key iv aad (T.encrypt key iv aad plain).1 (T.encrypt key iv aad plain).2 = some plain

/-! ### The steps of a verification -/

/-- The session id in a token's payload. -/
def plainSessionId (plain : Vector UInt8 32) : UInt64 := ofLe64 (copyOut plain.toList 0 8)

/-- The address in a token's payload. -/
def plainIp (plain : Vector UInt8 32) : UInt32 := ofLe32 (copyOut plain.toList 8 4)

/-- The expiry in a token's payload. -/
def plainExpiry (plain : Vector UInt8 32) : UInt64 := ofLe64 (copyOut plain.toList 12 8)

section

variable {S : Type} (L : Library S) (T : TokenCipher) (m : ResumptionManager)

/-- The first critical section: pruning, and whether the nonce is new. -/
def ResumptionManager.precheck (tok : ResumptionToken) (now : UInt64) :
    ResumptionManager × Bool :=
  let m := m.pruneExpired now
  (m, (m.usedNonces.lookup tok.nonce).isNone)

/-- The derivation of the key and the decryption. -/
def ResumptionManager.openToken (tok : ResumptionToken) (masterKey : Vector UInt8 32)
    (calls : VerifyCalls) : Option (Vector UInt8 32) :=
  if ¬calls.derive ∨ ¬calls.cipher then none
  else T.decrypt (m.resumptionKey L masterKey) tok.iv tok.aad tok.ciphertext tok.tag

/-- The second critical section: the nonce is entered, if it is new. -/
def ResumptionManager.insertNonce (tok : ResumptionToken) (expiry : UInt64) :
    ResumptionManager × Bool :=
  if (m.usedNonces.lookup tok.nonce).isSome then (m, false)
  else ({ m with usedNonces := m.usedNonces.insert tok.nonce expiry }, true)

/-- **`verify` is these steps**, with nobody in between. -/
theorem verify_eq (tok : ResumptionToken) (masterKey : Vector UInt8 32) (now : UInt64)
    (calls : VerifyCalls) :
    m.verify L T tok masterKey now calls =
      if (m.precheck tok now).2 then
        match (m.precheck tok now).1.openToken L T tok masterKey calls with
        | none => ((m.precheck tok now).1, none)
        | some plain =>
          if now > plainExpiry plain then ((m.precheck tok now).1, none)
          else
            (((m.precheck tok now).1.insertNonce tok (plainExpiry plain)).1,
              some (plainSessionId plain, plainIp plain))
      else ((m.precheck tok now).1, none) := by
  rw [ResumptionManager.verify]
  rcases hused : (m.pruneExpired now).usedNonces.lookup tok.nonce with _ | expiry
  · have hpre : m.precheck tok now = (m.pruneExpired now, true) := by
      rw [ResumptionManager.precheck, hused]
      rfl
    simp only [Option.isSome_none, Bool.false_eq_true, if_false, hpre, if_true,
      ResumptionManager.openToken]
    by_cases hcalls : ¬calls.derive ∨ ¬calls.cipher
    · rw [if_pos hcalls, if_pos hcalls]
    · rw [if_neg hcalls, if_neg hcalls]
      cases T.decrypt ((m.pruneExpired now).resumptionKey L masterKey) tok.iv tok.aad
        tok.ciphertext tok.tag with
      | none => rfl
      | some plain =>
        simp only [ResumptionManager.insertNonce, hused, Option.isSome_none, Bool.false_eq_true,
          if_false]
        rfl
  · have hpre : m.precheck tok now = (m.pruneExpired now, false) := by
      rw [ResumptionManager.precheck, hused]
      rfl
    simp only [Option.isSome_some, if_true, hpre, Bool.false_eq_true, if_false]

end

theorem plainSessionId_tokenPlain (sessionId : UInt64) (ip : UInt32) (expiry : UInt64) :
    plainSessionId (tokenPlain sessionId ip expiry) = sessionId := by
  rw [plainSessionId, tokenPlain, copyOut_copyIn_of_disjoint _ _ (by decide) (by decide),
    copyOut_copyIn_of_disjoint _ _ (by decide) (by decide), copyOut_copyIn_self _ _ (by decide),
    ofLe64_le64]

theorem plainIp_tokenPlain (sessionId : UInt64) (ip : UInt32) (expiry : UInt64) :
    plainIp (tokenPlain sessionId ip expiry) = ip := by
  rw [plainIp, tokenPlain, copyOut_copyIn_of_disjoint _ _ (by decide) (by decide),
    copyOut_copyIn_self _ _ (by decide), ofLe32_le32]

theorem plainExpiry_tokenPlain (sessionId : UInt64) (ip : UInt32) (expiry : UInt64) :
    plainExpiry (tokenPlain sessionId ip expiry) = expiry := by
  rw [plainExpiry, tokenPlain, copyOut_copyIn_self _ _ (by decide), ofLe64_le64]

/-- The associated data has the nonce, the key id and the reserved bytes of a token, each
at its place. -/
theorem aad_inj {tok tok' : ResumptionToken} (h : tok.aad = tok'.aad) :
    tok.nonce = tok'.nonce ∧ tok.keyId = tok'.keyId ∧ tok.reserved = tok'.reserved := by
  rw [ResumptionToken.aad, ResumptionToken.aad] at h
  obtain ⟨hfront, hreserved⟩ := List.append_inj h (by simp)
  obtain ⟨hnonce, hkeyId⟩ := List.append_inj hfront (by simp)
  exact ⟨Vector.toList_inj.mp hnonce, Vector.toList_inj.mp hkeyId, Vector.toList_inj.mp hreserved⟩

namespace SingleUse

/-! ### The system -/

/-- A call of `verify` with the time it has read. -/
structure Call where
  /-- The token presented. -/
  token : ResumptionToken
  /-- `master_key`. -/
  masterKey : Vector UInt8 32
  /-- `cur_time`. -/
  curTime : UInt64

/-- Where a worker is. -/
inductive Phase
  /-- Not in `verify`. -/
  | idle
  /-- It has read the clock. -/
  | read (c : Call)
  /-- It has pruned, and not found the nonce. -/
  | checked (c : Call)
  /-- It has the payload. -/
  | opened (c : Call) (plain : Vector UInt8 32)
  /-- The payload's expiry is not before its reading. -/
  | tested (c : Call) (plain : Vector UInt8 32)

/-- The call of a worker that is about to decrypt. -/
def Phase.toDecrypt : Phase → Option Call
  | .checked c => some c
  | _ => none

/-- The call of a worker that is about to enter the nonce, with the payload. -/
def Phase.toInsert : Phase → Option (Call × Vector UInt8 32)
  | .tested c plain => some (c, plain)
  | _ => none

theorem Phase.eq_of_toInsert {ph : Phase} {c : Call} {plain : Vector UInt8 32}
    (h : (c, plain) ∈ ph.toInsert) : ph = .tested c plain := by
  cases ph with
  | tested c' plain' =>
    obtain ⟨rfl, rfl⟩ := Prod.mk.inj (Option.some.inj h)
    rfl
  | idle | read _ | checked _ | opened _ _ => exact absurd h (by simp [Phase.toInsert])

/-- A token that was issued. -/
structure Issued where
  /-- The token. -/
  token : ResumptionToken
  /-- The key it is sealed under. -/
  key : Vector UInt8 32
  /-- Its session id. -/
  sessionId : UInt64
  /-- Its address. -/
  assignedIp : UInt32
  /-- Its expiry. -/
  expiry : UInt64

/-- A call of `verify` that returned true. -/
structure Accepted where
  /-- The token. -/
  token : ResumptionToken
  /-- The key it was opened with. -/
  key : Vector UInt8 32
  /-- `session_id_out`. -/
  sessionId : UInt64
  /-- `ip_out`. -/
  assignedIp : UInt32
  /-- The expiry in it. -/
  expiry : UInt64
  /-- The time at which its nonce was entered. -/
  time : UInt64

/-- The manager, the clock and the workers, with what was issued and accepted. -/
structure System where
  /-- The manager. -/
  manager : ResumptionManager
  /-- The clock. -/
  clock : UInt64
  /-- The workers. -/
  phase : ℕ → Phase
  /-- History. -/
  issued : List Issued
  /-- History. -/
  accepted : List Accepted

/-- A server that has just started. -/
def System.start (bootSecret : Vector UInt8 32) : System :=
  ⟨.start bootSecret, 0, fun _ => .idle, [], []⟩

/-- The worker is in this phase now. -/
def System.enter (st : System) (w : ℕ) (ph : Phase) : System :=
  { st with phase := Function.update st.phase w ph }

/-- What happens next. -/
inductive Event
  /-- The clock goes on. -/
  | tick (now : UInt64)
  /-- A token is issued. -/
  | issue (sessionId : UInt64) (assignedIp : UInt32) (masterKey : Vector UInt8 32)
    (keyId : Vector UInt8 8) (calls : IssueCalls)
  /-- A worker reads the clock for a token. -/
  | readClock (w : ℕ) (token : ResumptionToken) (masterKey : Vector UInt8 32)
  /-- It goes through the first critical section. -/
  | precheck (w : ℕ)
  /-- It decrypts. -/
  | decrypt (w : ℕ) (calls : VerifyCalls)
  /-- It compares the expiry. -/
  | testExpiry (w : ℕ)
  /-- It goes through the second critical section. -/
  | insertNonce (w : ℕ)

section

variable {S : Type} (L : Library S) (T : TokenCipher)

/-- One step. -/
def step (st : System) : Event → Option System
  | .tick now => if st.clock ≤ now then some { st with clock := now } else none
  | .issue sessionId assignedIp masterKey keyId calls =>
    some <| match st.manager.issue L T sessionId assignedIp masterKey keyId st.clock calls with
      | none => st
      | some token => { st with
          issued := ⟨token, st.manager.resumptionKey L masterKey, sessionId, assignedIp,
            st.clock + 180000⟩ :: st.issued }
  | .readClock w token masterKey =>
    match st.phase w with
    | .idle => some (st.enter w (.read ⟨token, masterKey, st.clock⟩))
    | _ => none
  | .precheck w =>
    match st.phase w with
    | .read c =>
      let r := st.manager.precheck c.token c.curTime
      some ({ st with manager := r.1 }.enter w (if r.2 then .checked c else .idle))
    | _ => none
  | .decrypt w calls =>
    match st.phase w with
    | .checked c =>
      some (st.enter w (match st.manager.openToken L T c.token c.masterKey calls with
        | none => .idle
        | some plain => .opened c plain))
    | _ => none
  | .testExpiry w =>
    match st.phase w with
    | .opened c plain =>
      some (st.enter w (if c.curTime > plainExpiry plain then .idle else .tested c plain))
    | _ => none
  | .insertNonce w =>
    match st.phase w with
    | .tested c plain =>
      let r := st.manager.insertNonce c.token (plainExpiry plain)
      let st := { st with manager := r.1 }.enter w .idle
      some (if r.2 then { st with
          accepted := ⟨c.token, st.manager.resumptionKey L c.masterKey, plainSessionId plain,
            plainIp plain, plainExpiry plain, st.clock⟩ :: st.accepted }
        else st)
    | _ => none

/-! ### The property and the condition -/

/-- **Single use, in time, as issued**: what was accepted was issued, with this session id
and address, and had not expired; and no token was accepted twice. -/
structure Good (st : System) : Prop where
  /-- An accepted token was issued. -/
  exact : ∀ a ∈ st.accepted, ∃ i ∈ st.issued, i.token = a.token ∧ i.key = a.key ∧
    i.sessionId = a.sessionId ∧ i.assignedIp = a.assignedIp ∧ a.time ≤ i.expiry
  /-- It was accepted once. -/
  once : (st.accepted.map fun a => (a.token, a.key)).Nodup

/-- The next state is good. -/
def StaysGood (st : System) (ev : Event) : Prop := ∀ t ∈ step L T st ev, Good t

/-- The cipher opens what was sealed under the same key, with the same nonce and the same
associated data, and nothing else. -/
def Unforged (st : System) : Event → Prop
  | .decrypt w _ => ∀ c ∈ (st.phase w).toDecrypt,
      (T.decrypt (st.manager.resumptionKey L c.masterKey) c.token.iv c.token.aad
          c.token.ciphertext c.token.tag).isSome →
        ∃ i ∈ st.issued, i.key = st.manager.resumptionKey L c.masterKey ∧
          i.token.iv = c.token.iv ∧ i.token.aad = c.token.aad ∧
          i.token.ciphertext = c.token.ciphertext ∧ i.token.tag = c.token.tag
  | _ => True

/-- **No worker is held up past the expiry** of its token, when it enters a new nonce. -/
def InTime (st : System) : Event → Prop
  | .insertNonce w => ∀ r ∈ (st.phase w).toInsert,
      st.manager.usedNonces.lookup r.1.token.nonce = none → st.clock ≤ plainExpiry r.2
  | _ => True

instance (st : System) : ∀ ev : Event, Decidable (Unforged L T st ev)
  | .decrypt w _ => inferInstanceAs (Decidable (∀ c ∈ (st.phase w).toDecrypt,
      (T.decrypt (st.manager.resumptionKey L c.masterKey) c.token.iv c.token.aad
          c.token.ciphertext c.token.tag).isSome →
        ∃ i ∈ st.issued, i.key = st.manager.resumptionKey L c.masterKey ∧
          i.token.iv = c.token.iv ∧ i.token.aad = c.token.aad ∧
          i.token.ciphertext = c.token.ciphertext ∧ i.token.tag = c.token.tag))
  | .tick _ | .issue _ _ _ _ _ | .readClock _ _ _ | .precheck _ | .testExpiry _
  | .insertNonce _ => isTrue trivial

instance (st : System) : ∀ ev : Event, Decidable (InTime st ev)
  | .insertNonce w => inferInstanceAs (Decidable (∀ r ∈ (st.phase w).toInsert,
      st.manager.usedNonces.lookup r.1.token.nonce = none → st.clock ≤ plainExpiry r.2))
  | .tick _ | .issue _ _ _ _ _ | .readClock _ _ _ | .precheck _ | .decrypt _ _
  | .testExpiry _ => isTrue trivial

end

section

variable {S : Type} (L : Library S) (T : TokenCipher)

/-! ### What the steps keep -/

/-- The token is one that was issued, and this is its payload. -/
def IssuedAs (st : System) (token : ResumptionToken) (key plain : Vector UInt8 32) : Prop :=
  ∃ i ∈ st.issued, i.token = token ∧ i.key = key ∧
    plain = tokenPlain i.sessionId i.assignedIp i.expiry

/-- **The invariant**: what is issued is sealed; a worker that has a payload has that of an
issued token; and the nonce of a token that was accepted is in the set until the token has
expired. -/
structure Sound (st : System) : Prop where
  /-- A token is the seal of its payload. -/
  sealed : ∀ i ∈ st.issued, T.encrypt i.key i.token.iv i.token.aad
    (tokenPlain i.sessionId i.assignedIp i.expiry) = (i.token.ciphertext, i.token.tag)
  /-- The payload of a worker is that of its token. -/
  plain : ∀ w c p, (st.phase w = .opened c p ∨ st.phase w = .tested c p) →
    IssuedAs st c.token (st.manager.resumptionKey L c.masterKey) p
  /-- No worker has read a time that is still to come. -/
  reading : ∀ w c, st.phase w = .read c → c.curTime ≤ st.clock
  /-- A nonce that was used is in the set until the token has expired. -/
  kept : ∀ a ∈ st.accepted,
    st.manager.usedNonces.lookup a.token.nonce = some a.expiry ∨ a.expiry < st.clock
  /-- What was accepted was issued, with this expiry. -/
  accepted : ∀ a ∈ st.accepted, ∃ p, IssuedAs st a.token a.key p ∧
    a.sessionId = plainSessionId p ∧ a.assignedIp = plainIp p ∧ a.expiry = plainExpiry p
  /-- It was accepted in time. -/
  inTime : ∀ a ∈ st.accepted, a.time ≤ a.expiry
  /-- It was accepted once. -/
  once : (st.accepted.map fun a => (a.token, a.key)).Nodup

variable {L T}

theorem IssuedAs.mono {st st' : System} {token : ResumptionToken} {key plain : Vector UInt8 32}
    (h : IssuedAs st token key plain) (hissued : ∀ i ∈ st.issued, i ∈ st'.issued) :
    IssuedAs st' token key plain := by
  obtain ⟨i, hi, hrest⟩ := h
  exact ⟨i, hissued i hi, hrest⟩

/-- **The invariant is enough.** -/
theorem Sound.good {st : System} (h : Sound L T st) : Good st := by
  refine ⟨fun a ha => ?_, h.once⟩
  obtain ⟨p, ⟨i, hi, htoken, hkey, rfl⟩, hsession, hip, hexpiry⟩ := h.accepted a ha
  rw [plainSessionId_tokenPlain] at hsession
  rw [plainIp_tokenPlain] at hip
  rw [plainExpiry_tokenPlain] at hexpiry
  exact ⟨i, hi, htoken, hkey, hsession.symm, hip.symm, hexpiry ▸ h.inTime a ha⟩

theorem sound_start (bootSecret : Vector UInt8 32) : Sound L T (.start bootSecret) where
  sealed := nofun
  plain w c p h := by simp [System.start] at h
  reading w c h := by simp [System.start] at h
  kept := nofun
  accepted := nofun
  inTime := nofun
  once := List.nodup_nil

/-- **Pruning** takes a nonce only after the expiry it has. -/
theorem lookup_pruneExpired {m : ResumptionManager} {nonce : Vector UInt8 32} {expiry : UInt64}
    (h : m.usedNonces.lookup nonce = some expiry) (now : UInt64) :
    (m.pruneExpired now).usedNonces.lookup nonce = some expiry ∨ expiry < now := by
  rw [ResumptionManager.pruneExpired]
  split
  · exact Or.inl h
  · by_cases hexpired : expiry < now
    · exact Or.inr hexpired
    · refine Or.inl ?_
      refine List.foldlRecOn (motive := fun used : AList fun _ : Vector UInt8 32 => UInt64 =>
        used.lookup nonce = some expiry) _ _ h fun used hused entry hentry => ?_
      split
      · rename_i hgone
        have hne : nonce ≠ entry.1 := by
          rintro rfl
          have heq := (AList.mem_lookup_iff.mpr hentry).symm.trans h
          exact hexpired (Option.some.inj heq ▸ hgone)
        rw [AList.lookup_erase_ne hne]
        exact hused
      · exact hused

/-- The secret of this boot does not change. -/
theorem resumptionKey_pruneExpired (m : ResumptionManager) (now : UInt64)
    (masterKey : Vector UInt8 32) :
    (m.pruneExpired now).resumptionKey L masterKey = m.resumptionKey L masterKey := by
  rw [ResumptionManager.pruneExpired]
  split <;> rfl

theorem resumptionKey_insertNonce (m : ResumptionManager) (token : ResumptionToken)
    (expiry : UInt64) (masterKey : Vector UInt8 32) :
    (m.insertNonce token expiry).1.resumptionKey L masterKey = m.resumptionKey L masterKey := by
  rw [ResumptionManager.insertNonce]
  split <;> rfl

/-- **A worker moves**, with what its new phase says being so. -/
theorem Sound.enter {st : System} (h : Sound L T st) (w : ℕ) {ph : Phase}
    (hplain : ∀ c p, (ph = .opened c p ∨ ph = .tested c p) →
      IssuedAs st c.token (st.manager.resumptionKey L c.masterKey) p)
    (hreading : ∀ c, ph = .read c → c.curTime ≤ st.clock) : Sound L T (st.enter w ph) := by
  refine ⟨h.sealed, fun w' c p hph => ?_, fun w' c hph => ?_, h.kept, h.accepted, h.inTime,
    h.once⟩
  · rcases eq_or_ne w' w with rfl | hne
    · simp only [System.enter, Function.update_self] at hph
      exact hplain c p hph
    · simp only [System.enter, Function.update_of_ne hne] at hph
      exact h.plain w' c p hph
  · rcases eq_or_ne w' w with rfl | hne
    · simp only [System.enter, Function.update_self] at hph
      exact hreading c hph
    · simp only [System.enter, Function.update_of_ne hne] at hph
      exact h.reading w' c hph

/-- **The set of nonces changes**, and has those that were used until they expire. -/
theorem Sound.setManager {st : System} (h : Sound L T st) {m : ResumptionManager}
    (hkey : ∀ masterKey, m.resumptionKey L masterKey = st.manager.resumptionKey L masterKey)
    (hkept : ∀ a ∈ st.accepted, m.usedNonces.lookup a.token.nonce = some a.expiry ∨
      a.expiry < st.clock) : Sound L T { st with manager := m } := by
  refine ⟨h.sealed, fun w c p hph => ?_, h.reading, hkept, h.accepted, h.inTime, h.once⟩
  rw [hkey]
  exact h.plain w c p hph

/-- A token has one payload. -/
theorem Sound.plain_unique (hT : T.Correct) {st : System} (h : Sound L T st)
    {token : ResumptionToken} {key p p' : Vector UInt8 32} (hp : IssuedAs st token key p)
    (hp' : IssuedAs st token key p') : p = p' := by
  obtain ⟨i, hi, rfl, rfl, rfl⟩ := hp
  obtain ⟨i', hi', htoken, hkey, rfl⟩ := hp'
  have hopen := hT i.key i.token.iv i.token.aad (tokenPlain i.sessionId i.assignedIp i.expiry)
  have hopen' := hT i.key i.token.iv i.token.aad
    (tokenPlain i'.sessionId i'.assignedIp i'.expiry)
  have hseal' := h.sealed i' hi'
  rw [htoken, hkey] at hseal'
  rw [h.sealed i hi] at hopen
  rw [hseal'] at hopen'
  exact Option.some.inj (hopen.symm.trans hopen')

/-- **What the ideal cipher opens** is a token that was issued, with its payload. -/
theorem Sound.opens (hT : T.Correct) {st : System} (h : Sound L T st) {w : ℕ} {c : Call}
    {calls : VerifyCalls} (hph : st.phase w = .checked c)
    (hunforged : Unforged L T st (.decrypt w calls)) {p : Vector UInt8 32}
    (hopen : st.manager.openToken L T c.token c.masterKey calls = some p) :
    IssuedAs st c.token (st.manager.resumptionKey L c.masterKey) p := by
  rw [ResumptionManager.openToken] at hopen
  obtain ⟨-, hopen⟩ := Option.ite_none_left_eq_some.mp hopen
  obtain ⟨i, hi, hkey, hiv, haad, hciphertext, htag⟩ := hunforged c (by rw [hph]; rfl)
    (by rw [hopen]; rfl)
  obtain ⟨hnonce, hkeyId, hreserved⟩ := aad_inj haad
  have htoken : i.token = c.token := by
    cases hi' : i.token
    cases hc : c.token
    simp only [hi', hc] at hnonce hciphertext htag hkeyId hreserved
    rw [hnonce, hciphertext, htag, hkeyId, hreserved]
  refine ⟨i, hi, htoken, hkey, ?_⟩
  have hseal := h.sealed i hi
  have hdecrypt := hT i.key i.token.iv i.token.aad
    (tokenPlain i.sessionId i.assignedIp i.expiry)
  rw [hseal, hkey, htoken] at hdecrypt
  exact Option.some.inj (hopen.symm.trans hdecrypt)

/-- What `issue` makes is the seal of what it was given. -/
theorem issue_eq_some {m : ResumptionManager} {sessionId : UInt64} {assignedIp : UInt32}
    {masterKey : Vector UInt8 32} {keyId : Vector UInt8 8} {now : UInt64} {calls : IssueCalls}
    {token : ResumptionToken}
    (h : m.issue L T sessionId assignedIp masterKey keyId now calls = some token) :
    T.encrypt (m.resumptionKey L masterKey) token.iv token.aad
      (tokenPlain sessionId assignedIp (now + 180000)) = (token.ciphertext, token.tag) := by
  rw [ResumptionManager.issue] at h
  obtain ⟨-, h⟩ := Option.ite_none_left_eq_some.mp h
  split at h
  · exact absurd h (by simp)
  · obtain ⟨-, h⟩ := Option.ite_none_left_eq_some.mp h
    rw [← Option.some.inj h]
    rfl

/-- **Every step keeps the invariant**, with an ideal cipher and workers that are in
time. -/
theorem Sound.step (hT : T.Correct) {st st' : System} {ev : Event} (h : Sound L T st)
    (hunforged : Unforged L T st ev) (hintime : InTime st ev)
    (hstep : step L T st ev = some st') : Sound L T st' := by
  cases ev with
  | tick now =>
    obtain ⟨hle, hst⟩ := Option.ite_none_right_eq_some.mp hstep
    rw [← Option.some.inj hst]
    refine ⟨h.sealed, h.plain, fun w c hph => UInt64.le_trans (h.reading w c hph) hle,
      fun a ha => ?_, h.accepted, h.inTime, h.once⟩
    exact (h.kept a ha).imp_right fun hlt => UInt64.lt_of_lt_of_le hlt hle
  | issue sessionId assignedIp masterKey keyId calls =>
    rw [← Option.some.inj hstep]
    split
    · exact h
    · rename_i token htoken
      have hmono : ∀ i ∈ st.issued, i ∈ (⟨token, st.manager.resumptionKey L masterKey, sessionId,
          assignedIp, st.clock + 180000⟩ :: st.issued : List Issued) := fun i hi =>
        List.mem_cons_of_mem _ hi
      refine ⟨fun i hi => ?_, fun w c p hph => (h.plain w c p hph).mono hmono, h.reading, h.kept,
        fun a ha => ?_, h.inTime, h.once⟩
      · rcases List.mem_cons.mp hi with rfl | hi
        · exact issue_eq_some htoken
        · exact h.sealed i hi
      · obtain ⟨p, hp, hrest⟩ := h.accepted a ha
        exact ⟨p, hp.mono hmono, hrest⟩
  | readClock w token masterKey =>
    rw [SingleUse.step] at hstep
    split at hstep
    · rw [← Option.some.inj hstep]
      refine h.enter w (by simp) fun c hph => ?_
      rw [← Phase.read.inj hph]
      exact UInt64.le_refl _
    · exact absurd hstep (by simp)
  | precheck w =>
    rw [SingleUse.step] at hstep
    split at hstep
    · rename_i c hph
      rw [← Option.some.inj hstep]
      have hmanager :
          Sound L T { st with manager := (st.manager.precheck c.token c.curTime).1 } := by
        refine h.setManager (fun masterKey => resumptionKey_pruneExpired _ _ _) fun a ha => ?_
        rcases h.kept a ha with hused | hexpired
        · rcases lookup_pruneExpired hused c.curTime with hused | hlt
          · exact Or.inl hused
          · exact Or.inr (UInt64.lt_of_lt_of_le hlt (h.reading w c hph))
        · exact Or.inr hexpired
      refine hmanager.enter w (fun c' p hph' => ?_) fun c' hph' => ?_
      · split at hph' <;> simp at hph'
      · split at hph' <;> simp at hph'
    · exact absurd hstep (by simp)
  | decrypt w calls =>
    rw [SingleUse.step] at hstep
    split at hstep
    · rename_i c hph
      rw [← Option.some.inj hstep]
      rcases hopen : st.manager.openToken L T c.token c.masterKey calls with _ | p
      · exact h.enter w (by simp) (by simp)
      · refine h.enter w (fun c' p' hph' => ?_) (by simp)
        obtain ⟨rfl, rfl⟩ : c = c' ∧ p = p' := by simpa using hph'
        exact h.opens hT hph hunforged hopen
    · exact absurd hstep (by simp)
  | testExpiry w =>
    rw [SingleUse.step] at hstep
    split at hstep
    · rename_i c p hph
      rw [← Option.some.inj hstep]
      refine h.enter w (fun c' p' hph' => ?_) fun c' hph' => ?_
      · split at hph'
        · simp at hph'
        · obtain ⟨rfl, rfl⟩ : c = c' ∧ p = p' := by simpa using hph'
          exact h.plain w c p (Or.inl hph)
      · split at hph' <;> simp at hph'
    · exact absurd hstep (by simp)
  | insertNonce w =>
    rw [SingleUse.step] at hstep
    split at hstep
    · rename_i c p hph
      have hp := h.plain w c p (Or.inr hph)
      rw [← Option.some.inj hstep]
      rcases hused : st.manager.usedNonces.lookup c.token.nonce with _ | expiry
      · -- the nonce is new: any earlier use of the token has expired, and this one has not
        have hclock : st.clock ≤ plainExpiry p := hintime (c, p) (by rw [hph]; rfl) hused
        have hins : st.manager.insertNonce c.token (plainExpiry p) =
            ({ st.manager with usedNonces :=
              st.manager.usedNonces.insert c.token.nonce (plainExpiry p) }, true) := by
          simp only [ResumptionManager.insertNonce, hused, Option.isSome_none, Bool.false_eq_true,
            if_false]
        have hmanager : Sound L T { st with manager :=
            (st.manager.insertNonce c.token (plainExpiry p)).1 } := by
          refine h.setManager (fun masterKey => resumptionKey_insertNonce _ _ _ _) fun a ha => ?_
          rcases h.kept a ha with hkept | hexpired
          · have hne : a.token.nonce ≠ c.token.nonce := by
              intro heq
              rw [heq, hused] at hkept
              exact absurd hkept (by simp)
            rw [hins]
            exact Or.inl ((AList.lookup_insert_ne hne).trans hkept)
          · exact Or.inr hexpired
        have hidle : Sound L T (System.enter { st with manager :=
            (st.manager.insertNonce c.token (plainExpiry p)).1 } w .idle) :=
          hmanager.enter w (by simp) (by simp)
        simp only [hins, if_true] at hidle ⊢
        refine ⟨hidle.sealed, hidle.plain, hidle.reading, fun a ha => ?_, fun a ha => ?_,
          fun a ha => ?_, ?_⟩
        · rcases List.mem_cons.mp ha with rfl | ha
          · exact Or.inl (AList.lookup_insert _)
          · exact hidle.kept a ha
        · rcases List.mem_cons.mp ha with rfl | ha
          · exact ⟨p, hp, rfl, rfl, rfl⟩
          · exact hidle.accepted a ha
        · rcases List.mem_cons.mp ha with rfl | ha
          · exact hclock
          · exact hidle.inTime a ha
        · rw [List.map_cons, List.nodup_cons]
          refine ⟨fun hmem => ?_, hidle.once⟩
          obtain ⟨a, ha, heq⟩ := List.mem_map.mp hmem
          obtain ⟨htoken, hkey⟩ := Prod.mk.inj heq
          obtain ⟨p', hp', -, -, hexpiry⟩ := h.accepted a ha
          rw [htoken, hkey] at hp'
          have hsame := h.plain_unique hT hp' hp
          rcases h.kept a ha with hkept | hexpired
          · rw [htoken, hused] at hkept
            exact absurd hkept (by simp)
          · rw [hexpiry, hsame] at hexpired
            exact absurd hclock (UInt64.not_le.mpr hexpired)
      · -- somebody else has used it
        have hins : st.manager.insertNonce c.token (plainExpiry p) = (st.manager, false) := by
          simp only [ResumptionManager.insertNonce, hused, Option.isSome_some, if_true]
        simp only [hins, Bool.false_eq_true, if_false]
        exact h.enter w (by simp) (by simp)
    · exact absurd hstep (by simp)

/-- A step that leaves the system good takes no token late. -/
theorem inTime_of_staysGood (hT : T.Correct) {st : System} {ev : Event} (h : Sound L T st)
    (hgood : StaysGood L T st ev) : InTime st ev := by
  cases ev with
  | insertNonce w =>
    rintro ⟨c, p⟩ hinsert hused
    have hph := Phase.eq_of_toInsert hinsert
    have hins : st.manager.insertNonce c.token (plainExpiry p) =
        ({ st.manager with usedNonces :=
          st.manager.usedNonces.insert c.token.nonce (plainExpiry p) }, true) := by
      simp only [ResumptionManager.insertNonce, hused, Option.isSome_none, Bool.false_eq_true,
        if_false]
    have hnext := hgood _ (show step L T st (.insertNonce w) = some _ by
      simp only [SingleUse.step, hph, hins, if_true]
      rfl)
    obtain ⟨i, hi, htoken, hkey, -, -, htime⟩ := hnext.exact _ List.mem_cons_self
    have hp : IssuedAs st c.token (st.manager.resumptionKey L c.masterKey)
        (tokenPlain i.sessionId i.assignedIp i.expiry) := ⟨i, hi, htoken, hkey, rfl⟩
    have hsame := h.plain_unique hT (h.plain w c p (Or.inr hph)) hp
    rw [hsame, plainExpiry_tokenPlain]
    exact htime
  | tick _ | issue _ _ _ _ _ | readClock _ _ _ | precheck _ | decrypt _ _ | testExpiry _ => trivial

/-- **Single use**: with an ideal cipher every state of a run is good exactly if no worker
of the run is held up past the expiry of its token. -/
theorem meets_singleUse_iff (L : Library S) (T : TokenCipher) (hT : T.Correct)
    (bootSecret : Vector UInt8 32) (evs : List Event)
    (hideal : Meets (step L T) (Unforged L T) (.start bootSecret) evs) :
    Meets (step L T) (StaysGood L T) (.start bootSecret) evs ↔
      Meets (step L T) InTime (.start bootSecret) evs := by
  constructor
  · intro hgood
    have hboth := hgood.and hideal
    refine hboth.imp (I := Sound L T) (fun h hok hstep => ?_) (fun h hok => ?_)
      (sound_start bootSecret)
    · exact h.step hT hok.2 (inTime_of_staysGood hT h hok.1) hstep
    · exact inTime_of_staysGood hT h hok.1
  · intro hintime
    have hboth := hintime.and hideal
    refine hboth.imp (I := Sound L T) (fun h hok hstep => ?_) (fun h hok => ?_)
      (sound_start bootSecret)
    · exact h.step hT hok.2 hok.1 hstep
    · exact fun t ht => (h.step hT hok.2 hok.1 ht).good

end

/-! ### Held up until the nonce is forgotten -/

theorem smallCipher_correct : smallCipher.Correct := by
  intro key iv aad plain
  have hplain : (plain.map (· ^^^ key[0])).map (· ^^^ key[0]) = plain := by
    ext i hi
    rw [Vector.getElem_map, Vector.getElem_map, UInt8.xor_assoc, UInt8.xor_self, UInt8.xor_zero]
  simp only [smallCipher, hplain, if_true]

/-- A token for the address `10.8.0.2`, issued at second 1000. -/
def lateToken : ResumptionToken :=
  ((ResumptionManager.start (Vector.replicate 32 1)).issue smallLibrary smallCipher 77 0x0A080002
    (Vector.replicate 32 9) (le64 5) 1000000 ⟨true, some (Vector.replicate 32 8), true⟩).getD
    (ResumptionToken.read [] 0)

/-- The key it is sealed under. -/
def lateKey : Vector UInt8 32 :=
  (ResumptionManager.start (Vector.replicate 32 1)).resumptionKey smallLibrary
    (Vector.replicate 32 9)

/-- The token is issued, and two workers read the clock for it in its last millisecond. One
of them goes through. -/
def usedRun : List Event :=
  [.tick 1000000,
    .issue 77 0x0A080002 (Vector.replicate 32 9) (le64 5)
      ⟨true, some (Vector.replicate 32 8), true⟩,
    .tick 1180000, .readClock 0 lateToken (Vector.replicate 32 9),
    .readClock 1 lateToken (Vector.replicate 32 9), .precheck 0, .precheck 1,
    .decrypt 0 ⟨true, true⟩, .decrypt 1 ⟨true, true⟩, .testExpiry 0, .testExpiry 1,
    .insertNonce 0]

/-- Ten seconds later a third worker prunes, and the second goes on. -/
def lateRun : List Event :=
  usedRun ++ [.tick 1190001, .readClock 2 lateToken (Vector.replicate 32 9), .precheck 2,
    .insertNonce 1]

/-- **The token is accepted a second time**, ten seconds after it has expired. -/
theorem not_singleUse : ¬∀ (evs : List Event) (st : System),
    Meets (step smallLibrary smallCipher) (Unforged smallLibrary smallCipher)
        (.start (Vector.replicate 32 1)) evs →
      runs (step smallLibrary smallCipher) (.start (Vector.replicate 32 1)) evs = some st →
        Good st := by
  intro h
  have hideal : Meets (step smallLibrary smallCipher) (Unforged smallLibrary smallCipher)
      (.start (Vector.replicate 32 1)) lateRun := by
    decide +kernel
  have hrun : (runs (step smallLibrary smallCipher) (.start (Vector.replicate 32 1)) lateRun).map
      (fun st => st.accepted.map fun a => (a.token, a.key)) =
        some [(lateToken, lateKey), (lateToken, lateKey)] := by
    decide +kernel
  obtain ⟨st, hst, haccepted⟩ := Option.map_eq_some_iff.mp hrun
  have honce := (h lateRun st hideal hst).once
  rw [haccepted] at honce
  exact absurd honce (by simp)

/-- One worker goes through in time, and the other finds the nonce. -/
theorem singleUse_usedRun :
    Meets (step smallLibrary smallCipher) (StaysGood smallLibrary smallCipher)
      (.start (Vector.replicate 32 1)) (usedRun ++ [.insertNonce 1]) :=
  (meets_singleUse_iff smallLibrary smallCipher smallCipher_correct (Vector.replicate 32 1)
    (usedRun ++ [.insertNonce 1]) (by decide +kernel)).mpr (by decide +kernel)

end SingleUse

end Server

end Aegs
