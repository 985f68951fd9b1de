import Aegs.Bot.Paying

/-!
# Access that is over

After a pass of the worker no key at the server should belong to a user whose time was over
when the pass began, nor be a manual key that has expired (`Aegs.Bot.State.Revoked`). Two
things stand against it: the worker looks at users only, so that a manual key stays whatever
its date, and a user is inactive before his key is removed, so that a removal that fails is
never tried again.

`Aegs.Bot.revoked_of_meets` is the rule for the other runs: removals succeed, keys are all
different, and no renewal of a user overlaps with what the worker does to him
(`Aegs.Bot.Careful`); then a pass revokes all that is over, where no manual key is.
-/

namespace Aegs

namespace Bot

open Transition BoundedMap

/-! ### Keys that are over are revoked, and the condition -/

section

variable {T : Type} [LinearOrder T] (lib : Tools T)

/-- No key at the server is over at a time: neither that of a user nor a manual one. -/
def State.Revoked (st : State T) (t : T) : Prop :=
  ∀ name keyId token, st.server.lookup name = some (keyId, token) →
    (∀ userId user date, st.bot.users.lookup userId = some user → user.aegsKeyId = keyId →
      user.subExpiresAt = some date → ¬date < lib.strftime t) ∧
    ∀ key, st.manualKeys.lookup keyId = some key → ¬key.expiresAt < lib.strftime t

/-- **The condition**: keys are all different, no renewal of a user overlaps with what the
worker does to him, and removals succeed. -/
def Careful (st : State T) : Action T → Prop
  | .getOrCreateUser userId _ token => st.bot.users.lookup userId = none →
      (∀ v row, st.bot.users.lookup v = some row → row.aegsKeyId ≠ lib.computeKeyId token) ∧
        lib.computeKeyId token ∉ st.manualKeys ∧
        ∀ name row, st.server.lookup name = some row → row.1 ≠ lib.computeKeyId token
  | .createManualKey _ token _ _ _ _ =>
      ∀ v row, st.bot.users.lookup v = some row → row.aegsKeyId ≠ lib.computeKeyId token
  | .commit none => ∀ r, st.doing.renewal = some r → r.owner ∉ st.worker.holds
  | .list now => ∀ r, st.doing.owed = some r →
      r.owner ∉ st.bot.expiredActiveUsers (lib.strftime now)
  | .remove o => o.Succeeds
  | _ => True

end

/-! ### The invariant -/

section

variable {T : Type} {lib : Tools T} {st : State T}

/-- **Whose key is at the server is active**, but for the one whom the worker has just
deactivated. -/
structure State.Tidy (st : State T) : Prop where
  consistent : st.Consistent
  keys : ∀ u v row row', st.bot.users.lookup u = some row → st.bot.users.lookup v = some row' →
    row.aegsKeyId = row'.aegsKeyId → u = v
  apart : ∀ keyId ∈ st.manualKeys, ∀ u row, st.bot.users.lookup u = some row →
    row.aegsKeyId ≠ keyId
  active : ∀ name keyId token u row, st.server.lookup name = some (keyId, token) →
    st.bot.users.lookup u = some row → row.aegsKeyId = keyId →
      row.isActive = true ∨ ∃ rest, st.worker = .cleared u keyId rest
  owed : ∀ r, st.doing.owed = some r → r.owner ∉ st.worker.holds ∧
    ∀ row, st.bot.users.lookup r.owner = some row → row.isActive = true

/-- The server and the users stay, and the worker is not between the two databases. -/
theorem State.Tidy.move {st' : State T} (h : st.Tidy) (hst' : st'.Consistent)
    (husers : st'.bot.users = st.bot.users) (hserver : st'.server = st.server)
    (hmanual : st'.manualKeys = st.manualKeys)
    (hcleared : ∀ u keyId rest, st.worker = .cleared u keyId rest → st'.worker = st.worker)
    (howed : ∀ r, st'.doing.owed = some r → st.doing.owed = some r ∧
      r.owner ∉ st'.worker.holds) : st'.Tidy where
  consistent := hst'
  keys := by
    rw [husers]
    exact h.keys
  apart := by
    rw [husers, hmanual]
    exact h.apart
  active := by
    intro name keyId token u row hname hrow hkey
    rw [hserver] at hname
    rw [husers] at hrow
    rcases h.active name keyId token u row hname hrow hkey with hactive | ⟨rest, hworker⟩
    · exact .inl hactive
    · exact .inr ⟨rest, (hcleared _ _ _ hworker).trans hworker⟩
  owed := by
    intro r hr
    obtain ⟨hr₀, hfree⟩ := howed r hr
    rw [husers]
    exact ⟨hfree, (h.owed r hr₀).2⟩

theorem State.Tidy.created {userId : ℤ} {username : Option String} {token : String}
    (h : st.Tidy) (hnone : st.bot.users.lookup userId = none) (hidle : st.doing = .idle)
    (hnew : ∀ v row, st.bot.users.lookup v = some row → row.aegsKeyId ≠ lib.computeKeyId token)
    (hmanual : lib.computeKeyId token ∉ st.manualKeys)
    (hserver : ∀ name row, st.server.lookup name = some row → row.1 ≠ lib.computeKeyId token)
    (hst' : State.Consistent { st with
      bot := { st.bot with users := st.bot.users.insert userId (newUser lib username token) } }) :
    State.Tidy { st with
      bot := { st.bot with
        users := st.bot.users.insert userId (newUser lib username token) } } := by
  have hold := fun u row => lookup_insert_cases (m := st.bot.users) (a := userId)
    (b := newUser lib username token) u row
  refine ⟨hst', ?_, ?_, ?_, ?_⟩
  · intro u v row row' hrow hrow' heq
    rcases hold u row hrow with ⟨rfl, rfl⟩ | ⟨hu, h₀⟩ <;>
      rcases hold v row' hrow' with ⟨rfl, rfl⟩ | ⟨hv, h₁⟩
    · rfl
    · exact absurd heq.symm (hnew v row' h₁)
    · exact absurd heq (hnew u row h₀)
    · exact h.keys u v row row' h₀ h₁ heq
  · intro keyId hkeyId u row hrow
    rcases hold u row hrow with ⟨rfl, rfl⟩ | ⟨-, h₀⟩
    · rintro rfl
      exact hmanual hkeyId
    · exact h.apart keyId hkeyId u row h₀
  · intro name keyId token' u row hname hrow hkey
    rcases hold u row hrow with ⟨rfl, rfl⟩ | ⟨-, h₀⟩
    · exact absurd hkey.symm (hserver name _ hname)
    · exact h.active name keyId token' u row hname h₀ hkey
  · intro r hr
    change st.doing.owed = some r at hr
    rw [hidle] at hr
    exact nomatch hr

/-- A user whose row is changed apart from his key and his activity. -/
theorem State.Tidy.rewrite {bot : BotDb} {userId : ℤ} {f : User → User} (h : st.Tidy)
    (hst' : State.Consistent { st with bot := bot }) (hrewrites : Rewrites st.bot bot userId f)
    (hkeyId : ∀ user, (f user).aegsKeyId = user.aegsKeyId)
    (hactive : ∀ user, (f user).isActive = user.isActive) :
    State.Tidy { st with bot := bot } where
  consistent := hst'
  keys := hrewrites.keys hkeyId h.keys
  apart := by
    intro keyId hk u row hrow
    obtain ⟨r₀, h₀, heq⟩ := hrewrites.row_key hkeyId hrow
    rw [heq]
    exact h.apart keyId hk u r₀ h₀
  active := by
    intro name keyId token u row hname hrow hkey
    obtain ⟨r₀, h₀, ⟨-, rfl⟩ | ⟨-, rfl⟩⟩ := hrewrites.row hrow
    · rw [hactive]
      exact h.active name keyId token u r₀ hname h₀ ((hkeyId r₀).symm.trans hkey)
    · exact h.active name keyId token u _ hname h₀ hkey
  owed := by
    intro r hr
    refine ⟨(h.owed r hr).1, fun row hrow => ?_⟩
    obtain ⟨r₀, h₀, ⟨-, rfl⟩ | ⟨-, rfl⟩⟩ := hrewrites.row hrow
    · rw [hactive]
      exact (h.owed r hr).2 r₀ h₀
    · exact (h.owed r hr).2 _ h₀

theorem State.Tidy.keyed {now : T} {keyId name token : String} {key : ManualKey} (h : st.Tidy)
    (hst' : State.Consistent { st with
      clock := now
      manualKeys := st.manualKeys.insert keyId key
      doing := .syncing none name keyId token none })
    (hnew : ∀ v row, st.bot.users.lookup v = some row → row.aegsKeyId ≠ keyId) :
    State.Tidy { st with
      clock := now
      manualKeys := st.manualKeys.insert keyId key
      doing := .syncing none name keyId token none } where
  consistent := hst'
  keys := h.keys
  apart := by
    intro keyId' hk u row hrow
    rcases (AList.mem_insert _).mp hk with rfl | hk
    · exact hnew u row hrow
    · exact h.apart keyId' hk u row hrow
  active := h.active
  owed := fun r hr => nomatch hr

/-- **The credit** makes its user active, while the worker is not busy with him. -/
theorem State.Tidy.committed {bot : BotDb} {doing : Doing} {r : Renewal} {f : User → User}
    (h : st.Tidy) (hst' : State.Consistent { st with bot := bot, doing := doing })
    (howed : doing.owed = some r) (hrewrites : Rewrites st.bot bot r.owner f)
    (hkeyId : ∀ user, (f user).aegsKeyId = user.aegsKeyId)
    (hactive : ∀ user, (f user).isActive = true) (hfree : r.owner ∉ st.worker.holds) :
    State.Tidy { st with bot := bot, doing := doing } where
  consistent := hst'
  keys := hrewrites.keys hkeyId h.keys
  apart := by
    intro keyId hk u row hrow
    obtain ⟨r₀, h₀, heq⟩ := hrewrites.row_key hkeyId hrow
    rw [heq]
    exact h.apart keyId hk u r₀ h₀
  active := by
    intro name keyId token u row hname hrow hkey
    obtain ⟨r₀, h₀, ⟨-, rfl⟩ | ⟨-, rfl⟩⟩ := hrewrites.row hrow
    · exact .inl (hactive r₀)
    · exact h.active name keyId token u _ hname h₀ hkey
  owed := by
    intro r' hr'
    obtain rfl := Option.some.inj (howed.symm.trans hr')
    refine ⟨hfree, fun row hrow => ?_⟩
    obtain ⟨r₀, h₀, ⟨-, rfl⟩ | ⟨hne, -⟩⟩ := hrewrites.row hrow
    · exact hactive r₀
    · exact absurd rfl hne

/-- **The key that arrives** is that of an active user, or of none. -/
theorem State.Tidy.synced {owner : Option ℤ} {username keyId token : String}
    {approval : Option Approval} {doing : Doing} (h : st.Tidy)
    (hst' : State.Consistent { st with
      server := st.server.insert username (keyId, token), doing := doing })
    (hdoing : st.doing = .syncing owner username keyId token approval)
    (hrenewal : doing.renewal = none) :
    State.Tidy { st with
      server := st.server.insert username (keyId, token), doing := doing } where
  consistent := hst'
  keys := h.keys
  apart := h.apart
  active := by
    intro name keyId' token' u row hname hrow hkey
    rcases lookup_insert_cases name _ hname with ⟨-, heq⟩ | ⟨-, hname⟩
    · obtain ⟨rfl, rfl⟩ := Prod.mk.inj heq
      cases owner with
      | none =>
        exact absurd hkey (h.apart _ (h.consistent.manual _ _ _ _ hdoing).2 u row hrow)
      | some v =>
        have hr : st.doing.owed = some ⟨v, username, keyId', token'⟩ := by rw [hdoing]; rfl
        obtain ⟨-, row', hrow', hkey', -⟩ := h.consistent.renewal _ (renewal_of_owed hr)
        obtain rfl := h.keys u v row row' hrow hrow' (hkey.trans hkey'.symm)
        exact .inl ((h.owed _ hr).2 row hrow)
    · exact h.active name keyId' token' u row hname hrow hkey
  owed := by
    intro r hr
    exact nomatch (renewal_of_owed hr).symm.trans hrenewal

/-- The worker deactivates a user whom it has read. -/
theorem State.Tidy.cleared {bot : BotDb} {userId : ℤ} {keyId : String} {rest : List ℤ}
    (h : st.Tidy)
    (hst' : State.Consistent { st with bot := bot, worker := .cleared userId keyId rest })
    (hworker : st.worker = .found userId keyId rest)
    (hrewrites : Rewrites st.bot bot userId fun user => { user with isActive := false }) :
    State.Tidy { st with bot := bot, worker := .cleared userId keyId rest } where
  consistent := hst'
  keys := hrewrites.keys (fun _ => rfl) h.keys
  apart := by
    intro keyId' hk u row hrow
    obtain ⟨r₀, h₀, heq⟩ := hrewrites.row_key (fun _ => rfl) hrow
    rw [heq]
    exact h.apart keyId' hk u r₀ h₀
  active := by
    intro name keyId' token u row hname hrow hkey
    obtain ⟨r₀, h₀, ⟨rfl, rfl⟩ | ⟨-, rfl⟩⟩ := hrewrites.row hrow
    · obtain ⟨row', hrow', hkey'⟩ := h.consistent.victim u keyId (by rw [hworker]; rfl)
      obtain rfl := Option.some.inj (hrow'.symm.trans h₀)
      exact .inr ⟨rest, by rw [← hkey, ← hkey']⟩
    · rcases h.active name keyId' token u _ hname h₀ hkey with hactive | ⟨rest', hcleared⟩
      · exact .inl hactive
      · exact nomatch hworker.symm.trans hcleared
  owed := by
    intro r hr
    obtain ⟨hfree, hactive⟩ := h.owed r hr
    rw [hworker] at hfree
    refine ⟨hfree, fun row hrow => ?_⟩
    obtain ⟨r₀, h₀, ⟨heq, -⟩ | ⟨-, rfl⟩⟩ := hrewrites.row hrow
    · rw [heq] at hfree
      exact absurd List.mem_cons_self hfree
    · exact hactive _ h₀

/-- **The removal**: no row with the key is left, and the user is settled. -/
theorem State.Tidy.removed {userId : ℤ} {keyId : String} {rest : List ℤ} (h : st.Tidy)
    (hst' : State.Consistent { st with
      server := purge st.server fun _ row => row.1 = keyId, worker := .listed rest })
    (hworker : st.worker = .cleared userId keyId rest) :
    State.Tidy { st with
      server := purge st.server fun _ row => row.1 = keyId, worker := .listed rest } where
  consistent := hst'
  keys := h.keys
  apart := h.apart
  active := by
    intro name keyId' token u row hname hrow hkey
    obtain ⟨hold, hne⟩ := lookup_purge hname
    rcases h.active name keyId' token u row hold hrow hkey with hactive | ⟨rest', hcleared⟩
    · exact .inl hactive
    · obtain ⟨-, rfl, -⟩ := Worker.cleared.inj (hworker.symm.trans hcleared)
      exact absurd rfl (of_decide_eq_false hne)
  owed := by
    intro r hr
    obtain ⟨hfree, hactive⟩ := h.owed r hr
    rw [hworker] at hfree
    exact ⟨fun hmem => hfree (List.mem_cons_of_mem _ hmem), hactive⟩

end

/-! ### Runs -/

section

variable {T : Type} [LinearOrder T] {lib : Tools T} {st st' : State T} {a : Action T}

/-- **Every careful step keeps the invariant.** -/
theorem State.Tidy.step (h : st.Tidy) (hok : Careful lib st a)
    (hstep : st.step lib a = some st') : st'.Tidy := by
  have heffect := effect_of_step hstep
  have hst' := h.consistent.effect heffect
  cases heffect with
  | quiet husers hserver hmanual hworker hclock hdoing =>
    refine h.move hst' husers hserver hmanual (fun _ _ _ _ => hworker) fun r hr => ?_
    exact nomatch (renewal_of_owed hr).symm.trans hdoing
  | started r hclock hidle hrenewal howed =>
    exact h.move hst' rfl rfl rfl (fun _ _ _ _ => rfl) fun r hr => nomatch hr.symm.trans howed
  | created hidle hnone =>
    obtain ⟨hnew, hmanual, hserver⟩ := hok hnone
    exact h.created hnone hidle hnew hmanual hserver hst'
  | renamed hidle hrewrites => exact h.rewrite hst' hrewrites (fun _ => rfl) fun _ => rfl
  | keyed key => exact h.keyed hst' hok
  | committed r f hrenewal hpaid howed hrenewal' hkey hrewrites hkeyId htoken hactive =>
    exact h.committed hst' howed hrewrites hkeyId hactive (hok r hrenewal)
  | synced hdoing hrenewal => exact h.synced hst' hdoing hrenewal
  | listed hclock hidle =>
    refine h.move hst' rfl rfl rfl (fun _ _ _ hw => ?_) fun r hr => ⟨hr, hok r hr⟩
    exact nomatch hw.symm.trans hidle
  | found hworker =>
    refine h.move hst' rfl rfl rfl (fun _ _ _ hw => nomatch hw.symm.trans hworker) fun r hr => ?_
    have hfree := (h.owed r hr).1
    rw [hworker] at hfree
    exact ⟨hr, hfree⟩
  | missing hworker =>
    refine h.move hst' rfl rfl rfl (fun _ _ _ hw => nomatch hw.symm.trans hworker) fun r hr => ?_
    have hfree := (h.owed r hr).1
    rw [hworker] at hfree
    exact ⟨hr, fun hmem => hfree (List.mem_cons_of_mem _ hmem)⟩
  | cleared hworker hrewrites => exact h.cleared hst' hworker hrewrites
  | removed hworker => exact h.removed hst' hworker
  | kept hworker hfails => exact absurd hok hfails
  | stopped ha hworker =>
    exact h.move hst' rfl rfl rfl (fun _ _ _ hw => absurd hw (hworker _ _ _)) fun r hr =>
      ⟨hr, fun hmem => nomatch hmem⟩

omit [LinearOrder T] in
/-- Without users and keys the invariant holds. -/
theorem State.Tidy.start (hnone : st.bot.users = ∅) (hserver : st.server = ∅)
    (hidle : st.Idle) : st.Tidy := by
  obtain ⟨hdoing, hworker⟩ := hidle
  have hempty : ∀ u row, st.bot.users.lookup u ≠ some row := by
    intro u row h
    rw [hnone, AList.lookup_empty] at h
    exact nomatch h
  refine ⟨⟨?_, ?_, ?_⟩, fun u v row row' h => absurd h (hempty u row),
    fun keyId _ u row h => absurd h (hempty u row), ?_, ?_⟩
  · rw [hdoing]
    exact fun r h => nomatch h
  · rw [hdoing]
    exact fun name keyId token approval h => nomatch h
  · rw [hworker]
    exact fun userId keyId h => nomatch h
  · intro name keyId token u row hname
    rw [hserver, AList.lookup_empty] at hname
    exact nomatch hname
  · rw [hdoing]
    exact fun r h => nomatch h

/-! ### A pass -/

/-- What the worker does in a pass behind its listing, as long as nothing raises. -/
def Action.InPass : Action T → Prop
  | .visit => True
  | .clear => True
  | .remove _ => True
  | .finish => True
  | _ => False

/-- **In a pass** the active users whose time is over are those whom the worker still has on
its list, and nothing is added at the server. -/
structure Passing (lib : Tools T) (start : State T) (now : T) (st : State T) : Prop where
  listed : ∀ u row date, st.bot.users.lookup u = some row → row.isActive = true →
    row.subExpiresAt = some date → date < lib.strftime now → u ∈ st.worker.holds
  cleared : ∀ u keyId rest row, st.worker = .cleared u keyId rest →
    st.bot.users.lookup u = some row → row.isActive = false
  server : ∀ name row, st.server.lookup name = some row → start.server.lookup name = some row
  manual : st.manualKeys = start.manualKeys

/-- A step in a pass. -/
theorem Passing.step {start : State T} {now : T} (h : Passing lib start now st)
    (hok : Careful lib st a) (hpass : a.InPass) (hstep : st.step lib a = some st') :
    Passing lib start now st' := by
  cases effect_of_step hstep with
  | quiet husers hserver hmanual hworker =>
    refine ⟨?_, ?_, ?_, hmanual.trans h.manual⟩
    · rw [husers, hworker]
      exact h.listed
    · rw [husers, hworker]
      exact h.cleared
    · rw [hserver]
      exact h.server
  | started => exact ⟨h.listed, h.cleared, h.server, h.manual⟩
  | created => exact hpass.elim
  | renamed => exact hpass.elim
  | keyed => exact hpass.elim
  | committed => exact hpass.elim
  | synced => exact hpass.elim
  | listed => exact hpass.elim
  | found hworker =>
    refine ⟨fun u row date hrow hactive hdate hlt => ?_, fun _ _ _ _ hw => (nomatch hw),
      h.server, h.manual⟩
    have hmem := h.listed u row date hrow hactive hdate hlt
    rw [hworker] at hmem
    exact hmem
  | @missing userId rest hworker hnone =>
    refine ⟨fun u row date hrow hactive hdate hlt => ?_, fun _ _ _ _ hw => (nomatch hw),
      h.server, h.manual⟩
    have hmem := h.listed u row date hrow hactive hdate hlt
    rw [hworker] at hmem
    rcases List.mem_cons.mp hmem with rfl | hmem
    · exact nomatch hrow.symm.trans hnone
    · exact hmem
  | @cleared userId keyId rest bot hworker hrewrites =>
    refine ⟨fun u row date hrow hactive hdate hlt => ?_, fun u _ _ row hw hrow => ?_, h.server,
      h.manual⟩
    · obtain ⟨r₀, h₀, ⟨-, rfl⟩ | ⟨-, rfl⟩⟩ := hrewrites.row hrow
      · exact nomatch hactive
      · have hmem := h.listed u _ date h₀ hactive hdate hlt
        rw [hworker] at hmem
        exact hmem
    · obtain ⟨rfl, -, -⟩ := Worker.cleared.inj hw
      obtain ⟨r₀, h₀, ⟨-, rfl⟩ | ⟨hne, -⟩⟩ := hrewrites.row hrow
      · rfl
      · exact absurd rfl hne
  | @removed o userId keyId rest hworker =>
    refine ⟨fun u row date hrow hactive hdate hlt => ?_, fun _ _ _ _ hw => (nomatch hw),
      fun name row hname => h.server name row (lookup_purge hname).1, h.manual⟩
    have hmem := h.listed u row date hrow hactive hdate hlt
    rw [hworker] at hmem
    rcases List.mem_cons.mp hmem with rfl | hmem
    · exact nomatch hactive.symm.trans (h.cleared _ _ _ row hworker hrow)
    · exact hmem
  | kept hworker hfails => exact absurd hok hfails
  | stopped ha =>
    rcases ha with ⟨rfl, hworker⟩ | rfl
    · refine ⟨fun u row date hrow hactive hdate hlt => ?_, fun _ _ _ _ hw => (nomatch hw),
        h.server, h.manual⟩
      have hmem := h.listed u row date hrow hactive hdate hlt
      rw [hworker] at hmem
      exact nomatch hmem
    · exact hpass.elim

/-- A pass, from its first step behind the listing. -/
theorem Passing.run {start : State T} {now : T} {pass : List (Action T)}
    (h : Passing lib start now st) (hok : Meets (State.step lib) (Careful lib) st pass)
    (hpass : ∀ a ∈ pass, a.InPass) (hrun : runs (State.step lib) st pass = some st') :
    Passing lib start now st' := by
  induction pass generalizing st with
  | nil =>
    obtain rfl := Option.some.inj hrun
    exact h
  | cons a pass ih =>
    rw [runs_cons, Option.bind_eq_some_iff] at hrun
    obtain ⟨u, hu, hrest⟩ := hrun
    exact ih (h.step hok.1 (hpass a List.mem_cons_self) hu) (hok.2 u hu)
      (fun b hb => hpass b (List.mem_cons_of_mem _ hb)) hrest

/-- **The rule for runs**: from a bot without users and keys, in every careful run, a pass of
the worker that nothing interrupts revokes what was over when it began, provided that no
manual key at the server was. -/
theorem revoked_of_meets (hmono : Monotone lib.strftime) {st₁ st₂ : State T}
    (hnone : st.bot.users = ∅) (hserver : st.server = ∅) (hidle : st.Idle)
    {history pass : List (Action T)} {t now : T} (htime : t ≤ now)
    (hok : Meets (State.step lib) (Careful lib) st (history ++ .list now :: pass))
    (hhistory : runs (State.step lib) st history = some st₁)
    (hvalid : ∀ name keyId token key, st₁.server.lookup name = some (keyId, token) →
      st₁.manualKeys.lookup keyId = some key → ¬key.expiresAt < lib.strftime t)
    (hpass : ∀ a ∈ pass, a.InPass)
    (hrun : runs (State.step lib) st₁ (.list now :: pass) = some st₂)
    (hdone : st₂.worker = .idle) : st₂.Revoked lib t := by
  have hok₁ := hok.of_append hhistory
  have hwhole : runs (State.step lib) st (history ++ .list now :: pass) = some st₂ := by
    rw [runs_append, hhistory]
    exact hrun
  have htidy : st₂.Tidy :=
    inv_of_meets (fun h hok hstep => h.step hok hstep) (.start hnone hserver hidle) hok hwhole
  rw [runs_cons, Option.bind_eq_some_iff] at hrun
  obtain ⟨st', hlist, hrest⟩ := hrun
  have hlisted : Passing lib st₁ now st' := by
    rw [State.step] at hlist
    split at hlist
    · split at hlist
      · obtain rfl := Option.some.inj hlist
        refine ⟨fun u row date hrow hactive hdate hlt => ?_, fun _ _ _ _ hw => (by cases hw),
          fun _ _ hname => hname, rfl⟩
        exact mem_expiredActiveUsers.mpr ⟨row, hrow, hactive, date, hdate, hlt⟩
      · cases hlist
    · cases hlist
  have hpassed := hlisted.run (hok₁.2 st' hlist) hpass hrest
  intro name keyId token hname
  refine ⟨fun userId user date huser hkey hdate hlt => ?_, fun key hkey => ?_⟩
  · -- an active user would still be on the list
    have hactive : user.isActive = true := by
      rcases htidy.active name keyId token userId user hname huser hkey with h | ⟨rest, hw⟩
      · exact h
      · cases hdone.symm.trans hw
    have hmem := hpassed.listed userId user date huser hactive hdate
      (lt_of_lt_of_le hlt (hmono htime))
    rw [hdone] at hmem
    cases hmem
  · rw [hpassed.manual] at hkey
    exact hvalid name keyId token key (hpassed.server _ _ hname) hkey

end

/-! ### Access that stays -/

/-- A manual key for one day, and a pass on the sixth. -/
def manualRun : List (Action ℕ) :=
  [.createManualKey 0 "token" 1 940 "" 1, .sync .clear, .list 5, .finish]

/-- The transaction of `aegs_sync` raises. -/
def locked : Outcomes := { Outcomes.clear with syncTransaction := some "database is locked" }

/-- A user for one day, a pass whose removal fails, and one more. -/
def lockedRun : List (Action ℕ) :=
  [.getOrCreateUser 7 (some "ann") "token", .extend 0 (paymentOf 1 "a"), .commit none,
    .sync .clear, .list 5, .visit, .clear, .remove locked, .finish, .list 6, .finish]

/-- **Keys stay at the server**: a manual key whose day is over, and the key of a user whose
removal failed in the pass before. -/
theorem not_revoked :
    (∃ st, runs (State.step strokeTools) emptyState manualRun = some st ∧ st.Idle ∧
      ¬st.Revoked strokeTools 5) ∧
    ∃ st, runs (State.step strokeTools) emptyState lockedRun = some st ∧ st.Idle ∧
      ¬st.Revoked strokeTools 6 := by
  constructor
  · refine ⟨_, rfl, ⟨rfl, rfl⟩, fun h => ?_⟩
    exact (h "manual_token" "token" "token" rfl).2 _ rfl (by decide)
  · refine ⟨_, rfl, ⟨rfl, rfl⟩, fun h => ?_⟩
    exact (h "tg_7_ann" "token" "token" rfl).1 7 _ _ rfl rfl rfl (by decide)

/-- What happens before the pass: a manual key for a hundred days, and a user for
one. -/
def tidyHistory : List (Action ℕ) :=
  [.createManualKey 0 "other" 100 940 "" 1, .sync .clear,
    .getOrCreateUser 7 (some "ann") "token", .extend 0 (paymentOf 1 "a"), .commit none,
    .sync .clear]

/-- The pass behind its listing. -/
def tidyPass : List (Action ℕ) := [.visit, .clear, .remove .clear, .finish]

theorem revoked_tidyPass : ∃ st, runs (State.step strokeTools) emptyState
    (tidyHistory ++ .list 5 :: tidyPass) = some st ∧ st.Revoked strokeTools 5 := by
  have hok : Meets (State.step strokeTools) (Careful strokeTools) emptyState
      (tidyHistory ++ .list 5 :: tidyPass) := by
    refine ⟨fun v row h => (nomatch h), ?_⟩
    rintro _ ⟨⟩
    refine ⟨trivial, ?_⟩
    rintro _ ⟨⟩
    refine ⟨fun _ => ⟨fun v row h => (nomatch h), ?_, fun name row h => ?_⟩, ?_⟩
    · decide
    · have hlookup : (AList.insert "manual_other" ("other", "other")
          (∅ : AList fun _ : String => String × String)).lookup name = some row := h
      rcases lookup_insert_cases name row hlookup with ⟨-, rfl⟩ | ⟨-, hlookup⟩
      · decide
      · exact nomatch hlookup
    rintro _ ⟨⟩
    refine ⟨trivial, ?_⟩
    rintro _ ⟨⟩
    refine ⟨fun r _ => List.not_mem_nil, ?_⟩
    rintro _ ⟨⟩
    refine ⟨trivial, ?_⟩
    rintro _ ⟨⟩
    refine ⟨fun r h => (nomatch h), ?_⟩
    rintro _ ⟨⟩
    refine ⟨trivial, ?_⟩
    rintro _ ⟨⟩
    refine ⟨trivial, ?_⟩
    rintro _ ⟨⟩
    refine ⟨⟨rfl, rfl, rfl⟩, ?_⟩
    rintro _ ⟨⟩
    exact ⟨trivial, fun _ _ => trivial⟩
  refine ⟨_, rfl, revoked_of_meets monotone_strokes ?_ ?_ ?_ (Nat.le_refl 5) hok rfl ?_ ?_ rfl rfl⟩
  · rfl
  · rfl
  · exact ⟨rfl, rfl⟩
  · intro name keyId token key _ hkey
    have hlookup : (AList.insert "other" _ (∅ : AList fun _ : String => ManualKey)).lookup keyId =
        some key := hkey
    rcases lookup_insert_cases keyId key hlookup with ⟨-, rfl⟩ | ⟨-, hlookup⟩
    · decide
    · exact nomatch hlookup
  · simp [tidyPass, Action.InPass]

end Bot

end Aegs
