import Mathlib.Order.Monotone.Basic
import Aegs.Bot.Lifecycle

/-!
# Users who have paid

A user whose time is not over should be active and have his key at the server whenever both
threads are between two calls (`Aegs.Bot.State.Serves`). The worker lists the users whose
time is over in one transaction and deactivates them in later ones, without looking at the
date again: a renewal that lands in between is undone. The run `Aegs.Bot.lateRun` has this.

`Aegs.Bot.serves_of_meets` is the rule for the other runs: no renewal is written, to either
database, while the worker is busy with its user (`Aegs.Bot.Undisturbed`).
-/

namespace Aegs

namespace Bot

open Transition BoundedMap

/-! ### Paying users are served, and the condition -/

section

variable {T : Type} [LinearOrder T] (lib : Tools T)

/-- From the clock on, every user whose date is later than now is active and has his key at
the server. -/
def State.Serves (st : State T) : Prop :=
  ∀ now, st.clock ≤ now → ∀ userId user date, st.bot.users.lookup userId = some user →
    user.subExpiresAt = some date → lib.strftime now < date →
      user.isActive = true ∧
        ∃ name, st.server.lookup name = some (user.aegsKeyId, user.aegsToken)

/-- **The condition**: a new user gets a key that no other user has, a renewal is not written
while the worker is busy with its user, and keys that are sent to the server arrive. -/
def Undisturbed (st : State T) : Action T → Prop
  | .getOrCreateUser userId _ token => st.bot.users.lookup userId = none →
      ∀ v row, st.bot.users.lookup v = some row → row.aegsKeyId ≠ lib.computeKeyId token
  | .commit none => ∀ r, st.doing.renewal = some r → r.owner ∉ st.worker.holds
  | .sync o => o.Succeeds ∧ ∀ r, st.doing.renewal = some r → r.owner ∉ st.worker.holds
  | _ => True

/-! ### The invariant -/

/-- **Paying users are served**, but for the one whose renewal is committed and not yet with
the server; whom the worker is busy with is none of them. -/
structure State.Sound (st : State T) : Prop where
  consistent : st.Consistent
  keys : ∀ u v row row', st.bot.users.lookup u = some row → st.bot.users.lookup v = some row' →
    row.aegsKeyId = row'.aegsKeyId → u = v
  held : ∀ u ∈ st.worker.holds, ∀ row date, st.bot.users.lookup u = some row →
    row.subExpiresAt = some date → ¬lib.strftime st.clock < date
  served : ∀ u row date, st.bot.users.lookup u = some row → row.subExpiresAt = some date →
    lib.strftime st.clock < date → row.isActive = true ∧
      ((∃ name, Own u name ∧ st.server.lookup name = some (row.aegsKeyId, row.aegsToken)) ∨
        ∃ r, st.doing.owed = some r ∧ r.owner = u)

end

section

variable {T : Type} [LinearOrder T] {lib : Tools T} {st st' : State T} {a : Action T}

/-- Whoever is later than now is later than any time before. -/
theorem later_of_later (hmono : Monotone lib.strftime) {t t' : T} (hle : t ≤ t') {date : String}
    (h : lib.strftime t' < date) : lib.strftime t < date :=
  lt_of_le_of_lt (hmono hle) h

/-- Between two calls the invariant is what is claimed. -/
theorem State.Sound.serves (hmono : Monotone lib.strftime) (h : st.Sound lib)
    (hidle : st.Idle) : st.Serves lib := by
  intro now hnow u row date hrow hdate hlater
  obtain ⟨hactive, ⟨name, -, hname⟩ | ⟨r, hr, -⟩⟩ :=
    h.served u row date hrow hdate (later_of_later hmono hnow hlater)
  · exact ⟨hactive, name, hname⟩
  · rw [hidle.1] at hr
    exact nomatch hr

/-- Rows, server and renewals stay, and the clock may go on. -/
theorem State.Sound.quiet (hmono : Monotone lib.strftime) (h : st.Sound lib)
    (hst' : st'.Consistent) (husers : st'.bot.users = st.bot.users)
    (hserver : st'.server = st.server) (hclock : st.clock ≤ st'.clock)
    (hheld : ∀ u ∈ st'.worker.holds, u ∈ st.worker.holds)
    (howed : ∀ r, st.doing.owed = some r → st'.doing.owed = some r) : st'.Sound lib where
  consistent := hst'
  keys := by
    rw [husers]
    exact h.keys
  held := by
    intro u hu row date hrow hdate hlater
    rw [husers] at hrow
    exact h.held u (hheld u hu) row date hrow hdate (later_of_later hmono hclock hlater)
  served := by
    intro u row date hrow hdate hlater
    rw [husers] at hrow
    rw [hserver]
    obtain ⟨hactive, hname | ⟨r, hr, hu⟩⟩ :=
      h.served u row date hrow hdate (later_of_later hmono hclock hlater)
    · exact ⟨hactive, .inl hname⟩
    · exact ⟨hactive, .inr ⟨r, howed r hr, hu⟩⟩

end

section

variable {T : Type} {lib : Tools T} {st : State T}

/-- A user whose row is changed apart from his key, his date and his activity. -/
theorem State.Sound.rewrite {bot : BotDb} {userId : ℤ} {f : User → User} (h : st.Sound lib)
    (hst' : State.Consistent { st with bot := bot }) (hrewrites : Rewrites st.bot bot userId f)
    (hkeyId : ∀ user, (f user).aegsKeyId = user.aegsKeyId)
    (htoken : ∀ user, (f user).aegsToken = user.aegsToken)
    (hdate : ∀ user, (f user).subExpiresAt = user.subExpiresAt)
    (hactive : ∀ user, (f user).isActive = user.isActive) :
    State.Sound lib { st with bot := bot } where
  consistent := hst'
  keys := hrewrites.keys hkeyId h.keys
  held := by
    intro u hu row date hrow hd
    obtain ⟨r₀, h₀, ⟨-, rfl⟩ | ⟨-, rfl⟩⟩ := hrewrites.row hrow
    · exact h.held u hu r₀ date h₀ ((hdate r₀).symm.trans hd)
    · exact h.held u hu _ date h₀ hd
  served := by
    intro u row date hrow hd hlater
    obtain ⟨r₀, h₀, ⟨-, rfl⟩ | ⟨-, rfl⟩⟩ := hrewrites.row hrow
    · rw [hactive, hkeyId, htoken]
      exact h.served u r₀ date h₀ ((hdate r₀).symm.trans hd) hlater
    · exact h.served u _ date h₀ hd hlater

/-- A new user has no date. -/
theorem State.Sound.created {userId : ℤ} {username : Option String} {token : String}
    (h : st.Sound lib) (hnone : st.bot.users.lookup userId = none)
    (hnew : ∀ v row, st.bot.users.lookup v = some row → row.aegsKeyId ≠ lib.computeKeyId token)
    (hst' : State.Consistent { st with
      bot := { st.bot with users := st.bot.users.insert userId (newUser lib username token) } }) :
    State.Sound lib { st with
      bot := { st.bot with
        users := st.bot.users.insert userId (newUser lib username token) } } := by
  have hold := fun u row => lookup_insert_cases (m := st.bot.users) (a := userId)
    (b := newUser lib username token) u row
  refine ⟨hst', ?_, ?_, ?_⟩
  · intro u v row row' hrow hrow' heq
    rcases hold u row hrow with ⟨rfl, rfl⟩ | ⟨hu, h₀⟩ <;>
      rcases hold v row' hrow' with ⟨rfl, rfl⟩ | ⟨hv, h₁⟩
    · rfl
    · exact absurd heq.symm (hnew v row' h₁)
    · exact absurd heq (hnew u row h₀)
    · exact h.keys u v row row' h₀ h₁ heq
  · intro u hu row date hrow hdate
    rcases hold u row hrow with ⟨rfl, rfl⟩ | ⟨-, h₀⟩
    · exact nomatch hdate
    · exact h.held u hu row date h₀ hdate
  · intro u row date hrow hdate hlater
    rcases hold u row hrow with ⟨rfl, rfl⟩ | ⟨-, h₀⟩
    · exact nomatch hdate
    · exact h.served u row date h₀ hdate hlater

/-- **The credit**: its user is active, and the worker is not busy with him. -/
theorem State.Sound.committed {bot : BotDb} {doing : Doing} {r : Renewal} {f : User → User}
    (h : st.Sound lib) (hst' : State.Consistent { st with bot := bot, doing := doing })
    (hpaid : st.doing.owed = none) (howed : doing.owed = some r)
    (hrewrites : Rewrites st.bot bot r.owner f)
    (hkeyId : ∀ user, (f user).aegsKeyId = user.aegsKeyId)
    (hactive : ∀ user, (f user).isActive = true) (hfree : r.owner ∉ st.worker.holds) :
    State.Sound lib { st with bot := bot, doing := doing } where
  consistent := hst'
  keys := hrewrites.keys hkeyId h.keys
  held := by
    intro u hu row date hrow hdate
    obtain ⟨r₀, h₀, ⟨rfl, -⟩ | ⟨-, rfl⟩⟩ := hrewrites.row hrow
    · exact absurd hu hfree
    · exact h.held u hu _ date h₀ hdate
  served := by
    intro u row date hrow hdate hlater
    obtain ⟨r₀, h₀, ⟨rfl, rfl⟩ | ⟨hne, rfl⟩⟩ := hrewrites.row hrow
    · exact ⟨hactive r₀, .inr ⟨r, howed, rfl⟩⟩
    · obtain ⟨hact, hname | ⟨r', hr', -⟩⟩ := h.served u _ date h₀ hdate hlater
      · exact ⟨hact, .inl hname⟩
      · exact nomatch hr'.symm.trans hpaid

/-- **The key arrives** under a name of its user, where no other user has his. -/
theorem State.Sound.synced {owner : Option ℤ} {username keyId token : String}
    {approval : Option Approval} {doing : Doing} (h : st.Sound lib)
    (hst' : State.Consistent { st with
      server := st.server.insert username (keyId, token), doing := doing })
    (hdoing : st.doing = .syncing owner username keyId token approval) :
    State.Sound lib { st with
      server := st.server.insert username (keyId, token), doing := doing } where
  consistent := hst'
  keys := h.keys
  held := h.held
  served := by
    intro u row date hrow hdate hlater
    obtain ⟨hactive, hserved⟩ := h.served u row date hrow hdate hlater
    refine ⟨hactive, .inl ?_⟩
    -- the name that is written is not one of another user
    have hother : ∀ name, Own u name → (∀ v, owner = some v → v ≠ u) → name ≠ username := by
      rintro name hown hne rfl
      cases owner with
      | none =>
        obtain ⟨⟨s, hs⟩, -⟩ := h.consistent.manual _ _ _ _ hdoing
        exact hown.ne_manual hs
      | some v =>
        have hr : st.doing.renewal = some ⟨v, name, keyId, token⟩ := by rw [hdoing]; rfl
        exact hne v rfl ((h.consistent.renewal _ hr).1.inj hown)
    by_cases howner : owner = some u
    · subst howner
      have hr : st.doing.renewal = some ⟨u, username, keyId, token⟩ := by rw [hdoing]; rfl
      obtain ⟨hown, row', hrow', hkeyId, htoken⟩ := h.consistent.renewal _ hr
      obtain rfl := Option.some.inj (hrow'.symm.trans hrow)
      refine ⟨username, hown, ?_⟩
      change (st.server.insert username (keyId, token)).lookup username = _
      rw [AList.lookup_insert, hkeyId, htoken]
    · rcases hserved with ⟨name, hown, hname⟩ | ⟨r, hr, hu⟩
      · refine ⟨name, hown, ?_⟩
        have hne := hother name hown fun v hv hvu => howner (by rw [hv, hvu])
        exact (AList.lookup_insert_ne hne).trans hname
      · rw [hdoing] at hr
        cases owner with
        | none => exact nomatch hr
        | some v =>
          obtain rfl := Option.some.inj hr
          exact absurd (congrArg some hu) howner

/-- **The worker clears and removes** only what belongs to users it is busy with. -/
theorem State.Sound.cleared {bot : BotDb} {userId : ℤ} {worker : Worker} (h : st.Sound lib)
    (hst' : State.Consistent { st with bot := bot, worker := worker })
    (hheld : userId ∈ st.worker.holds) (hworker : ∀ u ∈ worker.holds, u ∈ st.worker.holds)
    (hrewrites : Rewrites st.bot bot userId fun user => { user with isActive := false }) :
    State.Sound lib { st with bot := bot, worker := worker } where
  consistent := hst'
  keys := hrewrites.keys (fun _ => rfl) h.keys
  held := by
    intro u hu row date hrow hdate
    obtain ⟨r₀, h₀, ⟨-, rfl⟩ | ⟨-, rfl⟩⟩ := hrewrites.row hrow
    · exact h.held u (hworker u hu) r₀ date h₀ hdate
    · exact h.held u (hworker u hu) _ date h₀ hdate
  served := by
    intro u row date hrow hdate hlater
    obtain ⟨r₀, h₀, ⟨rfl, rfl⟩ | ⟨-, rfl⟩⟩ := hrewrites.row hrow
    · exact absurd hlater (h.held u hheld r₀ date h₀ hdate)
    · exact h.served u _ date h₀ hdate hlater

theorem State.Sound.removed {userId : ℤ} {keyId : String} {rest : List ℤ} (h : st.Sound lib)
    (hst' : State.Consistent { st with
      server := purge st.server fun _ row => row.1 = keyId, worker := .listed rest })
    (hworker : st.worker = .cleared userId keyId rest) :
    State.Sound lib { st with
      server := purge st.server fun _ row => row.1 = keyId, worker := .listed rest } where
  consistent := hst'
  keys := h.keys
  held := by
    intro u hu
    refine h.held u ?_
    rw [hworker]
    exact List.mem_cons_of_mem _ hu
  served := by
    intro u row date hrow hdate hlater
    obtain ⟨hactive, ⟨name, hown, hname⟩ | howed⟩ := h.served u row date hrow hdate hlater
    · refine ⟨hactive, .inl ⟨name, hown, ?_⟩⟩
      obtain ⟨row', hrow', hkeyId⟩ := h.consistent.victim userId keyId (by rw [hworker]; rfl)
      have hne : row.aegsKeyId ≠ keyId := by
        intro heq
        obtain rfl := h.keys u userId row row' hrow hrow' (heq.trans hkeyId.symm)
        exact h.held u (by rw [hworker]; exact List.mem_cons_self) row date hrow hdate hlater
      exact lookup_purge_of_lookup hname (decide_eq_false hne)
    · exact ⟨hactive, .inr howed⟩

end

/-! ### Runs -/

section

variable {T : Type} [LinearOrder T] {lib : Tools T} {st st' : State T} {a : Action T}

/-- A listed user's time is over. -/
theorem State.Sound.listed (hmono : Monotone lib.strftime) {now : T} (h : st.Sound lib)
    (hst' : State.Consistent { st with
      worker := .listed (st.bot.expiredActiveUsers (lib.strftime now)), clock := now })
    (hclock : st.clock ≤ now) :
    State.Sound lib { st with
      worker := .listed (st.bot.expiredActiveUsers (lib.strftime now)), clock := now } where
  consistent := hst'
  keys := h.keys
  held := by
    intro u hu row date hrow hdate hlater
    obtain ⟨row', hrow', -, date', hdate', hlt⟩ := mem_expiredActiveUsers.mp hu
    obtain rfl := Option.some.inj (hrow'.symm.trans hrow)
    obtain rfl := Option.some.inj (hdate'.symm.trans hdate)
    exact lt_asymm hlt hlater
  served := by
    intro u row date hrow hdate hlater
    exact h.served u row date hrow hdate (later_of_later hmono hclock hlater)

/-- **Every undisturbed step keeps the invariant.** -/
theorem State.Sound.step (hmono : Monotone lib.strftime) (h : st.Sound lib)
    (hok : Undisturbed lib st a) (hstep : st.step lib a = some st') : st'.Sound lib := by
  have heffect := effect_of_step hstep
  have hst' := h.consistent.effect heffect
  cases heffect with
  | quiet husers hserver hmanual hworker hclock hdoing hkey howed =>
    refine h.quiet hmono hst' husers hserver hclock (fun u hu => ?_) fun r hr => ?_
    · rwa [hworker] at hu
    · rcases howed with hnone | ⟨o, rfl, hfails⟩
      · exact nomatch hr.symm.trans hnone
      · exact absurd hok.1 hfails
  | started r hclock hidle =>
    refine h.quiet hmono hst' rfl rfl hclock (fun _ hu => hu) fun r hr => ?_
    rw [hidle] at hr
    exact nomatch hr
  | created hidle hnone => exact h.created hnone (hok hnone) hst'
  | renamed hidle hrewrites =>
    exact h.rewrite hst' hrewrites (fun _ => rfl) (fun _ => rfl) (fun _ => rfl) fun _ => rfl
  | keyed key hclock hidle =>
    refine h.quiet hmono hst' rfl rfl hclock (fun _ hu => hu) fun r hr => ?_
    rw [hidle] at hr
    exact nomatch hr
  | committed r f hrenewal hpaid howed hrenewal' hkey hrewrites hkeyId htoken hactive =>
    exact h.committed hst' hpaid howed hrewrites hkeyId hactive (hok r hrenewal)
  | synced hdoing => exact h.synced hst' hdoing
  | listed hclock => exact h.listed hmono hst' hclock
  | found hworker =>
    refine h.quiet hmono hst' rfl rfl le_rfl (fun u hu => ?_) fun _ hr => hr
    rw [hworker]
    exact hu
  | missing hworker =>
    refine h.quiet hmono hst' rfl rfl le_rfl (fun u hu => ?_) fun _ hr => hr
    rw [hworker]
    exact List.mem_cons_of_mem _ hu
  | cleared hworker hrewrites =>
    refine h.cleared hst' ?_ (fun u hu => ?_) hrewrites
    · rw [hworker]
      exact List.mem_cons_self
    · rw [hworker]
      exact hu
  | removed hworker => exact h.removed hst' hworker
  | kept hworker hfails hnext =>
    refine h.quiet hmono hst' rfl rfl le_rfl (fun u hu => ?_) fun _ hr => hr
    rw [hworker]
    rcases hnext with rfl | rfl
    · exact List.mem_cons_of_mem _ hu
    · exact nomatch hu
  | stopped => exact h.quiet hmono hst' rfl rfl le_rfl (fun u hu => nomatch hu) fun _ hr => hr

omit [LinearOrder T] in
/-- Without users the invariant holds. -/
theorem State.Sound.start (hnone : st.bot.users = ∅) (hidle : st.Idle) : st.Sound lib := by
  obtain ⟨hdoing, hworker⟩ := hidle
  have hempty : ∀ u row, st.bot.users.lookup u ≠ some row := by
    intro u row h
    rw [hnone, AList.lookup_empty] at h
    exact nomatch h
  refine ⟨⟨?_, ?_, ?_⟩, fun u v row row' h => absurd h (hempty u row), ?_,
    fun u row date h => absurd h (hempty u row)⟩
  · rw [hdoing]
    exact fun r h => nomatch h
  · rw [hdoing]
    exact fun name keyId token approval h => nomatch h
  · rw [hworker]
    exact fun userId keyId h => nomatch h
  · rw [hworker]
    exact fun u hu => nomatch hu

/-- **The rule for runs**: from a bot without users, every undisturbed run that ends between
two calls serves the users who have paid. -/
theorem serves_of_meets (hmono : Monotone lib.strftime) (hnone : st.bot.users = ∅)
    (hidle : st.Idle) {as : List (Action T)}
    (hok : Meets (State.step lib) (Undisturbed lib) st as)
    (hrun : runs (State.step lib) st as = some st') (hidle' : st'.Idle) : st'.Serves lib := by
  have hsound : st'.Sound lib :=
    inv_of_meets (fun h hok hstep => h.step hmono hok hstep) (.start hnone hidle) hok hrun
  exact hsound.serves hmono hidle'

end

/-! ### A renewal that is undone -/

/-- Dates in strokes, and tokens that are their own hash. -/
def strokeTools : Tools ℕ where
  toLibrary := dayLibrary
  computeKeyId := id
  isAlnum := Char.isAlphanum

/-- No user, and nothing at the server. -/
def emptyState : State ℕ where
  bot := ⟨∅, [], ∅, [], ∅⟩
  manualKeys := ∅
  server := ∅
  doing := .idle
  worker := .idle
  clock := 0

/-- A payment of user 7. -/
def paymentOf (days : ℤ) (paymentId : String) : Payment :=
  ⟨7, "1_month", days, 100, "RUB", "telegram_stars", paymentId⟩

theorem monotone_strokes : Monotone strokeTools.strftime := by
  intro m n h
  have hsplit : List.replicate n '|' = List.replicate m '|' ++ List.replicate (n - m) '|' := by
    rw [← List.replicate_add, Nat.add_sub_cancel' h]
  change String.ofList (List.replicate m '|') ≤ String.ofList (List.replicate n '|')
  rw [String.le_iff_toList_le, String.toList_ofList, String.toList_ofList, hsplit]
  exact not_lt.mp (List.not_lt.mpr List.le_append_left)

/-- A user whose time is not over when the worker looks. -/
def calmRun : List (Action ℕ) :=
  [.getOrCreateUser 7 (some "ann") "token", .extend 0 (paymentOf 30 "a"), .commit none,
    .sync .clear, .list 5, .finish]

theorem serves_calmRun :
    ∃ st, runs (State.step strokeTools) emptyState calmRun = some st ∧ st.Serves strokeTools := by
  have hok : Meets (State.step strokeTools) (Undisturbed strokeTools) emptyState calmRun := by
    refine ⟨fun _ v row h => ?_, ?_⟩
    · exact nomatch h
    rintro _ ⟨⟩
    refine ⟨trivial, ?_⟩
    rintro _ ⟨⟩
    refine ⟨fun r _ => List.not_mem_nil, ?_⟩
    rintro _ ⟨⟩
    refine ⟨⟨⟨rfl, rfl, rfl⟩, fun r _ => List.not_mem_nil⟩, ?_⟩
    rintro _ ⟨⟩
    refine ⟨trivial, ?_⟩
    rintro _ ⟨⟩
    exact ⟨trivial, fun _ _ => trivial⟩
  refine ⟨_, rfl, serves_of_meets monotone_strokes ?_ ?_ hok rfl ⟨rfl, rfl⟩⟩
  · rfl
  · exact ⟨rfl, rfl⟩

/-- The worker lists user 7, he pays, and the worker goes on. -/
def lateRun : List (Action ℕ) :=
  [.getOrCreateUser 7 (some "ann") "token", .extend 0 (paymentOf 1 "a"), .commit none,
    .sync .clear, .list 5, .extend 5 (paymentOf 30 "b"), .commit none, .sync .clear,
    .visit, .clear, .remove .clear, .finish]

/-- **A renewal is undone**: every call to the server has succeeded, both threads are done,
and a user who has paid for 30 days is neither active nor has he a key at the server. -/
theorem not_serves : ∃ st, runs (State.step strokeTools) emptyState lateRun = some st ∧
    st.Idle ∧ (∀ o, Action.sync o ∈ lateRun → o.Succeeds) ∧ ¬st.Serves strokeTools := by
  refine ⟨_, rfl, ⟨rfl, rfl⟩, ?_, fun h => ?_⟩
  · intro o ho
    have hclear : o = .clear := by simpa [lateRun] using ho
    rw [hclear]
    exact ⟨rfl, rfl, rfl⟩
  · obtain ⟨hactive, -⟩ := h 5 (by decide) 7 _ _ rfl rfl (by decide)
    exact nomatch hactive

end Bot

end Aegs
