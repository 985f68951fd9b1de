import Mathlib.Algebra.GroupWithZero.Nat
import Aegs.Firewall.Nat
import Aegs.Lib.Transition

/-!
# The rules over the lives of the server

The server is started, stopped in order, or killed, any number of times, and others change the
rules of the machine in between. The three rules of `NatManager` do not pile up: it looks before
it appends, so that one more is there only where the look failed (`Aegs.Firewall.count_nat`).
Those of the TUN device do: each start appends all of them, and none is ever deleted
(`Aegs.Firewall.count_mangle`).
-/

namespace Aegs

namespace Firewall

open Transition

/-! ### Edits, rule by rule -/

/-- How many there are behind an edit, of those that there were. -/
def Action.count : Action → ℕ → ℕ
  | .ensure checks appends, k => if checks && decide (0 < k) then k else k + appends.toNat
  | .append works, k => k + works.toNat
  | .erase works, k => k - works.toNat

section Counts

variable {R : Type} (read : List String → Option R)

/-- The edit is about this rule of this chain. -/
def Edit.Concerns (e : Edit) (table chain : String) (r : R) : Prop :=
  e.table = table ∧ e.chain = chain ∧ read e.text = some r

instance [DecidableEq R] (e : Edit) (table chain : String) (r : R) :
    Decidable (e.Concerns read table chain r) := by
  unfold Edit.Concerns
  infer_instance

variable [DecidableEq R] {read}

theorem Action.count_run_self (a : Action) (r : R) (rs : List R) :
    (a.run (some r) rs).count r = a.count (rs.count r) := by
  have happend : ∀ b : Bool, (RuleTable.appendIf b r rs).count r = rs.count r + b.toNat := by
    rintro (_ | _)
    · rfl
    · rw [RuleTable.appendIf, if_pos rfl, List.count_append, List.count_singleton_self]
      rfl
  cases a with
  | ensure checks appends =>
    have hmem : decide (r ∈ rs) = decide (0 < rs.count r) :=
      decide_eq_decide.mpr List.count_pos_iff.symm
    rw [run, count, hmem]
    split
    · rfl
    · exact happend appends
  | append works => exact happend works
  | erase works =>
    rw [run, count]
    cases works with
    | false => rfl
    | true => exact List.count_erase_self

theorem Action.count_run_of_ne (a : Action) {r r' : R} (hne : r ≠ r') (rs : List R) :
    (a.run (some r) rs).count r' = rs.count r' := by
  cases a with
  | ensure checks appends =>
    rw [run]
    split
    · rfl
    · exact RuleTable.count_appendIf_of_ne hne appends rs
  | append works => exact RuleTable.count_appendIf_of_ne hne works rs
  | erase works => exact RuleTable.count_eraseIf_of_ne hne works rs

/-- **One edit**, rule by rule. -/
theorem Edit.count_run (e : Edit) (h : Host R) (table chain : String) (r : R) :
    ((e.run read h).rules table chain).count r =
      if e.Concerns read table chain r then e.action.count ((h.rules table chain).count r)
      else (h.rules table chain).count r := by
  rw [Edit.run]
  -- another chain, or another rule in it, is left as it is
  by_cases hplace : table = e.table ∧ chain = e.chain
  · obtain ⟨rfl, rfl⟩ := hplace
    rw [Host.rules_set_self]
    cases hread : read e.text with
    | none =>
      rw [if_neg]
      · rfl
      · rintro ⟨-, -, h⟩
        rw [hread] at h
        cases h
    | some r' =>
      by_cases hr : r' = r
      · rw [if_pos ⟨rfl, rfl, hr ▸ hread⟩, hr, Action.count_run_self]
      · rw [if_neg, Action.count_run_of_ne e.action hr]
        rintro ⟨-, -, h⟩
        rw [hread] at h
        exact hr (Option.some.inj h)
  · rw [Host.rules_set_of_ne h hplace, if_neg]
    rintro ⟨htable, hchain, -⟩
    exact hplace ⟨htable.symm, hchain.symm⟩

/-- The checks that failed. -/
def Action.failed : Action → ℕ
  | .ensure checks _ => (!checks).toNat
  | .append _ => 0
  | .erase _ => 0

/-- A rule is appended without a look. -/
def Action.Blind : Action → Prop
  | .append _ => True
  | _ => False

/-- It is, and it works. -/
def Action.appends : Action → Bool
  | .append works => works
  | _ => false

theorem Action.Blind.count_eq {a : Action} (ha : a.Blind) (k : ℕ) :
    a.count k = k + a.appends.toNat := by
  cases a with
  | ensure checks appends => exact absurd ha id
  | append works => rfl
  | erase works => exact absurd ha id

/-- **Looking before appending** keeps a rule from piling up. -/
theorem Action.count_le {a : Action} (ha : ¬a.Blind) (k : ℕ) :
    a.count k ≤ max k 1 + a.failed := by
  -- a look that works finds the rule; one that fails has it appended once more
  cases a with
  | ensure checks appends =>
    rw [count, failed]
    cases checks with
    | false =>
      rw [Bool.false_and, if_neg Bool.false_ne_true]
      have hle := Bool.toNat_le appends
      show k + appends.toNat ≤ max k 1 + 1
      omega
    | true =>
      split
      · omega
      · rename_i hzero
        have hzero : k = 0 := by simpa using hzero
        have hle := Bool.toNat_le appends
        show k + appends.toNat ≤ max k 1 + 0
        omega
  | append works => exact absurd trivial ha
  | erase works =>
    rw [count]
    omega

theorem count_foldl_le {es : List Edit} {table chain : String} {r : R}
    (hes : ∀ e ∈ es, e.Concerns read table chain r → ¬e.action.Blind) (h : Host R) :
    ((es.foldl (Edit.run read) h).rules table chain).count r ≤
      max ((h.rules table chain).count r) 1 + (es.map fun e => e.action.failed).sum := by
  induction es generalizing h with
  | nil =>
    rw [List.foldl_nil]
    omega
  | cons e es ih =>
    have hrest := ih (fun e' he' => hes e' (List.mem_cons_of_mem e he')) (e.run read h)
    have hstep : (((e.run read h).rules table chain).count r) ≤
        max ((h.rules table chain).count r) 1 + e.action.failed := by
      rw [Edit.count_run]
      split
      · rename_i hconcerns
        exact Action.count_le (hes e List.mem_cons_self hconcerns) _
      · omega
    rw [List.foldl_cons, List.map_cons, List.sum_cons]
    omega

/-- A rule that some edit puts up, and none deletes, is there. -/
theorem count_foldl_pos {es : List Edit} {table chain : String} {r : R}
    (hes : ∀ e ∈ es, e.Concerns read table chain r → ∃ checks, e.action = .ensure checks true)
    {h : Host R} (hr : (∃ e ∈ es, e.Concerns read table chain r) ∨
      1 ≤ (h.rules table chain).count r) :
    1 ≤ ((es.foldl (Edit.run read) h).rules table chain).count r := by
  induction es generalizing h with
  | nil =>
    rcases hr with ⟨e, he, -⟩ | hr
    · exact absurd he List.not_mem_nil
    · exact hr
  | cons e es ih =>
    refine ih (fun e' he' => hes e' (List.mem_cons_of_mem e he')) ?_
    rw [Edit.count_run]
    by_cases hconcerns : e.Concerns read table chain r
    · obtain ⟨checks, haction⟩ := hes e List.mem_cons_self hconcerns
      refine Or.inr ?_
      rw [if_pos hconcerns, haction, Action.count]
      split
      · rename_i hfound
        exact of_decide_eq_true (Bool.and_eq_true_iff.mp hfound).2
      · show 1 ≤ _ + 1
        omega
    · rw [if_neg hconcerns]
      rcases hr with ⟨e', he', hc⟩ | hr
      · rcases List.mem_cons.mp he' with rfl | he'
        · exact absurd hc hconcerns
        · exact Or.inl ⟨e', he', hc⟩
      · exact Or.inr hr

/-- One rule is gone if it was there at most once and some edit deletes it. -/
theorem count_foldl_erase {es : List Edit} {table chain : String} {r : R}
    (hes : ∀ e ∈ es, e.action = .erase true) (hr : ∃ e ∈ es, e.Concerns read table chain r)
    {h : Host R} (hone : (h.rules table chain).count r ≤ 1) :
    ((es.foldl (Edit.run read) h).rules table chain).count r = 0 := by
  have hzero : ∀ (es : List Edit) (h : Host R), (∀ e ∈ es, e.action = .erase true) →
      (h.rules table chain).count r = 0 →
        ((es.foldl (Edit.run read) h).rules table chain).count r = 0 := by
    intro es
    induction es with
    | nil => exact fun h _ hcount => hcount
    | cons e es ih =>
      intro h hes hcount
      refine ih (e.run read h) (fun e' he' => hes e' (List.mem_cons_of_mem e he')) ?_
      rw [Edit.count_run, hes e List.mem_cons_self, Action.count, hcount]
      split <;> rfl
  induction es generalizing h with
  | nil =>
    obtain ⟨e, he, -⟩ := hr
    exact absurd he List.not_mem_nil
  | cons e es ih =>
    have hrest : ∀ e' ∈ es, e'.action = .erase true := fun e' he' =>
      hes e' (List.mem_cons_of_mem e he')
    have haction := hes e List.mem_cons_self
    rw [List.foldl_cons]
    by_cases hconcerns : e.Concerns read table chain r
    · refine hzero es _ hrest ?_
      rw [Edit.count_run, if_pos hconcerns, haction, Action.count]
      show _ - 1 = 0
      omega
    · obtain ⟨e', he', hc⟩ := hr
      rcases List.mem_cons.mp he' with rfl | he'
      · exact absurd hc hconcerns
      · refine ih hrest ⟨e', he', hc⟩ ?_
        rw [Edit.count_run, if_neg hconcerns]
        exact hone

/-- How often edits append the rule. -/
def appended (read : List String → Option R) (es : List Edit) (table chain : String) (r : R) : ℕ :=
  es.countP fun e => decide (e.Concerns read table chain r) && e.action.appends

/-- **Appending without a look** piles up. -/
theorem count_foldl_append {es : List Edit} {table chain : String} {r : R}
    (hes : ∀ e ∈ es, e.Concerns read table chain r → e.action.Blind) (h : Host R) :
    ((es.foldl (Edit.run read) h).rules table chain).count r =
      (h.rules table chain).count r + appended read es table chain r := by
  induction es generalizing h with
  | nil => rfl
  | cons e es ih =>
    rw [List.foldl_cons, ih fun e' he' => hes e' (List.mem_cons_of_mem e he'), Edit.count_run,
      appended, appended, List.countP_cons]
    by_cases hconcerns : e.Concerns read table chain r
    · rw [if_pos hconcerns, decide_eq_true hconcerns, Bool.true_and,
        (hes e List.mem_cons_self hconcerns).count_eq]
      cases e.action.appends
      · simp
      · simp
        omega
    · rw [if_neg hconcerns, decide_eq_false hconcerns, Bool.false_and]
      simp

end Counts

/-! ### The server -/

/-- The machine, and the `NatManager` of the server that runs on it. -/
structure ServerHost (R : Type) where
  /-- The machine. -/
  host : Host R
  /-- That of the server, while it runs. -/
  nat : Option NatManager

/-- What happens. -/
inductive Event (R : Type)
  /-- The server is started: whether the TUN device can be opened and `ip_forward` be written,
  which commands of each part work, and what `detect_outbound_iface` gives. -/
  | start (opens canWrite : Bool) (tunWorks natWorks : ℕ → Bool) (outIface : String)
  /-- It ends as it should. -/
  | stop (works : ℕ → Bool)
  /-- It is killed. -/
  | kill
  /-- Others change the rules. -/
  | others (rules : String → String → List R)

section Lives

variable {R : Type} [DecidableEq R] (read : List String → Option R) (tunName : String)

/-- The `NatManager` of the server, whose device and subnet are constants. -/
def manager (outIface : String) (active : Bool) : NatManager :=
  ⟨"aegs0", outIface, "10.8.0.0/24", active⟩

/-- The beginning of `main`. -/
def startServer (opens canWrite : Bool) (tunWorks natWorks : ℕ → Bool) (outIface : String)
    (h : Host R) : Option NatManager × Host R :=
  if !opens then (none, h)
  else
    let h := TunInterface.configureInterface read tunName tunWorks h
    let (_, n, h) := (manager outIface false).setup read canWrite natWorks h
    (some n, h)

/-- **One event.** -/
def ServerHost.step (s : ServerHost R) : Event R → Option (ServerHost R)
  | .start opens canWrite tunWorks natWorks outIface =>
    if s.nat.isNone then
      let (nat, host) := startServer read tunName opens canWrite tunWorks natWorks outIface s.host
      some ⟨host, nat⟩
    else none
  | .stop works => s.nat.map fun n => ⟨(n.teardown read works s.host).2, none⟩
  | .kill => if s.nat.isSome then some { s with nat := none } else none
  | .others rules => some { s with host := { s.host with rules := rules } }

/-- The others leave the rule as often in its chain as it is. -/
def Keeps (table chain : String) (r : R) (s : ServerHost R) : Event R → Prop
  | .others rules => (rules table chain).count r = (s.host.rules table chain).count r
  | _ => True

/-- The edits of a start. -/
def startEdits (opens : Bool) (tunWorks natWorks : ℕ → Bool) (outIface : String) : List Edit :=
  if opens then TunInterface.edits tunName tunWorks ++
    if (manager outIface false).safe then (manager outIface false).edits natWorks else []
  else []

/-- A manager that is active has passed the check. -/
def Settled (s : ServerHost R) : Prop := ∀ n, s.nat = some n → n.active = true → n.safe = true

variable {read tunName}

/-- Edits look at the rules. -/
theorem rules_foldl_congr {h h' : Host R} (hrules : h.rules = h'.rules) (es : List Edit) :
    (es.foldl (Edit.run read) h).rules = (es.foldl (Edit.run read) h').rules := by
  induction es generalizing h h' with
  | nil => exact hrules
  | cons e es ih =>
    refine ih ?_
    simp only [Edit.run, Host.set, hrules]

/-- **What a start does.** -/
theorem startServer_eq (read : List String → Option R) (hname : Word tunName)
    (opens canWrite : Bool) (tunWorks natWorks : ℕ → Bool) (outIface : String) (h : Host R) :
    (startServer read tunName opens canWrite tunWorks natWorks outIface h).1 =
        (if opens then some (manager outIface (manager outIface false).safe) else none) ∧
      (startServer read tunName opens canWrite tunWorks natWorks outIface h).2.rules =
        ((startEdits tunName opens tunWorks natWorks outIface).foldl (Edit.run read) h).rules := by
  rw [startServer, startEdits]
  cases opens with
  | false => exact ⟨rfl, rfl⟩
  | true =>
    simp only [Bool.not_true, Bool.false_eq_true, if_false, if_true, NatManager.setup_eq,
      TunInterface.configureInterface_eq hname]
    cases hsafe : (manager outIface false).safe with
    | false =>
      rw [if_neg Bool.false_ne_true, if_neg Bool.false_ne_true, List.append_nil]
      exact ⟨rfl, rfl⟩
    | true =>
      rw [if_pos rfl, if_pos rfl, List.foldl_append]
      refine ⟨rfl, rules_foldl_congr ?_ _⟩
      rw [NatManager.forwarding]
      split <;> rfl

/-- What an event does about the rules. -/
def Event.edits (tunName : String) (s : ServerHost R) : Event R → List Edit
  | .start opens _ tunWorks natWorks outIface =>
    startEdits tunName opens tunWorks natWorks outIface
  | .stop works => (s.nat.map fun n => if n.active then n.unedits works else []).getD []
  | .kill => []
  | .others _ => []

/-- The start of a server, as a step. -/
theorem ServerHost.step_start {s t : ServerHost R} {opens canWrite : Bool}
    {tunWorks natWorks : ℕ → Bool} {outIface : String}
    (hstep : s.step read tunName (.start opens canWrite tunWorks natWorks outIface) = some t) :
    s.nat = none ∧
      t = ⟨(startServer read tunName opens canWrite tunWorks natWorks outIface s.host).2,
        (startServer read tunName opens canWrite tunWorks natWorks outIface s.host).1⟩ := by
  rw [step] at hstep
  split at hstep
  · rename_i hnone
    exact ⟨Option.isNone_iff_eq_none.mp hnone, (Option.some.inj hstep).symm⟩
  · cases hstep

theorem ServerHost.settled_step (hname : Word tunName) {s t : ServerHost R} (hs : Settled s)
    {a : Event R} (hstep : s.step read tunName a = some t) : Settled t := by
  intro n hn hactive
  cases a with
  | start opens canWrite tunWorks natWorks outIface =>
    obtain ⟨-, rfl⟩ := step_start hstep
    obtain ⟨hnat, -⟩ := startServer_eq read hname opens canWrite tunWorks natWorks
      outIface s.host
    replace hn := hnat.symm.trans hn
    cases opens with
    | false => cases hn
    | true =>
      obtain rfl := Option.some.inj hn
      exact hactive
  | stop works =>
    obtain ⟨m, -, rfl⟩ := Option.map_eq_some_iff.mp hstep
    cases hn
  | kill =>
    rw [step] at hstep
    split at hstep
    · obtain rfl := Option.some.inj hstep
      cases hn
    · cases hstep
  | others rules =>
    obtain rfl := Option.some.inj hstep
    exact hs n hn hactive

/-- **One event**, for a rule that the others keep. -/
theorem ServerHost.count_step (hname : Word tunName) {s t : ServerHost R} (hs : Settled s)
    {a : Event R} {table chain : String} {r : R} (ha : Keeps table chain r s a)
    (hstep : s.step read tunName a = some t) :
    (t.host.rules table chain).count r =
      (((a.edits tunName s).foldl (Edit.run read) s.host).rules table chain).count r := by
  cases a with
  | start opens canWrite tunWorks natWorks outIface =>
    obtain ⟨-, rfl⟩ := step_start hstep
    exact congrArg (fun f => (f table chain).count r)
      (startServer_eq read hname opens canWrite tunWorks natWorks outIface s.host).2
  | stop works =>
    obtain ⟨n, hn, rfl⟩ := Option.map_eq_some_iff.mp hstep
    rw [Event.edits, hn, Option.map_some, Option.getD_some]
    cases hactive : n.active with
    | false =>
      have hteardown : n.teardown read works s.host = (n, s.host) := by
        rw [NatManager.teardown, hactive]
        rfl
      rw [hteardown]
      rfl
    | true =>
      rw [NatManager.teardown_eq n (hs n hn hactive), hactive]
      rfl
  | kill =>
    rw [step] at hstep
    split at hstep
    · obtain rfl := Option.some.inj hstep
      rfl
    · cases hstep
  | others rules =>
    obtain rfl := Option.some.inj hstep
    exact ha

omit [DecidableEq R] in
theorem settled_of_none {s : ServerHost R} (hs : s.nat = none) : Settled s := by
  intro n hn
  cases hs.symm.trans hn

/-- How many of its looks at rules failed. -/
def Event.failed : Event R → ℕ
  | .start _ _ _ natWorks _ =>
    (!natWorks 0).toNat + (!natWorks 2).toNat + (!natWorks 4).toNat
  | _ => 0

/-- How often a start appends a rule of the TUN device. -/
def Event.appended (read : List String → Option R) (tunName chain : String) (r : R) : Event R → ℕ
  | .start true _ tunWorks _ _ =>
    Firewall.appended read (TunInterface.edits tunName tunWorks) "mangle" chain r
  | _ => 0

theorem table_of_mem_edits {e : Edit} {tunWorks : ℕ → Bool}
    (he : e ∈ TunInterface.edits tunName tunWorks) :
    e.table = "mangle" ∧ e.action.Blind := by
  simp only [TunInterface.edits, List.mem_cons, List.not_mem_nil, or_false] at he
  rcases he with rfl | rfl | rfl | rfl | rfl
  all_goals exact ⟨rfl, trivial⟩

theorem table_of_mem_natEdits {n : NatManager} {works : ℕ → Bool} {e : Edit}
    (he : e ∈ n.edits works) :
    e.table ≠ "mangle" ∧ ∃ i, e.action = .ensure (works i) (works (i + 1)) := by
  simp only [NatManager.edits, List.mem_cons, List.not_mem_nil, or_false] at he
  rcases he with rfl | rfl | rfl
  · exact ⟨show "nat" ≠ "mangle" by decide, 0, rfl⟩
  · exact ⟨show "filter" ≠ "mangle" by decide, 2, rfl⟩
  · exact ⟨show "filter" ≠ "mangle" by decide, 4, rfl⟩

theorem table_of_mem_unedits {n : NatManager} {works : ℕ → Bool} {e : Edit}
    (he : e ∈ n.unedits works) : e.table ≠ "mangle" ∧ ∃ i, e.action = .erase (works i) := by
  simp only [NatManager.unedits, List.mem_cons, List.not_mem_nil, or_false] at he
  rcases he with rfl | rfl | rfl
  · exact ⟨show "nat" ≠ "mangle" by decide, 0, rfl⟩
  · exact ⟨show "filter" ≠ "mangle" by decide, 1, rfl⟩
  · exact ⟨show "filter" ≠ "mangle" by decide, 2, rfl⟩

omit [DecidableEq R] in
/-- The edits of an event, outside the table of the TUN device and in it. -/
theorem Event.blind_iff (s : ServerHost R) {a : Event R} {e : Edit} (he : e ∈ a.edits tunName s) :
    e.action.Blind ↔ e.table = "mangle" := by
  cases a with
  | start opens canWrite tunWorks natWorks outIface =>
    rw [edits, startEdits] at he
    split at he
    · rcases List.mem_append.mp he with he | he
      · exact iff_of_true (table_of_mem_edits he).2 (table_of_mem_edits he).1
      · split at he
        · obtain ⟨htable, i, haction⟩ := table_of_mem_natEdits he
          rw [haction]
          exact iff_of_false id htable
        · cases he
    · cases he
  | stop works =>
    rw [edits] at he
    cases hn : s.nat with
    | none =>
      rw [hn] at he
      cases he
    | some n =>
      rw [hn, Option.map_some, Option.getD_some] at he
      split at he
      · obtain ⟨htable, i, haction⟩ := table_of_mem_unedits he
        rw [haction]
        exact iff_of_false id htable
      · cases he
  | kill => cases he
  | others rules => cases he

omit [DecidableEq R] in
theorem Event.sum_failed_le (tunName : String) (s : ServerHost R) (a : Event R) :
    ((a.edits tunName s).map fun e => e.action.failed).sum ≤ a.failed := by
  cases a with
  | start opens canWrite tunWorks natWorks outIface =>
    rw [edits, startEdits]
    split
    · rw [List.map_append, List.sum_append]
      have htun : ((TunInterface.edits tunName tunWorks).map fun e => e.action.failed).sum = 0 :=
        rfl
      rw [htun]
      split
      · simp [NatManager.edits, Action.failed, failed, Nat.add_assoc]
      · exact Nat.zero_le _
    · exact Nat.zero_le _
  | stop works =>
    rw [edits]
    cases s.nat with
    | none => exact Nat.le_refl _
    | some n =>
      rw [Option.map_some, Option.getD_some]
      split
      · exact Nat.le_refl _
      · exact Nat.le_refl _
  | kill => exact Nat.le_refl _
  | others rules => exact Nat.le_refl _

/-- **The rules of the server do not pile up**: whatever happens in whatever order, a rule
outside the table of the TUN device is there at most once, or as often as it was, and once
more for each look that failed. -/
theorem count_nat (hname : Word tunName) {s t : ServerHost R} {as : List (Event R)}
    (hs : s.nat = none) {table chain : String} {r : R} (htable : table ≠ "mangle")
    (hothers : Meets (ServerHost.step read tunName) (Keeps table chain r) s as)
    (hrun : runs (ServerHost.step read tunName) s as = some t) :
    (t.host.rules table chain).count r ≤
      max ((s.host.rules table chain).count r) 1 + (as.map Event.failed).sum := by
  have hsettled := settled_of_none hs
  clear hs
  induction as generalizing s with
  | nil =>
    obtain rfl := Option.some.inj hrun
    rw [List.map_nil, List.sum_nil]
    omega
  | cons a as ih =>
    rw [runs_cons, Option.bind_eq_some_iff] at hrun
    obtain ⟨u, hu, hrest⟩ := hrun
    have hsettled' := ServerHost.settled_step hname hsettled hu
    have hcount := ServerHost.count_step hname hsettled hothers.1 hu
    have htail := ih (hothers.2 u hu) hrest hsettled'
    -- outside `mangle` no edit is blind
    have hsighted : ∀ e ∈ a.edits tunName s, e.Concerns read table chain r → ¬e.action.Blind := by
      intro e he hc
      rw [Event.blind_iff s he, hc.1]
      exact htable
    have hle := count_foldl_le hsighted s.host
    have hfailed := Event.sum_failed_le tunName s a
    rw [List.map_cons, List.sum_cons]
    omega

/-- The rules of the manager, as edits name them. -/
theorem mem_rules_iff {n : NatManager} {works : ℕ → Bool} {table chain : String}
    {text : List String} :
    (table, chain, text) ∈ n.rules ↔
      ∃ e ∈ n.unedits works, e.table = table ∧ e.chain = chain ∧ e.text = text := by
  simp [NatManager.rules, NatManager.unedits, eq_comm]

/-- Every start has the commands for the rules work. -/
def Event.Works : Event R → Prop
  | .start _ _ _ natWorks _ => ∀ i, natWorks i = true
  | _ => True

/-- The manager of the server that runs has its rules up. -/
def RulesUp (read : List String → Option R) (table chain : String) (r : R) (s : ServerHost R) :
    Prop :=
  ∀ n text, s.nat = some n → n.active = true → (table, chain, text) ∈ n.rules →
    read text = some r → 1 ≤ (s.host.rules table chain).count r

theorem rulesUp_step (hname : Word tunName) {s t : ServerHost R} (hsettled : Settled s)
    {a : Event R} {table chain : String} {r : R} (hs : RulesUp read table chain r s)
    (hkeeps : Keeps table chain r s a) (hworks : a.Works)
    (hstep : s.step read tunName a = some t) : RulesUp read table chain r t := by
  intro n text hn hactive hrule hread
  have hcount := ServerHost.count_step hname hsettled hkeeps hstep
  cases a with
  | start opens canWrite tunWorks natWorks outIface =>
    obtain ⟨-, rfl⟩ := ServerHost.step_start hstep
    replace hn := (startServer_eq read hname opens canWrite tunWorks natWorks outIface
      s.host).1.symm.trans hn
    cases opens with
    | false => cases hn
    | true =>
      obtain rfl := Option.some.inj hn
      have hsafe : (manager outIface false).safe = true := hactive
      rw [hcount, Event.edits, startEdits, if_pos rfl, if_pos hsafe]
      obtain ⟨e, he, htable, -⟩ : ∃ e ∈ (manager outIface false).unedits natWorks,
          e.table = table ∧ e.chain = chain ∧ e.text = text := mem_rules_iff.mp hrule
      have hmangle : table ≠ "mangle" := htable ▸ (table_of_mem_unedits he).1
      refine count_foldl_pos (fun e he hc => ?_) (Or.inl ?_)
      · -- the edits of the TUN device are in another table
        rcases List.mem_append.mp he with he | he
        · exact absurd ((table_of_mem_edits he).1 ▸ hc.1.symm) hmangle
        · obtain ⟨-, i, haction⟩ := table_of_mem_natEdits he
          exact ⟨natWorks i, by rw [haction, hworks (i + 1)]⟩
      · obtain ⟨e', he', htable', hchain', htext'⟩ : ∃ e' ∈ (manager outIface false).edits natWorks,
            e'.table = table ∧ e'.chain = chain ∧ e'.text = text := by
          have hrule : (table, chain, text) ∈ (manager outIface false).rules := hrule
          simpa [NatManager.rules, NatManager.edits, eq_comm] using hrule
        exact ⟨e', List.mem_append_right _ he', htable', hchain', htext' ▸ hread⟩
  | stop works =>
    obtain ⟨m, -, rfl⟩ := Option.map_eq_some_iff.mp hstep
    cases hn
  | kill =>
    rw [ServerHost.step] at hstep
    split at hstep
    · obtain rfl := Option.some.inj hstep
      cases hn
    · cases hstep
  | others rules =>
    obtain rfl := Option.some.inj hstep
    rw [hcount]
    exact hs n text hn hactive hrule hread

/-- They stay up along a run whose starts work. -/
theorem rulesUp_of_runs (hname : Word tunName) {s t : ServerHost R} {as : List (Event R)}
    (hsettled : Settled s) {table chain : String} {r : R} (hs : RulesUp read table chain r s)
    (hothers : Meets (ServerHost.step read tunName) (Keeps table chain r) s as)
    (hworks : ∀ a ∈ as, a.Works) (hrun : runs (ServerHost.step read tunName) s as = some t) :
    RulesUp read table chain r t := by
  induction as generalizing s with
  | nil =>
    obtain rfl := Option.some.inj hrun
    exact hs
  | cons a as ih =>
    rw [runs_cons, Option.bind_eq_some_iff] at hrun
    obtain ⟨u, hu, hrest⟩ := hrun
    exact ih (ServerHost.settled_step hname hsettled hu)
      (rulesUp_step hname hsettled hs hothers.1 (hworks a List.mem_cons_self) hu)
      (hothers.2 u hu) (fun b hb => hworks b (List.mem_cons_of_mem a hb)) hrest

/-- The rule is gone behind a stop that works, if it was there at most once. -/
theorem count_stop (hname : Word tunName) {s t : ServerHost R} (hsettled : Settled s)
    {works : ℕ → Bool} (hworks : ∀ i, works i = true)
    (hstep : s.step read tunName (.stop works) = some t) {n : NatManager} (hn : s.nat = some n)
    (hactive : n.active = true) {table chain : String} {text : List String} {r : R}
    (hrule : (table, chain, text) ∈ n.rules) (hread : read text = some r)
    (hone : (s.host.rules table chain).count r ≤ 1) : (t.host.rules table chain).count r = 0 := by
  have hkeeps : Keeps table chain r s (.stop works) := trivial
  rw [ServerHost.count_step hname hsettled hkeeps hstep, Event.edits, hn, Option.map_some,
    Option.getD_some, if_pos hactive]
  obtain ⟨e, he, htable, hchain, htext⟩ := mem_rules_iff.mp hrule
  refine count_foldl_erase (fun e' he' => ?_) ⟨e, he, htable, hchain, htext ▸ hread⟩ hone
  obtain ⟨-, i, haction⟩ := table_of_mem_unedits he'
  rw [haction, hworks i]

/-- What is not in the table of the TUN device appends nothing there. -/
theorem appended_eq_zero {es : List Edit} (hes : ∀ e ∈ es, e.table ≠ "mangle")
    (chain : String) (r : R) : appended read es "mangle" chain r = 0 := by
  refine List.countP_eq_zero.mpr fun e he h => ?_
  exact hes e he (of_decide_eq_true (Bool.and_eq_true_iff.mp h).1).1

/-- Only the edits of a start append rules of the TUN device. -/
theorem appended_edits (s : ServerHost R) (a : Event R) (chain : String) (r : R) :
    appended read (a.edits tunName s) "mangle" chain r = a.appended read tunName chain r := by
  cases a with
  | start opens canWrite tunWorks natWorks outIface =>
    cases opens with
    | false => rfl
    | true =>
      rw [Event.edits, startEdits, if_pos rfl, Event.appended, appended, List.countP_append]
      refine Nat.add_eq_left.mpr (appended_eq_zero (fun e he => ?_) chain r)
      split at he
      · exact (table_of_mem_natEdits he).1
      · cases he
  | stop works =>
    refine appended_eq_zero (fun e he => ?_) chain r
    rw [Event.edits] at he
    cases hn : s.nat with
    | none =>
      rw [hn] at he
      cases he
    | some n =>
      rw [hn, Option.map_some, Option.getD_some] at he
      split at he
      · exact (table_of_mem_unedits he).1
      · cases he
  | kill => rfl
  | others rules => rfl

/-- **Those of the TUN device do**: each start adds one of each, and none goes away. -/
theorem count_mangle (hname : Word tunName) {s t : ServerHost R} {as : List (Event R)}
    (hs : s.nat = none) {chain : String} {r : R}
    (hothers : Meets (ServerHost.step read tunName) (Keeps "mangle" chain r) s as)
    (hrun : runs (ServerHost.step read tunName) s as = some t) :
    (t.host.rules "mangle" chain).count r =
      (s.host.rules "mangle" chain).count r +
        (as.map (Event.appended read tunName chain r)).sum := by
  have hsettled := settled_of_none hs
  clear hs
  induction as generalizing s with
  | nil =>
    obtain rfl := Option.some.inj hrun
    rfl
  | cons a as ih =>
    rw [runs_cons, Option.bind_eq_some_iff] at hrun
    obtain ⟨u, hu, hrest⟩ := hrun
    have hsettled' := ServerHost.settled_step hname hsettled hu
    have hcount := ServerHost.count_step hname hsettled hothers.1 hu
    rw [ih (hothers.2 u hu) hrest hsettled', hcount, List.map_cons, List.sum_cons,
      count_foldl_append (fun e he hc => (Event.blind_iff s he).mpr hc.1), appended_edits,
      Nat.add_assoc]

end Lives

/-- A machine without rules. -/
def bareHost : ServerHost String := ⟨⟨fun _ _ => [], false⟩, none⟩

/-- The server is started, killed, and started again, and everything works. -/
def killed : List (Event String) :=
  [.start true true (fun _ => true) (fun _ => true) "eth0", .kill,
    .start true true (fun _ => true) (fun _ => true) "eth0"]

/-- The run is possible. -/
theorem exists_killed : ∃ t, runs (ServerHost.step byText "aegs0") bareHost killed = some t ∧
    ∃ outIface, t.nat = some (manager outIface true) := by
  have hsafe : (manager "eth0" false).safe = true := by decide
  have hstart : ∀ s : ServerHost String, s.nat = none → ∃ t,
      s.step byText "aegs0" (.start true true (fun _ => true) (fun _ => true) "eth0") = some t ∧
        t.nat = some (manager "eth0" true) := by
    intro s hs
    refine ⟨_, if_pos (Option.isNone_iff_eq_none.mpr hs), ?_⟩
    have hnat := (startServer_eq byText (by decide : Word "aegs0") true true
      (fun _ => true) (fun _ => true) "eth0" s.host).1
    rw [hsafe] at hnat
    exact hnat
  obtain ⟨t₁, hstep₁, hnat₁⟩ := hstart bareHost rfl
  obtain ⟨t₂, hstep₂, hnat₂⟩ := hstart { t₁ with nat := none } rfl
  refine ⟨t₂, ?_, "eth0", hnat₂⟩
  have hkill : t₁.step byText "aegs0" .kill = some { t₁ with nat := none } :=
    if_pos (by rw [hnat₁]; rfl)
  rw [killed, runs_cons, hstep₁, Option.bind_some, runs_cons, hkill, Option.bind_some, runs_cons,
    hstep₂, Option.bind_some, runs_nil]

/-- Nobody else changes a rule in it. -/
theorem meets_killed (table chain r : String) :
    Meets (ServerHost.step byText "aegs0") (Keeps table chain r) bareHost killed :=
  ⟨trivial, fun _ _ => ⟨trivial, fun _ _ => ⟨trivial, fun _ _ => trivial⟩⟩⟩

theorem count_mangle_killed : ∃ t, runs (ServerHost.step byText "aegs0") bareHost killed = some t ∧
    (t.host.rules "mangle" "POSTROUTING").count
      "-p tcp --tcp-flags SYN,RST SYN -j TCPMSS --clamp-mss-to-pmtu" = 2 := by
  obtain ⟨t, ht, -⟩ := exists_killed
  have hcount := count_mangle (by decide) rfl (meets_killed "mangle" "POSTROUTING"
    "-p tcp --tcp-flags SYN,RST SYN -j TCPMSS --clamp-mss-to-pmtu") ht
  exact ⟨t, ht, hcount.trans (by decide)⟩

section Lives

variable {R : Type} [DecidableEq R] {read : List String → Option R} {tunName : String}

/-- **The rules of the server over its lives**: in whatever order it is started, stopped and
killed, each of them is there at most once (or as often as at first, and once more for each look
that failed); it is there while the server runs, if each start had its commands work; and a stop
that works takes it away, if no look failed. -/
theorem nat_rules (hname : Word tunName) {s t : ServerHost R} {as : List (Event R)}
    (hs : s.nat = none) {table chain : String} {r : R} (htable : table ≠ "mangle")
    (hothers : Meets (ServerHost.step read tunName) (Keeps table chain r) s as)
    (hrun : runs (ServerHost.step read tunName) s as = some t) :
    (t.host.rules table chain).count r ≤
        max ((s.host.rules table chain).count r) 1 + (as.map Event.failed).sum ∧
      ∀ n text, t.nat = some n → n.active = true → (table, chain, text) ∈ n.rules →
        read text = some r →
          ((∀ a ∈ as, a.Works) → 1 ≤ (t.host.rules table chain).count r) ∧
          ∀ works u, (∀ i, works i = true) → t.step read tunName (.stop works) = some u →
            (s.host.rules table chain).count r ≤ 1 → (∀ a ∈ as, a.failed = 0) →
              (u.host.rules table chain).count r = 0 := by
  have hbound := count_nat hname hs htable hothers hrun
  have hsettled : Settled t :=
    inv_of_runs (fun h hstep => ServerHost.settled_step hname h hstep) (settled_of_none hs) hrun
  refine ⟨hbound, fun n text hn hactive hrule hread => ⟨fun hworks => ?_, ?_⟩⟩
  · refine rulesUp_of_runs hname (settled_of_none hs) ?_ hothers hworks hrun n text hn hactive
      hrule hread
    intro n text hn
    cases hs.symm.trans hn
  · intro works u hworks hstop hone hfailed
    refine count_stop hname hsettled hworks hstop hn hactive hrule hread ?_
    have hsum : (as.map Event.failed).sum = 0 := by
      refine List.sum_eq_zero_iff_forall_eq_nat.mpr fun k hk => ?_
      obtain ⟨a, ha, rfl⟩ := List.mem_map.mp hk
      exact hfailed a ha
    omega

end Lives

theorem nat_rules_killed : ∃ t, runs (ServerHost.step byText "aegs0") bareHost killed = some t ∧
    (t.host.rules "filter" "FORWARD").count "-i aegs0 -j ACCEPT" = 1 := by
  obtain ⟨t, ht, outIface, hnat⟩ := exists_killed
  obtain ⟨hle, hlive⟩ := nat_rules (by decide) rfl (show "filter" ≠ "mangle" by decide)
    (meets_killed "filter" "FORWARD" "-i aegs0 -j ACCEPT") ht
  have hsum : (killed.map Event.failed).sum = 0 := by decide
  have hpos := (hlive _ ["-i", "aegs0", "-j", "ACCEPT"] hnat rfl
    (List.mem_cons_of_mem _ List.mem_cons_self) (by decide)).1 ?_
  · refine ⟨t, ht, ?_⟩
    rw [hsum] at hle
    have hzero : (bareHost.host.rules "filter" "FORWARD").count "-i aegs0 -j ACCEPT" = 0 :=
      rfl
    omega
  · intro a ha
    simp only [killed, List.mem_cons, List.not_mem_nil, or_false] at ha
    rcases ha with rfl | rfl | rfl
    · exact fun _ => rfl
    · trivial
    · exact fun _ => rfl

end Firewall

end Aegs
