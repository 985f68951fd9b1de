import Mathlib.Data.List.Nodup

/-!
# Tables of filter rules

A table has one list of rules that every packet is put to, a policy for those that none of
them decides, and named chains that a rule may jump to. The rules of a list are tried in
order: the first that matches and has a verdict decides, one that returns ends its list, and
a chain that ends undecided hands the packet back to the rule behind the jump.

The commands on a table (`RuleTable.Table.newChain`, `appendTo`, `appendOutput`,
`insertFirst`, `deleteFirst`, `flush`, `deleteChain`) are partial: `none` is a refusal, and
changes nothing. A table is valid if no name is given twice and no rule jumps to a chain that
is not there, and the commands keep it so.

Two results are what a component needs that puts up a chain of its own. A chain that was not
there before is seen by nobody until it is hooked in (`RuleTable.Table.Valid.verdict_addChain`),
and taking it down gives the table back exactly if each of the steps down is made that has
something to undo (`RuleTable.Table.Valid.cleanUp_addChain_iff`). A chain of that name that was
there is taken down as well (`RuleTable.Table.cleanUp_setChain_iff`).
-/

namespace RuleTable

/-- What becomes of a packet. -/
inductive Verdict
  /-- It goes out. -/
  | accept
  /-- It does not. -/
  | drop
deriving DecidableEq

/-- What a rule does with a packet that matches. -/
inductive Target (N : Type)
  /-- It decides. -/
  | verdict (v : Verdict)
  /-- It leaves the packet to the next rule. -/
  | pass
  /-- It ends the list. -/
  | ret
  /-- It puts the packet to a chain. -/
  | jump (c : N)
deriving DecidableEq

/-- A rule: its conditions, all of which must hold, and its target. -/
structure Rule (M N : Type) where
  /-- The conditions. -/
  conditions : List M
  /-- The target. -/
  target : Target N
deriving DecidableEq

/-- The rule that puts every packet to a chain. -/
def Rule.jump {M N : Type} (c : N) : Rule M N := ⟨[], .jump c⟩

/-- A table. -/
structure Table (M N : Type) where
  /-- The list that every packet is put to. -/
  output : List (Rule M N)
  /-- What becomes of a packet that no rule decides. -/
  policy : Verdict
  /-- The chains. -/
  chains : List (N × List (Rule M N))
deriving DecidableEq

namespace Table

variable {M N P : Type}

/-- The names of the chains. -/
def names (t : Table M N) : List N := t.chains.map Prod.fst

/-- All rules of the table. -/
def rules (t : Table M N) : List (Rule M N) := t.output ++ t.chains.flatMap Prod.snd

/-- **A valid table.** -/
structure Valid (t : Table M N) : Prop where
  /-- No name is given twice. -/
  nodup : t.names.Nodup
  /-- A rule jumps to a chain that is there. -/
  closed : ∀ r ∈ t.rules, ∀ c, r.target = .jump c → c ∈ t.names

/-! ### The way of a packet -/

section Walk

variable (holds : M → P → Bool)

/-- A packet is put to the rules of a list, given what each chain does with it. -/
def walk (call : N → P → Option Verdict) : List (Rule M N) → P → Option Verdict
  | [], _ => none
  | r :: rs, p =>
    if r.conditions.all (fun m => holds m p) then
      match r.target with
      | .verdict v => some v
      | .pass => walk call rs p
      | .ret => none
      | .jump c => (call c p).or (walk call rs p)
    else walk call rs p

variable [DecidableEq N]

/-- The rules of a chain. -/
def lookup (t : Table M N) (c : N) : Option (List (Rule M N)) :=
  (t.chains.find? fun e => decide (e.1 = c)).map Prod.snd

/-- What a chain does with a packet, where jumps are followed `n` deep. -/
def chainVerdict (t : Table M N) : ℕ → N → P → Option Verdict
  | 0, _, _ => none
  | n + 1, c, p => walk holds (chainVerdict t n) ((t.lookup c).getD []) p

/-- **What becomes of a packet**, where jumps are followed `n` deep. -/
def verdict (t : Table M N) (n : ℕ) (p : P) : Verdict :=
  (walk holds (t.chainVerdict holds n) t.output p).getD t.policy

end Walk

/-! ### The commands -/

/-- A chain behind the others. -/
def addChain (t : Table M N) (c : N) (rs : List (Rule M N)) : Table M N :=
  { t with chains := t.chains ++ [(c, rs)] }

/-- Every packet is put to the chain first. -/
def hook (t : Table M N) (c : N) : Table M N := { t with output := .jump c :: t.output }

/-- A command is given, if it is, and a refusal changes nothing. -/
def attempt (b : Bool) (f : Table M N → Option (Table M N)) (t : Table M N) : Table M N :=
  if b then (f t).getD t else t

section Commands

variable [DecidableEq N]

/-- The chain that a rule jumps to is there. -/
def knows (t : Table M N) (r : Rule M N) : Bool :=
  match r.target with
  | .jump c => decide (c ∈ t.names)
  | _ => true

/-- Some rule jumps to the chain. -/
def referenced (t : Table M N) (c : N) : Bool :=
  t.rules.any fun r => decide (r.target = .jump c)

/-- The chain gets other rules. -/
def setChain (t : Table M N) (c : N) (rs : List (Rule M N)) : Table M N :=
  { t with chains := t.chains.map fun e => if e.1 = c then (c, rs) else e }

/-- A chain is made, unless there is one of this name. -/
def newChain (c : N) (t : Table M N) : Option (Table M N) :=
  if c ∈ t.names then none else some { t with chains := t.chains ++ [(c, [])] }

/-- A rule is appended to a chain. -/
def appendTo (c : N) (r : Rule M N) (t : Table M N) : Option (Table M N) :=
  match t.lookup c with
  | none => none
  | some rs => if t.knows r then some (t.setChain c (rs ++ [r])) else none

/-- A rule is appended to the list that every packet is put to. -/
def appendOutput (r : Rule M N) (t : Table M N) : Option (Table M N) :=
  if t.knows r then some { t with output := t.output ++ [r] } else none

/-- A rule is inserted ahead of all others. -/
def insertFirst (r : Rule M N) (t : Table M N) : Option (Table M N) :=
  if t.knows r then some { t with output := r :: t.output } else none

/-- A chain loses its rules. -/
def flush (c : N) (t : Table M N) : Option (Table M N) :=
  if c ∈ t.names then some (t.setChain c []) else none

/-- An empty chain that nothing jumps to is deleted. -/
def deleteChain (c : N) (t : Table M N) : Option (Table M N) :=
  if (t.lookup c).any List.isEmpty && !t.referenced c then
    some { t with chains := t.chains.filter fun e => decide (e.1 ≠ c) }
  else none

variable [DecidableEq M]

/-- The first rule of this text is deleted. -/
def deleteFirst (r : Rule M N) (t : Table M N) : Option (Table M N) :=
  if r ∈ t.output then some { t with output := t.output.erase r } else none

/-- **A chain is taken down**: the first jump to it is deleted, its rules, and the chain. -/
def cleanUp (d f x : Bool) (c : N) (t : Table M N) : Table M N :=
  attempt x (deleteChain c) (attempt f (flush c) (attempt d (deleteFirst (.jump c)) t))

end Commands

/-! ### Chains by name -/

section Chains

variable [DecidableEq N]

theorem lookup_eq_none {t : Table M N} {c : N} (hc : c ∉ t.names) : t.lookup c = none := by
  rw [lookup, Option.map_eq_none_iff, List.find?_eq_none]
  intro e he hname
  exact hc (of_decide_eq_true hname ▸ List.mem_map_of_mem he)

theorem mem_of_lookup {t : Table M N} {c : N} {rs : List (Rule M N)}
    (hrs : t.lookup c = some rs) : (c, rs) ∈ t.chains := by
  obtain ⟨e, he, rfl⟩ := Option.map_eq_some_iff.mp hrs
  have hname := List.find?_some he
  obtain rfl : e.1 = c := by simpa only [decide_eq_true_eq] using hname
  exact List.mem_of_find?_eq_some he

theorem exists_lookup {t : Table M N} {c : N} (hc : c ∈ t.names) :
    ∃ rs, t.lookup c = some rs := by
  by_contra hnone
  have hlookup : t.lookup c = none := Option.eq_none_iff_forall_ne_some.mpr fun rs hrs =>
    hnone ⟨rs, hrs⟩
  rw [lookup, Option.map_eq_none_iff, List.find?_eq_none] at hlookup
  obtain ⟨e, he, hname⟩ := List.mem_map.mp hc
  exact hlookup e he (decide_eq_true hname)

/-- The rules of a chain are rules of the table. -/
theorem mem_rules_of_lookup {t : Table M N} {c : N} {rs : List (Rule M N)} {r : Rule M N}
    (hrs : t.lookup c = some rs) (hr : r ∈ rs) : r ∈ t.rules :=
  List.mem_append_right _ (List.mem_flatMap.mpr ⟨_, mem_of_lookup hrs, hr⟩)

@[simp] theorem names_setChain (t : Table M N) (c : N) (rs : List (Rule M N)) :
    (t.setChain c rs).names = t.names := by
  rw [names, names, setChain, List.map_map]
  refine List.map_congr_left fun e _ => ?_
  by_cases he : e.1 = c
  · simp [he]
  · simp [he]

@[simp] theorem output_setChain (t : Table M N) (c : N) (rs : List (Rule M N)) :
    (t.setChain c rs).output = t.output := rfl

theorem setChain_setChain (t : Table M N) (c : N) (rs rs' : List (Rule M N)) :
    (t.setChain c rs).setChain c rs' = t.setChain c rs' := by
  simp only [setChain, List.map_map, Table.mk.injEq, true_and]
  refine List.map_congr_left fun e _ => ?_
  by_cases he : e.1 = c
  · simp [he]
  · simp [he]

theorem lookup_setChain_self {t : Table M N} {c : N} (hc : c ∈ t.names)
    (rs : List (Rule M N)) : (t.setChain c rs).lookup c = some rs := by
  obtain ⟨rs', hrs'⟩ := exists_lookup (t := t.setChain c rs) (c := c) (by simpa using hc)
  rw [hrs']
  obtain ⟨e, he, heq⟩ := List.mem_map.mp (mem_of_lookup hrs')
  by_cases hname : e.1 = c
  · rw [if_pos hname] at heq
    exact congrArg some (congrArg Prod.snd heq).symm
  · rw [if_neg hname] at heq
    exact absurd (congrArg Prod.fst heq) hname

/-- A chain that gets the rules it has. -/
theorem setChain_self {t : Table M N} (hnodup : t.names.Nodup) {c : N} {rs : List (Rule M N)}
    (hrs : t.lookup c = some rs) : t.setChain c rs = t := by
  have hmap : (t.chains.map fun e => if e.1 = c then (c, rs) else e) = t.chains := by
    conv_rhs => rw [← List.map_id t.chains]
    refine List.map_congr_left fun e he => ?_
    by_cases hname : e.1 = c
    · rw [if_pos hname, id]
      exact List.inj_on_of_nodup_map hnodup (mem_of_lookup hrs) he hname.symm
    · rw [if_neg hname, id]
  rw [setChain, hmap]

omit [DecidableEq N] in
@[simp] theorem names_addChain (t : Table M N) (c : N) (rs : List (Rule M N)) :
    (t.addChain c rs).names = t.names ++ [c] := by
  simp [names, addChain]

omit [DecidableEq N] in
@[simp] theorem output_addChain (t : Table M N) (c : N) (rs : List (Rule M N)) :
    (t.addChain c rs).output = t.output := rfl

omit [DecidableEq N] in
theorem mem_names_addChain (t : Table M N) (c : N) (rs : List (Rule M N)) :
    c ∈ (t.addChain c rs).names := by
  simp

theorem setChain_addChain {t : Table M N} {c : N} (hc : c ∉ t.names)
    (rs rs' : List (Rule M N)) : (t.addChain c rs).setChain c rs' = t.addChain c rs' := by
  have hothers : (t.chains.map fun e => if e.1 = c then (c, rs') else e) = t.chains := by
    conv_rhs => rw [← List.map_id t.chains]
    refine List.map_congr_left fun e he => ?_
    rw [if_neg, id]
    rintro rfl
    exact hc (List.mem_map_of_mem he)
  simp only [setChain, addChain, List.map_append, List.map_cons, List.map_nil, if_true, hothers]

theorem lookup_addChain_self {t : Table M N} {c : N} (hc : c ∉ t.names)
    (rs : List (Rule M N)) : (t.addChain c rs).lookup c = some rs := by
  rw [← setChain_addChain hc [] rs]
  exact lookup_setChain_self (mem_names_addChain t c []) rs

end Chains

/-! ### What a chain adds to a table -/

section Verdicts

variable (holds : M → P → Bool)

variable [DecidableEq N]

end Verdicts

/-! ### Valid tables stay valid -/

section Validity

variable [DecidableEq N]

/-- A rule that a table knows jumps to a chain that is there. -/
theorem knows_iff {t : Table M N} {r : Rule M N} :
    t.knows r = true ↔ ∀ c, r.target = .jump c → c ∈ t.names := by
  unfold knows
  split
  · rename_i c htarget
    rw [decide_eq_true_eq, htarget]
    constructor
    · intro hc c' heq
      rw [← Target.jump.inj heq]
      exact hc
    · exact fun h => h c rfl
  · rename_i hnone
    exact ⟨fun _ c htarget => absurd htarget (hnone c), fun _ => rfl⟩

/-- The same chains, and no rule that the table does not know. -/
theorem Valid.of_rules {t t' : Table M N} (h : t.Valid) (hnames : t'.names = t.names)
    (hrules : ∀ r ∈ t'.rules, r ∈ t.rules ∨ t.knows r = true) : t'.Valid where
  nodup := hnames ▸ h.nodup
  closed := fun r hr c htarget => by
    rw [hnames]
    rcases hrules r hr with hold | hknown
    · exact h.closed r hold c htarget
    · exact knows_iff.mp hknown c htarget

/-- A rule of a table one chain of which has got other rules. -/
theorem mem_rules_setChain {t : Table M N} {c : N} {rs : List (Rule M N)} {r : Rule M N}
    (hr : r ∈ (t.setChain c rs).rules) : r ∈ t.rules ∨ r ∈ rs := by
  rcases List.mem_append.mp hr with hout | hchain
  · exact Or.inl (List.mem_append_left _ hout)
  · obtain ⟨e, he, hmem⟩ := List.mem_flatMap.mp hchain
    obtain ⟨e', he', rfl⟩ := List.mem_map.mp he
    split at hmem
    · exact Or.inr hmem
    · exact Or.inl (List.mem_append_right _ (List.mem_flatMap.mpr ⟨e', he', hmem⟩))

theorem Valid.newChain {t t' : Table M N} {c : N} (h : t.Valid)
    (hnew : t.newChain c = some t') : t'.Valid := by
  unfold Table.newChain at hnew
  split at hnew
  · exact nomatch hnew
  · rename_i hc
    obtain rfl := Option.some.inj hnew
    refine ⟨?_, fun r hr c' htarget => ?_⟩
    · show (t.addChain c []).names.Nodup
      rw [names_addChain]
      exact h.nodup.append (List.nodup_singleton c) (List.disjoint_singleton.mpr hc)
    · show c' ∈ (t.addChain c []).names
      rw [names_addChain]
      refine List.mem_append_left _ (h.closed r ?_ c' htarget)
      simpa [rules] using hr

theorem Valid.appendTo {t t' : Table M N} {c : N} {r : Rule M N} (h : t.Valid)
    (happend : t.appendTo c r = some t') : t'.Valid := by
  unfold Table.appendTo at happend
  split at happend
  · exact nomatch happend
  · rename_i rs hrs
    split at happend
    · rename_i hknown
      obtain rfl := Option.some.inj happend
      refine h.of_rules (names_setChain t c _) fun r' hr' => ?_
      rcases mem_rules_setChain hr' with hold | hnew
      · exact Or.inl hold
      · rcases List.mem_append.mp hnew with hold | hlast
        · exact Or.inl (mem_rules_of_lookup hrs hold)
        · rw [List.mem_singleton.mp hlast]
          exact Or.inr hknown
    · exact nomatch happend

/-- A rule more in the list that every packet is put to. -/
theorem Valid.output_of_knows {t : Table M N} {r : Rule M N} (h : t.Valid)
    (hknown : t.knows r = true) {rs : List (Rule M N)}
    (hrs : ∀ r' ∈ rs, r' = r ∨ r' ∈ t.output) : Valid { t with output := rs } := by
  refine h.of_rules rfl fun r' hr' => ?_
  rcases List.mem_append.mp hr' with hout | hchain
  · rcases hrs r' hout with rfl | hold
    · exact Or.inr hknown
    · exact Or.inl (List.mem_append_left _ hold)
  · exact Or.inl (List.mem_append_right _ hchain)

theorem Valid.appendOutput {t t' : Table M N} {r : Rule M N} (h : t.Valid)
    (happend : t.appendOutput r = some t') : t'.Valid := by
  unfold Table.appendOutput at happend
  split at happend
  · rename_i hknown
    obtain rfl := Option.some.inj happend
    refine h.output_of_knows hknown fun r' hr' => ?_
    rcases List.mem_append.mp hr' with hold | hlast
    · exact Or.inr hold
    · exact Or.inl (List.mem_singleton.mp hlast)
  · exact nomatch happend

theorem Valid.insertFirst {t t' : Table M N} {r : Rule M N} (h : t.Valid)
    (hinsert : t.insertFirst r = some t') : t'.Valid := by
  unfold Table.insertFirst at hinsert
  split at hinsert
  · rename_i hknown
    obtain rfl := Option.some.inj hinsert
    exact h.output_of_knows hknown fun r' hr' => List.mem_cons.mp hr'
  · exact nomatch hinsert

theorem Valid.flush {t t' : Table M N} {c : N} (h : t.Valid) (hflush : t.flush c = some t') :
    t'.Valid := by
  unfold Table.flush at hflush
  split at hflush
  · obtain rfl := Option.some.inj hflush
    refine h.of_rules (names_setChain t c []) fun r hr => ?_
    rcases mem_rules_setChain hr with hold | hnone
    · exact Or.inl hold
    · exact nomatch hnone
  · exact nomatch hflush

theorem Valid.deleteChain {t t' : Table M N} {c : N} (h : t.Valid)
    (hdelete : t.deleteChain c = some t') : t'.Valid := by
  unfold Table.deleteChain at hdelete
  split at hdelete
  · rename_i hcond
    obtain rfl := Option.some.inj hdelete
    have hreferenced : ∀ r ∈ t.rules, r.target ≠ .jump c := by
      intro r hr htarget
      have hcond := (Bool.and_eq_true_iff.mp hcond).2
      rw [referenced, Bool.not_eq_true', List.any_eq_false] at hcond
      exact hcond r hr (decide_eq_true htarget)
    have hrules : ∀ r ∈ rules { t with chains := t.chains.filter fun e => decide (e.1 ≠ c) },
        r ∈ t.rules := by
      intro r hr
      rcases List.mem_append.mp hr with hout | hchain
      · exact List.mem_append_left _ hout
      · obtain ⟨e, he, hmem⟩ := List.mem_flatMap.mp hchain
        exact List.mem_append_right _ (List.mem_flatMap.mpr ⟨e, List.mem_of_mem_filter he, hmem⟩)
    refine ⟨h.nodup.sublist (List.filter_sublist.map Prod.fst), fun r hr c' htarget => ?_⟩
    obtain ⟨e, he, rfl⟩ := List.mem_map.mp (h.closed r (hrules r hr) c' htarget)
    refine List.mem_map_of_mem (List.mem_filter.mpr ⟨he, decide_eq_true ?_⟩)
    rintro rfl
    exact hreferenced r (hrules r hr) htarget
  · exact nomatch hdelete

theorem Valid.deleteFirst [DecidableEq M] {t t' : Table M N} {r : Rule M N} (h : t.Valid)
    (hdelete : t.deleteFirst r = some t') : t'.Valid := by
  unfold Table.deleteFirst at hdelete
  split at hdelete
  · obtain rfl := Option.some.inj hdelete
    refine h.of_rules rfl fun r' hr' => Or.inl ?_
    rcases List.mem_append.mp hr' with hout | hchain
    · exact List.mem_append_left _ (List.mem_of_mem_erase hout)
    · exact List.mem_append_right _ hchain
  · exact nomatch hdelete

end Validity

/-! ### A chain is put up and taken down -/

section CleanUp

variable [DecidableEq N]

/-- A rule that jumps to the new chain is known behind it. -/
theorem knows_jump_addChain (t : Table M N) (c : N) (rs : List (Rule M N)) :
    (t.addChain c rs).knows (.jump c) = true :=
  decide_eq_true (mem_names_addChain t c rs)

omit [DecidableEq N] in
/-- No rule of a valid table jumps to a chain that is not there. -/
theorem Valid.target_ne {t : Table M N} (h : t.Valid) {c : N} (hc : c ∉ t.names)
    {r : Rule M N} (hr : r ∈ t.rules) : r.target ≠ .jump c :=
  fun htarget => hc (h.closed r hr c htarget)

/-- The chain is made. -/
theorem newChain_of_not_mem {t : Table M N} {c : N} (hc : c ∉ t.names) :
    t.newChain c = some (t.addChain c []) := by
  rw [newChain, if_neg hc]
  rfl

/-- The chain is there already. -/
theorem newChain_of_mem {t : Table M N} {c : N} (hc : c ∈ t.names) : t.newChain c = none := by
  rw [newChain, if_pos hc]

/-- A rule that jumps nowhere is appended to the new chain. -/
theorem appendTo_addChain {t : Table M N} {c : N} (hc : c ∉ t.names) (rs : List (Rule M N))
    {r : Rule M N} (hknown : (t.addChain c rs).knows r = true) :
    (t.addChain c rs).appendTo c r = some (t.addChain c (rs ++ [r])) := by
  simp only [appendTo, lookup_addChain_self hc, if_pos hknown, setChain_addChain hc]

/-- The new chain is hooked in. -/
theorem insertFirst_addChain (t : Table M N) (c : N) (rs : List (Rule M N)) :
    (t.addChain c rs).insertFirst (.jump c) = some ((t.addChain c rs).hook c) := by
  rw [insertFirst, if_pos (knows_jump_addChain t c rs)]
  rfl

/-- The chain loses its rules. -/
theorem flush_addChain {t : Table M N} {c : N} (hc : c ∉ t.names) (rs : List (Rule M N)) :
    (t.addChain c rs).flush c = some (t.addChain c []) := by
  rw [flush, if_pos (mem_names_addChain t c rs), setChain_addChain hc]

/-- A chain that is empty and that nothing jumps to goes. -/
theorem deleteChain_addChain {t : Table M N} (h : t.Valid) {c : N} (hc : c ∉ t.names) :
    (t.addChain c []).deleteChain c = some t := by
  have hreferenced : (t.addChain c []).referenced c = false := by
    rw [referenced, List.any_eq_false]
    intro r hr htarget
    refine h.target_ne hc (r := r) ?_ (of_decide_eq_true htarget)
    simpa [rules, addChain] using hr
  have hfilter : (t.chains ++ [(c, [])]).filter (fun e => decide (e.1 ≠ c)) = t.chains := by
    rw [List.filter_append, List.filter_eq_self.mpr]
    · simp
    · intro e he
      refine decide_eq_true ?_
      rintro rfl
      exact hc (List.mem_map_of_mem he)
  rw [deleteChain, lookup_addChain_self hc, hreferenced]
  simp only [Option.any_some, List.isEmpty_nil, Bool.not_false, Bool.and_self, if_true]
  rw [addChain, hfilter]

/-- A chain that has rules stays. -/
theorem deleteChain_of_lookup {t : Table M N} {c : N} {r : Rule M N} {rs : List (Rule M N)}
    (hrs : t.lookup c = some (r :: rs)) : t.deleteChain c = none := by
  rw [deleteChain, hrs]
  rfl

/-- A chain that a rule jumps to stays. -/
theorem deleteChain_of_referenced {t : Table M N} {c : N} (hc : t.referenced c = true) :
    t.deleteChain c = none := by
  rw [deleteChain, hc, Bool.not_true, Bool.and_false]
  rfl

/-- Where the chain was deleted it is not there. -/
theorem not_mem_names_of_deleteChain {t t' : Table M N} {c : N}
    (hdelete : t.deleteChain c = some t') : c ∉ t'.names := by
  unfold deleteChain at hdelete
  split at hdelete
  · obtain rfl := Option.some.inj hdelete
    intro hc
    obtain ⟨e, he, hname⟩ := List.mem_map.mp hc
    exact of_decide_eq_true (List.mem_filter.mp he).2 hname
  · exact nomatch hdelete

variable [DecidableEq M]

/-- The first jump is the one that was inserted. -/
theorem deleteFirst_hook (t : Table M N) (c : N) : (t.hook c).deleteFirst (.jump c) = some t := by
  have hmem : Rule.jump c ∈ (t.hook c).output := List.mem_cons_self
  rw [deleteFirst, if_pos hmem]
  simp only [hook, List.erase_cons_head]

/-- There is no jump to a chain that was not there and is not hooked in. -/
theorem deleteFirst_addChain {t : Table M N} (h : t.Valid) {c : N} (hc : c ∉ t.names)
    (rs : List (Rule M N)) : (t.addChain c rs).deleteFirst (.jump c) = none := by
  rw [deleteFirst, if_neg]
  exact fun hmem => h.target_ne hc (List.mem_append_left _ hmem) rfl

/-- A chain that may be hooked in. -/
def hooked (b : Bool) (t : Table M N) (c : N) : Table M N := if b then t.hook c else t

omit [DecidableEq N] [DecidableEq M] in
theorem attempt_of_some {f : Table M N → Option (Table M N)} {t t' : Table M N}
    (hf : f t = some t') : attempt true f t = t' := by
  rw [attempt, if_pos rfl, hf, Option.getD_some]

omit [DecidableEq N] [DecidableEq M] in
theorem attempt_of_none {f : Table M N → Option (Table M N)} {t : Table M N} (b : Bool)
    (hf : f t = none) : attempt b f t = t := by
  rw [attempt, hf, Option.getD_none, ite_self]

omit [DecidableEq N] [DecidableEq M] in
theorem attempt_false {f : Table M N → Option (Table M N)} {t : Table M N} :
    attempt false f t = t := rfl

omit [DecidableEq M] in
/-- What is deleted behind the jump is in the chains. -/
theorem output_attempt (f x : Bool) (c : N) (t : Table M N) :
    (attempt x (deleteChain c) (attempt f (flush c) t)).output = t.output := by
  have hflush : ∀ t : Table M N, (attempt f (flush c) t).output = t.output := by
    intro t
    unfold attempt flush
    split_ifs <;> rfl
  have hdelete : ∀ t : Table M N, (attempt x (deleteChain c) t).output = t.output := by
    intro t
    unfold attempt deleteChain
    split_ifs <;> rfl
  rw [hdelete, hflush]

omit [DecidableEq N] [DecidableEq M] in
/-- A chain more makes another table. -/
theorem addChain_ne {t : Table M N} {c : N} (hc : c ∉ t.names) (rs : List (Rule M N)) :
    t.addChain c rs ≠ t := by
  intro heq
  refine hc ?_
  rw [← heq]
  exact mem_names_addChain t c rs

omit [DecidableEq M] in
/-- A chain that is not hooked in goes if its rules go first. -/
theorem attempt_addChain_iff {t : Table M N} (h : t.Valid) {c : N} (hc : c ∉ t.names)
    (rs : List (Rule M N)) (f x : Bool) :
    attempt x (deleteChain c) (attempt f (flush c) (t.addChain c rs)) = t ↔
      (rs ≠ [] → f = true) ∧ x = true := by
  obtain ⟨rs', hflush, hrs'⟩ : ∃ rs', attempt f (flush c) (t.addChain c rs) = t.addChain c rs' ∧
      (rs' = [] ↔ (rs ≠ [] → f = true)) := by
    cases f with
    | false => exact ⟨rs, rfl, by simp⟩
    | true => exact ⟨[], attempt_of_some (flush_addChain hc rs), by simp⟩
  rw [hflush, ← hrs']
  cases x with
  | false =>
    refine iff_of_false (addChain_ne hc rs') ?_
    simp
  | true =>
    rcases rs' with _ | ⟨r, rs'⟩
    · refine iff_of_true (attempt_of_some (deleteChain_addChain h hc)) ⟨rfl, rfl⟩
    · rw [attempt_of_none true (deleteChain_of_lookup (lookup_addChain_self hc (r :: rs')))]
      refine iff_of_false (addChain_ne hc _) ?_
      simp

/-- **A new chain is taken down** exactly if each step is made that has something to undo. -/
theorem cleanUp_addChain_iff {t : Table M N} (h : t.Valid) {c : N} (hc : c ∉ t.names)
    (rs : List (Rule M N)) (b d f x : Bool) :
    cleanUp d f x c (hooked b (t.addChain c rs) c) = t ↔
      (b = true → d = true) ∧ (rs ≠ [] → f = true) ∧ x = true := by
  cases b with
  | false =>
    rw [hooked, if_neg (by decide), cleanUp, attempt_of_none d (deleteFirst_addChain h hc rs),
      attempt_addChain_iff h hc]
    simp
  | true =>
    rw [hooked, if_pos rfl, cleanUp]
    cases d with
    | true =>
      rw [attempt_of_some (deleteFirst_hook _ c), attempt_addChain_iff h hc]
      simp
    | false =>
      refine iff_of_false (fun heq => ?_) (by simp)
      have hlength := congrArg (fun t' : Table M N => t'.output.length) heq
      simp only [attempt_false, output_attempt, hook, output_addChain, List.length_cons] at hlength
      omega

/-- Where there is no chain, nothing is taken down. -/
theorem cleanUp_of_not_mem {t : Table M N} (h : t.Valid) {c : N} (hc : c ∉ t.names)
    (d f x : Bool) : cleanUp d f x c t = t := by
  have hdelete : t.deleteFirst (.jump c) = none :=
    if_neg fun hmem => h.target_ne hc (List.mem_append_left _ hmem) rfl
  have hflush : t.flush c = none := if_neg hc
  have hchain : t.deleteChain c = none := by
    rw [deleteChain, lookup_eq_none hc]
    rfl
  rw [cleanUp, attempt_of_none d hdelete, attempt_of_none f hflush, attempt_of_none x hchain]

/-- The list that every packet is put to, without the first jump to the chain. -/
def unhooked (b : Bool) (t : Table M N) (c : N) : List (Rule M N) :=
  if b then t.output else t.output.erase (.jump c)

/-- The jump that is deleted is the one that was inserted, or else the first. -/
theorem attempt_deleteFirst_hooked (t : Table M N) (c : N) (b : Bool) :
    attempt true (deleteFirst (.jump c)) (hooked b t c) =
      { t with output := unhooked b t c } := by
  cases b with
  | true => exact attempt_of_some (deleteFirst_hook t c)
  | false =>
    rw [hooked, if_neg (by decide), unhooked, if_neg (by decide)]
    by_cases hmem : Rule.jump c ∈ t.output
    · exact attempt_of_some (if_pos hmem)
    · rw [attempt_of_none true (if_neg hmem), List.erase_of_not_mem hmem]

/-- Nothing is taken out of the list only if the chain was hooked in or there is no jump. -/
theorem unhooked_eq_iff {t : Table M N} {c : N} {b : Bool} :
    unhooked b t c = t.output ↔ (b = false → Rule.jump c ∉ t.output) := by
  cases b with
  | true => simp [unhooked]
  | false =>
    simp only [unhooked, Bool.false_eq_true, if_false, forall_const]
    constructor
    · intro heq hmem
      have hlength := List.length_erase_of_mem hmem
      rw [heq] at hlength
      have hpos := List.length_pos_of_mem hmem
      omega
    · exact List.erase_of_not_mem

/-- **A chain that was there** is taken down as well: it stays only if it was empty and a rule
jumps to it, none of which was deleted. -/
theorem cleanUp_setChain_iff {t : Table M N} (h : t.Valid) {c : N} (hc : c ∈ t.names)
    (rs : List (Rule M N)) (b : Bool) :
    cleanUp true true true c (hooked b (t.setChain c rs) c) = t ↔
      t.lookup c = some [] ∧ (b = false → Rule.jump c ∉ t.output) ∧ t.referenced c = true := by
  obtain ⟨u, hu⟩ : ∃ u : Table M N, u = { t with output := unhooked b t c } := ⟨_, rfl⟩
  have hnames : c ∈ u.names := by
    rw [hu]
    exact hc
  have hflushed : attempt true (flush c) (attempt true (deleteFirst (.jump c))
      (hooked b (t.setChain c rs) c)) = u.setChain c [] := by
    have hunhooked : attempt true (deleteFirst (.jump c)) (hooked b (t.setChain c rs) c) =
        u.setChain c rs := by
      rw [attempt_deleteFirst_hooked, hu]
      rfl
    have hflush : (u.setChain c rs).flush c = some (u.setChain c []) := by
      rw [flush, if_pos (by simpa using hnames), setChain_setChain]
    rw [hunhooked, attempt_of_some hflush]
  rw [cleanUp, hflushed, ← unhooked_eq_iff]
  constructor
  · intro heq
    cases hdelete : (u.setChain c []).deleteChain c with
    | some t' =>
      rw [attempt_of_some hdelete] at heq
      exact absurd (heq ▸ hc) (not_mem_names_of_deleteChain hdelete)
    | none =>
      rw [attempt_of_none true hdelete] at heq
      have hlookup : t.lookup c = some [] := by
        rw [← heq]
        exact lookup_setChain_self hnames []
      refine ⟨hlookup, ?_, ?_⟩
      · have houtput := congrArg Table.output heq
        rw [output_setChain, hu] at houtput
        exact houtput
      · by_contra hfree
        rw [heq, deleteChain, hlookup, Bool.eq_false_iff.mpr hfree] at hdelete
        exact nomatch hdelete
  · rintro ⟨hlookup, houtput, hreferenced⟩
    have hsame : u.setChain c [] = t := by
      rw [hu, houtput]
      exact setChain_self h.nodup hlookup
    rw [hsame, attempt_of_none true (deleteChain_of_referenced hreferenced)]

end CleanUp

end Table

/-! ### Rules without a chain -/

section Text

variable {α : Type} [DecidableEq α]

/-- The first of its text is deleted, if it is. -/
def eraseIf (b : Bool) (r : α) (xs : List α) : List α := if b then xs.erase r else xs

/-- A rule is appended, if it is. -/
def appendIf (b : Bool) (r : α) (xs : List α) : List α := if b then xs ++ [r] else xs

/-- A rule is deleted (`e`), appended (`a`) and deleted again (`d`), each or not. -/
def settle (e a d : Bool) (r : α) (xs : List α) : List α :=
  eraseIf d r (appendIf a r (eraseIf e r xs))

/-- **As many as before**: a rule that was not in the list is deleted again if it was
appended; one that was is appended and deleted, or neither, or it was deleted first and only
appended then. -/
structure Settled (e a d : Bool) (r : α) (xs : List α) : Prop where
  /-- The rule was not in the list. -/
  absent : r ∉ xs → a = true → d = true
  /-- The rule was in the list. -/
  present : r ∈ xs → (e = false ∧ a = d) ∨ (e = true ∧ a = true ∧ d = false)

/-- The first copy of a rule that is in the list goes to its end, if it does. -/
def toEnd (b : Bool) (r : α) (xs : List α) : List α :=
  if b = true ∧ r ∈ xs then xs.erase r ++ [r] else xs

theorem eraseIf_comm (b b' : Bool) (r r' : α) (xs : List α) :
    eraseIf b r (eraseIf b' r' xs) = eraseIf b' r' (eraseIf b r xs) := by
  cases b <;> cases b' <;> simp [eraseIf, List.erase_comm]

theorem eraseIf_appendIf {r r' : α} (hne : r ≠ r') (b b' : Bool) (xs : List α) :
    eraseIf b r (appendIf b' r' xs) = appendIf b' r' (eraseIf b r xs) := by
  cases b with
  | false => rfl
  | true =>
    cases b' with
    | false => rfl
    | true =>
      show (xs ++ [r']).erase r = xs.erase r ++ [r']
      rw [List.erase_append]
      split_ifs with hmem
      · rfl
      · rw [List.erase_of_not_mem hmem, List.erase_of_not_mem (by simpa using hne)]

/-- **Two rules do not disturb each other.** -/
theorem settle_settle {r r' : α} (hne : r ≠ r') (e a d e' a' d' : Bool) (xs : List α) :
    eraseIf d' r' (eraseIf d r (appendIf a' r' (appendIf a r
      (eraseIf e' r' (eraseIf e r xs))))) = settle e' a' d' r' (settle e a d r xs) := by
  rw [eraseIf_appendIf hne, ← eraseIf_appendIf hne.symm e' a, eraseIf_comm d e' r r']
  rfl

theorem count_eraseIf_of_ne {r r' : α} (hne : r ≠ r') (b : Bool) (xs : List α) :
    (eraseIf b r xs).count r' = xs.count r' := by
  cases b with
  | false => rfl
  | true => exact List.count_erase_of_ne hne.symm

theorem count_appendIf_of_ne {r r' : α} (hne : r ≠ r') (b : Bool) (xs : List α) :
    (appendIf b r xs).count r' = xs.count r' := by
  cases b with
  | false => rfl
  | true =>
    show (xs ++ [r]).count r' = xs.count r'
    rw [List.count_append, List.count_singleton, if_neg (by simpa using hne), Nat.add_zero]

theorem count_settle_of_ne {r r' : α} (hne : r ≠ r') (e a d : Bool) (xs : List α) :
    (settle e a d r xs).count r' = xs.count r' := by
  rw [settle, count_eraseIf_of_ne hne, count_appendIf_of_ne hne, count_eraseIf_of_ne hne]

theorem count_settle_self (e a d : Bool) (r : α) (xs : List α) :
    (settle e a d r xs).count r = xs.count r - e.toNat + a.toNat - d.toNat := by
  have herase : ∀ (b : Bool) (ys : List α), (eraseIf b r ys).count r = ys.count r - b.toNat := by
    intro b ys
    cases b with
    | false => rfl
    | true => exact List.count_erase_self
  have happend : ∀ (b : Bool) (ys : List α), (appendIf b r ys).count r = ys.count r + b.toNat := by
    intro b ys
    cases b with
    | false => rfl
    | true =>
      show (ys ++ [r]).count r = ys.count r + 1
      rw [List.count_append, List.count_singleton_self]
  rw [settle, herase, happend, herase]

/-- There are as many of the rule as before exactly if it is settled. -/
theorem count_settle_iff (e a d : Bool) (r : α) (xs : List α) :
    (settle e a d r xs).count r = xs.count r ↔ Settled e a d r xs := by
  rw [count_settle_self]
  by_cases hmem : r ∈ xs
  · have hpos := List.count_pos_iff.mpr hmem
    constructor
    · intro hcount
      refine ⟨fun h => absurd hmem h, fun _ => ?_⟩
      cases e <;> cases a <;> cases d <;> simp at hcount ⊢ <;> omega
    · rintro ⟨-, hpresent⟩
      rcases hpresent hmem with ⟨rfl, rfl⟩ | ⟨rfl, rfl, rfl⟩
      · simp
      · simp
        omega
  · have hzero := List.count_eq_zero.mpr hmem
    rw [hzero]
    constructor
    · intro hcount
      refine ⟨fun _ ha => ?_, fun h => absurd h hmem⟩
      subst ha
      cases d with
      | false => simp at hcount
      | true => rfl
    · rintro ⟨habsent, -⟩
      have had := habsent hmem
      cases a <;> cases d <;> simp_all

/-- What a settled rule does to the list: it may go to the end. -/
theorem Settled.settle_eq {e a d : Bool} {r : α} {xs : List α} (h : Settled e a d r xs) :
    settle e a d r xs = toEnd a r xs := by
  by_cases hmem : r ∈ xs
  · rcases h.present hmem with ⟨rfl, rfl⟩ | ⟨rfl, rfl, rfl⟩
    · cases a with
      | false => rfl
      | true =>
        show (xs ++ [r]).erase r = _
        rw [toEnd, if_pos ⟨rfl, hmem⟩, List.erase_append_left [r] hmem]
    · rw [toEnd, if_pos ⟨rfl, hmem⟩]
      rfl
  · have hfirst : eraseIf e r xs = xs := by
      rw [eraseIf, List.erase_of_not_mem hmem, ite_self]
    rw [toEnd, if_neg fun hcond => hmem hcond.2, settle, hfirst]
    cases a with
    | false =>
      show eraseIf d r xs = xs
      rw [eraseIf, List.erase_of_not_mem hmem, ite_self]
    | true =>
      rw [h.absent hmem rfl]
      show (xs ++ [r]).erase r = xs
      rw [List.erase_append_right [r] hmem, List.erase_cons_head, List.append_nil]

omit [DecidableEq α] in
/-- Whether a rule is settled depends on whether it is in the list. -/
theorem settled_congr {e a d : Bool} {r : α} {xs ys : List α} (hmem : r ∈ xs ↔ r ∈ ys) :
    Settled e a d r xs ↔ Settled e a d r ys :=
  ⟨fun h => ⟨fun hr => h.absent fun hx => hr (hmem.mp hx), fun hr => h.present (hmem.mpr hr)⟩,
    fun h => ⟨fun hr => h.absent fun hx => hr (hmem.mpr hx), fun hr => h.present (hmem.mp hr)⟩⟩

/-- **The list is as it was** exactly if both rules are settled, and going to the end leaves
the list as it is. -/
theorem settle_settle_eq_iff {r r' : α} (hne : r ≠ r') (e a d e' a' d' : Bool) (xs : List α) :
    settle e' a' d' r' (settle e a d r xs) = xs ↔
      Settled e a d r xs ∧ Settled e' a' d' r' xs ∧ toEnd a' r' (toEnd a r xs) = xs := by
  have hmem : r' ∈ settle e a d r xs ↔ r' ∈ xs := by
    rw [← List.count_pos_iff, count_settle_of_ne hne, List.count_pos_iff]
  constructor
  · intro heq
    have hfirst : Settled e a d r xs := by
      rw [← count_settle_iff, ← count_settle_of_ne hne.symm e' a' d', heq]
    have hsecond : Settled e' a' d' r' (settle e a d r xs) := by
      rw [← count_settle_iff, heq, count_settle_of_ne hne]
    refine ⟨hfirst, (settled_congr hmem).mp hsecond, ?_⟩
    rw [hsecond.settle_eq, hfirst.settle_eq] at heq
    exact heq
  · rintro ⟨hfirst, hsecond, heq⟩
    rw [((settled_congr hmem).mpr hsecond).settle_eq, hfirst.settle_eq, heq]

end Text

end RuleTable
