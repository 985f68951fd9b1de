import Aegs.Firewall.KillSwitch

/-!
# A chain by commands

All three lists of rules that have a chain of their own are of one form
(`Aegs.Firewall.shield`): the chain is made, its rules are appended, and it is hooked in
ahead of all others. Where the chain was not there, a loop that stops at the first failure
(`Aegs.Firewall.executeAll`) ends with the chain hooked in and all its rules, or with a
chain that nobody sees (`Aegs.Firewall.executeAll_shield`); a loop that goes on
(`Aegs.Firewall.executeEach`) leaves out the rules whose commands failed
(`Aegs.Firewall.executeEach_shield`). The commands noted for taking it down are
`RuleTable.Table.cleanUp` (`Aegs.Firewall.executeEach_cleanupCommands`).
-/

namespace Aegs

namespace Firewall

open RuleTable

/-- The commands that put up a chain. -/
def shield {F : Type} (tool : Tool) (chain : String) (rs : List (Rule F)) : List (Command F) :=
  .newChain tool chain :: (rs.map (.append tool chain) ++ [.insert tool (.jump chain)])

/-- The rules whose commands work. -/
def kept {α : Type} (works : ℕ → Bool) : List α → List α
  | [] => []
  | r :: rs =>
    if works 0 then r :: kept (fun i => works (i + 1)) rs else kept (fun i => works (i + 1)) rs

section Sets

variable {F : Type}

@[simp] theorem table_set (fw : Rules F) (tool : Tool) (t : Table F) :
    (fw.set tool t).table tool = t := by
  cases tool <;> rfl

@[simp] theorem set_set (fw : Rules F) (tool : Tool) (t t' : Table F) :
    (fw.set tool t).set tool t' = fw.set tool t' := by
  cases tool <;> rfl

@[simp] theorem set_table (fw : Rules F) (tool : Tool) : fw.set tool (fw.table tool) = fw := by
  cases tool <;> rfl

@[simp] theorem hasIp6tables_set (fw : Rules F) (tool : Tool) (t : Table F) :
    (fw.set tool t).hasIp6tables = fw.hasIp6tables := by
  cases tool <;> rfl

@[simp] theorem v6_set_iptables (fw : Rules F) (t : Table F) :
    (fw.set .iptables t).v6 = fw.v6 := rfl

@[simp] theorem v4_set_iptables (fw : Rules F) (t : Table F) :
    (fw.set .iptables t).v4 = t := rfl

@[simp] theorem v6_set_ip6tables (fw : Rules F) (t : Table F) :
    (fw.set .ip6tables t).v6 = t := rfl

@[simp] theorem v4_set_ip6tables (fw : Rules F) (t : Table F) :
    (fw.set .ip6tables t).v4 = fw.v4 := rfl

/-- A tool's table is all that it changes. -/
theorem set_eq_self_iff {fw : Rules F} {tool : Tool} {t : Table F} :
    fw.set tool t = fw ↔ t = fw.table tool := by
  constructor
  · intro heq
    rw [← heq, table_set]
  · rintro rfl
    exact set_table fw tool

end Sets

section Steps

variable {F X : Type} [DecidableEq F] {L : System F X}

/-- The tool is there. -/
def Ready (fw : Rules F) (tool : Tool) : Prop := tool = .iptables ∨ fw.hasIp6tables = true

omit [DecidableEq F] in
theorem Ready.set {fw : Rules F} {tool : Tool} (h : Ready fw tool) (t : Table F) :
    Ready (fw.set tool t) tool := by
  rw [Ready, hasIp6tables_set]
  exact h

omit [DecidableEq F] in
/-- A command runs where its tool is there and its rule is taken. -/
theorem runs_iff {c : Command F} {fw : Rules F} :
    c.runs L fw = true ↔ Ready fw c.tool ∧
      c.rule.all (fun r => r.conditions.all (takes L c.tool)) = true := by
  rw [Command.runs, Bool.and_eq_true, Bool.or_eq_true, beq_iff_eq, Ready]

/-- A command that works. -/
theorem executeCommand_of_run {works : Bool} {c : Command F} {fw : Rules F} {t : Table F}
    (hworks : works = true) (hruns : c.runs L fw = true)
    (hrun : c.run (fw.table c.tool) = some t) :
    executeCommand L works c fw = some (fw.set c.tool t) := by
  rw [executeCommand, if_pos (by rw [hworks, hruns]; rfl), hrun, Option.map_some]

/-- A command that is refused. -/
theorem executeCommand_of_run_none {works : Bool} {c : Command F} {fw : Rules F}
    (hrun : c.run (fw.table c.tool) = none) : executeCommand L works c fw = none := by
  rw [executeCommand, hrun, Option.map_none, ite_self]

/-- A command that fails. -/
theorem executeCommand_false {c : Command F} {fw : Rules F} :
    executeCommand L false c fw = none := rfl

/-- A command whose tool is not there, or does not take the rule. -/
theorem executeCommand_of_not_runs {works : Bool} {c : Command F} {fw : Rules F}
    (hruns : c.runs L fw = false) : executeCommand L works c fw = none := by
  rw [executeCommand, hruns, Bool.and_false]
  rfl

/-- What is left of the rules where the result of a command is not looked at. -/
theorem getD_executeCommand {works : Bool} {c : Command F} {fw : Rules F}
    (hruns : c.runs L fw = true) :
    (executeCommand L works c fw).getD fw =
      fw.set c.tool (Table.attempt works c.run (fw.table c.tool)) := by
  cases works with
  | false => exact (set_table fw c.tool).symm
  | true =>
    cases hrun : c.run (fw.table c.tool) with
    | none =>
      rw [executeCommand_of_run_none hrun, Table.attempt_of_none true hrun, Option.getD_none,
        set_table]
    | some t =>
      rw [executeCommand_of_run rfl hruns hrun, Table.attempt_of_some hrun, Option.getD_some]

/-- Where the tool is not there, nothing changes. -/
theorem executeEach_of_not_ready {works : ℕ → Bool} {cs : List (Command F)} {fw : Rules F}
    (hready : ∀ c ∈ cs, ¬Ready fw c.tool) : executeEach L works cs fw = fw := by
  induction cs generalizing works with
  | nil => rfl
  | cons c cs ih =>
    have hruns : c.runs L fw = false := by
      rw [← Bool.not_eq_true, runs_iff]
      exact fun h => hready c List.mem_cons_self h.1
    rw [executeEach, executeCommand_of_not_runs hruns, Option.getD_none]
    exact ih fun c' hc' => hready c' (List.mem_cons_of_mem c hc')

/-- Where every command is refused, nothing changes. -/
theorem executeEach_of_run_none {works : ℕ → Bool} {cs : List (Command F)} {fw : Rules F}
    (hrun : ∀ c ∈ cs, c.run (fw.table c.tool) = none) : executeEach L works cs fw = fw := by
  induction cs generalizing works with
  | nil => rfl
  | cons c cs ih =>
    rw [executeEach, executeCommand_of_run_none (hrun c List.mem_cons_self), Option.getD_none]
    exact ih fun c' hc' => hrun c' (List.mem_cons_of_mem c hc')

/-! ### Taking a chain down -/

/-- **The noted commands take the chain down.** -/
theorem executeEach_cleanupCommands {works : ℕ → Bool} {tool : Tool} {chain : String}
    {fw : Rules F} (hready : Ready fw tool) :
    executeEach L works (cleanupCommands tool chain) fw =
      fw.set tool (Table.cleanUp (works 0) (works 1) (works 2) chain (fw.table tool)) := by
  have hdelete : ∀ (b : Bool) (fw' : Rules F), Ready fw' tool →
      (executeCommand L b (.delete tool (.jump chain)) fw').getD fw' =
        fw'.set tool (Table.attempt b (Table.deleteFirst (.jump chain)) (fw'.table tool)) :=
    fun _ _ h => getD_executeCommand (runs_iff.mpr ⟨h, rfl⟩)
  have hflush : ∀ (b : Bool) (fw' : Rules F), Ready fw' tool →
      (executeCommand L b (.flush tool chain) fw').getD fw' =
        fw'.set tool (Table.attempt b (Table.flush chain) (fw'.table tool)) :=
    fun _ _ h => getD_executeCommand (runs_iff.mpr ⟨h, rfl⟩)
  have hchain : ∀ (b : Bool) (fw' : Rules F), Ready fw' tool →
      (executeCommand L b (.deleteChain tool chain) fw').getD fw' =
        fw'.set tool (Table.attempt b (Table.deleteChain chain) (fw'.table tool)) :=
    fun _ _ h => getD_executeCommand (runs_iff.mpr ⟨h, rfl⟩)
  simp only [cleanupCommands, executeEach]
  rw [hdelete _ _ hready, hflush _ _ (hready.set _), hchain _ _ ((hready.set _).set _)]
  simp only [table_set, set_set]
  rfl

/-! ### Putting a chain up -/

/-- The rules decide or pass. -/
def Plain (rs : List (Rule F)) : Prop := ∀ r ∈ rs, ∀ c, r.target ≠ .jump c

/-- The tool takes the conditions of the rules. -/
def TakesAll (L : System F X) (tool : Tool) (rs : List (Rule F)) : Prop :=
  ∀ r ∈ rs, r.conditions.all (takes L tool) = true

omit [DecidableEq F] in
/-- A rule that jumps nowhere is known. -/
theorem knows_of_plain {t : Table F} {r : Rule F} (hplain : ∀ c, r.target ≠ .jump c) :
    t.knows r = true :=
  Table.knows_iff.mpr fun c htarget => absurd htarget (hplain c)

/-- **The rules and the hook**, one after another until one fails. -/
theorem executeAll_append {tool : Tool} {chain : String} {fw : Rules F} {t : Table F}
    (hready : Ready fw tool) (hc : chain ∉ t.names) {rs : List (Rule F)} (hplain : Plain rs)
    (works : ℕ → Bool) (before : List (Rule F)) :
    ∃ b rs', executeAll L works (rs.map (.append tool chain) ++ [.insert tool (.jump chain)])
        (fw.set tool (t.addChain chain before)) =
          (b, fw.set tool (Table.hooked b (t.addChain chain rs') chain)) ∧
      (b = true ↔ (∀ i < rs.length + 1, works i = true) ∧ TakesAll L tool rs) ∧
      (b = true → rs' = before ++ rs) := by
  induction rs generalizing works before with
  | nil =>
    have hrun : Command.run (.insert tool (.jump chain))
        ((fw.set tool (t.addChain chain before)).table tool) =
          some ((t.addChain chain before).hook chain) := by
      rw [table_set]
      exact Table.insertFirst_addChain t chain before
    cases hworks : works 0 with
    | false =>
      refine ⟨false, before, ?_, ?_, fun h => nomatch h⟩
      · simp only [List.map_nil, List.nil_append, executeAll, hworks, executeCommand_false]
        rfl
      · refine iff_of_false (by decide) fun h => ?_
        rw [h.1 0 (by simp)] at hworks
        exact nomatch hworks
    | true =>
      refine ⟨true, before, ?_, ?_, fun _ => (List.append_nil before).symm⟩
      · simp only [List.map_nil, List.nil_append, executeAll]
        rw [executeCommand_of_run hworks (runs_iff.mpr ⟨hready.set _, rfl⟩) hrun, Command.tool,
          set_set]
        rfl
      · refine iff_of_true rfl ⟨fun i hi => ?_, fun r hr => nomatch hr⟩
        obtain rfl : i = 0 := by simpa using hi
        exact hworks
  | cons r rs ih =>
    have hrun : Command.run (.append tool chain r)
        ((fw.set tool (t.addChain chain before)).table tool) =
          some (t.addChain chain (before ++ [r])) := by
      rw [table_set]
      exact Table.appendTo_addChain hc before (knows_of_plain (hplain r List.mem_cons_self))
    simp only [List.map_cons, List.cons_append, executeAll]
    -- the first rule is appended, or the loop ends here
    by_cases hfirst : works 0 = true ∧ r.conditions.all (takes L tool) = true
    · obtain ⟨b, rs', hexec, hgood, hrs'⟩ := ih
        (fun r' hr' => hplain r' (List.mem_cons_of_mem r hr'))
        (fun i => works (i + 1)) (before ++ [r])
      refine ⟨b, rs', ?_, ?_, fun hb => ?_⟩
      · have hruns : Command.runs L (.append tool chain r)
            (fw.set tool (t.addChain chain before)) = true :=
          runs_iff.mpr ⟨hready.set _, hfirst.2⟩
        rw [executeCommand_of_run hfirst.1 hruns hrun, Command.tool, set_set]
        exact hexec
      · rw [hgood]
        constructor
        · rintro ⟨hworks, htakes⟩
          refine ⟨fun i hi => ?_, fun r' hr' => ?_⟩
          · rcases i with _ | i
            · exact hfirst.1
            · exact hworks i (by simpa using hi)
          · rcases List.mem_cons.mp hr' with rfl | hr'
            · exact hfirst.2
            · exact htakes r' hr'
        · rintro ⟨hworks, htakes⟩
          exact ⟨fun i hi => hworks (i + 1) (by simpa using hi),
            fun r' hr' => htakes r' (List.mem_cons_of_mem r hr')⟩
      · rw [hrs' hb, List.append_assoc, List.singleton_append]
    · refine ⟨false, before, ?_, ?_, fun h => nomatch h⟩
      · have hnone : executeCommand L (works 0) (.append tool chain r)
            (fw.set tool (t.addChain chain before)) = none := by
          cases hworks : works 0 with
          | false => rfl
          | true =>
            refine executeCommand_of_not_runs ?_
            rw [← Bool.not_eq_true, runs_iff]
            exact fun h => hfirst ⟨hworks, h.2⟩
        rw [hnone]
        rfl
      · refine iff_of_false (by decide) fun h => hfirst ⟨h.1 0 (by simp), ?_⟩
        exact h.2 r List.mem_cons_self

/-- **A chain is put up by a loop that stops at the first failure**: where it was there the
loop stops at once; where it was not, it is hooked in with all its rules behind a run that
ends well, and seen by nobody behind one that does not. -/
theorem executeAll_shield {tool : Tool} (chain : String) {fw : Rules F} (hready : Ready fw tool)
    {rs : List (Rule F)} (hplain : Plain rs) (works : ℕ → Bool) :
    (executeAll L works (shield tool chain rs) fw = (false, fw) ∧
        ¬(chain ∉ (fw.table tool).names ∧ works 0 = true)) ∨
      ∃ b rs', chain ∉ (fw.table tool).names ∧ works 0 = true ∧
        executeAll L works (shield tool chain rs) fw =
          (b, fw.set tool (Table.hooked b ((fw.table tool).addChain chain rs') chain)) ∧
        (b = true ↔ (∀ i < rs.length + 2, works i = true) ∧ TakesAll L tool rs) ∧
        (b = true → rs' = rs) := by
  by_cases hfirst : chain ∉ (fw.table tool).names ∧ works 0 = true
  · obtain ⟨hc, hworks⟩ := hfirst
    obtain ⟨b, rs', hexec, hgood, hrs'⟩ := executeAll_append (L := L) hready hc hplain
      (fun i => works (i + 1)) []
    refine Or.inr ⟨b, rs', hc, hworks, ?_, ?_, fun hb => hrs' hb⟩
    · simp only [shield, executeAll]
      have hruns : Command.runs L (.newChain tool chain) fw = true := runs_iff.mpr ⟨hready, rfl⟩
      have hrun : Command.run (.newChain tool chain) (fw.table tool) =
          some ((fw.table tool).addChain chain []) := Table.newChain_of_not_mem hc
      rw [executeCommand_of_run hworks hruns hrun]
      exact hexec
    · rw [hgood]
      refine and_congr_left fun _ => ⟨fun h i hi => ?_, fun h i hi => h (i + 1) (by omega)⟩
      rcases i with _ | i
      · exact hworks
      · exact h i (by omega)
  · refine Or.inl ⟨?_, hfirst⟩
    have hnone : executeCommand L (works 0) (.newChain tool chain) fw = none := by
      cases hworks : works 0 with
      | false => rfl
      | true =>
        refine executeCommand_of_run_none (Table.newChain_of_mem ?_)
        by_contra hc
        exact hfirst ⟨hc, hworks⟩
    simp only [shield, executeAll, hnone]

/-- The rules whose commands work are appended, and the hook goes in if its command works. -/
theorem executeEach_append {tool : Tool} {chain : String} {fw : Rules F} {t : Table F}
    (hready : Ready fw tool) (hc : chain ∈ t.names) {rs : List (Rule F)} (hplain : Plain rs)
    (htakes : TakesAll L tool rs) (works : ℕ → Bool) (before : List (Rule F)) :
    executeEach L works (rs.map (.append tool chain) ++ [.insert tool (.jump chain)])
        (fw.set tool (t.setChain chain before)) =
      fw.set tool (Table.hooked (works rs.length)
        (t.setChain chain (before ++ kept works rs)) chain) := by
  induction rs generalizing works before with
  | nil =>
    have hrun : Command.run (.insert tool (.jump chain))
        ((fw.set tool (t.setChain chain before)).table tool) =
          some ((t.setChain chain before).hook chain) := by
      rw [table_set]
      refine (if_pos (decide_eq_true ?_)).trans rfl
      rw [Table.names_setChain]
      exact hc
    have hruns : Command.runs L (.insert tool (.jump chain))
        (fw.set tool (t.setChain chain before)) = true := runs_iff.mpr ⟨hready.set _, rfl⟩
    simp only [List.map_nil, List.nil_append, executeEach, kept, List.append_nil, List.length_nil]
    cases hworks : works 0 with
    | false => rfl
    | true =>
      rw [executeCommand_of_run rfl hruns hrun, Option.getD_some, Command.tool, set_set]
      rfl
  | cons r rs ih =>
    have hrun : Command.run (.append tool chain r)
        ((fw.set tool (t.setChain chain before)).table tool) =
          some (t.setChain chain (before ++ [r])) := by
      rw [table_set]
      have hknown : (t.setChain chain before).knows r = true :=
        knows_of_plain (hplain r List.mem_cons_self)
      simp only [Command.run, Table.appendTo, Table.lookup_setChain_self hc, if_pos hknown,
        Table.setChain_setChain]
    have hruns : Command.runs L (.append tool chain r)
        (fw.set tool (t.setChain chain before)) = true :=
      runs_iff.mpr ⟨hready.set _, htakes r List.mem_cons_self⟩
    have hrest := ih (fun r' hr' => hplain r' (List.mem_cons_of_mem r hr'))
      (fun r' hr' => htakes r' (List.mem_cons_of_mem r hr')) (fun i => works (i + 1))
    simp only [List.map_cons, List.cons_append, executeEach, kept, List.length_cons]
    -- a rule whose command fails is left out, and the loop goes on
    cases hworks : works 0 with
    | false =>
      rw [executeCommand_false, Option.getD_none, hrest]
      rfl
    | true =>
      rw [executeCommand_of_run rfl hruns hrun, Option.getD_some, Command.tool, set_set, hrest,
        List.append_assoc]
      rfl

/-- What a loop that goes on makes of a table, where the rules are appended to `t`. -/
def shielded (works : ℕ → Bool) (chain : String) (rs : List (Rule F)) (t : Table F) : Table F :=
  Table.hooked (works (rs.length + 1))
    (t.setChain chain ((t.lookup chain).getD [] ++ kept (fun i => works (i + 1)) rs)) chain

/-- **A chain is put up by a loop that goes on**: the rules whose commands work are appended
to the chain, be it new or not; where there is none and it is not made, nothing changes. -/
theorem executeEach_shield {tool : Tool} (chain : String) {fw : Rules F}
    (hnodup : (fw.table tool).names.Nodup) (hready : Ready fw tool) {rs : List (Rule F)}
    (hplain : Plain rs) (htakes : TakesAll L tool rs) (works : ℕ → Bool) :
    executeEach L works (shield tool chain rs) fw =
      if chain ∈ (fw.table tool).names then
        fw.set tool (shielded works chain rs (fw.table tool))
      else if works 0 then
        fw.set tool (shielded works chain rs ((fw.table tool).addChain chain []))
      else fw := by
  have hfirst : Command.runs L (.newChain tool chain) fw = true := runs_iff.mpr ⟨hready, rfl⟩
  simp only [shield, executeEach]
  split_ifs with hc hworks
  · -- the chain was there
    obtain ⟨before, hbefore⟩ := Table.exists_lookup hc
    have hrun : Command.run (.newChain tool chain) (fw.table tool) = none :=
      Table.newChain_of_mem hc
    have hsame : fw = fw.set tool ((fw.table tool).setChain chain before) := by
      rw [Table.setChain_self hnodup hbefore, set_table]
    rw [executeCommand_of_run_none hrun, Option.getD_none, shielded, hbefore, Option.getD_some]
    conv_lhs => rw [hsame]
    exact executeEach_append hready hc hplain htakes (fun i => works (i + 1)) before
  · -- the chain is new
    have hrun : Command.run (.newChain tool chain) (fw.table tool) =
        some ((fw.table tool).addChain chain []) := Table.newChain_of_not_mem hc
    rw [executeCommand_of_run hworks hfirst hrun, Option.getD_some, Command.tool, shielded,
      Table.lookup_addChain_self hc, Option.getD_some]
    have hrest := executeEach_append (L := L) hready
      (Table.mem_names_addChain (fw.table tool) chain []) hplain htakes (fun i => works (i + 1)) []
    rw [Table.setChain_addChain hc] at hrest
    exact hrest
  · -- there is no chain
    rw [Bool.not_eq_true] at hworks
    rw [hworks, executeCommand_false, Option.getD_none]
    refine executeEach_of_run_none fun c hmem => ?_
    rcases List.mem_append.mp hmem with hrule | hhook
    · obtain ⟨r, -, rfl⟩ := List.mem_map.mp hrule
      show Table.appendTo chain r (fw.table tool) = none
      rw [Table.appendTo, Table.lookup_eq_none hc]
    · obtain rfl := List.mem_singleton.mp hhook
      exact if_neg fun hknown => hc (of_decide_eq_true hknown)

end Steps

end Firewall

end Aegs
