import Mathlib.Data.Int.Notation
import Mathlib.Data.List.TakeWhile
import Aegs.Lib.CommandLine

/-!
# Commands without a shell

`safe_exec` cuts a command line into words itself and starts the program of that name, so that
no shell reads the line. What its callers put into a line is still cut with it, and the program
sees each word up to its first NUL: a parameter arrives exactly if it is plain, has no NUL and is
not one of the redirections (`Aegs.Firewall.argv_intercalate_iff`).
-/

namespace Aegs

namespace Firewall

/-- `std::isspace`, in the C locale. -/
def isspace (c : Char) : Bool := c.toNat = 0x20 || (9 ≤ c.toNat && c.toNat ≤ 13)

/-- Both quote characters are treated alike. -/
def shell : CommandLine.Syntax Char where
  quote c := c.toNat = 0x22 || c.toNat = 0x27
  blank := isspace

/-- The words that set `suppress_output`. -/
def redirects : List String := [">/dev/null", "2>&1", "2>/dev/null", "1>/dev/null"]

/-- `tokens`, and `suppress_output`. -/
def tokenize (cmdStr : String) : List String × Bool :=
  let words := (shell.words cmdStr.toList).map String.ofList
  (words.filter fun w => decide (w ∉ redirects), words.any fun w => decide (w ∈ redirects))

/-- `c_str()`, as `execvp` reads it: what stands before the first NUL. -/
def cStr (w : String) : String := String.ofList (w.toList.takeWhile fun c => c.toNat != 0)

/-- `argv`, as the program gets it. -/
def argv (cmdStr : String) : List String := (tokenize cmdStr).1.map cStr

/-- **`safe_exec`**, given what the programs do. -/
def safeExec {M : Type} (run : List String → M → ℤ × M) (cmdStr : String) (m : M) : ℤ × M :=
  match argv cmdStr with
  | [] => (0, m)
  | tokens => run tokens m

/-- A word that is handed to the program as it is. -/
def Word (w : String) : Prop :=
  (w.toList ≠ [] ∧
    ∀ c ∈ w.toList, shell.quote c = false ∧ shell.blank c = false ∧ c.toNat ≠ 0) ∧ w ∉ redirects

instance (w : String) : Decidable (Word w) :=
  -- over the list: there are too many characters
  haveI : Decidable (∀ c ∈ w.toList,
      shell.quote c = false ∧ shell.blank c = false ∧ c.toNat ≠ 0) :=
    List.decidableBAll _ _
  inferInstanceAs (Decidable ((w.toList ≠ [] ∧
    ∀ c ∈ w.toList, shell.quote c = false ∧ shell.blank c = false ∧ c.toNat ≠ 0) ∧
      w ∉ redirects))

theorem Word.plain {w : String} (h : Word w) : shell.Plain w.toList :=
  ⟨h.1.1, fun c hc => (h.1.2 c hc).1, fun c hc => (h.1.2 c hc).2.1⟩

theorem Word.nul {w : String} (h : Word w) : ∀ c ∈ w.toList, c.toNat ≠ 0 :=
  fun c hc => (h.1.2 c hc).2.2

theorem word_iff {w : String} :
    Word w ↔ shell.Plain w.toList ∧ (∀ c ∈ w.toList, c.toNat ≠ 0) ∧ w ∉ redirects :=
  ⟨fun h => ⟨h.plain, h.nul, h.2⟩,
    fun h => ⟨⟨h.1.ne_nil, fun c hc => ⟨h.1.quote c hc, h.1.blank c hc, h.2.1 c hc⟩⟩, h.2.2⟩⟩

/-- A word without NUL is not cut. -/
theorem cStr_eq {w : String} (h : ∀ c ∈ w.toList, c.toNat ≠ 0) : cStr w = w := by
  have hall : w.toList.takeWhile (fun c => c.toNat != 0) = w.toList :=
    List.takeWhile_eq_self_iff.mpr fun c hc => bne_iff_ne.mpr (h c hc)
  rw [cStr, hall, String.ofList_toList]

/-- What is cut off has no part in the word. -/
theorem of_mem_cStr {w : String} {c : Char} (hc : c ∈ (cStr w).toList) :
    c ∈ w.toList ∧ c.toNat ≠ 0 := by
  rw [cStr, String.toList_ofList] at hc
  have hnul : (c.toNat != 0) = true :=
    List.mem_takeWhile_imp (p := fun c : Char => c.toNat != 0) hc
  exact ⟨(List.takeWhile_sublist _).subset hc, bne_iff_ne.mp hnul⟩

theorem plain_of_mem_redirects : ∀ w ∈ redirects, shell.Plain w.toList := by
  have hall : ∀ w ∈ redirects, w.toList ≠ [] ∧
      w.toList.all (fun c => !shell.quote c && !shell.blank c) = true := by decide
  intro w hw
  have hchar : ∀ c ∈ w.toList, shell.quote c = false ∧ shell.blank c = false := by
    intro c hc
    have h := List.all_eq_true.mp (hall w hw).2 c hc
    rwa [Bool.and_eq_true, Bool.not_eq_true', Bool.not_eq_true'] at h
  exact ⟨(hall w hw).1, fun c hc => (hchar c hc).1, fun c hc => (hchar c hc).2⟩

theorem nul_of_mem_redirects : ∀ w ∈ redirects, ∀ c ∈ w.toList, c.toNat ≠ 0 := by
  have hall : ∀ w ∈ redirects, w.toList.all (fun c => c.toNat != 0) = true := by decide
  exact fun w hw c hc => bne_iff_ne.mp (List.all_eq_true.mp (hall w hw) c hc)

theorem toList_line (ws : List String) :
    (" ".intercalate ws).toList = [' '].intercalate (ws.map String.toList) := by
  have hblank : " ".toList = [' '] := rfl
  rw [String.toList_intercalate, hblank]

/-- Words arrive, and redirections behind them do not. -/
theorem tokenize_intercalate {ws rs : List String} (hrs : ∀ w ∈ rs, w ∈ redirects)
    (hws : ∀ w ∈ ws, Word w) : (tokenize (" ".intercalate (ws ++ rs))).1 = ws := by
  have hredirect : rs.filter (fun w => decide (w ∉ redirects)) = [] :=
    List.filter_eq_nil_iff.mpr fun w hw hnot => of_decide_eq_true hnot (hrs w hw)
  have hback : ∀ us : List String, (us.map String.toList).map String.ofList = us := by
    intro us
    rw [List.map_map]
    conv_rhs => rw [← List.map_id us]
    exact List.map_congr_left fun w _ => String.ofList_toList
  have hplain : ∀ w ∈ (ws ++ rs).map String.toList, shell.Plain w := by
    intro v hv
    obtain ⟨v, hmem, rfl⟩ := List.mem_map.mp hv
    rcases List.mem_append.mp hmem with hv | hv
    · exact (hws v hv).plain
    · exact plain_of_mem_redirects v (hrs v hv)
  have hkeep : ws.filter (fun w => decide (w ∉ redirects)) = ws :=
    List.filter_eq_self.mpr fun w hw => decide_eq_true (hws w hw).2
  rw [tokenize, toList_line, CommandLine.Syntax.words_intercalate (by decide) (by decide) hplain,
    hback, List.filter_append, hredirect, hkeep, List.append_nil]

/-- Words arrive as they are. -/
theorem argv_intercalate {ws rs : List String} (hrs : ∀ w ∈ rs, w ∈ redirects)
    (hws : ∀ w ∈ ws, Word w) : argv (" ".intercalate (ws ++ rs)) = ws := by
  rw [argv, tokenize_intercalate hrs hws]
  conv_rhs => rw [← List.map_id ws]
  exact List.map_congr_left fun w hw => cStr_eq (hws w hw).nul

/-- **What is between the blanks arrives** exactly if it is made of words; redirections behind
it do not. -/
theorem argv_intercalate_iff {ws rs : List String} (hrs : ∀ w ∈ rs, w ∈ redirects) :
    argv (" ".intercalate (ws ++ rs)) = ws ↔ ∀ w ∈ ws, Word w := by
  constructor
  · intro h w hw
    -- nothing that arrives has a quote character or a NUL, so the line has none
    have harrives : ∀ v ∈ ws, ∃ u, u.toList ∈ shell.words (" ".intercalate (ws ++ rs)).toList ∧
        cStr u = v ∧ u ∉ redirects := by
      intro v hv
      rw [← h, argv, tokenize] at hv
      obtain ⟨u, hu, rfl⟩ := List.mem_map.mp hv
      obtain ⟨hu, hnot⟩ := List.mem_filter.mp hu
      obtain ⟨u, hu, rfl⟩ := List.mem_map.mp hu
      exact ⟨_, by rwa [String.toList_ofList], rfl, of_decide_eq_true hnot⟩
    have hline : ∀ c ∈ (" ".intercalate (ws ++ rs)).toList,
        shell.quote c = false ∧ c.toNat ≠ 0 := by
      rw [toList_line]
      refine CommandLine.Syntax.forall_intercalate ⟨by decide, by decide⟩ ?_
      intro v hv c hc
      obtain ⟨v, hmem, rfl⟩ := List.mem_map.mp hv
      rcases List.mem_append.mp hmem with hv | hv
      · obtain ⟨u, hu, rfl, -⟩ := harrives v hv
        obtain ⟨hc, hnul⟩ := of_mem_cStr hc
        exact ⟨(CommandLine.Syntax.of_mem_words hu).2 c hc, hnul⟩
      · exact ⟨(plain_of_mem_redirects v (hrs v hv)).quote c hc,
          nul_of_mem_redirects v (hrs v hv) c hc⟩
    obtain ⟨u, hu, rfl, hnot⟩ := harrives w hw
    have hnul : ∀ c ∈ u.toList, c.toNat ≠ 0 :=
      CommandLine.Syntax.forall_of_mem_words (fun c hc => (hline c hc).2) hu
    have hplain : shell.Plain u.toList :=
      CommandLine.Syntax.plain_of_mem_words (fun c hc => (hline c hc).1) hu
    rw [cStr_eq hnul]
    exact word_iff.mpr ⟨hplain, hnul, hnot⟩
  · exact argv_intercalate hrs

/-- A parameter with a command in it. -/
theorem argv_intercalate_iff_command :
    argv (" ".intercalate (["ip", "link", "set", "dev", "aegs0; reboot"] ++ ["2>/dev/null"])) ≠
      ["ip", "link", "set", "dev", "aegs0; reboot"] := by
  intro h
  have hword := (argv_intercalate_iff (by decide)).mp h "aegs0; reboot" (by decide)
  exact absurd hword (by decide)

/-- A line with a parameter, from what stands before and behind it. -/
theorem eq_intercalate_one (l₁ x l₂ : String) {a b : List String} (ha : a ≠ []) (hb : b ≠ [])
    (h₁ : l₁ = " ".intercalate a ++ " ") (h₂ : l₂ = " " ++ " ".intercalate b) :
    l₁ ++ x ++ l₂ = " ".intercalate (a ++ x :: b) := by
  rw [String.intercalate_append_of_ne_nil ha (List.cons_ne_nil x b),
    String.intercalate_cons_of_ne_nil hb, h₁, h₂]
  simp only [String.append_assoc]

/-- A line with two. -/
theorem eq_intercalate_two (l₁ x l₂ y l₃ : String) {a b c : List String} (ha : a ≠ [])
    (hb : b ≠ []) (hc : c ≠ []) (h₁ : l₁ = " ".intercalate a ++ " ")
    (h₂ : l₂ = " " ++ " ".intercalate b ++ " ") (h₃ : l₃ = " " ++ " ".intercalate c) :
    l₁ ++ x ++ l₂ ++ y ++ l₃ = " ".intercalate (a ++ x :: (b ++ y :: c)) := by
  rw [String.intercalate_append_of_ne_nil ha (List.cons_ne_nil x _),
    String.intercalate_cons_of_ne_nil (List.append_ne_nil_of_left_ne_nil hb _),
    String.intercalate_append_of_ne_nil hb (List.cons_ne_nil y c),
    String.intercalate_cons_of_ne_nil hc, h₁, h₂, h₃]
  simp only [String.append_assoc]

/-- What is put in front of a line with two parameters. -/
theorem append_two (p l₁ x l₂ y l₃ : String) :
    p ++ (l₁ ++ x ++ l₂ ++ y ++ l₃) = p ++ l₁ ++ x ++ l₂ ++ y ++ l₃ := by
  simp only [String.append_assoc]

/-- What is put in front of a line with one, and behind it. -/
theorem append_one (p l₁ x l₂ q : String) :
    p ++ (l₁ ++ x ++ l₂) ++ q = p ++ l₁ ++ x ++ (l₂ ++ q) := by
  simp only [String.append_assoc]

theorem append_one_left (p l₁ x l₂ : String) : p ++ (l₁ ++ x ++ l₂) = p ++ l₁ ++ x ++ l₂ := by
  simp only [String.append_assoc]

/-- The program is started with the words of the line. -/
theorem safeExec_eq {M : Type} (run : List String → M → ℤ × M) {ws : List String}
    (rs : List String) (hne : ws ≠ []) (hws : ∀ w ∈ ws, Word w)
    (hrs : ∀ w ∈ rs, w ∈ redirects) {cmdStr : String}
    (hcmd : cmdStr = " ".intercalate (ws ++ rs)) (m : M) :
    safeExec run cmdStr m = run ws m := by
  have hwords : argv cmdStr = ws := hcmd ▸ argv_intercalate hrs hws
  rw [safeExec, hwords]
  cases ws with
  | nil => exact absurd rfl hne
  | cons w ws => rfl

end Firewall

end Aegs
