import Mathlib.Data.List.Basic

/-!
# Command lines

A command line is cut into words at its blanks. A quote character is dropped; blanks between two
of them do not separate (`CommandLine.words`). No word is empty or has a quote character, and if
the line has none either, no word has a blank (`CommandLine.Syntax.plain_of_mem_words`).

So a program that joins words by blanks and has the line cut again gets them back if each of
them is plain (`CommandLine.Syntax.words_intercalate`), which is what a check of its parameters
is for.
-/

namespace CommandLine

variable {α : Type}

/-- Which characters quote and which separate. -/
structure Syntax (α : Type) where
  /-- Quote characters. -/
  quote : α → Bool
  /-- Blanks. -/
  blank : α → Bool

/-- Somewhere in a line. -/
structure Scan (α : Type) where
  /-- The words so far. -/
  words : List (List α)
  /-- The word that has begun. -/
  current : List α
  /-- An odd number of quote characters so far. -/
  quoted : Bool

/-- The words, with the one that has begun. -/
def Scan.finish (s : Scan α) : List (List α) :=
  if s.current.isEmpty then s.words else s.words ++ [s.current]

/-- Words in front of the others. -/
def Scan.after (ws : List (List α)) (s : Scan α) : Scan α := { s with words := ws ++ s.words }

theorem Scan.finish_after (ws : List (List α)) (s : Scan α) :
    (s.after ws).finish = ws ++ s.finish := by
  rw [finish, finish]
  show (if s.current.isEmpty then ws ++ s.words else ws ++ s.words ++ [s.current]) = _
  split
  · rfl
  · rw [List.append_assoc]

namespace Syntax

variable (S : Syntax α)

/-- The next character. -/
def step (s : Scan α) (c : α) : Scan α :=
  if S.quote c then { s with quoted := !s.quoted }
  else if S.blank c && !s.quoted then ⟨s.finish, [], s.quoted⟩
  else { s with current := s.current ++ [c] }

/-- From the beginning of a line to the end of some text. -/
def scan (text : List α) : Scan α := text.foldl S.step ⟨[], [], false⟩

/-- **The words of a line.** -/
def words (text : List α) : List (List α) := (S.scan text).finish

/-- A word that means itself. -/
structure Plain (w : List α) : Prop where
  /-- It is not empty. -/
  ne_nil : w ≠ []
  /-- It has no quote character. -/
  quote : ∀ c ∈ w, S.quote c = false
  /-- It has no blank. -/
  blank : ∀ c ∈ w, S.blank c = false

variable {S}

/-! ### What a word is -/

/-- All characters of the words are of a kind. -/
structure Holds (p : α → Prop) (s : Scan α) : Prop where
  /-- Those of the words so far. -/
  words : ∀ w ∈ s.words, ∀ c ∈ w, p c
  /-- Those of the word that has begun. -/
  current : ∀ c ∈ s.current, p c

theorem Holds.finish {p : α → Prop} {s : Scan α} (h : Holds p s) :
    ∀ w ∈ s.finish, ∀ c ∈ w, p c := by
  intro w hw
  rw [Scan.finish] at hw
  split at hw
  · exact h.words w hw
  · rcases List.mem_append.mp hw with hw | hw
    · exact h.words w hw
    · obtain rfl := List.mem_singleton.mp hw
      exact h.current

/-- A character that is taken into a word has to be of the kind. -/
theorem Holds.step {p : α → Prop} {s : Scan α} (h : Holds p s) {c : α}
    (hc : S.quote c = false → (S.blank c && !s.quoted) = false → p c) :
    Holds p (S.step s c) := by
  unfold Syntax.step
  split
  · exact ⟨h.words, h.current⟩
  · rename_i hquote
    split
    · exact ⟨h.finish, fun _ hd => absurd hd List.not_mem_nil⟩
    · rename_i hblank
      refine ⟨h.words, fun d hd => ?_⟩
      rcases List.mem_append.mp hd with hd | hd
      · exact h.current d hd
      · rw [List.mem_singleton.mp hd]
        exact hc (Bool.eq_false_iff.mpr hquote) (Bool.eq_false_iff.mpr hblank)

theorem holds_nil (p : α → Prop) : Holds p (⟨[], [], false⟩ : Scan α) := by
  constructor
  · rintro w ⟨⟩
  · rintro c ⟨⟩

theorem ne_nil_finish {s : Scan α} (h : ∀ w ∈ s.words, w ≠ []) : ∀ w ∈ s.finish, w ≠ [] := by
  intro w hw
  rw [Scan.finish] at hw
  split at hw
  · exact h w hw
  · rename_i hcurrent
    rcases List.mem_append.mp hw with hw | hw
    · exact h w hw
    · obtain rfl := List.mem_singleton.mp hw
      exact fun hnil => hcurrent (List.isEmpty_iff.mpr hnil)

theorem ne_nil_foldl (text : List α) {s : Scan α} (h : ∀ w ∈ s.words, w ≠ []) :
    ∀ w ∈ (text.foldl S.step s).words, w ≠ [] := by
  induction text generalizing s with
  | nil => exact h
  | cons c text ih =>
    refine ih ?_
    unfold step
    split
    · exact h
    · split
      · exact ne_nil_finish h
      · exact h

theorem quote_foldl (text : List α) {s : Scan α} (h : Holds (fun c => S.quote c = false) s) :
    Holds (fun c => S.quote c = false) (text.foldl S.step s) := by
  induction text generalizing s with
  | nil => exact h
  | cons c text ih => exact ih (h.step fun hquote _ => hquote)

theorem holds_foldl {p : α → Prop} {text : List α} (htext : ∀ c ∈ text, p c) {s : Scan α}
    (h : Holds p s) : Holds p (text.foldl S.step s) := by
  induction text generalizing s with
  | nil => exact h
  | cons c text ih =>
    exact ih (fun d hd => htext d (List.mem_cons_of_mem c hd))
      (h.step fun _ _ => htext c List.mem_cons_self)

/-- The words have no characters but those of the line. -/
theorem forall_of_mem_words {p : α → Prop} {text : List α} (htext : ∀ c ∈ text, p c)
    {w : List α} (hw : w ∈ S.words text) : ∀ c ∈ w, p c :=
  (holds_foldl htext (holds_nil p)).finish w hw

/-- **No word is empty, and none has a quote character.** -/
theorem of_mem_words {text : List α} {w : List α} (hw : w ∈ S.words text) :
    w ≠ [] ∧ ∀ c ∈ w, S.quote c = false := by
  refine ⟨ne_nil_finish (ne_nil_foldl text ?_) w hw,
    (quote_foldl text (holds_nil _)).finish w hw⟩
  rintro w ⟨⟩

/-- Without quote characters nothing is quoted, and no blank gets into a word. -/
theorem blank_foldl {text : List α} (htext : ∀ c ∈ text, S.quote c = false) {s : Scan α}
    (hquoted : s.quoted = false) (h : Holds (fun c => S.blank c = false) s) :
    Holds (fun c => S.blank c = false) (text.foldl S.step s) := by
  induction text generalizing s with
  | nil => exact h
  | cons c text ih =>
    refine ih (fun d hd => htext d (List.mem_cons_of_mem c hd)) ?_ (h.step fun _ hblank => ?_)
    · rw [step, htext c List.mem_cons_self, if_neg Bool.false_ne_true]
      split
      · exact hquoted
      · exact hquoted
    · rwa [hquoted, Bool.not_false, Bool.and_true] at hblank

/-- **The words of a line without quote characters are plain.** -/
theorem plain_of_mem_words {text : List α} (htext : ∀ c ∈ text, S.quote c = false)
    {w : List α} (hw : w ∈ S.words text) : S.Plain w :=
  ⟨(of_mem_words hw).1, (of_mem_words hw).2,
    (blank_foldl htext rfl (holds_nil _)).finish w hw⟩

/-! ### Joining words -/

/-- Words that are there already stay in front. -/
theorem foldl_after (ws : List (List α)) (text : List α) (s : Scan α) :
    text.foldl S.step (s.after ws) = (text.foldl S.step s).after ws := by
  induction text generalizing s with
  | nil => rfl
  | cons c text ih =>
    have hstep : S.step (s.after ws) c = (S.step s c).after ws := by
      rw [step, step]
      split
      · rfl
      · show (if S.blank c && !s.quoted then _ else _) = _
        split
        · rw [Scan.finish_after]
          rfl
        · rfl
    rw [List.foldl_cons, List.foldl_cons, hstep, ih]

/-- A plain text is taken as it is. -/
theorem foldl_plain {w : List α} (hquote : ∀ c ∈ w, S.quote c = false)
    (hblank : ∀ c ∈ w, S.blank c = false) (s : Scan α) :
    w.foldl S.step s = { s with current := s.current ++ w } := by
  induction w generalizing s with
  | nil => rw [List.append_nil]; rfl
  | cons c w ih =>
    have hc : S.step s c = { s with current := s.current ++ [c] } := by
      rw [step, hquote c List.mem_cons_self, hblank c List.mem_cons_self, Bool.false_and,
        if_neg Bool.false_ne_true, if_neg Bool.false_ne_true]
    rw [List.foldl_cons, hc, ih (fun d hd => hquote d (List.mem_cons_of_mem c hd))
      (fun d hd => hblank d (List.mem_cons_of_mem c hd))]
    simp only [List.append_assoc, List.singleton_append]

/-- A plain word, and nothing else. -/
theorem words_plain {w : List α} (hw : S.Plain w) : S.words w = [w] := by
  rw [words, scan, foldl_plain hw.quote hw.blank, List.nil_append, Scan.finish,
    if_neg fun h => hw.ne_nil (List.isEmpty_iff.mp h)]
  rfl

/-- **A plain word at the front of a line.** -/
theorem words_plain_append {w : List α} (hw : S.Plain w) {b : α} (hquote : S.quote b = false)
    (hblank : S.blank b = true) (text : List α) :
    S.words (w ++ b :: text) = w :: S.words text := by
  have hend : S.step ⟨[], w, false⟩ b = (⟨[], [], false⟩ : Scan α).after [w] := by
    rw [step, hquote, hblank, if_neg Bool.false_ne_true, Bool.not_false, Bool.and_true,
      if_pos rfl, Scan.finish, if_neg fun h => hw.ne_nil (List.isEmpty_iff.mp h)]
    rfl
  rw [words, scan, List.foldl_append, foldl_plain hw.quote hw.blank, List.nil_append,
    List.foldl_cons, hend, foldl_after, Scan.finish_after]
  rfl

theorem words_intercalate {b : α} (hquote : S.quote b = false) (hblank : S.blank b = true)
    {ws : List (List α)} (hws : ∀ w ∈ ws, S.Plain w) : S.words ([b].intercalate ws) = ws := by
  induction ws with
  | nil => rfl
  | cons w ws ih =>
    have hw := hws w List.mem_cons_self
    cases ws with
    | nil => rw [List.intercalate_singleton, words_plain hw]
    | cons v ws =>
      rw [List.intercalate_cons_cons, List.append_assoc, List.singleton_append,
        words_plain_append hw hquote hblank, ih fun w' hw' => hws w' (List.mem_cons_of_mem w hw')]

/-- A line has the characters of its words, and blanks. -/
theorem mem_intercalate {b : α} {ws : List (List α)} {c : α} (hc : c ∈ [b].intercalate ws) :
    c = b ∨ ∃ w ∈ ws, c ∈ w := by
  induction ws with
  | nil => exact absurd hc List.not_mem_nil
  | cons w ws ih =>
    cases ws with
    | nil =>
      rw [List.intercalate_singleton] at hc
      exact Or.inr ⟨w, List.mem_cons_self, hc⟩
    | cons v ws =>
      rw [List.intercalate_cons_cons, List.append_assoc, List.singleton_append] at hc
      rcases List.mem_append.mp hc with hc | hc
      · exact Or.inr ⟨w, List.mem_cons_self, hc⟩
      · rcases List.mem_cons.mp hc with rfl | hc
        · exact Or.inl rfl
        · obtain rfl | ⟨w', hw', hc⟩ := ih hc
          · exact Or.inl rfl
          · exact Or.inr ⟨w', List.mem_cons_of_mem w hw', hc⟩

/-- What holds of the blank and of the characters of the words holds of those of the line. -/
theorem forall_intercalate {p : α → Prop} {b : α} (hb : p b) {ws : List (List α)}
    (hws : ∀ w ∈ ws, ∀ c ∈ w, p c) : ∀ c ∈ [b].intercalate ws, p c := by
  intro c hc
  rcases mem_intercalate hc with rfl | ⟨w, hw, hc⟩
  · exact hb
  · exact hws w hw c hc

end Syntax

end CommandLine
