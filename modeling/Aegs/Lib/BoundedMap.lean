import Mathlib.Data.List.AList

/-!
# Finite maps that are kept small

How many keys an association list has behind an insertion, an erasure and a purge, and the
guard under which an insertion keeps a bound: there is room, or the key is there already.
The second half counts only the entries with a property.
-/

namespace BoundedMap

variable {α : Type*} {β : α → Type*} [DecidableEq α] {m : AList β} {a : α}

theorem length_insert (b : β a) (ha : a ∉ m) :
    (m.insert a b).keys.length = m.keys.length + 1 := by
  rw [AList.keys_insert, List.length_cons, List.erase_of_not_mem ha]

theorem length_insert_of_mem (b : β a) (ha : a ∈ m) :
    (m.insert a b).keys.length = m.keys.length := by
  have hpos : 0 < m.keys.length := List.length_pos_of_mem ha
  rw [AList.keys_insert, List.length_cons, List.length_erase_of_mem ha]
  omega

theorem length_erase (ha : a ∈ m) : (m.erase a).keys.length = m.keys.length - 1 := by
  rw [AList.keys_erase, List.length_erase_of_mem ha]

theorem length_erase_le (m : AList β) (a : α) : (m.erase a).keys.length ≤ m.keys.length := by
  rw [AList.keys_erase]
  exact List.length_erase_le

/-- **A guarded insertion keeps the bound.** -/
theorem length_insert_le {capacity : ℕ} (b : β a) (hguard : m.keys.length < capacity ∨ a ∈ m)
    (hle : m.keys.length ≤ capacity) : (m.insert a b).keys.length ≤ capacity := by
  by_cases ha : a ∈ m
  · rwa [length_insert_of_mem b ha]
  · rw [length_insert b ha]
    exact hguard.resolve_right ha

/-- What is found behind an insertion is what was put in, or was there under another key. -/
theorem lookup_insert_cases {γ : Type*} {m : AList fun _ : α => γ} {a : α} {b : γ} (a' : α) (b' : γ)
    (h : (m.insert a b).lookup a' = some b') :
    a' = a ∧ b' = b ∨ a' ≠ a ∧ m.lookup a' = some b' := by
  by_cases heq : a' = a
  · subst heq
    rw [AList.lookup_insert] at h
    exact .inl ⟨rfl, (Option.some.inj h).symm⟩
  · rw [AList.lookup_insert_ne heq] at h
    exact .inr ⟨heq, h⟩

/-- The loop over a map that erases some of its entries. -/
def purge (m : AList β) (gone : (a : α) → β a → Bool) : AList β :=
  ⟨m.entries.filter fun e => !gone e.1 e.2, m.nodupKeys.sublist List.filter_sublist⟩

omit [DecidableEq α] in
theorem length_purge_le (m : AList β) (gone : (a : α) → β a → Bool) :
    (purge m gone).keys.length ≤ m.keys.length :=
  ((List.filter_sublist (l := m.entries)).map Sigma.fst).length_le

/-- **What a purge leaves** was there, and is not one of those erased. -/
theorem lookup_purge {gone : (a : α) → β a → Bool} {b : β a}
    (h : (purge m gone).lookup a = some b) : m.lookup a = some b ∧ gone a b = false := by
  have hmem : (⟨a, b⟩ : Sigma β) ∈ m.entries.filter fun e => !gone e.1 e.2 :=
    AList.mem_lookup_iff.mp h
  rw [List.mem_filter, Bool.not_eq_true'] at hmem
  exact ⟨AList.mem_lookup_iff.mpr hmem.1, hmem.2⟩

/-- What a purge does not erase stays. -/
theorem lookup_purge_of_lookup {gone : (a : α) → β a → Bool} {b : β a}
    (h : m.lookup a = some b) (hkept : gone a b = false) : (purge m gone).lookup a = some b := by
  have hmem : (⟨a, b⟩ : Sigma β) ∈ m.entries.filter fun e => !gone e.1 e.2 := by
    rw [List.mem_filter, Bool.not_eq_true']
    exact ⟨AList.mem_lookup_iff.mp h, hkept⟩
  exact AList.mem_lookup_iff.mpr hmem

/-! ### Entries with a property -/

/-- How many entries have a property. -/
def countP (m : AList β) (p : (a : α) → β a → Bool) : ℕ := m.entries.countP fun e => p e.1 e.2

omit [DecidableEq α] in
theorem countP_le (m : AList β) (p : (a : α) → β a → Bool) : countP m p ≤ m.keys.length := by
  rw [countP, AList.keys, List.keys, List.length_map]
  exact List.countP_le_length

/-- The entry put in counts, and the others. -/
theorem countP_insert (m : AList β) (a : α) (b : β a) (p : (a : α) → β a → Bool) :
    countP (m.insert a b) p = countP (m.erase a) p + if p a b then 1 else 0 := by
  rw [countP, AList.entries_insert, List.countP_cons]
  rfl

/-- Without the key nothing is taken out. -/
theorem countP_erase_of_notMem (ha : a ∉ m) (p : (a : α) → β a → Bool) :
    countP (m.erase a) p = countP m p :=
  congrArg (List.countP _) (List.kerase_of_notMem_keys ha)

omit [DecidableEq α] in
/-- A purge leaves none of those it erases. -/
theorem countP_purge (m : AList β) (p : (a : α) → β a → Bool) : countP (purge m p) p = 0 := by
  rw [countP, List.countP_eq_zero]
  intro e he
  have hmem : e ∈ m.entries.filter fun e => !p e.1 e.2 := he
  rw [List.mem_filter, Bool.not_eq_true'] at hmem
  rw [hmem.2]
  exact Bool.false_ne_true

/-- **Two maps count alike** where they have the property under the same keys. -/
theorem countP_eq_of_lookup {γ : α → Type*} {m : AList β} {m' : AList γ}
    {p : (a : α) → β a → Bool} {p' : (a : α) → γ a → Bool}
    (h : ∀ a, (∃ b, m.lookup a = some b ∧ p a b = true) ↔
      ∃ c, m'.lookup a = some c ∧ p' a c = true) : countP m p = countP m' p' := by
  have hcount : (((m.entries.filter fun e => p e.1 e.2).map Sigma.fst).length =
      ((m'.entries.filter fun e => p' e.1 e.2).map Sigma.fst).length) := by
    refine List.Perm.length_eq ((List.perm_ext_iff_of_nodup ?_ ?_).mpr fun a => ?_)
    · exact m.nodupKeys.sublist List.filter_sublist
    · exact m'.nodupKeys.sublist List.filter_sublist
    · simpa only [List.mem_map, List.mem_filter, Sigma.exists, exists_and_right, exists_eq_right,
        ← AList.mem_lookup_iff, Option.mem_def] using h a
  rw [countP, countP, List.countP_eq_length_filter, List.countP_eq_length_filter]
  simpa only [List.length_map] using hcount

end BoundedMap
