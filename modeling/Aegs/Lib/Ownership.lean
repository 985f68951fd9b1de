import Mathlib.Data.List.Nodup
import Mathlib.Logic.Function.Basic

/-!
# Objects with one owner

Objects that are made, held in slots and freed. `Ownership.Owns` is what manual
memory management has to keep: a slot holds an object that has not been freed, no two
slots hold the same one, nothing has been freed twice, and what has been made is in a slot
or has been freed. Freeing the object of a slot and emptying it keeps this, and so does
putting a new object into an empty slot; freeing it and leaving the slot as it is does not,
for the slot then holds what was freed.
-/

namespace Ownership

variable {κ α : Type*}

/-- The objects `made`, those `freed`, and the object each slot holds. -/
structure Owns (made freed : List α) (slot : κ → Option α) : Prop where
  /-- Slots hold objects that were made. -/
  known : ∀ k a, slot k = some a → a ∈ made
  /-- No slot holds an object that was freed. -/
  live : ∀ k a, slot k = some a → a ∉ freed
  /-- No two slots hold the same object. -/
  unique : ∀ k k' a, slot k = some a → slot k' = some a → k = k'
  /-- Nothing is freed twice. -/
  once : freed.Nodup
  /-- Nothing is lost. -/
  held : ∀ a ∈ made, a ∈ freed ∨ ∃ k, slot k = some a

variable {made freed : List α} {slot : κ → Option α}

/-- Nothing is made yet. -/
theorem Owns.empty : Owns ([] : List α) [] fun _ : κ => none where
  known := fun _ _ h => nomatch h
  live := fun _ _ h => nomatch h
  unique := fun _ _ _ h => nomatch h
  once := List.nodup_nil
  held := fun _ h => absurd h List.not_mem_nil

/-- Another object, which is in no slot, is freed. -/
theorem Owns.free (h : Owns made freed slot) {b : α} (hmade : b ∉ made) (hfreed : b ∉ freed) :
    Owns made (b :: freed) slot where
  known := h.known
  live := by
    intro k a ha hmem
    rcases List.mem_cons.mp hmem with rfl | hmem
    · exact hmade (h.known k a ha)
    · exact h.live k a ha hmem
  unique := h.unique
  once := List.nodup_cons.mpr ⟨hfreed, h.once⟩
  held := fun a ha => (h.held a ha).imp_left (List.mem_cons_of_mem b)

section

variable [DecidableEq κ]

/-- **Release**: the object of a slot is freed and the slot emptied. -/
theorem Owns.release (h : Owns made freed slot) {k : κ} {a : α} (hslot : slot k = some a) :
    Owns made (a :: freed) (Function.update slot k none) := by
  have hslots : ∀ k' b, Function.update slot k none k' = some b → k' ≠ k ∧ slot k' = some b := by
    intro k' b hb
    by_cases hk : k' = k
    · subst hk
      rw [Function.update_self] at hb
      exact absurd hb.symm (Option.some_ne_none b)
    · rw [Function.update_of_ne hk] at hb
      exact ⟨hk, hb⟩
  constructor
  · intro k' b hb
    exact h.known k' b (hslots k' b hb).2
  · intro k' b hb hmem
    obtain ⟨hne, hb⟩ := hslots k' b hb
    rcases List.mem_cons.mp hmem with rfl | hmem
    · exact hne (h.unique k' k b hb hslot)
    · exact h.live k' b hb hmem
  · intro k₁ k₂ b h₁ h₂
    exact h.unique k₁ k₂ b (hslots k₁ b h₁).2 (hslots k₂ b h₂).2
  · exact List.nodup_cons.mpr ⟨h.live k a hslot, h.once⟩
  · intro b hb
    rcases h.held b hb with hfreed | ⟨k', hk'⟩
    · exact Or.inl (List.mem_cons_of_mem a hfreed)
    · by_cases hk : k' = k
      · subst hk
        rw [Option.some.inj (hk'.symm.trans hslot)]
        exact Or.inl List.mem_cons_self
      · refine Or.inr ⟨k', ?_⟩
        rw [Function.update_of_ne hk]
        exact hk'

/-- **A new object** goes into an empty slot. -/
theorem Owns.put (h : Owns made freed slot) {k : κ} {a : α} (hslot : slot k = none)
    (hmade : a ∉ made) (hfreed : a ∉ freed) :
    Owns (a :: made) freed (Function.update slot k (some a)) := by
  have hslots : ∀ k' b, Function.update slot k (some a) k' = some b →
      (k' = k ∧ b = a) ∨ slot k' = some b := by
    intro k' b hb
    by_cases hk : k' = k
    · subst hk
      rw [Function.update_self] at hb
      exact Or.inl ⟨rfl, (Option.some.inj hb).symm⟩
    · rw [Function.update_of_ne hk] at hb
      exact Or.inr hb
  constructor
  · intro k' b hb
    rcases hslots k' b hb with ⟨-, rfl⟩ | hb
    · exact List.mem_cons_self
    · exact List.mem_cons_of_mem a (h.known k' b hb)
  · intro k' b hb
    rcases hslots k' b hb with ⟨-, rfl⟩ | hb
    · exact hfreed
    · exact h.live k' b hb
  · intro k₁ k₂ b h₁ h₂
    rcases hslots k₁ b h₁ with ⟨hk₁, hb⟩ | hold₁
    · rcases hslots k₂ b h₂ with ⟨hk₂, -⟩ | hold₂
      · exact hk₁.trans hk₂.symm
      · exact absurd (h.known k₂ a (hb ▸ hold₂)) hmade
    · rcases hslots k₂ b h₂ with ⟨-, hb⟩ | hold₂
      · exact absurd (h.known k₁ a (hb ▸ hold₁)) hmade
      · exact h.unique k₁ k₂ b hold₁ hold₂
  · exact h.once
  · intro b hb
    rcases List.mem_cons.mp hb with rfl | hb
    · exact Or.inr ⟨k, Function.update_self k (some b) slot⟩
    · rcases h.held b hb with hfreed | ⟨k', hk'⟩
      · exact Or.inl hfreed
      · have hk : k' ≠ k := by
          rintro rfl
          exact Option.some_ne_none b (hk'.symm.trans hslot)
        refine Or.inr ⟨k', ?_⟩
        rw [Function.update_of_ne hk]
        exact hk'

end

/-- **The end**: the objects of all slots are freed, in any order. -/
theorem Owns.releaseAll (h : Owns made freed slot) {rest : List α} (hnodup : rest.Nodup)
    (hrest : ∀ a, a ∈ rest ↔ ∃ k, slot k = some a) :
    Owns made (rest ++ freed) fun _ : κ => none where
  known := fun _ _ h => nomatch h
  live := fun _ _ h => nomatch h
  unique := fun _ _ _ h => nomatch h
  once := by
    refine List.nodup_append.mpr ⟨hnodup, h.once, ?_⟩
    rintro a ha b hb rfl
    obtain ⟨k, hk⟩ := (hrest a).mp ha
    exact h.live k a hk hb
  held := by
    intro a ha
    rcases h.held a ha with hfreed | hslot
    · exact Or.inl (List.mem_append_right _ hfreed)
    · exact Or.inl (List.mem_append_left _ ((hrest a).mpr hslot))

/-- Where no slot holds anything, everything made has been freed exactly once. -/
theorem Owns.count_eq_one [DecidableEq α] (h : Owns made freed fun _ : κ => none) {a : α}
    (ha : a ∈ made) : freed.count a = 1 := by
  rcases h.held a ha with hfreed | ⟨k, hk⟩
  · exact List.count_eq_one_of_mem h.once hfreed
  · exact absurd hk.symm (Option.some_ne_none a)

end Ownership
