import Mathlib.Logic.Basic

/-!
# Leases

Who holds which item of a stock, in three places at once: with the holder, in the
stock's list of granted items, and in a directory from items to holders
(`Lease.Book`). A book is sound when the three agree on everything that is held
(`Lease.Book.Sound`); then no item has two holders.

Soundness is kept by granting an item that is not granted yet and by dropping what a
holder has. Entering an item for a holder without granting it is not among the moves,
and this is where a program that keeps such a book goes wrong.
-/

namespace Lease

/-- Holders `H` and items `I`. -/
@[ext] structure Book (H I : Type*) where
  /-- The holder has the item. -/
  held : H → I → Prop
  /-- The item is out of the stock. -/
  granted : I → Prop
  /-- The directory has this holder for the item. -/
  owner : I → H → Prop

variable {H I : Type*}

namespace Book

/-- **The three places agree**: what is held is granted, and the directory has its
holder and nobody else. -/
structure Sound (b : Book H I) : Prop where
  /-- What is held is granted. -/
  granted : ∀ h i, b.held h i → b.granted i
  /-- The directory has the holder. -/
  owner : ∀ h i, b.held h i → ∀ h', b.owner i h' ↔ h' = h

/-- An item has at most one holder. -/
theorem Sound.eq_of_held {b : Book H I} (hb : b.Sound) {h h' : H} {i : I} (hi : b.held h i)
    (hi' : b.held h' i) : h = h' :=
  (hb.owner h' i hi' h).mp ((hb.owner h i hi h).mpr rfl)

/-- The item goes to the holder. -/
def grant (b : Book H I) (h : H) (i : I) : Book H I where
  held h' j := (h' = h ∧ j = i) ∨ (h' ≠ h ∧ b.held h' j)
  granted j := j = i ∨ b.granted j
  owner j h' := (j = i ∧ h' = h) ∨ (j ≠ i ∧ b.owner j h')

/-- What the holder has goes back to the stock. -/
def drop (b : Book H I) (h : H) : Book H I where
  held h' j := h' ≠ h ∧ b.held h' j
  granted j := b.granted j ∧ ¬b.held h j
  owner j h' := b.owner j h' ∧ ¬b.held h j

/-- **Granting** keeps a book sound if the item was not granted. -/
theorem Sound.grant {b : Book H I} (hb : b.Sound) (h : H) {i : I} (hi : ¬b.granted i) :
    (b.grant h i).Sound := by
  constructor
  · rintro h' j (⟨-, rfl⟩ | ⟨-, hj⟩)
    · exact Or.inl rfl
    · exact Or.inr (hb.granted h' j hj)
  · rintro h' j (⟨rfl, rfl⟩ | ⟨hne, hj⟩) h''
    · simp [Book.grant]
    · have hij : j ≠ i := by
        rintro rfl
        exact hi (hb.granted h' j hj)
      simp only [Book.grant, hij, false_and, false_or, ne_eq, not_false_eq_true, true_and]
      exact hb.owner h' j hj h''

/-- **Dropping** keeps a book sound. -/
theorem Sound.drop {b : Book H I} (hb : b.Sound) (h : H) : (b.drop h).Sound := by
  have hothers : ∀ h' j, h' ≠ h → b.held h' j → ¬b.held h j := fun h' j hne hj hj' =>
    hne (hb.eq_of_held hj hj')
  constructor
  · rintro h' j ⟨hne, hj⟩
    exact ⟨hb.granted h' j hj, hothers h' j hne hj⟩
  · rintro h' j ⟨hne, hj⟩ h''
    simp only [Book.drop, hothers h' j hne hj, not_false_eq_true, and_true]
    exact hb.owner h' j hj h''

end Book

end Lease
