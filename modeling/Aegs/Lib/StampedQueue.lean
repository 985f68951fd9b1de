import Mathlib.Data.List.AList

/-!
# Tables with a queue of stamped records

A table whose entries carry a stamp, beside a queue of records: a key with the stamp
its entry had when it was made. The queue says in which order entries go when room is
needed. Entries also go by themselves or are replaced, so a record may be stale; what
the queue owes the table is a record for every entry (`StampedQueue.Covers`).

Two facts rest on it. A table whose queue is empty is empty, so that a loop which takes
entries out from the front of the queue can always make room. And where the queue is in
the order of its stamps, no entry is older than the record at the front.
-/

namespace StampedQueue

variable {κ ν τ : Type*} [DecidableEq κ]

/-! ### Sizes of tables -/

/-- Taking out a key that is not there changes nothing. -/
theorem erase_of_lookup_eq_none {m : AList fun _ : κ => ν} {k : κ} (h : m.lookup k = none) :
    m.erase k = m := by
  apply AList.ext
  rw [AList.lookup_eq_none, AList.mem_keys] at h
  exact List.kerase_of_notMem_keys h

/-- An entry that is replaced might as well have been taken out first. -/
theorem insert_erase (m : AList fun _ : κ => ν) (k : κ) (v : ν) :
    (m.erase k).insert k v = m.insert k v := by
  apply AList.ext
  rw [AList.entries_insert, AList.entries_insert]
  exact congrArg _ (List.kerase_of_notMem_keys (List.notMem_keys_kerase k m.nodupKeys))

theorem length_erase_le (m : AList fun _ : κ => ν) (k : κ) :
    (m.erase k).entries.length ≤ m.entries.length :=
  (List.kerase_sublist k m.entries).length_le

/-- A table grows by one entry at most. -/
theorem length_insert_le (m : AList fun _ : κ => ν) (k : κ) (v : ν) :
    (m.insert k v).entries.length ≤ m.entries.length + 1 := by
  rw [AList.entries_insert, List.length_cons]
  exact Nat.succ_le_succ (List.kerase_sublist k m.entries).length_le

/-! ### Coverage -/

variable (stamp : ν → τ)

/-- Every entry of the table has its record in the queue. -/
def Covers (m : AList fun _ : κ => ν) (queue : List (κ × τ)) : Prop :=
  ∀ k v, m.lookup k = some v → (k, stamp v) ∈ queue

variable {stamp} {m : AList fun _ : κ => ν} {queue : List (κ × τ)} {k : κ} {t : τ}

theorem Covers.empty : Covers stamp (∅ : AList fun _ : κ => ν) queue := by
  intro k v hv
  rw [AList.lookup_empty] at hv
  exact absurd hv.symm (Option.some_ne_none v)

/-- An empty queue covers the empty table alone. -/
theorem Covers.length_eq_zero (h : Covers stamp m []) : m.entries.length = 0 := by
  rw [List.length_eq_zero_iff, List.eq_nil_iff_forall_not_mem]
  rintro ⟨k, v⟩ hmem
  exact List.not_mem_nil (h k v (AList.mem_lookup_iff.mpr hmem))

/-- Entries may go. -/
theorem Covers.erase (h : Covers stamp m queue) (k : κ) : Covers stamp (m.erase k) queue := by
  intro k' v hv
  by_cases hk : k' = k
  · rw [hk, AList.lookup_erase] at hv
    exact absurd hv.symm (Option.some_ne_none v)
  · exact h k' v ((AList.lookup_erase_ne hk).symm.trans hv)

/-- The record at the front goes with the entry of its key, stale or not. -/
theorem Covers.evict (h : Covers stamp m ((k, t) :: queue)) :
    Covers stamp (m.erase k) queue := by
  intro k' v hv
  have hne : k' ≠ k := by
    rintro rfl
    rw [AList.lookup_erase] at hv
    exact Option.some_ne_none v hv.symm
  rcases List.mem_cons.mp (h.erase k k' v hv) with heq | hmem
  · exact absurd (congrArg Prod.fst heq) hne
  · exact hmem

/-- The record at the front goes alone if it is stale. -/
theorem Covers.skip (h : Covers stamp m ((k, t) :: queue))
    (hstale : ∀ v, m.lookup k = some v → stamp v ≠ t) : Covers stamp m queue := by
  intro k' v hv
  rcases List.mem_cons.mp (h k' v hv) with heq | hmem
  · obtain ⟨rfl, ht⟩ := Prod.mk.inj heq
    exact absurd ht (hstale v hv)
  · exact hmem

/-- An entry is made or replaced, and its record goes to the end. -/
theorem Covers.push (h : Covers stamp m queue) (k : κ) (v : ν) :
    Covers stamp (m.insert k v) (queue ++ [(k, stamp v)]) := by
  intro k' v' hv
  by_cases hk : k' = k
  · subst hk
    rw [AList.lookup_insert] at hv
    rw [← Option.some.inj hv]
    exact List.mem_append_right _ (List.mem_singleton.mpr rfl)
  · rw [AList.lookup_insert_ne hk] at hv
    exact List.mem_append_left _ (h k' v' hv)

/-! ### Order -/

variable [LE τ]

/-- The queue is in the order of its stamps. -/
def Sorted (queue : List (κ × τ)) : Prop := queue.Pairwise fun a b => a.2 ≤ b.2

omit [DecidableEq κ] in
/-- A record as late as any goes to the end. -/
theorem Sorted.push (h : Sorted queue) (hlast : ∀ entry ∈ queue, entry.2 ≤ t) (k : κ) :
    Sorted (queue ++ [(k, t)]) := by
  rw [Sorted, List.pairwise_append]
  refine ⟨h, List.pairwise_singleton _ _, ?_⟩
  intro a ha b hb
  rw [List.mem_singleton.mp hb]
  exact hlast a ha

/-- **The front is the oldest**: where every entry has its record and the records are in
order, no entry is older than the record at the front. -/
theorem Covers.oldest [Std.IsPreorder τ] (h : Covers stamp m ((k, t) :: queue))
    (hsorted : Sorted ((k, t) :: queue)) {k' : κ} {v : ν} (hv : m.lookup k' = some v) :
    t ≤ stamp v := by
  rcases List.mem_cons.mp (h k' v hv) with heq | hmem
  · rw [show stamp v = t from congrArg Prod.snd heq]
    exact Std.le_refl t
  · exact List.rel_of_pairwise_cons hsorted hmem

end StampedQueue
