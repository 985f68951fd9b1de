import Mathlib.Data.List.Basic

/-!
# A queue whose head is tried until it leaves

Items wait in a queue. Only the one at the head is tried: it is sent, or it fails for good
and is dropped, or the attempt is congested and it stays – until it has been congested a
given number of times, when it is dropped as well.

What happened to the queue is a list of items with outcomes. It is *explained*
(`RetryQueue.Explained`) by what was put into the queue: the items left one after the other
in that order, each after a stay at the head of one of three shapes (`RetryQueue.Stay`), and
those that have not left are what the queue holds. The three rules say how an explanation
goes on: an item is put in, the head leaves, the head stays.
-/

namespace RetryQueue

/-- The outcome of an attempt. -/
inductive Outcome
  /-- The item is sent. -/
  | sent
  /-- It may be tried again. -/
  | congested
  /-- It fails for good. -/
  | hard
deriving DecidableEq

/-- **A stay at the head**: congested less often than the limit, and sent or dropped then; or
as often as that. -/
inductive Stay (limit : ℕ) : List Outcome → Prop
  /-- The item was sent. -/
  | sent {k : ℕ} (h : k < limit) : Stay limit (List.replicate k .congested ++ [.sent])
  /-- It was dropped at an error. -/
  | hard {k : ℕ} (h : k < limit) : Stay limit (List.replicate k .congested ++ [.hard])
  /-- It was dropped after the last attempt. -/
  | stale : Stay limit (List.replicate limit .congested)

variable {P : Type*} {limit : ℕ}

/-- The attempts of a stay. -/
def attempts (s : P × List Outcome) : List (P × Outcome) := s.2.map fun o => (s.1, o)

/-- The attempts of the head so far. -/
def tried (items : List P) (retries : ℕ) : List (P × Outcome) :=
  (items.take 1).flatMap fun x => List.replicate retries (x, .congested)

/-- **What happened is explained** by what was put in and what is there. -/
structure Explained (limit : ℕ) (queued : List P) (history : List (P × Outcome)) (items : List P)
    (retries : ℕ) : Prop where
  /-- The head may be tried again. -/
  retries_lt : retries < limit
  /-- Without a head nothing has been tried. -/
  idle : items = [] → retries = 0
  /-- The items left in order, each after a stay. -/
  stays : ∃ stays : List (P × List Outcome), (∀ s ∈ stays, Stay limit s.2) ∧
    queued = stays.map Prod.fst ++ items ∧ history = stays.flatMap attempts ++ tried items retries

theorem explained_nil (hlimit : 0 < limit) : Explained limit ([] : List P) [] [] 0 :=
  ⟨hlimit, fun _ => rfl, [], fun _ hs => absurd hs List.not_mem_nil, rfl, rfl⟩

variable {queued items : List P} {history : List (P × Outcome)} {retries : ℕ}

/-- An item is put in. -/
theorem Explained.push (h : Explained limit queued history items retries) (x : P) :
    Explained limit (queued ++ [x]) history (items ++ [x]) retries := by
  obtain ⟨stays, hstays, hqueued, hhistory⟩ := h.stays
  refine ⟨h.retries_lt, fun hnil => absurd hnil (List.append_ne_nil_of_right_ne_nil _ (by simp)),
    stays, hstays, by rw [hqueued, List.append_assoc], ?_⟩
  rw [hhistory]
  cases items with
  | nil =>
    rw [h.idle rfl]
    rfl
  | cons y rest => rfl

/-- The attempts of the head make a stay with the last one. -/
theorem attempts_append (x : P) (retries : ℕ) (o : Outcome) :
    attempts (x, List.replicate retries .congested ++ [o]) =
      List.replicate retries (x, .congested) ++ [(x, o)] := by
  rw [attempts, List.map_append, List.map_replicate, List.map_singleton]

/-- **The head leaves** when its attempts make a stay. -/
theorem Explained.leave {x : P} {o : Outcome}
    (h : Explained limit queued history (x :: items) retries)
    (hstay : Stay limit (List.replicate retries .congested ++ [o])) :
    Explained limit queued (history ++ [(x, o)]) items 0 := by
  obtain ⟨stays, hstays, hqueued, hhistory⟩ := h.stays
  refine ⟨Nat.zero_lt_of_lt h.retries_lt, fun _ => rfl,
    stays ++ [(x, List.replicate retries .congested ++ [o])], fun s hs => ?_, ?_, ?_⟩
  · rcases List.mem_append.mp hs with hold | hnew
    · exact hstays s hold
    · obtain rfl := List.mem_singleton.mp hnew
      exact hstay
  · rw [hqueued, List.map_append, List.map_singleton, List.append_assoc, List.singleton_append]
  · rw [hhistory, List.flatMap_append, List.flatMap_singleton, attempts_append]
    simp [tried]

/-- The head is sent. -/
theorem Explained.send {x : P} (h : Explained limit queued history (x :: items) retries) :
    Explained limit queued (history ++ [(x, .sent)]) items 0 :=
  h.leave (.sent h.retries_lt)

/-- The head is dropped at an error. -/
theorem Explained.drop {x : P} (h : Explained limit queued history (x :: items) retries) :
    Explained limit queued (history ++ [(x, .hard)]) items 0 :=
  h.leave (.hard h.retries_lt)

/-- The head is dropped after the last attempt. -/
theorem Explained.giveUp {x : P} (h : Explained limit queued history (x :: items) retries)
    (hlast : limit ≤ retries + 1) :
    Explained limit queued (history ++ [(x, .congested)]) items 0 := by
  have hlimit : retries + 1 = limit := Nat.le_antisymm h.retries_lt hlast
  refine h.leave ?_
  rw [← List.replicate_succ', hlimit]
  exact .stale

/-- **The head stays.** -/
theorem Explained.stay {x : P} (h : Explained limit queued history (x :: items) retries)
    (hlast : retries + 1 < limit) :
    Explained limit queued (history ++ [(x, .congested)]) (x :: items) (retries + 1) := by
  obtain ⟨stays, hstays, hqueued, hhistory⟩ := h.stays
  refine ⟨hlast, fun hnil => absurd hnil (List.cons_ne_nil _ _), stays, hstays, hqueued, ?_⟩
  rw [hhistory, List.append_assoc]
  simp [tried, List.replicate_succ']

/-- Several are sent, one after the other. -/
theorem Explained.sendAll {front : List P}
    (h : Explained limit queued history (front ++ items) retries) (hne : front ≠ []) :
    Explained limit queued (history ++ front.map fun x => (x, .sent)) items 0 := by
  induction front generalizing history retries with
  | nil => exact absurd rfl hne
  | cons x front ih =>
    have hsent : Explained limit queued (history ++ [(x, .sent)]) (front ++ items) 0 := h.send
    cases front with
    | nil => exact hsent
    | cons y front =>
      have hrest := ih hsent (List.cons_ne_nil _ _)
      rwa [List.append_assoc] at hrest

/-- What was sent. -/
def sent (history : List (P × Outcome)) : List P :=
  (history.filter fun a => a.2 = .sent).map Prod.fst

theorem sent_append (h₁ h₂ : List (P × Outcome)) : sent (h₁ ++ h₂) = sent h₁ ++ sent h₂ := by
  rw [sent, List.filter_append, List.map_append, ← sent, ← sent]

/-- A stay sends its item at most once. -/
theorem sent_attempts_sublist {s : P × List Outcome} (h : Stay limit s.2) :
    (sent (attempts s)).Sublist [s.1] := by
  obtain ⟨x, os⟩ := s
  cases h with
  | sent hk => simp [sent, attempts_append]
  | hard hk => simp [sent, attempts_append]
  | stale => simp [sent, attempts]

/-- **Each item is sent at most once, in the order of the queue.** -/
theorem Explained.sent_sublist (h : Explained limit queued history items retries) :
    (sent history).Sublist queued := by
  obtain ⟨stays, hstays, rfl, rfl⟩ := h.stays
  have htried : sent (tried items retries) = [] := by
    simp +contextual [sent, tried]
  rw [sent_append, htried, List.append_nil]
  refine List.Sublist.trans ?_ (List.sublist_append_left _ _)
  clear h
  induction stays with
  | nil => exact List.Sublist.slnil
  | cons s stays ih =>
    rw [List.flatMap_cons, sent_append, List.map_cons, ← List.singleton_append]
    exact (sent_attempts_sublist (hstays s List.mem_cons_self)).append
      (ih fun t ht => hstays t (List.mem_cons_of_mem _ ht))

/-! ### Serving the queue -/

/-- **The queue is served** as the outcomes say, until one is congested or there are no more:
what is sent, what is left, and how often the head has been congested. -/
def serve (limit : ℕ) : List Outcome → List P → ℕ → List P × List P × ℕ
  | .sent :: os, x :: items, _ =>
    let r := serve limit os items 0
    (x :: r.1, r.2)
  | .hard :: os, _ :: items, _ => serve limit os items 0
  | .congested :: _, x :: items, retries =>
    if retries + 1 ≥ limit then ([], items, 0) else ([], x :: items, retries + 1)
  | _, items, retries => ([], items, retries)

/-- What is sent and what is left was in the queue, in this order. -/
theorem serve_sublist (os : List Outcome) (items : List P) (retries : ℕ) :
    ((serve limit os items retries).1 ++ (serve limit os items retries).2.1).Sublist items := by
  induction os generalizing items retries with
  | nil => exact List.Sublist.refl _
  | cons o os ih =>
    cases items with
    | nil => cases o <;> exact List.Sublist.refl _
    | cons x items =>
      cases o with
      | sent => exact (ih items 0).cons_cons x
      | hard => exact (ih items 0).cons x
      | congested =>
        rw [serve]
        split
        · exact List.sublist_cons_self x items
        · exact List.Sublist.refl _

end RetryQueue
