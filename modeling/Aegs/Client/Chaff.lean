import Mathlib.Data.Int.Notation
import Aegs.Lib.Transition

/-!
# When chaff is sent

The client sends chaff where it has sent nothing for a while. `ChaffEngine` is asked in every turn
of the main loop, and told of every packet of the user's. What it keeps is two times: that of the
last packet, and from when on the next chaff is due.

However the packets and the turns fall, chaff keeps its distance, from other chaff and from what
was sent before it (`Aegs.Client.chaff_distance`), and is not put off either: where turns keep
coming and nothing is sent, some goes out within the longest interval
(`Aegs.Client.chaff_comes`).
-/

namespace Aegs

namespace Client

open Transition

/-- `std::chrono::milliseconds`, in the ticks of `steady_clock`. -/
def milliseconds (n : ℤ) : ℤ := n * 1000000

/-- `duration_cast<std::chrono::milliseconds>`, which rounds towards zero. -/
def toMilliseconds (d : ℤ) : ℤ := d.tdiv 1000000

/-- `ChaffEngine`. -/
structure ChaffEngine where
  /-- `idle_threshold_ms_`. -/
  idleThresholdMs : ℤ
  /-- `min_interval_ms_`. -/
  minIntervalMs : ℤ
  /-- `max_interval_ms_`. -/
  maxIntervalMs : ℤ
  /-- `is_idle_`. -/
  isIdle : Bool
  /-- `last_real_packet_`. -/
  lastRealPacket : ℤ
  /-- `next_chaff_time_`. -/
  nextChaffTime : ℤ

namespace ChaffEngine

/-- `mark_real_packet`. -/
def markRealPacket (e : ChaffEngine) (now : ℤ) : ChaffEngine :=
  { e with lastRealPacket := now, isIdle := false }

/-- The constructor, at a time. -/
def new (idleThresholdMs minIntervalMs maxIntervalMs now : ℤ) : ChaffEngine :=
  markRealPacket ⟨idleThresholdMs, minIntervalMs, maxIntervalMs, false, 0, 0⟩ now

/-- `schedule_next_chaff`, where the distribution gives `draw`. -/
def scheduleNextChaff (e : ChaffEngine) (now draw : ℤ) : ChaffEngine :=
  { e with nextChaffTime := now + milliseconds draw }

/-- `should_send_chaff`. -/
def shouldSendChaff (e : ChaffEngine) (now draw : ℤ) : Bool × ChaffEngine :=
  let elapsed := toMilliseconds (now - e.lastRealPacket)
  if elapsed > e.idleThresholdMs then
    if !e.isIdle then (false, { e with isIdle := true }.scheduleNextChaff now draw)
    else if now ≥ e.nextChaffTime then (true, e.scheduleNextChaff now draw)
    else (false, e)
  else (false, e)

end ChaffEngine

/-! ### Runs -/

/-- What was sent. -/
inductive Sent
  /-- A packet of the user's. -/
  | real
  /-- Chaff. -/
  | chaff
deriving DecidableEq

/-- An engine with what it has seen. -/
structure ChaffState where
  /-- The engine. -/
  engine : ChaffEngine
  /-- The last reading of the clock. -/
  now : ℤ
  /-- What was sent and when, the last first. -/
  log : List (Sent × ℤ)

/-- What the main loop does with the engine. -/
inductive ChaffEvent
  /-- It has sent a packet of the user's. -/
  | mark (now : ℤ)
  /-- It asks for chaff. -/
  | ask (now draw : ℤ)

/-- **One call**. `steady_clock` does not go back, and the distribution keeps to its bounds. -/
def ChaffState.step (s : ChaffState) : ChaffEvent → Option ChaffState
  | .mark now =>
    if s.now ≤ now then some ⟨s.engine.markRealPacket now, now, (.real, now) :: s.log⟩ else none
  | .ask now draw =>
    if s.now ≤ now ∧ s.engine.minIntervalMs ≤ draw ∧ draw ≤ s.engine.maxIntervalMs then
      let (sends, engine) := s.engine.shouldSendChaff now draw
      some ⟨engine, now, if sends then (.chaff, now) :: s.log else s.log⟩
    else none

/-- A new engine. Its constructor counts as a packet. -/
def ChaffState.init (idleThresholdMs minIntervalMs maxIntervalMs now : ℤ) : ChaffState :=
  ⟨.new idleThresholdMs minIntervalMs maxIntervalMs now, now, [(.real, now)]⟩

/-- The time that is left between something sent and chaff behind it. -/
def distance (idleThresholdMs minIntervalMs : ℤ) : Sent → ℤ
  | .real => milliseconds (idleThresholdMs + 1 + minIntervalMs)
  | .chaff => milliseconds minIntervalMs

/-- The distances of an engine. -/
def ChaffEngine.distance (e : ChaffEngine) : Sent → ℤ :=
  Client.distance e.idleThresholdMs e.minIntervalMs

/-- `b` was sent before `a`, and if `a` is chaff, long enough. -/
def Apart (distance : Sent → ℤ) (a b : Sent × ℤ) : Prop :=
  b.2 ≤ a.2 ∧ (a.1 = .chaff → b.2 + distance b.1 ≤ a.2)

/-- The bounds are those of the constructor. -/
structure SameBounds (e e' : ChaffEngine) : Prop where
  /-- The threshold. -/
  idle : e'.idleThresholdMs = e.idleThresholdMs
  /-- The shortest interval. -/
  min : e'.minIntervalMs = e.minIntervalMs
  /-- The longest interval. -/
  max : e'.maxIntervalMs = e.maxIntervalMs

/-- What the times of an engine say about what was sent. -/
structure Timed (s : ChaffState) : Prop where
  /-- The time of the last packet. -/
  last : s.engine.lastRealPacket ≤ s.now
  /-- What was sent was sent by now. -/
  past : ∀ x ∈ s.log, x.2 ≤ s.now
  /-- No packet is newer than the last. -/
  reals : ∀ t, (Sent.real, t) ∈ s.log → t ≤ s.engine.lastRealPacket
  /-- The next chaff is far enough from what was sent. -/
  next : s.engine.isIdle = true → ∀ x ∈ s.log,
    x.2 + s.engine.distance x.1 ≤ s.engine.nextChaffTime
  /-- It is not put off. -/
  due : s.engine.isIdle = true →
    s.engine.nextChaffTime ≤ s.now + milliseconds s.engine.maxIntervalMs
  /-- What was sent is apart. -/
  apart : s.log.Pairwise (Apart s.engine.distance)

theorem SameBounds.distance_eq {e e' : ChaffEngine} (h : SameBounds e e') :
    e'.distance = e.distance := by
  rw [ChaffEngine.distance, ChaffEngine.distance, h.idle, h.min]

/-- More than the threshold has passed since the last packet. -/
theorem le_of_toMilliseconds_lt {d n : ℤ} (hd : 0 ≤ d) (h : n < toMilliseconds d) :
    milliseconds (n + 1) ≤ d := by
  have hdiv : toMilliseconds d = d / 1000000 := Int.tdiv_eq_ediv_of_nonneg hd
  rw [milliseconds]
  omega

theorem timed_init (idleThresholdMs minIntervalMs maxIntervalMs now : ℤ) :
    Timed (ChaffState.init idleThresholdMs minIntervalMs maxIntervalMs now) where
  last := Int.le_refl now
  past := by
    intro x hx
    rw [List.mem_singleton.mp hx]
    exact Int.le_refl now
  reals := by
    intro t ht
    rw [(Prod.mk.inj (List.mem_singleton.mp ht)).2]
    exact Int.le_refl now
  next := by
    intro h
    cases h
  due := by
    intro h
    cases h
  apart := List.pairwise_singleton _ _

/-- The call that asks, by what it finds. -/
theorem ChaffEngine.shouldSendChaff_cases (e : ChaffEngine) (now draw : ℤ) :
    (toMilliseconds (now - e.lastRealPacket) ≤ e.idleThresholdMs ∧
        e.shouldSendChaff now draw = (false, e)) ∨
      (e.idleThresholdMs < toMilliseconds (now - e.lastRealPacket) ∧ e.isIdle = false ∧
        e.shouldSendChaff now draw =
          (false, { e with isIdle := true, nextChaffTime := now + milliseconds draw })) ∨
      (e.idleThresholdMs < toMilliseconds (now - e.lastRealPacket) ∧ e.isIdle = true ∧
        now < e.nextChaffTime ∧ e.shouldSendChaff now draw = (false, e)) ∨
      (e.idleThresholdMs < toMilliseconds (now - e.lastRealPacket) ∧ e.isIdle = true ∧
        e.nextChaffTime ≤ now ∧ e.shouldSendChaff now draw =
          (true, { e with nextChaffTime := now + milliseconds draw })) := by
  rw [shouldSendChaff]
  simp only [gt_iff_lt, ge_iff_le]
  by_cases helapsed : e.idleThresholdMs < toMilliseconds (now - e.lastRealPacket)
  · rw [if_pos helapsed]
    cases hidle : e.isIdle with
    | false => exact Or.inr (Or.inl ⟨helapsed, rfl, rfl⟩)
    | true =>
      rw [Bool.not_true, if_neg Bool.false_ne_true]
      by_cases hnext : e.nextChaffTime ≤ now
      · rw [if_pos hnext]
        refine Or.inr (Or.inr (Or.inr ⟨helapsed, rfl, hnext, ?_⟩))
        rw [scheduleNextChaff, hidle]
      · rw [if_neg hnext]
        exact Or.inr (Or.inr (Or.inl ⟨helapsed, rfl, by omega, rfl⟩))
  · rw [if_neg helapsed]
    exact Or.inl ⟨by omega, rfl⟩

theorem sameBounds_refl (e : ChaffEngine) : SameBounds e e := ⟨rfl, rfl, rfl⟩

/-- **One call** keeps the bounds and what the times say. -/
theorem Timed.step {s t : ChaffState} (h : Timed s) {a : ChaffEvent} (hstep : s.step a = some t) :
    SameBounds s.engine t.engine ∧ Timed t := by
  cases a with
  | mark now =>
    rw [ChaffState.step] at hstep
    split at hstep
    · rename_i hnow
      obtain rfl := Option.some.inj hstep
      refine ⟨⟨rfl, rfl, rfl⟩, ⟨Int.le_refl now, ?_, ?_, ?_, ?_, ?_⟩⟩
      · intro x hx
        rcases List.mem_cons.mp hx with rfl | hx
        · exact Int.le_refl now
        · exact Int.le_trans (h.past x hx) hnow
      · intro t ht
        rcases List.mem_cons.mp ht with ht | ht
        · rw [(Prod.mk.inj ht).2]
          exact Int.le_refl now
        · exact Int.le_trans (h.past _ ht) hnow
      · intro hidle
        cases hidle
      · intro hidle
        cases hidle
      · refine List.pairwise_cons.mpr ⟨fun x hx => ⟨Int.le_trans (h.past x hx) hnow, ?_⟩, ?_⟩
        · intro hchaff
          cases hchaff
        · exact h.apart
    · cases hstep
  | ask now draw =>
    rw [ChaffState.step] at hstep
    split at hstep
    · rename_i hguard
      obtain ⟨hnow, hmin, hmax⟩ := hguard
      have hdraw : now + milliseconds s.engine.minIntervalMs ≤ now + milliseconds draw := by
        rw [milliseconds, milliseconds]
        omega
      -- a next chaff that is scheduled now is far enough from everything
      have hscheduled : s.engine.idleThresholdMs <
          toMilliseconds (now - s.engine.lastRealPacket) →
          ∀ x ∈ s.log, x.2 + s.engine.distance x.1 ≤ now + milliseconds draw := by
        intro helapsed x hx
        have hlast := h.last
        have hfar := le_of_toMilliseconds_lt (by omega) helapsed
        have hpast := h.past x hx
        rcases x with ⟨_ | _, t⟩
        · have hreal := h.reals t hx
          rw [milliseconds] at hfar
          simp only [ChaffEngine.distance, distance, milliseconds] at hdraw ⊢
          omega
        · simp only [ChaffEngine.distance, distance] at hpast ⊢
          omega
      have hdue : now + milliseconds draw ≤ now + milliseconds s.engine.maxIntervalMs := by
        rw [milliseconds, milliseconds]
        omega
      have hlater : s.engine.isIdle = true →
          s.engine.nextChaffTime ≤ now + milliseconds s.engine.maxIntervalMs := by
        intro hidle
        have := h.due hidle
        omega
      have hpast : ∀ x ∈ s.log, x.2 ≤ now := fun x hx => Int.le_trans (h.past x hx) hnow
      have hlast : s.engine.lastRealPacket ≤ now := Int.le_trans h.last hnow
      rcases s.engine.shouldSendChaff_cases now draw with ⟨-, heq⟩ | ⟨helapsed, -, heq⟩ |
        ⟨-, -, -, heq⟩ | ⟨helapsed, hidle, hnext, heq⟩
      · rw [heq] at hstep
        obtain rfl := Option.some.inj hstep
        exact ⟨sameBounds_refl _, ⟨hlast, hpast, h.reals, h.next, hlater, h.apart⟩⟩
      · rw [heq] at hstep
        obtain rfl := Option.some.inj hstep
        exact ⟨⟨rfl, rfl, rfl⟩, ⟨hlast, hpast, h.reals, fun _ => hscheduled helapsed,
          fun _ => hdue, h.apart⟩⟩
      · rw [heq] at hstep
        obtain rfl := Option.some.inj hstep
        exact ⟨sameBounds_refl _, ⟨hlast, hpast, h.reals, h.next, hlater, h.apart⟩⟩
      · rw [heq] at hstep
        obtain rfl := Option.some.inj hstep
        refine ⟨⟨rfl, rfl, rfl⟩, ⟨hlast, ?_, ?_, fun _ => ?_, fun _ => hdue, ?_⟩⟩
        · intro x hx
          rcases List.mem_cons.mp hx with rfl | hx
          · exact Int.le_refl now
          · exact hpast x hx
        · intro t ht
          rcases List.mem_cons.mp ht with ht | ht
          · cases (Prod.mk.inj ht).1
          · exact h.reals t ht
        · intro x hx
          rcases List.mem_cons.mp hx with rfl | hx
          · exact hdraw
          · exact hscheduled helapsed x hx
        · refine List.pairwise_cons.mpr ⟨fun x hx => ⟨hpast x hx, fun _ => ?_⟩, h.apart⟩
          exact Int.le_trans (h.next hidle x hx) hnext
    · cases hstep

/-- **Chaff keeps its distance**: however packets and turns fall, and whatever is drawn, chaff is
sent no earlier than the shortest interval behind other chaff, and behind a packet of the user's
not before the threshold has passed and the shortest interval with it. -/
theorem chaff_distance (idleThresholdMs minIntervalMs maxIntervalMs start : ℤ)
    {as : List ChaffEvent} {t : ChaffState}
    (hrun : runs ChaffState.step
      (.init idleThresholdMs minIntervalMs maxIntervalMs start) as = some t) :
    t.log.Pairwise (Apart (distance idleThresholdMs minIntervalMs)) := by
  obtain ⟨hbounds, htimed⟩ : SameBounds
      (ChaffState.init idleThresholdMs minIntervalMs maxIntervalMs start).engine t.engine ∧
        Timed t := by
    refine inv_of_runs (I := fun u => SameBounds
      (ChaffState.init idleThresholdMs minIntervalMs maxIntervalMs start).engine u.engine ∧
        Timed u) (fun hu hstep => ?_)
      ⟨sameBounds_refl _, timed_init idleThresholdMs minIntervalMs maxIntervalMs start⟩ hrun
    obtain ⟨hsame, htimed⟩ := hu.2.step hstep
    exact ⟨⟨hsame.idle.trans hu.1.idle, hsame.min.trans hu.1.min, hsame.max.trans hu.1.max⟩, htimed⟩
  have hapart := htimed.apart
  rw [hbounds.distance_eq] at hapart
  exact hapart

/-- Every run of a new engine is timed. -/
theorem timed_of_runs {idleThresholdMs minIntervalMs maxIntervalMs start : ℤ}
    {as : List ChaffEvent} {t : ChaffState} (hrun : runs ChaffState.step
      (.init idleThresholdMs minIntervalMs maxIntervalMs start) as = some t) : Timed t :=
  inv_of_runs (fun hu hstep => (hu.step hstep).2) (timed_init _ _ _ _) hrun

/-- What was sent stays in the log. -/
theorem subset_log {s t : ChaffState} {a : ChaffEvent} (hstep : s.step a = some t) :
    ∀ x ∈ s.log, x ∈ t.log := by
  intro x hx
  cases a with
  | mark now =>
    rw [ChaffState.step] at hstep
    split at hstep
    · obtain rfl := Option.some.inj hstep
      exact List.mem_cons_of_mem _ hx
    · cases hstep
  | ask now draw =>
    rw [ChaffState.step] at hstep
    split at hstep
    · obtain rfl := Option.some.inj hstep
      show x ∈ if (s.engine.shouldSendChaff now draw).1 then (Sent.chaff, now) :: s.log else s.log
      split
      · exact List.mem_cons_of_mem _ hx
      · exact hx
    · cases hstep

/-- Chaff has gone out since a time, or is due by another. -/
def Due (since until' : ℤ) (s : ChaffState) : Prop :=
  (∃ time, (Sent.chaff, time) ∈ s.log ∧ since ≤ time) ∨
    s.engine.idleThresholdMs < toMilliseconds (s.now - s.engine.lastRealPacket) ∧
      s.engine.isIdle = true ∧ s.engine.nextChaffTime ≤ until'

/-- Time passes. -/
theorem toMilliseconds_le {d d' : ℤ} (hd : 0 ≤ d) (h : d ≤ d') :
    toMilliseconds d ≤ toMilliseconds d' := by
  have hdiv : toMilliseconds d = d / 1000000 := Int.tdiv_eq_ediv_of_nonneg hd
  have hdiv' : toMilliseconds d' = d' / 1000000 :=
    Int.tdiv_eq_ediv_of_nonneg (Int.le_trans hd h)
  omega

/-- **A turn** keeps chaff due, and sends it if it is late enough. -/
theorem Due.ask {since until' : ℤ} {s t : ChaffState} (htimed : Timed s)
    (h : Due since until' s) {now draw : ℤ} (hsince : since ≤ s.now)
    (hstep : s.step (.ask now draw) = some t) :
    since ≤ t.now ∧ Due since until' t ∧
      (until' ≤ now → ∃ time, (Sent.chaff, time) ∈ t.log ∧ since ≤ time) := by
  rcases h with ⟨time, hmem, htime⟩ | ⟨helapsed, hidle, hnext⟩
  · have hsent := subset_log hstep _ hmem
    refine ⟨?_, Or.inl ⟨time, hsent, htime⟩, fun _ => ⟨time, hsent, htime⟩⟩
    rw [ChaffState.step] at hstep
    split at hstep
    · rename_i hguard
      obtain rfl := Option.some.inj hstep
      exact Int.le_trans hsince hguard.1
    · cases hstep
  · rw [ChaffState.step] at hstep
    split at hstep
    · rename_i hguard
      have hnow := hguard.1
      have hlast := htimed.last
      have hstill : s.engine.idleThresholdMs < toMilliseconds (now - s.engine.lastRealPacket) := by
        have hmono : toMilliseconds (s.now - s.engine.lastRealPacket) ≤
            toMilliseconds (now - s.engine.lastRealPacket) :=
          toMilliseconds_le (by omega) (by omega)
        omega
      rcases s.engine.shouldSendChaff_cases now draw with ⟨hnot, -⟩ | ⟨-, hnot, -⟩ |
        ⟨-, -, hearly, heq⟩ | ⟨-, -, -, heq⟩
      · omega
      · rw [hidle] at hnot
        cases hnot
      · rw [heq] at hstep
        obtain rfl := Option.some.inj hstep
        refine ⟨Int.le_trans hsince hnow, Or.inr ⟨hstill, hidle, hnext⟩, fun hlate => ?_⟩
        omega
      · rw [heq] at hstep
        obtain rfl := Option.some.inj hstep
        have hsent : ∃ time, (Sent.chaff, time) ∈ (Sent.chaff, now) :: s.log ∧ since ≤ time :=
          ⟨now, List.mem_cons_self, Int.le_trans hsince hnow⟩
        exact ⟨Int.le_trans hsince hnow, Or.inl hsent, fun _ => hsent⟩
    · cases hstep

/-- **Chaff comes**: once a turn has found the client idle, and no packet of the user's is sent
behind it, some chaff goes out by the first turn that is the longest interval later. -/
theorem chaff_comes {idleThresholdMs minIntervalMs maxIntervalMs start now draw later draw' : ℤ}
    {before as : List ChaffEvent} {s u t v : ChaffState}
    (hbefore : runs ChaffState.step
      (.init idleThresholdMs minIntervalMs maxIntervalMs start) before = some s)
    (hidle : s.engine.idleThresholdMs < toMilliseconds (now - s.engine.lastRealPacket))
    (hask : s.step (.ask now draw) = some u)
    (hquiet : ∀ a ∈ as, ∃ now draw, a = .ask now draw)
    (hrun : runs ChaffState.step u as = some t) (hlast : t.step (.ask later draw') = some v)
    (hlater : now + milliseconds s.engine.maxIntervalMs ≤ later) :
    ∃ time, (Sent.chaff, time) ∈ v.log ∧ now ≤ time := by
  have htimed := timed_of_runs hbefore
  have htimedu := (htimed.step hask).2
  have hdue : now ≤ u.now ∧ Due now (now + milliseconds s.engine.maxIntervalMs) u := by
    rw [ChaffState.step] at hask
    split at hask
    · rename_i hguard
      have hmax : milliseconds draw ≤ milliseconds s.engine.maxIntervalMs := by
        rw [milliseconds, milliseconds]
        omega
      rcases s.engine.shouldSendChaff_cases now draw with ⟨hnot, -⟩ | ⟨-, -, heq⟩ |
        ⟨-, hisIdle, -, heq⟩ | ⟨-, -, -, heq⟩
      · omega
      · rw [heq] at hask
        obtain rfl := Option.some.inj hask
        exact ⟨Int.le_refl now, Or.inr ⟨hidle, rfl, Int.add_le_add_left hmax now⟩⟩
      · rw [heq] at hask
        obtain rfl := Option.some.inj hask
        have hsoon := htimed.due hisIdle
        have hnow := hguard.1
        exact ⟨Int.le_refl now,
          Or.inr ⟨hidle, hisIdle, Int.le_trans hsoon (Int.add_le_add_right hnow _)⟩⟩
      · rw [heq] at hask
        obtain rfl := Option.some.inj hask
        exact ⟨Int.le_refl now, Or.inl ⟨now, List.mem_cons_self, Int.le_refl now⟩⟩
    · cases hask
  clear hask hbefore
  induction as generalizing u with
  | nil =>
    obtain rfl := Option.some.inj hrun
    exact (hdue.2.ask htimedu hdue.1 hlast).2.2 hlater
  | cons a as ih =>
    rw [runs_cons, Option.bind_eq_some_iff] at hrun
    obtain ⟨w, hw, hrest⟩ := hrun
    obtain ⟨now', draw'', rfl⟩ := hquiet a List.mem_cons_self
    obtain ⟨hnow, hdue', -⟩ := hdue.2.ask htimedu hdue.1 hw
    exact ih (fun b hb => hquiet b (List.mem_cons_of_mem _ hb)) hrest (htimedu.step hw).2
      ⟨hnow, hdue'⟩

/-! ### An idle client -/

/-- The client of the source, asked after 600, 700 and 800 milliseconds. -/
theorem chaff_comes_idle : ∃ s u t v,
    runs ChaffState.step (.init 500 50 200 0) [] = some s ∧
    s.step (.ask (milliseconds 600) 80) = some u ∧
    runs ChaffState.step u [.ask (milliseconds 700) 80] = some t ∧
    t.step (.ask (milliseconds 800) 80) = some v ∧
    ∃ time, (Sent.chaff, time) ∈ v.log ∧ milliseconds 600 ≤ time := by
  refine ⟨_, _, _, _, rfl, rfl, rfl, rfl, ?_⟩
  refine @chaff_comes 500 50 200 0 (milliseconds 600) 80 (milliseconds 800) 80 []
    [.ask (milliseconds 700) 80] _ _ _ _ rfl (by decide) rfl ?_ rfl rfl (by decide)
  rintro a ha
  exact ⟨_, _, List.mem_singleton.mp ha⟩

theorem chaff_distance_idle : ∃ t, runs ChaffState.step (.init 500 50 200 0)
      [.ask (milliseconds 600) 80, .ask (milliseconds 700) 80] = some t ∧
    t.log.Pairwise (Apart (distance 500 50)) :=
  ⟨_, rfl, @chaff_distance 500 50 200 0
    [.ask (milliseconds 600) 80, .ask (milliseconds 700) 80] _ rfl⟩

end Client

end Aegs
