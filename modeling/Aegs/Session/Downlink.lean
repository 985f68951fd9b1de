import Mathlib.Algebra.Group.Nat.Defs
import Mathlib.Algebra.GroupWithZero.Nat
import Mathlib.Data.Fintype.Basic
import Mathlib.Data.List.Nodup
import Aegs.Lib.Transition

/-!
# Sequence numbers on the way down

A packet from the TUN device is encrypted under a send key and a number: a worker loads
the crypto snapshot, copies its key, and increments `tx_seq`. A handshake or resume
resets `tx_seq` before it stores the snapshot with the new key. This file interleaves
any number of both (`Aegs.Downlink.step`), one atomic access a step.

## Where a number repeats

After the reset the old key is still in the snapshot, and after the store it may still
be in a worker's hands: either way the numbers of the new counter are used under the
old key, which has used them before (`Aegs.Downlink.not_unique`). It is enough that
nobody takes a number for a key that was in use before the last reset
(`Aegs.Downlink.OneCount`), and that the counter does not wrap; then no number is
used twice under one key (`Aegs.Downlink.unique_of_meets`).
-/

namespace Aegs

namespace Downlink

open Transition

/-- A number that a worker has taken for a packet under a key. The last field is
history: the resets of the counter so far. -/
structure Numbered (K : Type) where
  /-- `enc_key`. -/
  key : K
  /-- `seq`. -/
  seq : UInt64
  /-- History: how often `tx_seq` had been reset. -/
  epoch : ℕ
deriving DecidableEq

/-- How far a handshake or resume has come. -/
inductive RekeyStage
  /-- It is accepted, the reset of `tx_seq` is next. -/
  | accepted
  /-- `tx_seq` is reset. -/
  | txReset
  /-- The keys are stored. -/
  | cryptoSet
deriving DecidableEq

/-- Where a worker stands. -/
inductive Pc (K : Type)
  /-- Between two packets. -/
  | idle
  /-- `get_crypto` is done: the handshake is, too, and this is the send key. -/
  | loaded (key : K)
  /-- The routing has a client. -/
  | routed (key : K)
  /-- The number is taken, the encryption is next. -/
  | numbered (x : Numbered K)
  /-- A handshake or resume that installs this send key. -/
  | rekey (stage : RekeyStage) (key : K)
deriving DecidableEq

/-- The session and its workers. -/
structure State (ι K : Type) where
  /-- `counters.tx_seq`. -/
  txSeq : UInt64
  /-- `session_keys.send_key`, in the crypto snapshot. -/
  sendKey : K
  /-- `v3_handshake_done`. -/
  v3HandshakeDone : Bool
  /-- `has_client`, with a server socket. -/
  hasClient : Bool
  /-- The workers. -/
  pc : ι → Pc K
  /-- History: how often `tx_seq` has been reset. -/
  epoch : ℕ
  /-- History: the keys for which numbers were taken, with the resets before that. -/
  taken : List (K × ℕ)
  /-- History: the packets encrypted, latest first. -/
  sent : List (Numbered K)

/-- The choices of a run. -/
inductive Action (ι K : Type)
  /-- A worker has a packet from TUN for the session. -/
  | forward (w : ι)
  /-- A worker has accepted a handshake or resume with this send key. -/
  | rekey (w : ι) (key : K)
  /-- A worker makes its next step. -/
  | next (w : ι)
  /-- A numbered packet is not sent: the library has no random bytes or a cipher call
  fails. -/
  | drop (w : ι)

section

variable {ι K : Type} [DecidableEq ι]

/-- The worker `w` moves to `pc`. -/
def State.goto (s : State ι K) (w : ι) (pc : Pc K) : State ι K :=
  { s with pc := Function.update s.pc w pc }

/-- The next step of a worker. -/
def next (s : State ι K) (w : ι) : Option (State ι K) :=
  match s.pc w with
  | .idle => none
  | .loaded key => some (s.goto w (if s.hasClient then .routed key else .idle))
  | .routed key =>
    let seq := s.txSeq + 1
    some ({ s with
      txSeq := seq
      taken := (key, s.epoch) :: s.taken }.goto w (.numbered ⟨key, seq, s.epoch⟩))
  | .numbered x => some ({ s with sent := x :: s.sent }.goto w .idle)
  | .rekey .accepted key =>
    some ({ s with txSeq := 0, epoch := s.epoch + 1 }.goto w (.rekey .txReset key))
  | .rekey .txReset key =>
    some ({ s with sendKey := key, v3HandshakeDone := true }.goto w (.rekey .cryptoSet key))
  | .rekey .cryptoSet _ => some ({ s with hasClient := true }.goto w .idle)

/-- **One step**. -/
def step (s : State ι K) : Action ι K → Option (State ι K)
  | .forward w => match s.pc w with
    | .idle => some (s.goto w (if s.v3HandshakeDone then .loaded s.sendKey else .idle))
    | _ => none
  | .rekey w key => match s.pc w with
    | .idle => some (s.goto w (.rekey .accepted key))
    | _ => none
  | .next w => next s w
  | .drop w => match s.pc w with
    | .numbered _ => some (s.goto w .idle)
    | _ => none

omit [DecidableEq ι] in
/-- A session as it is registered, with the zeroed key. -/
def init (zero : K) : State ι K where
  txSeq := 0
  sendKey := zero
  v3HandshakeDone := false
  hasClient := false
  pc := fun _ => .idle
  epoch := 0
  taken := []
  sent := []

end

/-! ### The property and the condition -/

section

variable {ι K : Type}

/-- The key and the number of a packet. -/
def Numbered.nonce (x : Numbered K) : K × UInt64 := (x.key, x.seq)

/-- **No number is used twice under one key.** -/
def Unique (s : State ι K) : Prop := (s.sent.map Numbered.nonce).Nodup

/-- What the condition below asks of the step a worker is about to make. -/
def State.Clear (s : State ι K) : Pc K → Prop
  | .routed key => (∀ x ∈ s.taken, x.1 = key → x.2 = s.epoch) ∧ s.txSeq.toNat + 1 < 2 ^ 64
  | _ => True

/-- **One count a key.** A number is taken for a key only if `tx_seq` has not been reset since
the first one was taken for it, and while the counter does not wrap. -/
def OneCount (s : State ι K) : Action ι K → Prop
  | .next w => s.Clear (s.pc w)
  | _ => True

instance [DecidableEq K] (s : State ι K) : ∀ pc, Decidable (s.Clear pc)
  | .routed key => inferInstanceAs (Decidable
    ((∀ x ∈ s.taken, x.1 = key → x.2 = s.epoch) ∧ s.txSeq.toNat + 1 < 2 ^ 64))
  | .idle | .loaded _ | .numbered _ | .rekey .. => isTrue trivial

instance [DecidableEq K] (s : State ι K) : ∀ a, Decidable (OneCount s a)
  | .next w => inferInstanceAs (Decidable (s.Clear (s.pc w)))
  | .forward _ | .rekey .. | .drop _ => isTrue trivial

/-- The packet is sent, or a worker is about to encrypt it. -/
def State.Uses (s : State ι K) (x : Numbered K) : Prop :=
  x ∈ s.sent ∨ ∃ w, s.pc w = .numbered x

/-- **The invariant.** -/
structure Counted (s : State ι K) : Prop where
  /-- What is in use was taken, not after the last reset, and since then not above the
  counter. -/
  below : ∀ x, s.Uses x → (x.key, x.epoch) ∈ s.taken ∧ x.epoch ≤ s.epoch ∧
    (x.epoch = s.epoch → x.seq ≤ s.txSeq)
  /-- All numbers of a key were taken between two resets. -/
  once : ∀ key e e', (key, e) ∈ s.taken → (key, e') ∈ s.taken → e = e'
  /-- The packets sent have different numbers. -/
  sent : (s.sent.map Numbered.nonce).Nodup
  /-- A packet that is about to be sent has another one. -/
  pending : ∀ w x, s.pc w = .numbered x → x.nonce ∉ s.sent.map Numbered.nonce
  /-- So have two of them. -/
  apart : ∀ w w' x x', s.pc w = .numbered x → s.pc w' = .numbered x' → x.nonce = x'.nonce →
    w = w'

/-! ### The steps -/

variable [DecidableEq ι] {s t : State ι K}

@[simp] theorem goto_pc (s : State ι K) (w : ι) (pc : Pc K) : (s.goto w pc).pc w = pc :=
  Function.update_self ..

theorem goto_pc_of_ne (s : State ι K) {w w' : ι} (hne : w' ≠ w) (pc : Pc K) :
    (s.goto w pc).pc w' = s.pc w' :=
  Function.update_of_ne hne ..

/-- A numbered packet of a worker that has moved elsewhere is one of another worker. -/
theorem numbered_of_goto {w w' : ι} {pc : Pc K} {x : Numbered K} (hpc : ∀ x, pc ≠ .numbered x)
    (h : (s.goto w pc).pc w' = .numbered x) : w' ≠ w ∧ s.pc w' = .numbered x := by
  rcases eq_or_ne w' w with rfl | hne
  · exact absurd ((goto_pc s w' pc).symm.trans h) (hpc x)
  · exact ⟨hne, (goto_pc_of_ne s hne pc).symm.trans h⟩

/-- A worker moves, and no number is taken. -/
theorem Counted.goto (h : Counted s) (w : ι) {pc : Pc K} (hpc : ∀ x, pc ≠ .numbered x) :
    Counted (s.goto w pc) := by
  refine { h with
    below := fun x hx => h.below x (hx.imp id fun ⟨w', hw'⟩ => ⟨w', (numbered_of_goto hpc hw').2⟩)
    pending := fun w' x hw' => h.pending w' x (numbered_of_goto hpc hw').2
    apart := fun w₁ w₂ x x' h₁ h₂ =>
      h.apart w₁ w₂ x x' (numbered_of_goto hpc h₁).2 (numbered_of_goto hpc h₂).2 }

/-- **A number is taken**, by a worker whose key has not been in use before the last
reset. -/
theorem Counted.number (h : Counted s) (w : ι) (key : K)
    (hkey : ∀ x ∈ s.taken, x.1 = key → x.2 = s.epoch) (hroom : s.txSeq.toNat + 1 < 2 ^ 64) :
    Counted ({ s with
      txSeq := s.txSeq + 1
      taken := (key, s.epoch) :: s.taken }.goto w (.numbered ⟨key, s.txSeq + 1, s.epoch⟩)) := by
  have hsucc : (s.txSeq + 1).toNat = s.txSeq.toNat + 1 := by
    simp only [UInt64.toNat_add, UInt64.reduceToNat]
    exact Nat.mod_eq_of_lt hroom
  have hle : s.txSeq ≤ s.txSeq + 1 := by
    rw [UInt64.le_iff_toNat_le, hsucc]
    exact Nat.le_succ _
  -- whatever is in use under this key has a smaller number
  have hother : ∀ y, s.Uses y → y.nonce ≠ (key, s.txSeq + 1) := by
    intro y hy heq
    obtain ⟨hyk, hyseq⟩ := Prod.mk.inj heq
    obtain ⟨hmem, -, hbound⟩ := h.below y hy
    have hlast := hbound (hkey _ hmem hyk)
    rw [hyseq, UInt64.le_iff_toNat_le, hsucc] at hlast
    exact absurd hlast (Nat.not_succ_le_self _)
  have hcases : ∀ w' x, ({ s with
      txSeq := s.txSeq + 1
      taken := (key, s.epoch) :: s.taken }.goto w (.numbered ⟨key, s.txSeq + 1, s.epoch⟩)).pc w' =
        .numbered x →
      (w' = w ∧ x = ⟨key, s.txSeq + 1, s.epoch⟩) ∨ s.pc w' = .numbered x := by
    intro w' x hx
    rcases eq_or_ne w' w with rfl | hne
    · exact Or.inl ⟨rfl, (Pc.numbered.inj ((goto_pc ..).symm.trans hx)).symm⟩
    · exact Or.inr ((goto_pc_of_ne _ hne _).symm.trans hx)
  refine { sent := h.sent, below := ?_, once := ?_, pending := ?_, apart := ?_ }
  · have hold : ∀ x, s.Uses x → (x.key, x.epoch) ∈ (key, s.epoch) :: s.taken ∧
        x.epoch ≤ s.epoch ∧ (x.epoch = s.epoch → x.seq ≤ s.txSeq + 1) := fun x hx =>
      ⟨List.mem_cons_of_mem _ (h.below x hx).1, (h.below x hx).2.1,
        fun heq => UInt64.le_trans ((h.below x hx).2.2 heq) hle⟩
    rintro x (hx | ⟨w', hw'⟩)
    · exact hold x (Or.inl hx)
    · rcases hcases w' x hw' with ⟨-, rfl⟩ | hw'
      · exact ⟨List.mem_cons_self, le_rfl, fun _ => UInt64.le_refl _⟩
      · exact hold x (Or.inr ⟨w', hw'⟩)
  · intro key' e e' he he'
    rcases List.mem_cons.mp he with he | he <;> rcases List.mem_cons.mp he' with he' | he'
    · exact (Prod.mk.inj he).2.trans (Prod.mk.inj he').2.symm
    · exact (Prod.mk.inj he).2.trans (hkey (key', e') he' (Prod.mk.inj he).1).symm
    · exact (hkey (key', e) he (Prod.mk.inj he').1).trans (Prod.mk.inj he').2.symm
    · exact h.once key' e e' he he'
  · intro w' x hw' hmem
    rcases hcases w' x hw' with ⟨-, rfl⟩ | hw'
    · obtain ⟨y, hy, heq⟩ := List.mem_map.mp hmem
      exact hother y (Or.inl hy) heq
    · exact h.pending w' x hw' hmem
  · intro w₁ w₂ x x' h₁ h₂ heq
    rcases hcases w₁ x h₁ with ⟨hw₁, hx⟩ | h₁ <;> rcases hcases w₂ x' h₂ with ⟨hw₂, hx'⟩ | h₂
    · exact hw₁.trans hw₂.symm
    · rw [hx] at heq
      exact absurd heq.symm (hother x' (Or.inr ⟨w₂, h₂⟩))
    · rw [hx'] at heq
      exact absurd heq (hother x (Or.inr ⟨w₁, h₁⟩))
    · exact h.apart w₁ w₂ x x' h₁ h₂ heq

/-- A packet is sent. -/
theorem Counted.send (h : Counted s) {w : ι} {x : Numbered K} (hw : s.pc w = .numbered x) :
    Counted ({ s with sent := x :: s.sent }.goto w .idle) := by
  have hidle : ∀ y, (.idle : Pc K) ≠ .numbered y := by
    intro y h
    cases h
  have hcases : ∀ w' y, ({ s with sent := x :: s.sent }.goto w .idle).pc w' = .numbered y →
      w' ≠ w ∧ s.pc w' = .numbered y := fun w' y hy =>
    numbered_of_goto (s := { s with sent := x :: s.sent }) hidle hy
  refine { once := h.once, below := ?_, sent := ?_, pending := ?_, apart := ?_ }
  · rintro y (hy | ⟨w', hw'⟩)
    · rcases List.mem_cons.mp hy with rfl | hy
      · exact h.below y (Or.inr ⟨w, hw⟩)
      · exact h.below y (Or.inl hy)
    · exact h.below y (Or.inr ⟨w', (hcases w' y hw').2⟩)
  · exact List.nodup_cons.mpr ⟨h.pending w x hw, h.sent⟩
  · intro w' y hw' hmem
    obtain ⟨hne, hy⟩ := hcases w' y hw'
    rcases List.mem_cons.mp hmem with heq | hmem
    · exact hne (h.apart w' w y x hy hw heq)
    · exact h.pending w' y hy hmem
  · exact fun w₁ w₂ y y' h₁ h₂ => h.apart w₁ w₂ y y' (hcases w₁ y h₁).2 (hcases w₂ y' h₂).2

omit [DecidableEq ι] in
/-- The counter is reset: no number taken before counts for it. -/
theorem Counted.reset (h : Counted s) : Counted { s with txSeq := 0, epoch := s.epoch + 1 } := by
  refine { h with below := fun x hx => ?_ }
  obtain ⟨hmem, hle, -⟩ := h.below x hx
  exact ⟨hmem, Nat.le_succ_of_le hle, fun heq => absurd (heq ▸ hle) (Nat.not_succ_le_self _)⟩

/-- **A step** that takes no number of a new count for an old key. -/
theorem Counted.step (h : Counted s) {a : Action ι K} (hok : OneCount s a)
    (hstep : Downlink.step s a = some t) : Counted t := by
  cases a with
  | forward w =>
    simp only [Downlink.step] at hstep
    split at hstep
    · refine Option.some.inj hstep ▸ h.goto w fun x => ?_
      split <;> exact nofun
    · exact absurd hstep (by simp)
  | rekey w key =>
    simp only [Downlink.step] at hstep
    split at hstep
    · exact Option.some.inj hstep ▸ h.goto w nofun
    · exact absurd hstep (by simp)
  | drop w =>
    simp only [Downlink.step] at hstep
    split at hstep
    · exact Option.some.inj hstep ▸ h.goto w nofun
    · exact absurd hstep (by simp)
  | next w =>
    simp only [Downlink.step, Downlink.next] at hstep
    cases hw : s.pc w with
    | idle =>
      rw [hw] at hstep
      exact absurd hstep (by simp)
    | loaded key =>
      rw [hw] at hstep
      refine Option.some.inj hstep ▸ h.goto w fun x => ?_
      split <;> exact nofun
    | routed key =>
      rw [hw] at hstep
      have hclear : s.Clear (.routed key) := hw ▸ hok
      exact Option.some.inj hstep ▸ h.number w key hclear.1 hclear.2
    | numbered x =>
      rw [hw] at hstep
      exact Option.some.inj hstep ▸ h.send hw
    | rekey stage key =>
      rw [hw] at hstep
      cases stage with
      | accepted => exact Option.some.inj hstep ▸ h.reset.goto w nofun
      | txReset =>
        have hstored : Counted { s with sendKey := key, v3HandshakeDone := true } := { h with }
        exact Option.some.inj hstep ▸ hstored.goto w nofun
      | cryptoSet =>
        have hstored : Counted { s with hasClient := true } := { h with }
        exact Option.some.inj hstep ▸ hstored.goto w nofun

omit [DecidableEq ι] in
theorem counted_init (zero : K) : Counted (init zero : State ι K) where
  below := fun x hx => by
    rcases hx with hx | ⟨w, hw⟩
    · exact nomatch hx
    · exact nomatch hw
  once := fun _ _ _ he => nomatch he
  sent := List.nodup_nil
  pending := fun _ _ hw => nomatch hw
  apart := fun _ _ _ _ hw => nomatch hw

/-- **No number is used twice under one key** in every state of a run in which every key has
one count. -/
theorem unique_of_meets (zero : K) (as : List (Action ι K)) (t : State ι K)
    (hok : Meets Downlink.step OneCount (init zero) as)
    (hrun : runs Downlink.step (init zero) as = some t) : Unique t :=
  (inv_of_meets (I := Counted) (fun h hok hstep => h.step hok hstep) (counted_init zero) hok
    hrun).sent

end

/-! ### A key with two counts -/

local instance neZeroTwo : NeZero 2 := ⟨by decide⟩

/-- The worker 0 forwards a packet. -/
def forwardOne : List (Action (Fin 2) ℕ) := .forward 0 :: List.replicate 3 (.next 0)

/-- The session has the send key 1 and forwards a packet; the next re-key has reset the
counter when another packet is forwarded. -/
def resetRun : List (Action (Fin 2) ℕ) :=
  .rekey 1 1 :: List.replicate 3 (.next 1) ++ forwardOne ++ .rekey 1 2 :: .next 1 :: forwardOne

/-- **The first number of the new counter is used under the old key, a second time.** -/
theorem not_unique : ∃ t, runs step (init 0) resetRun = some t ∧
    t.sent.map Numbered.nonce = [(1, 1), (1, 1)] ∧ ¬Unique t := by
  obtain ⟨t, ht, hsent⟩ := Option.map_eq_some_iff.mp
    (show (runs step (init 0) resetRun).map (fun t => t.sent.map Numbered.nonce) =
      some [(1, 1), (1, 1)] by decide +kernel)
  refine ⟨t, ht, hsent, fun h => ?_⟩
  rw [Unique, hsent] at h
  exact absurd h (by decide)

/-- Two packets under one key, a re-key, and two packets under the next one. -/
def orderlyRun : List (Action (Fin 2) ℕ) :=
  .rekey 1 1 :: List.replicate 3 (.next 1) ++ forwardOne ++ forwardOne ++
    .rekey 1 2 :: List.replicate 3 (.next 1) ++ forwardOne ++ forwardOne

theorem unique_orderlyRun : ∃ t, runs step (init 0) orderlyRun = some t ∧
    t.sent.map Numbered.nonce = [(2, 2), (2, 1), (1, 2), (1, 1)] ∧ Unique t := by
  obtain ⟨t, ht, hsent⟩ := Option.map_eq_some_iff.mp
    (show (runs step (init 0) orderlyRun).map (fun t => t.sent.map Numbered.nonce) =
      some [(2, 2), (2, 1), (1, 2), (1, 1)] by decide +kernel)
  exact ⟨t, ht, hsent, unique_of_meets 0 orderlyRun t (by decide +kernel) ht⟩

end Downlink

end Aegs
