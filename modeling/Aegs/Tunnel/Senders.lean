import Mathlib.Data.List.Nodup
import Mathlib.Logic.Function.Basic
import Aegs.Lib.Transition
import Aegs.Tunnel.Codec

/-!
# The senders of the tunnel

Every stream has a thread of its own, and all of them send through one object, without a
lock: `send_aegs_frame` at the server, `send_raw_packet` at the client. Both count
`self.tx_seq` up, which reads and writes it, read it once more for the nonce, and then read
`self.send_key` and encrypt. `Aegs.Tunnel.Sender.step` takes these steps one at a time, of
any number of threads in any order; another thread installs keys.

What a thread reads for its nonce is what was written last, by whomever. Two frames get one
number when a thread writes while another is between its own first read and its last;
without that no number comes twice (`Aegs.Tunnel.Sender.numberedOnce_of_meets`), and one
thread alone sends what `Aegs.Tunnel.AegsServer.sendAegsFrame` says
(`Aegs.Tunnel.Sender.sendAegsFrame_eq`).
-/

namespace Aegs

namespace Tunnel

namespace Sender

open Transition

/-- The functions that send. -/
inductive Program
  /-- `send_aegs_frame`. -/
  | sendAegsFrame
  /-- `send_raw_packet`. -/
  | sendRawPacket
deriving DecidableEq

/-- Where a thread is in its program, with its local values. -/
inductive Pc
  /-- Not in it. -/
  | idle
  /-- Behind the test for the key, with the frame padded. -/
  | padded
  /-- `self.tx_seq` has been read, to be counted up. -/
  | loaded (value : ℕ)
  /-- And written. -/
  | stored
  /-- `struct.pack("<Q", self.tx_seq)` is in the nonce. -/
  | packed (seq : ℕ)
deriving DecidableEq

/-- A frame that was encrypted. -/
structure Frame where
  /-- The key. -/
  key : Vector UInt8 32
  /-- The sequence number of the nonce. -/
  seq : ℕ
deriving DecidableEq

/-- The attributes that the threads share, and where each of them is. -/
structure State where
  /-- `self.client_addr`, of the server. -/
  clientAddr : Option ℕ
  /-- `self.send_key`. -/
  sendKey : Option (Vector UInt8 32)
  /-- `self.tx_seq`. -/
  txSeq : ℕ
  /-- Where the threads are. -/
  pc : ℕ → Pc
  /-- What was encrypted, newest first. -/
  frames : List Frame

/-- An object that has just been made. -/
def State.start : State := ⟨none, none, 0, fun _ => .idle, []⟩

/-- A step. -/
inductive Label
  /-- A thread calls the function. -/
  | call (thread : ℕ)
  /-- It reads `self.tx_seq`. -/
  | load (thread : ℕ)
  /-- It writes `self.tx_seq`. -/
  | store (thread : ℕ)
  /-- It reads `self.tx_seq` into the nonce. -/
  | pack (thread : ℕ)
  /-- It reads `self.send_key`, encrypts and sends. -/
  | encrypt (thread : ℕ)
  /-- A handshake or a resumption sets a key, which may be the one that was there. -/
  | install (addr : ℕ) (key : Vector UInt8 32)

/-- The test at the start of the function. -/
def State.ready (st : State) : Program → Bool
  | .sendAegsFrame => st.clientAddr.isSome && st.sendKey.isSome
  | .sendRawPacket => st.sendKey.isSome

/-- A thread moves on. -/
def State.goto (st : State) (thread : ℕ) (pc : Pc) : State :=
  { st with pc := Function.update st.pc thread pc }

/-- **One step.** Without a key the call returns at once, and `struct.pack` raises behind the
last number. -/
def step (p : Program) (st : State) : Label → Option State
  | .call i =>
    match st.pc i with
    | .idle => some (if st.ready p then st.goto i .padded else st)
    | _ => none
  | .load i =>
    match st.pc i with
    | .padded => some (st.goto i (.loaded st.txSeq))
    | _ => none
  | .store i =>
    match st.pc i with
    | .loaded value => some { st.goto i .stored with txSeq := value + 1 }
    | _ => none
  | .pack i =>
    match st.pc i with
    | .stored => some (st.goto i (if st.txSeq < 2 ^ 64 then .packed st.txSeq else .idle))
    | _ => none
  | .encrypt i =>
    match st.pc i, st.sendKey with
    | .packed seq, some key => some { st.goto i .idle with frames := ⟨key, seq⟩ :: st.frames }
    | _, _ => none
  | .install addr key => some { st with clientAddr := some addr, sendKey := some key }

/-- The thread is between its first read of `self.tx_seq` and its last. -/
def State.counting (st : State) (thread : ℕ) : Prop :=
  (∃ value, st.pc thread = .loaded value) ∨ st.pc thread = .stored

/-- **Nobody else is counting** when a thread writes `self.tx_seq`. -/
def Undisturbed (st : State) : Label → Prop
  | .store i => ∀ j, j ≠ i → ¬st.counting j
  | _ => True

/-- **No two frames under one key have one number.** -/
def NumberedOnce (st : State) : Prop := st.frames.Nodup

/-! ### What undisturbed steps keep -/

/-- What a number was used for: it is in a frame, or in the nonce of a thread. -/
def State.Used (st : State) (seq : ℕ) : Prop :=
  (∃ f ∈ st.frames, f.seq = seq) ∨ ∃ i, st.pc i = .packed seq

/-- **The invariant**: the number that a thread has just written is not used yet. -/
structure Counted (st : State) : Prop where
  /-- What was read is still there. -/
  loaded : ∀ i value, st.pc i = .loaded value → value = st.txSeq
  /-- One thread at a time is behind its write. -/
  stored : ∀ i j, st.pc i = .stored → st.pc j = .stored → i = j
  /-- And its number is new. -/
  fresh : ∀ i, st.pc i = .stored → ∀ seq, st.Used seq → seq < st.txSeq
  /-- No number is ahead. -/
  used_le : ∀ seq, st.Used seq → seq ≤ st.txSeq
  /-- Two threads have two numbers. -/
  packed : ∀ i j seq, st.pc i = .packed seq → st.pc j = .packed seq → i = j
  /-- A number in a nonce is in no frame. -/
  unsent : ∀ i seq, st.pc i = .packed seq → ∀ f ∈ st.frames, f.seq ≠ seq
  /-- The numbers of the frames are different. -/
  nodup : (st.frames.map Frame.seq).Nodup

theorem counted_start : Counted .start := by
  refine ⟨fun i value h => ?_, fun i j h => ?_, fun i h => ?_, fun seq h => ?_,
    fun i j seq h => ?_, fun i seq h => ?_, List.nodup_nil⟩
  · exact nomatch h
  · exact nomatch h
  · exact nomatch h
  · rcases h with ⟨f, hf, -⟩ | ⟨i, hi⟩
    · exact absurd hf (by simp [State.start])
    · exact nomatch hi
  · exact nomatch h
  · exact nomatch h

section

variable {st : State} {i : ℕ} {pc : Pc}

@[simp] theorem pc_goto_self (st : State) (i : ℕ) (pc : Pc) : (st.goto i pc).pc i = pc :=
  Function.update_self ..

theorem pc_goto_of_ne (st : State) {i j : ℕ} (h : j ≠ i) (pc : Pc) :
    (st.goto i pc).pc j = st.pc j := Function.update_of_ne h ..

/-- Where the threads are behind a move. -/
theorem pc_goto_eq_iff {j : ℕ} {pc' : Pc} :
    (st.goto i pc).pc j = pc' ↔ j = i ∧ pc = pc' ∨ j ≠ i ∧ st.pc j = pc' := by
  rcases eq_or_ne j i with rfl | hne
  · simp
  · simp [pc_goto_of_ne st hne, hne]

/-- Who is elsewhere than where the move went has not moved. -/
theorem pc_of_goto {j : ℕ} {pc' : Pc} (hj : (st.goto i pc).pc j = pc') (hne : pc ≠ pc') :
    j ≠ i ∧ st.pc j = pc' := by
  rw [pc_goto_eq_iff] at hj
  exact hj.resolve_left fun h => hne h.2

/-- A move to where there is no number uses none. -/
theorem used_goto {seq : ℕ} (h : (st.goto i pc).Used seq) (hpc : pc ≠ .packed seq) :
    st.Used seq := by
  rcases h with hframe | ⟨j, hj⟩
  · exact Or.inl hframe
  · exact Or.inr ⟨j, (pc_of_goto hj hpc).2⟩

/-- The call and the first read change no number. -/
theorem Counted.goto (h : Counted st) (hloaded : ∀ value, pc = .loaded value → value = st.txSeq)
    (hstored : pc ≠ .stored) (hpacked : ∀ seq, pc ≠ .packed seq) : Counted (st.goto i pc) := by
  refine ⟨fun j value hj => ?_, fun j k hj hk => ?_, fun j hj seq hseq => ?_, fun seq hseq => ?_,
    fun j k seq hj hk => ?_, fun j seq hj => ?_, h.nodup⟩
  · rw [pc_goto_eq_iff] at hj
    rcases hj with ⟨-, heq⟩ | ⟨-, hj⟩
    · exact hloaded value heq
    · exact h.loaded j value hj
  · exact h.stored j k (pc_of_goto hj hstored).2 (pc_of_goto hk hstored).2
  · exact h.fresh j (pc_of_goto hj hstored).2 seq (used_goto hseq (hpacked seq))
  · exact h.used_le seq (used_goto hseq (hpacked seq))
  · exact h.packed j k seq (pc_of_goto hj (hpacked seq)).2 (pc_of_goto hk (hpacked seq)).2
  · exact h.unsent j seq (pc_of_goto hj (hpacked seq)).2

/-- **An undisturbed write makes a new number.** -/
theorem Counted.store (h : Counted st) {value : ℕ} (hpc : st.pc i = .loaded value)
    (halone : ∀ j, j ≠ i → ¬st.counting j) :
    Counted { st.goto i .stored with txSeq := value + 1 } := by
  have hvalue : value = st.txSeq := h.loaded i value hpc
  have hused : ∀ {seq}, State.Used { st.goto i .stored with txSeq := value + 1 } seq →
      seq ≤ st.txSeq := by
    intro seq hseq
    have hgoto : (st.goto i .stored).Used seq := hseq
    exact h.used_le seq (used_goto hgoto fun heq => nomatch heq)
  have hother : ∀ {j pc'}, (st.goto i .stored).pc j = pc' → Pc.stored ≠ pc' →
      j ≠ i ∧ st.pc j = pc' := pc_of_goto
  have honly : ∀ {j}, (st.goto i .stored).pc j = .stored → j = i := by
    intro j hj
    rw [pc_goto_eq_iff] at hj
    rcases hj with ⟨rfl, -⟩ | ⟨hne, hj⟩
    · rfl
    · exact absurd (Or.inr hj) (halone j hne)
  refine ⟨fun j value' hj => ?_, fun j k hj hk => ?_, fun j hj seq hseq => ?_, fun seq hseq => ?_,
    fun j k seq hj hk => ?_, fun j seq hj => ?_, h.nodup⟩
  · obtain ⟨hne, hj⟩ := hother hj fun heq => nomatch heq
    exact absurd (Or.inl ⟨value', hj⟩) (halone j hne)
  · rw [honly hj, honly hk]
  · exact Nat.lt_succ_of_le (hvalue ▸ hused hseq)
  · exact Nat.le_succ_of_le (hvalue ▸ hused hseq)
  · exact h.packed j k seq (hother hj fun heq => nomatch heq).2
      (hother hk fun heq => nomatch heq).2
  · exact h.unsent j seq (hother hj fun heq => nomatch heq).2

/-- The number goes into the nonce of the thread that has written it. -/
theorem Counted.pack (h : Counted st) (hpc : st.pc i = .stored) :
    Counted (st.goto i (.packed st.txSeq)) := by
  have hused : ∀ {seq}, (st.goto i (.packed st.txSeq)).Used seq →
      seq = st.txSeq ∨ st.Used seq := by
    intro seq hseq
    by_cases heq : seq = st.txSeq
    · exact Or.inl heq
    · exact Or.inr (used_goto hseq fun hpacked => heq (Pc.packed.inj hpacked).symm)
  have hnew : ∀ {seq}, st.Used seq → seq ≠ st.txSeq := fun hseq =>
    (h.fresh i hpc _ hseq).ne
  have hnone : ∀ {j}, (st.goto i (.packed st.txSeq)).pc j ≠ .stored := by
    intro j hj
    obtain ⟨hne, hj⟩ := pc_of_goto hj fun heq => nomatch heq
    exact hne (h.stored j i hj hpc)
  have hpacked : ∀ {j seq}, (st.goto i (.packed st.txSeq)).pc j = .packed seq →
      j = i ∧ seq = st.txSeq ∨ st.pc j = .packed seq ∧ seq ≠ st.txSeq := by
    intro j seq hj
    rw [pc_goto_eq_iff] at hj
    rcases hj with ⟨rfl, heq⟩ | ⟨-, hj⟩
    · exact Or.inl ⟨rfl, (Pc.packed.inj heq).symm⟩
    · exact Or.inr ⟨hj, hnew (Or.inr ⟨j, hj⟩)⟩
  refine ⟨fun j value hj => ?_, fun j k hj => ?_, fun j hj => ?_, fun seq hseq => ?_,
    fun j k seq hj hk => ?_, fun j seq hj f hf => ?_, h.nodup⟩
  · exact h.loaded j value (pc_of_goto hj fun heq => nomatch heq).2
  · exact absurd hj hnone
  · exact absurd hj hnone
  · rcases hused hseq with rfl | hseq
    · exact le_rfl
    · exact h.used_le seq hseq
  · rcases hpacked hj with ⟨rfl, rfl⟩ | ⟨hj, hne⟩
    · rcases hpacked hk with ⟨rfl, -⟩ | ⟨-, hne⟩
      · rfl
      · exact absurd rfl hne
    · rcases hpacked hk with ⟨-, rfl⟩ | ⟨hk, -⟩
      · exact absurd rfl hne
      · exact h.packed j k seq hj hk
  · rcases hpacked hj with ⟨-, rfl⟩ | ⟨hj, -⟩
    · exact hnew (Or.inl ⟨f, hf, rfl⟩)
    · exact h.unsent j seq hj f hf

/-- The number goes from the nonce into a frame. -/
theorem Counted.encrypt (h : Counted st) {seq : ℕ} (hpc : st.pc i = .packed seq)
    (key : Vector UInt8 32) :
    Counted { st.goto i .idle with frames := ⟨key, seq⟩ :: st.frames } := by
  have hother : ∀ {j pc'}, (st.goto i .idle).pc j = pc' → Pc.idle ≠ pc' →
      j ≠ i ∧ st.pc j = pc' := pc_of_goto
  have hused : ∀ {seq'},
      State.Used { st.goto i .idle with frames := ⟨key, seq⟩ :: st.frames } seq' →
      st.Used seq' := by
    rintro seq' (⟨f, hf, rfl⟩ | ⟨j, hj⟩)
    · rcases List.mem_cons.mp hf with rfl | hf
      · exact Or.inr ⟨i, hpc⟩
      · exact Or.inl ⟨f, hf, rfl⟩
    · exact Or.inr ⟨j, (hother hj fun heq => nomatch heq).2⟩
  refine ⟨fun j value hj => ?_, fun j k hj hk => ?_, fun j hj seq' hseq => ?_,
    fun seq' hseq => ?_, fun j k seq' hj hk => ?_, fun j seq' hj f hf => ?_, ?_⟩
  · exact h.loaded j value (hother hj fun heq => nomatch heq).2
  · exact h.stored j k (hother hj fun heq => nomatch heq).2 (hother hk fun heq => nomatch heq).2
  · exact h.fresh j (hother hj fun heq => nomatch heq).2 seq' (hused hseq)
  · exact h.used_le seq' (hused hseq)
  · exact h.packed j k seq' (hother hj fun heq => nomatch heq).2
      (hother hk fun heq => nomatch heq).2
  · obtain ⟨hne, hj⟩ := hother hj fun heq => nomatch heq
    rcases List.mem_cons.mp hf with rfl | hf
    · rintro rfl
      exact hne (h.packed j i seq hj hpc)
    · exact h.unsent j seq' hj f hf
  · rw [List.map_cons, List.nodup_cons]
    refine ⟨fun hmem => ?_, h.nodup⟩
    obtain ⟨f, hf, heq⟩ := List.mem_map.mp hmem
    exact h.unsent i seq hpc f hf heq

/-- Each undisturbed step keeps the invariant. -/
theorem Counted.step {p : Program} {st' : State} {l : Label} (h : Counted st)
    (hok : Undisturbed st l) (hstep : Sender.step p st l = some st') : Counted st' := by
  cases l with
  | call i =>
    rw [Sender.step] at hstep
    split at hstep
    · obtain rfl := Option.some.inj hstep
      split
      · exact h.goto (fun value heq => nomatch heq) (fun heq => nomatch heq)
          fun seq heq => nomatch heq
      · exact h
    · exact nomatch hstep
  | load i =>
    rw [Sender.step] at hstep
    split at hstep
    · obtain rfl := Option.some.inj hstep
      exact h.goto (fun value heq => (Pc.loaded.inj heq).symm) (fun heq => nomatch heq)
        fun seq heq => nomatch heq
    · exact nomatch hstep
  | store i =>
    rw [Sender.step] at hstep
    split at hstep
    · rename_i value hpc
      obtain rfl := Option.some.inj hstep
      exact h.store hpc hok
    · exact nomatch hstep
  | pack i =>
    rw [Sender.step] at hstep
    split at hstep
    · rename_i hpc
      obtain rfl := Option.some.inj hstep
      split
      · exact h.pack hpc
      · exact h.goto (fun value heq => nomatch heq) (fun heq => nomatch heq)
          fun seq heq => nomatch heq
    · exact nomatch hstep
  | encrypt i =>
    rw [Sender.step] at hstep
    split at hstep
    · rename_i seq key hpc hkey
      obtain rfl := Option.some.inj hstep
      exact h.encrypt hpc key
    · exact nomatch hstep
  | install addr key =>
    obtain rfl := Option.some.inj hstep
    exact ⟨h.loaded, h.stored, h.fresh, h.used_le, h.packed, h.unsent, h.nodup⟩

end

/-- **Where nobody writes while another is counting, no number comes twice**, under whatever
keys. -/
theorem numberedOnce_of_meets {p : Program} {labels : List Label} {st : State}
    (hok : Meets (step p) Undisturbed .start labels)
    (hrun : runs (step p) .start labels = some st) : NumberedOnce st := by
  have hcounted : Counted st :=
    inv_of_meets (fun h hok hstep => h.step hok hstep) counted_start hok hrun
  exact hcounted.nodup.of_map Frame.seq

/-! ### One thread -/

section

variable {S : Type} (L : Library S) (t : Token)

/-- A server that nothing is sent through. -/
def ofServer (srv : AegsServer S) : State :=
  ⟨srv.clientAddr, srv.sendKey, srv.txSeq, fun _ => .idle, []⟩

/-- **The steps of one thread alone are `send_aegs_frame`**: it sends the packet of the frame
that they encrypt. -/
theorem sendAegsFrame_eq (srv : AegsServer S) {addr : ℕ} {key : Vector UInt8 32}
    (haddr : srv.clientAddr = some addr) (hkey : srv.sendKey = some key)
    (hlast : srv.txSeq + 1 < 2 ^ 64) (streamId : UInt32) (cmd : UInt8) (payload : List UInt8)
    (d : ServerDraws) :
    ∃ st f, runs (step .sendAegsFrame) (ofServer srv)
        [.call 0, .load 0, .store 0, .pack 0, .encrypt 0] = some st ∧ st.frames = [f] ∧
      srv.sendAegsFrame L t streamId cmd payload d =
        (some (serverPacket L t f.key f.seq.toUInt64 streamId cmd payload d),
          { srv with txSeq := st.txSeq }) := by
  obtain ⟨st₀, hst₀⟩ : ∃ st, st = ofServer srv := ⟨_, rfl⟩
  have hready : st₀.ready .sendAegsFrame = true := by
    rw [hst₀, State.ready, ofServer, haddr, hkey]
    rfl
  have hpc : st₀.pc 0 = .idle := by rw [hst₀, ofServer]
  have hsendKey : st₀.sendKey = some key := by rw [hst₀, ofServer, hkey]
  have htxSeq : st₀.txSeq = srv.txSeq := by rw [hst₀, ofServer]
  have hframes : st₀.frames = [] := by rw [hst₀, ofServer]
  have hrun : ∃ st, runs (step .sendAegsFrame) st₀
      [.call 0, .load 0, .store 0, .pack 0, .encrypt 0] = some st ∧
        st.frames = [⟨key, srv.txSeq + 1⟩] ∧ st.txSeq = srv.txSeq + 1 := by
    have hlast' : srv.txSeq + 1 < 18446744073709551616 := hlast
    simp [runs_cons, step, hpc, hready, State.goto, hsendKey, htxSeq, hframes, hlast']
  obtain ⟨st, hrun, hsent, htx⟩ := hrun
  refine ⟨st, ⟨key, srv.txSeq + 1⟩, hst₀ ▸ hrun, hsent, ?_⟩
  rw [AegsServer.sendAegsFrame, haddr, hkey]
  dsimp only
  rw [if_pos hlast, htx]

end

/-- Two threads, one behind the other. -/
def inTurn : List Label :=
  [.install 9 (Vector.replicate 32 1), .call 0, .load 0, .store 0, .pack 0, .encrypt 0,
    .call 1, .load 1, .store 1, .pack 1, .encrypt 1]

theorem numberedOnce_inTurn : ∃ st, runs (step .sendAegsFrame) .start inTurn = some st ∧
    st.frames.map Frame.seq = [2, 1] ∧ NumberedOnce st := by
  obtain ⟨st, hrun, hseqs⟩ := Option.map_eq_some_iff.mp
    (show (runs (step .sendAegsFrame) .start inTurn).map (fun st => st.frames.map Frame.seq) =
      some [2, 1] by decide)
  -- the other thread is not in its program
  have hother : ∀ i value j : ℕ, ¬j = i →
      (∀ x, ¬(if j = i then Pc.loaded value else Pc.idle) = Pc.loaded x) ∧
        ¬(if j = i then Pc.loaded value else Pc.idle) = Pc.stored := by
    intro i value j hj
    rw [if_neg hj]
    exact ⟨fun x heq => (nomatch heq), fun heq => (nomatch heq)⟩
  have hok : Meets (step .sendAegsFrame) Undisturbed .start inTurn := by
    simpa [inTurn, Meets, Undisturbed, step, State.goto, State.counting, State.start, State.ready,
      Function.update_apply] using And.intro (hother 0 0) (hother 1 1)
  exact ⟨st, hrun, hseqs, numberedOnce_of_meets hok hrun⟩

/-- **Two threads that count up before either reads** send two frames with the number 2. -/
theorem not_numberedOnce : ¬∀ (p : Program) (labels : List Label) (st : State),
    runs (step p) .start labels = some st → NumberedOnce st := by
  intro h
  obtain ⟨st, hrun, hframes⟩ := Option.map_eq_some_iff.mp
    (show (runs (step .sendAegsFrame) .start
      [.install 9 (Vector.replicate 32 1), .call 0, .call 1, .load 0, .store 0, .load 1, .store 1,
        .pack 0, .pack 1, .encrypt 0, .encrypt 1]).map State.frames =
        some [⟨Vector.replicate 32 1, 2⟩, ⟨Vector.replicate 32 1, 2⟩] by decide)
  have hnodup := h _ _ st hrun
  rw [NumberedOnce, hframes] at hnodup
  exact absurd hnodup (List.not_nodup_pair _)

end Sender

end Tunnel

end Aegs
