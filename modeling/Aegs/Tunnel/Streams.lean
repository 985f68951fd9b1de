import Mathlib.Data.List.Basic
import Aegs.Lib.Transition
import Aegs.Tunnel.Packet

/-!
# The streams of the tunnel

The server handles the frames of the client one after the other. A `CMD_CONNECT` starts a
thread, which connects to the remote host, enters its socket in `streams`, relays what the
remote host sends, and takes the stream out again at the end (`proxy_worker`). A `CMD_DATA`
is written to the socket that is found in `streams`, or to none.

The system is the client, a channel that loses nothing, the handler and the workers
(`Aegs.Tunnel.Streams.step`); what the tunnel does to frames on their way is the subject of
`Aegs.Tunnel.Codec` and left out here. A worker and its socket are named by the position of
their `CMD_CONNECT` among the frames. `Aegs.Tunnel.Streams.meets_delivered_iff` says in
which runs each remote socket gets what the client sent for it. The gateway has the same
handler and the same workers.
-/

namespace Aegs

namespace Tunnel

namespace Streams

open Transition

/-! ### The system -/

/-- Where `proxy_worker` is. -/
inductive WorkerPc
  /-- In `create_connection`. -/
  | connecting
  /-- Before the socket is entered in `streams`. -/
  | connected
  /-- In the loop over `recv`. -/
  | relaying
  /-- In the `finally`, before the stream is taken out. -/
  | leaving
  /-- Before the socket is closed. -/
  | closing
  /-- At its end. -/
  | done
  deriving DecidableEq

/-- Where `handle_client_payload` is. -/
inductive HandlerPc
  /-- Before the next frame. -/
  | idle
  /-- Before `sendall`, with a socket. -/
  | sending (socket : ℕ)
  /-- Before `close`, with a socket. -/
  | closing (socket : ℕ)
  deriving DecidableEq

/-- The client, the channel, the handler and the workers. -/
structure System where
  /-- The frames that the client has sent, first to last. -/
  sent : List Command
  /-- How many of them have been handled. -/
  handled : ℕ
  /-- Where the handler is. -/
  handler : HandlerPc
  /-- The workers, with their stream ids. -/
  worker : ℕ → Option (UInt32 × WorkerPc)
  /-- `streams`. -/
  streams : UInt32 → Option ℕ
  /-- The sockets that are closed. -/
  closed : ℕ → Bool
  /-- What was written to each socket. -/
  written : ℕ → List UInt8

/-- Nothing has been sent. -/
def System.start : System where
  sent := []
  handled := 0
  handler := .idle
  worker := fun _ => none
  streams := fun _ => none
  closed := fun _ => false
  written := fun _ => []

/-- What happens next. -/
inductive Event
  /-- The client sends a frame. -/
  | send (frame : Command)
  /-- The handler takes the next frame, up to where it leaves the lock. -/
  | handle
  /-- `sendall` goes through, or raises behind so many bytes. -/
  | sendall (raises : Option ℕ)
  /-- The handler closes a socket. -/
  | closeSocket
  /-- `create_connection` of a worker returns, or raises. -/
  | connect (w : ℕ) (ok : Bool)
  /-- A worker enters its socket. -/
  | register (w : ℕ)
  /-- The loop of a worker ends: `recv` gives nothing, or something raises. -/
  | recvEnd (w : ℕ)
  /-- A worker takes its stream out. -/
  | pop (w : ℕ)
  /-- A worker closes its socket. -/
  | finish (w : ℕ)

/-- A frame that the client sends: `recv` does not hand over an empty `CMD_DATA`. -/
def Sends : Command → Prop
  | .data _ payload => payload ≠ []
  | .connect _ _ _ | .close _ => True

instance : DecidablePred Sends
  | .data _ payload => inferInstanceAs (Decidable (payload ≠ []))
  | .connect _ _ _ => isTrue trivial
  | .close _ => isTrue trivial

/-- The bytes of a payload that `sendall` writes. -/
def written (payload : List UInt8) : Option ℕ → List UInt8
  | none => payload
  | some n => payload.take n

/-- The frame is done with. -/
def System.next (st : System) : System :=
  { st with handled := st.handled + 1, handler := .idle }

/-- A worker goes on. -/
def System.goto (st : System) (w : ℕ) (sid : UInt32) (pc : WorkerPc) : System :=
  { st with worker := Function.update st.worker w (some (sid, pc)) }

/-- One step. -/
def step (st : System) : Event → Option System
  | .send frame => if Sends frame then some { st with sent := st.sent ++ [frame] } else none
  | .handle =>
    match st.handler, st.sent[st.handled]? with
    | .idle, some (.connect sid _ _) => some (st.goto st.handled sid .connecting).next
    | .idle, some (.data sid _) =>
      match st.streams sid with
      | none => some st.next
      | some socket => some { st with handler := .sending socket }
    | .idle, some (.close sid) =>
      let st' := { st with streams := Function.update st.streams sid none }
      match st.streams sid with
      | none => some st'.next
      | some socket => some { st' with handler := .closing socket }
    | _, _ => none
  | .sendall raises =>
    match st.handler, st.sent[st.handled]? with
    | .sending socket, some (.data _ payload) =>
      -- a socket that is closed takes nothing
      if st.closed socket → raises = some 0 then
        some { st with
          written := Function.update st.written socket
            (st.written socket ++ Streams.written payload raises) }.next
      else none
    | _, _ => none
  | .closeSocket =>
    match st.handler with
    | .closing socket => some { st with closed := Function.update st.closed socket true }.next
    | _ => none
  | .connect w ok =>
    match st.worker w with
    | some (sid, .connecting) => some (st.goto w sid (if ok then .connected else .leaving))
    | _ => none
  | .register w =>
    match st.worker w with
    | some (sid, .connected) =>
      some { st.goto w sid .relaying with
        streams := Function.update st.streams sid (some w) }
    | _ => none
  | .recvEnd w =>
    match st.worker w with
    | some (sid, .relaying) => some (st.goto w sid .leaving)
    | _ => none
  | .pop w =>
    match st.worker w with
    | some (sid, .leaving) =>
      some { st.goto w sid .closing with
        streams := Function.update st.streams sid none }
    | _ => none
  | .finish w =>
    match st.worker w with
    | some (sid, .closing) =>
      some { st.goto w sid .done with closed := Function.update st.closed w true }
    | _ => none

/-! ### What the sockets are owed -/

/-- The `CMD_CONNECT` that the frames of a stream belong to behind so many frames. -/
def current (sent : List Command) : ℕ → UInt32 → Option ℕ
  | 0, _ => none
  | n + 1, sid =>
    match sent[n]? with
    | some (.connect sid' _ _) => if sid' = sid then some n else current sent n sid
    | some (.close sid') => if sid' = sid then none else current sent n sid
    | some (.data _ _) | none => current sent n sid

/-- What a frame has for a socket. -/
def share (sent : List Command) (n w : ℕ) : List UInt8 :=
  match sent[n]? with
  | some (.data sid payload) => if current sent n sid = some w then payload else []
  | _ => []

/-- What the first frames have for a socket: the payloads behind its `CMD_CONNECT` and
before the `CMD_CLOSE` of its stream, one after the other. -/
def due (sent : List Command) : ℕ → ℕ → List UInt8
  | 0, _ => []
  | n + 1, w => due sent n w ++ share sent n w

/-- Every socket was written what the frames that are done with have for it. -/
def System.Delivered (st : System) : Prop := ∀ w, st.written w = due st.sent st.handled w

/-- **The condition on a step**: a `CMD_DATA` between a `CMD_CONNECT` and a `CMD_CLOSE` finds
the socket of that `CMD_CONNECT`, and `sendall` goes through; any other is not written. -/
def Prompt (st : System) : Event → Prop
  | .handle => ∀ sid payload, st.handler = .idle → st.sent[st.handled]? = some (.data sid payload) →
      st.streams sid = none → current st.sent st.handled sid = none
  | .sendall raises => ∀ socket sid payload, st.handler = .sending socket →
      st.sent[st.handled]? = some (.data sid payload) → (st.closed socket → raises = some 0) →
      (current st.sent st.handled sid = some socket ∧ written payload raises = payload) ∨
        (current st.sent st.handled sid = none ∧ written payload raises = [])
  | _ => True

/-! ### What frames are due -/

theorem current_append {sent : List Command} (more : List Command) {n : ℕ} (hn : n ≤ sent.length)
    (sid : UInt32) : current (sent ++ more) n sid = current sent n sid := by
  induction n with
  | zero => rfl
  | succ n ih =>
    rw [current, current, List.getElem?_append_left hn, ih (Nat.le_of_succ_le hn)]

theorem due_append {sent : List Command} (more : List Command) {n : ℕ} (hn : n ≤ sent.length)
    (w : ℕ) : due (sent ++ more) n w = due sent n w := by
  induction n with
  | zero => rfl
  | succ n ih =>
    rw [due, due, share, share, List.getElem?_append_left hn, ih (Nat.le_of_succ_le hn)]
    simp only [current_append more (Nat.le_of_succ_le hn)]

theorem share_data {sent : List Command} {n : ℕ} {sid : UInt32} {payload : List UInt8}
    (h : sent[n]? = some (.data sid payload)) (w : ℕ) :
    share sent n w = if current sent n sid = some w then payload else [] := by
  rw [share, h]

theorem share_connect {sent : List Command} {n : ℕ} {sid : UInt32} {host : List Char}
    {port : UInt16} (h : sent[n]? = some (.connect sid host port)) (w : ℕ) :
    share sent n w = [] := by
  rw [share, h]

theorem share_close {sent : List Command} {n : ℕ} {sid : UInt32}
    (h : sent[n]? = some (.close sid)) (w : ℕ) : share sent n w = [] := by
  rw [share, h]

/-! ### What a step preserves -/

/-- How the frames and the handler stand, in every run. -/
structure Framed (st : System) : Prop where
  /-- The frames that are done with have been sent. -/
  handled_le : st.handled ≤ st.sent.length
  /-- No payload is empty. -/
  sends : ∀ frame ∈ st.sent, Sends frame
  /-- The handler closes a socket for a `CMD_CLOSE`. -/
  closing : ∀ socket, st.handler = .closing socket →
    ∃ sid, st.sent[st.handled]? = some (.close sid)

theorem framed_start : Framed .start where
  handled_le := le_rfl
  sends := fun _ hmem => nomatch hmem
  closing := fun _ h => nomatch h

/-- A frame is done with. -/
theorem Framed.next {st st' : System} (h : Framed st) {frame : Command}
    (hframe : st.sent[st.handled]? = some frame) (hsent : st'.sent = st.sent)
    (hhandled : st'.handled = st.handled + 1) (hhandler : st'.handler = .idle) : Framed st' where
  handled_le := by
    rw [hsent, hhandled]
    exact (List.getElem?_eq_some_iff.mp hframe).1
  sends := by
    rw [hsent]
    exact h.sends
  closing := by
    rw [hhandler]
    exact fun _ hclosing => nomatch hclosing

theorem Framed.step {st st' : System} (h : Framed st) {e : Event} (hstep : step st e = some st') :
    Framed st' := by
  cases e with
  | send frame =>
    obtain ⟨hsends, hst'⟩ := Option.ite_none_right_eq_some.mp hstep
    obtain rfl := Option.some.inj hst'
    refine ⟨?_, List.forall_mem_append.mpr ⟨h.sends, by simpa using hsends⟩, ?_⟩
    · exact h.handled_le.trans (List.length_append ▸ Nat.le_add_right _ _)
    · intro socket hclosing
      obtain ⟨sid, hframe⟩ := h.closing socket hclosing
      refine ⟨sid, ?_⟩
      rw [List.getElem?_append_left (List.getElem?_eq_some_iff.mp hframe).1]
      exact hframe
  | handle =>
    simp only [Streams.step] at hstep
    split at hstep
    · rename_i hframe
      obtain rfl := Option.some.inj hstep
      exact h.next hframe rfl rfl rfl
    · rename_i hframe
      split at hstep
      · obtain rfl := Option.some.inj hstep
        exact h.next hframe rfl rfl rfl
      · obtain rfl := Option.some.inj hstep
        exact ⟨h.handled_le, h.sends, nofun⟩
    · rename_i sid hhandler hframe
      split at hstep
      · obtain rfl := Option.some.inj hstep
        exact h.next hframe rfl rfl rfl
      · obtain rfl := Option.some.inj hstep
        exact ⟨h.handled_le, h.sends, fun _ _ => ⟨sid, hframe⟩⟩
    · exact nomatch hstep
  | sendall raises =>
    simp only [Streams.step] at hstep
    split at hstep
    · rename_i hframe
      obtain rfl := Option.some.inj (Option.ite_none_right_eq_some.mp hstep).2
      exact h.next hframe rfl rfl rfl
    · exact nomatch hstep
  | closeSocket =>
    simp only [Streams.step] at hstep
    split at hstep
    · rename_i socket hhandler
      obtain rfl := Option.some.inj hstep
      obtain ⟨sid, hframe⟩ := h.closing socket hhandler
      exact h.next hframe rfl rfl rfl
    · exact nomatch hstep
  | connect w ok | register w | recvEnd w | pop w | finish w =>
    simp only [Streams.step] at hstep
    split at hstep
    · obtain rfl := Option.some.inj hstep
      exact ⟨h.handled_le, h.sends, h.closing⟩
    · exact nomatch hstep

section

variable {st st' : System} (hdelivered : st.Delivered)
include hdelivered

/-- Behind a frame everything is delivered if what was written is what the frame has. -/
theorem delivered_next_iff (bytes : ℕ → List UInt8) (hsent : st'.sent = st.sent)
    (hhandled : st'.handled = st.handled + 1)
    (hwritten : ∀ w, st'.written w = st.written w ++ bytes w) :
    st'.Delivered ↔ ∀ w, bytes w = share st.sent st.handled w := by
  refine forall_congr' fun w => ?_
  rw [hwritten, hsent, hhandled, due, hdelivered w, List.append_cancel_left_eq]

/-- A frame that has nothing for any socket, and for which nothing is written. -/
theorem delivered_pass (hshare : ∀ w, share st.sent st.handled w = [])
    (hsent : st'.sent = st.sent) (hhandled : st'.handled = st.handled + 1)
    (hwritten : st'.written = st.written) : st'.Delivered := by
  refine (delivered_next_iff hdelivered (fun _ => []) hsent hhandled fun w => ?_).mpr
    fun w => (hshare w).symm
  rw [hwritten, List.append_nil]

/-- A `CMD_DATA` that no socket is found for has to be due to none. -/
theorem delivered_dropped_iff (h : Framed st) {sid : UInt32} {payload : List UInt8}
    (hframe : st.sent[st.handled]? = some (.data sid payload)) :
    st.next.Delivered ↔ current st.sent st.handled sid = none := by
  have hne : payload ≠ [] := h.sends _ (List.mem_of_getElem? hframe)
  rw [@delivered_next_iff st st.next hdelivered (fun _ => []) rfl rfl
    fun _ => (List.append_nil _).symm]
  constructor
  · intro hshare
    by_contra hsome
    obtain ⟨w, hw⟩ := Option.ne_none_iff_exists'.mp hsome
    have hdue := hshare w
    rw [share_data hframe, if_pos hw] at hdue
    exact hne hdue.symm
  · intro hnone w
    rw [share_data hframe, hnone, if_neg (Option.some_ne_none w).symm]

/-- A `CMD_DATA` that is written to a socket has to be due to it, and to be written whole. -/
theorem delivered_sent_iff (h : Framed st) {socket : ℕ} {sid : UInt32}
    {payload bytes : List UInt8} (hframe : st.sent[st.handled]? = some (.data sid payload))
    (hst' : st' = { st with
      written := Function.update st.written socket (st.written socket ++ bytes) }.next) :
    st'.Delivered ↔ (current st.sent st.handled sid = some socket ∧ bytes = payload) ∨
      (current st.sent st.handled sid = none ∧ bytes = []) := by
  have hne : payload ≠ [] := h.sends _ (List.mem_of_getElem? hframe)
  have hwritten : ∀ w, st'.written w = st.written w ++ if w = socket then bytes else [] := by
    intro w
    rw [hst']
    simp only [System.next, Function.update_apply]
    split
    · rename_i heq
      rw [heq]
    · rw [List.append_nil]
  rw [delivered_next_iff hdelivered _ (by rw [hst']; rfl) (by rw [hst']; rfl) hwritten]
  simp only [share_data hframe]
  constructor
  · intro hshare
    cases hcurrent : current st.sent st.handled sid with
    | none =>
      have hsocket := hshare socket
      rw [if_pos rfl, hcurrent, if_neg (Option.some_ne_none _).symm] at hsocket
      exact Or.inr ⟨rfl, hsocket⟩
    | some w =>
      have hw := hshare w
      rw [hcurrent, if_pos rfl] at hw
      split at hw
      · rename_i heq
        exact Or.inl ⟨congrArg some heq, hw⟩
      · exact absurd hw.symm hne
  · rintro (⟨hcurrent, rfl⟩ | ⟨hcurrent, rfl⟩) w
    · rw [hcurrent]
      exact if_congr (by rw [Option.some_inj, eq_comm]) rfl rfl
    · rw [hcurrent, ite_self, if_neg (Option.some_ne_none w).symm]

/-- **What one step preserves**: everything stays delivered exactly if the step is prompt. -/
theorem delivered_step_iff (h : Framed st) {e : Event} (hstep : step st e = some st') :
    st'.Delivered ↔ Prompt st e := by
  cases e with
  | send frame =>
    obtain rfl := Option.some.inj (Option.ite_none_right_eq_some.mp hstep).2
    refine iff_of_true (fun w => ?_) trivial
    exact (hdelivered w).trans (due_append _ h.handled_le w).symm
  | handle =>
    simp only [step] at hstep
    split at hstep
    · -- a `CMD_CONNECT` has nothing for any socket
      rename_i hhandler hframe
      obtain rfl := Option.some.inj hstep
      refine iff_of_true (delivered_pass hdelivered (share_connect hframe) rfl rfl rfl) ?_
      intro sid' payload _ hdata
      rw [hframe] at hdata
      exact nomatch hdata
    · rename_i sid payload hhandler hframe
      split at hstep
      · rename_i hnone
        obtain rfl := Option.some.inj hstep
        rw [delivered_dropped_iff hdelivered h hframe]
        constructor
        · intro hcurrent sid' payload' _ hdata _
          rw [hframe, Option.some_inj, Command.data.injEq] at hdata
          exact hdata.1 ▸ hcurrent
        · intro hprompt
          exact hprompt sid payload hhandler hframe hnone
      · rename_i socket hsocket
        obtain rfl := Option.some.inj hstep
        refine iff_of_true hdelivered ?_
        intro sid' payload' _ hdata hnone
        rw [hframe, Option.some_inj, Command.data.injEq] at hdata
        rw [← hdata.1, hsocket] at hnone
        exact nomatch hnone
    · rename_i sid hhandler hframe
      have hprompt : Prompt st .handle := by
        intro sid' payload' _ hdata
        rw [hframe] at hdata
        exact nomatch hdata
      split at hstep
      · obtain rfl := Option.some.inj hstep
        exact iff_of_true (delivered_pass hdelivered (share_close hframe) rfl rfl rfl) hprompt
      · obtain rfl := Option.some.inj hstep
        exact iff_of_true hdelivered hprompt
    · exact nomatch hstep
  | sendall raises =>
    simp only [step] at hstep
    split at hstep
    · rename_i socket sid payload hhandler hframe
      obtain ⟨hopen, hst'⟩ := Option.ite_none_right_eq_some.mp hstep
      rw [delivered_sent_iff hdelivered h hframe (Option.some.inj hst').symm]
      constructor
      · intro hwritten socket' sid' payload' hhandler' hframe' _
        obtain rfl := HandlerPc.sending.inj (hhandler.symm.trans hhandler')
        obtain ⟨rfl, rfl⟩ := Command.data.inj (Option.some.inj (hframe.symm.trans hframe'))
        exact hwritten
      · intro hprompt
        exact hprompt socket sid payload hhandler hframe hopen
    · exact nomatch hstep
  | closeSocket =>
    simp only [step] at hstep
    split at hstep
    · rename_i socket hhandler
      obtain rfl := Option.some.inj hstep
      obtain ⟨sid, hframe⟩ := h.closing socket hhandler
      exact iff_of_true (delivered_pass hdelivered (share_close hframe) rfl rfl rfl) trivial
    · exact nomatch hstep
  | connect w ok | register w | recvEnd w | pop w | finish w =>
    simp only [step] at hstep
    split at hstep
    · obtain rfl := Option.some.inj hstep
      exact iff_of_true hdelivered trivial
    · exact nomatch hstep

end

/-- A step that cannot be taken is prompt. -/
theorem prompt_of_step_eq_none {st : System} {e : Event} (hstep : step st e = none) :
    Prompt st e := by
  cases e with
  | handle =>
    intro sid payload hhandler hframe hnone
    simp only [step, hhandler, hframe, hnone] at hstep
    exact nomatch hstep
  | sendall raises =>
    intro socket sid payload hhandler hframe hopen
    simp only [step, hhandler, hframe, if_pos hopen] at hstep
    exact nomatch hstep
  | _ => trivial

/-- **What reaches the remote sockets**: in a run each socket has, behind each step, what the
frames that are done with have for it – all of what the client sent behind its
`CMD_CONNECT` and before the `CMD_CLOSE`, once every frame is done with – exactly if each
step is prompt. -/
theorem meets_delivered_iff (es : List Event) :
    Meets step (fun st e => ∀ st' ∈ step st e, st'.Delivered) .start es ↔
      Meets step Prompt .start es := by
  have hstart : Framed .start ∧ System.start.Delivered := ⟨framed_start, fun _ => rfl⟩
  constructor
  · refine Meets.imp (I := fun st => Framed st ∧ st.Delivered) ?_ ?_ hstart
    · rintro st e st' ⟨h, -⟩ hok hstep
      exact ⟨h.step hstep, hok st' hstep⟩
    · rintro st e ⟨h, hdelivered⟩ hok
      cases hstep : step st e with
      | none => exact prompt_of_step_eq_none hstep
      | some st' => exact (delivered_step_iff hdelivered h hstep).mp (hok st' hstep)
  · refine Meets.imp (I := fun st => Framed st ∧ st.Delivered) ?_ ?_ hstart
    · rintro st e st' ⟨h, hdelivered⟩ hprompt hstep
      exact ⟨h.step hstep, (delivered_step_iff hdelivered h hstep).mpr hprompt⟩
    · rintro st e ⟨h, hdelivered⟩ hprompt st' hstep
      exact (delivered_step_iff hdelivered h hstep).mpr hprompt

/-- **A frame that overtakes its worker**: the client sends `CMD_CONNECT` and `CMD_DATA`, and
both are handled before the worker has connected. The byte is lost, although the worker
registers the stream later on. -/
theorem not_delivered :
    ∃ st, runs step .start [.send (.connect 101 ['a'] 80), .send (.data 101 [7]), .handle, .handle,
        .connect 0 true, .register 0] = some st ∧
      st.handled = st.sent.length ∧ due st.sent st.handled 0 = [7] ∧ st.written 0 = [] := by
  refine ⟨_, rfl, rfl, rfl, rfl⟩

/-- The same frames, handled behind the registration. -/
example : ∃ st, runs step .start [.send (.connect 101 ['a'] 80), .send (.data 101 [7]), .handle,
    .connect 0 true, .register 0, .handle, .sendall none] = some st ∧ st.written 0 = [7] :=
  ⟨_, rfl, rfl⟩

end Streams

end Tunnel

end Aegs
