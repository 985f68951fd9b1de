import Aegs.Lib.RetryQueue
import Aegs.Lib.Transition
import Aegs.Wire.Quic

/-!
# The batch of packets to send

`PacketScratch` keeps up to 64 packets in slots, with a message header for each that points
to its slot, and hands runs of headers with one descriptor to `sendmmsg`. A flush goes on
until a call is congested or takes fewer packets than it was given, and moves what is left to
the front, headers and all.

The model keeps the pointers: a header names the slot of its address and that of its buffer
by index, and `Aegs.Wire.readMsg` is what the kernel finds through them. So that the kernel
gets what was queued is a fact about the slots (`Aegs.Wire.Linked`), and what happens to the
packets is that they go through a queue whose head is tried until it leaves
(`Aegs.Wire.explained_of_runs`), whatever `sendmmsg` answers.
-/

namespace Aegs

namespace Wire

open Bytes Transition RetryQueue

/-! ### `PacketScratch` -/

/-- `MAX_BATCH`. -/
def maxBatch : ℕ := 64

/-- `TX_SLOT_SIZE`. -/
def txSlotSize : ℕ := 9216

/-- An `iovec`, on the data of a slot. -/
structure Iov where
  /-- `iov_base`, as the index of the slot. -/
  base : Fin maxBatch
  /-- `iov_len`. -/
  len : ℕ

/-- A `TxSlot`. -/
structure TxSlot (A : Type) where
  /-- `data`. -/
  data : Vector UInt8 txSlotSize
  /-- `len`. -/
  len : ℕ
  /-- `addr`. -/
  addr : A
  /-- `fd`. -/
  fd : ℤ
  /-- `retries`. -/
  retries : UInt8
  /-- `iov`. -/
  iov : Iov

/-- The fields of an `mmsghdr` that are not constant. -/
structure MMsgHdr where
  /-- `msg_name`, as the index of the slot. -/
  msgName : Fin maxBatch
  /-- `msg_iov`, as the index of the slot. -/
  msgIov : Fin maxBatch

/-- The batch of a `PacketScratch`. -/
structure PacketScratch (A : Type) where
  /-- `tx_slots`. -/
  txSlots : Vector (TxSlot A) maxBatch
  /-- `batch_msgs`. -/
  batchMsgs : Vector MMsgHdr maxBatch
  /-- `tx_count`. -/
  txCount : ℕ
  /-- `dropped_oversized`. -/
  droppedOversized : ℕ
  /-- The count stays within the batch. -/
  txCount_le : txCount ≤ maxBatch

/-- A packet, with where it goes. -/
structure TxPacket (A : Type) where
  /-- The descriptor. -/
  fd : ℤ
  /-- The address. -/
  addr : A
  /-- The content. -/
  bytes : List UInt8
deriving DecidableEq

section

variable {A : Type}

/-- The packet of a slot. -/
def TxSlot.packet (slot : TxSlot A) : TxPacket A :=
  ⟨slot.fd, slot.addr, slot.data.toList.take slot.len⟩

/-- The header of the slot `i`, as it is filled in. -/
def MMsgHdr.of (i : Fin maxBatch) : MMsgHdr := ⟨i, i⟩

/-- A slot and its header filled in behind the queue. -/
def PacketScratch.put (s : PacketScratch A) (h : s.txCount < maxBatch) (slot : TxSlot A) :
    PacketScratch A where
  txSlots := s.txSlots.set s.txCount { slot with iov := ⟨⟨s.txCount, h⟩, slot.len⟩ } h
  batchMsgs := s.batchMsgs.set s.txCount (.of ⟨s.txCount, h⟩) h
  txCount := s.txCount + 1
  droppedOversized := s.droppedOversized
  txCount_le := h

/-- `queue_tx`. -/
def PacketScratch.queueTx (s : PacketScratch A) (fd : ℤ) (addr : A) (payload : List UInt8) :
    PacketScratch A :=
  if h : s.txCount < maxBatch then
    if payload.length > txSlotSize then { s with droppedOversized := s.droppedOversized + 1 }
    else
      let slot := s.txSlots[s.txCount]
      s.put h { slot with
        fd := fd
        addr := addr
        len := payload.length
        retries := 0
        data := copyIn slot.data 0 (copyOut payload 0 payload.length) }
  else s

/-- `queue_tx_mimicry`, with the draw of `wrap_quic_initial`. -/
def PacketScratch.queueTxMimicry (s : PacketScratch A) (fd : ℤ) (addr : A) (payload : List UInt8)
    (sessionSeed : Option (Vector UInt8 2)) (rand : Option RandBytes) : PacketScratch A :=
  if h : s.txCount < maxBatch then
    if payload.length + 24 > txSlotSize then
      { s with droppedOversized := s.droppedOversized + 1 }
    else
      let slot := s.txSlots[s.txCount]
      let data := copyIn slot.data 0 (copyOut payload 0 payload.length)
      let r := wrapQuicInitial rand data payload.length sessionSeed 0
      s.put h { slot with fd := fd, addr := addr, len := r.2, retries := 0, data := r.1 }
  else s

/-! ### `flush_tx` -/

/-- What `sendmmsg` answers. -/
inductive SendResult
  /-- It takes some packets: one and up to so many more, as far as there are any. -/
  | sent (more : ℕ)
  /-- `EAGAIN`, `EWOULDBLOCK` or `ENOBUFS`. -/
  | congested
  /-- Another error. -/
  | hard

/-- A call of `sendmmsg`: what it finds in the headers, and what it answers. -/
structure SendCall (A : Type) where
  /-- The packets. -/
  msgs : List (TxPacket A)
  /-- The answer. -/
  result : SendResult

/-- The packet that the kernel finds through a header. -/
def readMsg (slots : Vector (TxSlot A) maxBatch) (fd : ℤ) (m : MMsgHdr) : TxPacket A :=
  let iov := slots[m.msgIov].iov
  ⟨fd, slots[m.msgName].addr, slots[iov.base].data.toList.take iov.len⟩

/-- The end of the run of slots with the descriptor `fd`. -/
def groupEnd (slots : Vector (TxSlot A) maxBatch) (txCount : ℕ) (hcount : txCount ≤ maxBatch)
    (fd : ℤ) (stop : ℕ) : ℕ :=
  if h : stop < txCount then
    if slots[stop].fd = fd then groupEnd slots txCount hcount fd (stop + 1) else stop
  else stop
termination_by txCount - stop

theorem le_groupEnd (slots : Vector (TxSlot A) maxBatch) (txCount : ℕ)
    (hcount : txCount ≤ maxBatch) (fd : ℤ) (stop : ℕ) :
    stop ≤ groupEnd slots txCount hcount fd stop := by
  fun_induction groupEnd slots txCount hcount fd stop with
  | case1 stop h hfd ih => omega
  | case2 stop h hfd => exact le_rfl
  | case3 stop h => exact le_rfl

/-- Where a flush is: the slots, and the first one that has not left. -/
structure Flushed (A : Type) where
  /-- The slots. -/
  slots : Vector (TxSlot A) maxBatch
  /-- `cur`. -/
  cur : ℕ
  /-- `sent_total`. -/
  sentTotal : ℕ
  /-- The calls of `sendmmsg`. -/
  calls : List (SendCall A)

/-- The loop of `flush_tx`, the answers numbered by the calls. -/
def flushLoop (msgs : Vector MMsgHdr maxBatch) (txCount : ℕ) (hcount : txCount ≤ maxBatch)
    (result : ℕ → SendResult) (f : Flushed A) : Flushed A :=
  if h : f.cur < txCount then
    let curFd := f.slots[f.cur].fd
    let stop := groupEnd f.slots txCount hcount curFd (f.cur + 1)
    let batchLen := stop - f.cur
    let answer := result f.calls.length
    let call : SendCall A :=
      ⟨((msgs.toList.take stop).drop f.cur).map (readMsg f.slots curFd), answer⟩
    match answer with
    | .sent more =>
      let sent := min (more + 1) batchLen
      let f' : Flushed A := ⟨f.slots, f.cur + sent, f.sentTotal + sent, f.calls ++ [call]⟩
      if sent < batchLen then f' else flushLoop msgs txCount hcount result f'
    | .congested =>
      let slot := f.slots[f.cur]
      let slots := f.slots.set f.cur { slot with retries := slot.retries + 1 }
      ⟨slots, if slot.retries + 1 ≥ 5 then f.cur + 1 else f.cur, f.sentTotal, f.calls ++ [call]⟩
    | .hard =>
      flushLoop msgs txCount hcount result ⟨f.slots, f.cur + 1, f.sentTotal, f.calls ++ [call]⟩
  else f
termination_by txCount - f.cur
decreasing_by
  · have := le_groupEnd f.slots txCount hcount f.slots[f.cur].fd (f.cur + 1)
    omega
  · omega

/-- The slots and the headers. -/
structure Arrays (A : Type) where
  /-- `tx_slots`. -/
  slots : Vector (TxSlot A) maxBatch
  /-- `batch_msgs`. -/
  msgs : Vector MMsgHdr maxBatch

/-- The slot `j` copied to the slot `i`, with the header of the latter. -/
def Arrays.copySlot (a : Arrays A) {i j : ℕ} (hi : i < maxBatch) (hj : j < maxBatch) : Arrays A :=
  let src := a.slots[j]
  let dst := a.slots[i]
  { slots := a.slots.set i
      { fd := src.fd
        addr := src.addr
        len := src.len
        retries := src.retries
        data := copyIn dst.data 0 (copyOut src.data.toList 0 src.len)
        iov := ⟨⟨i, hi⟩, src.len⟩ }
    msgs := a.msgs.set i (.of ⟨i, hi⟩) }

/-- The copies of the slots from `cur + i` on to those from `i` on, `n` of them. -/
def Arrays.retain (cur : ℕ) : (n i : ℕ) → cur + i + n ≤ maxBatch → Arrays A → Arrays A
  | 0, _, _, a => a
  | n + 1, i, h, a =>
    retain cur n (i + 1) (by omega)
      (a.copySlot (i := i) (j := cur + i) (by omega) (by omega))

/-- The arrays behind the move of the slots from `cur` on to the front. -/
def Flushed.arrays (f : Flushed A) (msgs : Vector MMsgHdr maxBatch) {txCount : ℕ}
    (hcount : txCount ≤ maxBatch) (hcur : f.cur < txCount) : Arrays A :=
  if f.cur > 0 then
    Arrays.retain f.cur (txCount - f.cur) 0 (by omega) ⟨f.slots, msgs⟩
  else ⟨f.slots, msgs⟩

/-- The end of `flush_tx`: what has not left is retained. -/
def PacketScratch.retain (s : PacketScratch A) (f : Flushed A) : PacketScratch A :=
  if hcur : f.cur < s.txCount then
    let a := f.arrays s.batchMsgs s.txCount_le hcur
    { s with
      txSlots := a.slots
      batchMsgs := a.msgs
      txCount := s.txCount - f.cur
      txCount_le := le_trans (Nat.sub_le _ _) s.txCount_le }
  else { s with txSlots := f.slots, txCount := 0, txCount_le := Nat.zero_le _ }

/-- `flush_tx`: the scratchpad behind it, the packets sent and the calls made. -/
def PacketScratch.flushTx (s : PacketScratch A) (result : ℕ → SendResult) :
    PacketScratch A × ℕ × List (SendCall A) :=
  if s.txCount = 0 then (s, 0, [])
  else
    let f := flushLoop s.batchMsgs s.txCount s.txCount_le result ⟨s.txSlots, 0, 0, []⟩
    (s.retain f, f.sentTotal, f.calls)

/-! ### Runs -/

/-- The outcome of the attempts of a call. -/
def SendCall.attempts (c : SendCall A) : List (TxPacket A × Outcome) :=
  match c.result with
  | .sent more => (c.msgs.take (more + 1)).map fun p => (p, .sent)
  | .congested => (c.msgs.take 1).map fun p => (p, .congested)
  | .hard => (c.msgs.take 1).map fun p => (p, .hard)

/-- What `queue_tx_mimicry` puts into the slot. -/
def mimicked (payload : List UInt8) (sessionSeed : Option (Vector UInt8 2)) :
    Option RandBytes → List UInt8
  | some rand => quicHeader rand sessionSeed (chooseVersion rand 0) ++ payload
  | none => payload

/-- The scratchpad, and what has happened. -/
structure TxState (A : Type) where
  /-- The scratchpad. -/
  scratch : PacketScratch A
  /-- History: the packets that were queued. -/
  queued : List (TxPacket A)
  /-- History: what the kernel did with them. -/
  history : List (TxPacket A × Outcome)

/-- The choices of a run. -/
inductive TxEvent (A : Type)
  /-- `queue_tx`. -/
  | queueTx (fd : ℤ) (addr : A) (payload : List UInt8)
  /-- `queue_tx_mimicry`. -/
  | queueTxMimicry (fd : ℤ) (addr : A) (payload : List UInt8)
      (sessionSeed : Option (Vector UInt8 2)) (rand : Option RandBytes)
  /-- `flush_tx`, with the answers of `sendmmsg`. -/
  | flushTx (result : ℕ → SendResult)

/-- One step. A packet counts as queued if there is a slot and it fits. -/
def txStep (st : TxState A) : TxEvent A → Option (TxState A)
  | .queueTx fd addr payload => some
    { st with
      scratch := st.scratch.queueTx fd addr payload
      queued := if st.scratch.txCount < maxBatch ∧ payload.length ≤ txSlotSize then
        st.queued ++ [⟨fd, addr, payload⟩] else st.queued }
  | .queueTxMimicry fd addr payload sessionSeed rand => some
    { st with
      scratch := st.scratch.queueTxMimicry fd addr payload sessionSeed rand
      queued := if st.scratch.txCount < maxBatch ∧ payload.length + 24 ≤ txSlotSize then
        st.queued ++ [⟨fd, addr, mimicked payload sessionSeed rand⟩] else st.queued }
  | .flushTx result =>
    let r := st.scratch.flushTx result
    some { st with
      scratch := r.1
      history := st.history ++ r.2.2.flatMap SendCall.attempts }

/-- An empty batch. -/
def txStart (s : PacketScratch A) : TxState A :=
  ⟨{ s with txCount := 0, txCount_le := Nat.zero_le _ }, [], []⟩

/-! ### The slots and their headers -/

/-- The header of the slot `i` points to it, and its buffer is its data. -/
structure LinkedAt (slots : Vector (TxSlot A) maxBatch) (msgs : Vector MMsgHdr maxBatch) (i : ℕ)
    (hi : i < maxBatch) : Prop where
  /-- The header points to the slot. -/
  msg : msgs[i] = .of ⟨i, hi⟩
  /-- The buffer is that of the slot. -/
  base : slots[i].iov.base = ⟨i, hi⟩
  /-- The length is that of the slot. -/
  len : slots[i].iov.len = slots[i].len
  /-- The content fits. -/
  len_le : slots[i].len ≤ txSlotSize

/-- The headers of the first slots point to them. -/
def Linked (slots : Vector (TxSlot A) maxBatch) (msgs : Vector MMsgHdr maxBatch) (txCount : ℕ) :
    Prop :=
  ∀ i (hi : i < maxBatch), i < txCount → LinkedAt slots msgs i hi

/-- **The kernel finds the packet of the slot** through its header. -/
theorem LinkedAt.readMsg_eq {slots : Vector (TxSlot A) maxBatch} {msgs : Vector MMsgHdr maxBatch}
    {i : ℕ} {hi : i < maxBatch} (h : LinkedAt slots msgs i hi) :
    readMsg slots slots[i].fd msgs[i] = slots[i].packet := by
  have hget : ∀ j : Fin maxBatch, j = ⟨i, hi⟩ → slots[j] = slots[i] := by
    rintro j rfl
    rfl
  rw [readMsg, h.msg, MMsgHdr.of, TxSlot.packet]
  simp only [hget ⟨i, hi⟩ rfl, hget _ h.base, h.len]

/-- The packets that wait from the slot `cur` on. -/
def pendingFrom (slots : Vector (TxSlot A) maxBatch) (txCount cur : ℕ) : List (TxPacket A) :=
  ((slots.toList.take txCount).drop cur).map TxSlot.packet

variable {slots : Vector (TxSlot A) maxBatch} {msgs : Vector MMsgHdr maxBatch} {txCount cur : ℕ}

theorem length_pendingFrom (hcount : txCount ≤ maxBatch) :
    (pendingFrom slots txCount cur).length = txCount - cur := by
  rw [pendingFrom, List.length_map, List.length_drop, List.length_take, Vector.length_toList,
    Nat.min_eq_left hcount]

theorem getElem_pendingFrom {i : ℕ} (hi : i < (pendingFrom slots txCount cur).length)
    (hslot : cur + i < maxBatch) : (pendingFrom slots txCount cur)[i] = slots[cur + i].packet := by
  simp only [pendingFrom, List.getElem_map, List.getElem_drop, List.getElem_take,
    Vector.getElem_toList]

theorem drop_pendingFrom (n : ℕ) :
    (pendingFrom slots txCount cur).drop n = pendingFrom slots txCount (cur + n) := by
  rw [pendingFrom, ← List.map_drop, List.drop_drop, pendingFrom]

theorem pendingFrom_cons (hcount : txCount ≤ maxBatch) (hslot : cur < maxBatch)
    (hcur : cur < txCount) :
    pendingFrom slots txCount cur = slots[cur].packet :: pendingFrom slots txCount (cur + 1) := by
  have hlen : 0 < (pendingFrom slots txCount cur).length := by
    rw [length_pendingFrom hcount]
    omega
  have hhead : (pendingFrom slots txCount cur)[0] = slots[cur].packet :=
    getElem_pendingFrom hlen hslot
  rw [← drop_pendingFrom 1, ← hhead]
  exact (List.getElem_cons_drop hlen).symm

theorem pendingFrom_of_le (h : txCount ≤ cur) : pendingFrom slots txCount cur = [] := by
  rw [pendingFrom, List.drop_eq_nil_of_le (le_trans (List.length_take_le _ _) h), List.map_nil]

theorem groupEnd_le {hcount : txCount ≤ maxBatch} {fd : ℤ} {stop : ℕ} (h : stop ≤ txCount) :
    groupEnd slots txCount hcount fd stop ≤ txCount := by
  fun_induction groupEnd slots txCount hcount fd stop with
  | case1 stop hlt hfd ih => exact ih hlt
  | case2 stop hlt hfd => exact h
  | case3 stop hge => exact h

/-- The slots up to the end of the run have the descriptor. -/
theorem fd_of_lt_groupEnd {hcount : txCount ≤ maxBatch} {fd : ℤ} {stop i : ℕ} (hi : i < maxBatch)
    (hge : stop ≤ i) (hlt : i < groupEnd slots txCount hcount fd stop) : slots[i].fd = fd := by
  fun_induction groupEnd slots txCount hcount fd stop with
  | case1 stop hstop hfd ih =>
    rcases Nat.eq_or_lt_of_le hge with rfl | hgt
    · exact hfd
    · exact ih hgt hlt
  | case2 stop hstop hfd => omega
  | case3 stop hstop => omega

/-- **A call hands over the packets of its slots.** -/
theorem map_readMsg (hlinked : Linked slots msgs txCount) (hcount : txCount ≤ maxBatch) {fd : ℤ}
    {stop : ℕ} (hstop : stop ≤ txCount)
    (hfd : ∀ i (hi : i < maxBatch), cur ≤ i → i < stop → slots[i].fd = fd) :
    ((msgs.toList.take stop).drop cur).map (readMsg slots fd) =
      (pendingFrom slots txCount cur).take (stop - cur) := by
  refine List.ext_getElem ?_ fun i hi hi' => ?_
  · rw [List.length_map, List.length_drop, List.length_take, Vector.length_toList,
      List.length_take, length_pendingFrom hcount]
    omega
  · rw [List.length_map, List.length_drop, List.length_take, Vector.length_toList] at hi
    have hslot : cur + i < maxBatch := by omega
    rw [List.getElem_take, getElem_pendingFrom _ hslot]
    simp only [List.getElem_map, List.getElem_drop, List.getElem_take, Vector.getElem_toList]
    rw [← (hlinked (cur + i) hslot (by omega)).readMsg_eq,
      hfd (cur + i) hslot (by omega) (by omega)]

/-! ### The loop -/

/-- **How far the packets have come**: what waits from `cur` on is what the history leaves. -/
structure Served (msgs : Vector MMsgHdr maxBatch) (txCount : ℕ) (queued : List (TxPacket A))
    (history : List (TxPacket A × Outcome)) (f : Flushed A) : Prop where
  /-- The first slot that has not left. -/
  cur_le : f.cur ≤ txCount
  /-- The headers point to their slots. -/
  linked : Linked f.slots msgs txCount
  /-- Only the head has been tried. -/
  fresh : ∀ i (hi : i < maxBatch), f.cur < i → i < txCount → f.slots[i].retries = 0
  /-- The history is explained. -/
  explained : ∃ retries,
    (∀ hi : f.cur < maxBatch, f.cur < txCount → f.slots[f.cur].retries.toNat = retries) ∧
      Explained 5 queued (history ++ f.calls.flatMap SendCall.attempts)
        (pendingFrom f.slots txCount f.cur) retries

variable {queued : List (TxPacket A)} {history : List (TxPacket A × Outcome)} {f : Flushed A}

/-- The slots from `cur` on to the end of its run of the descriptor. -/
def groupStop (hcount : txCount ≤ maxBatch) (f : Flushed A) (hcur : f.cur < maxBatch) : ℕ :=
  groupEnd f.slots txCount hcount f.slots[f.cur].fd (f.cur + 1)

/-- The call of `sendmmsg` on it. -/
def groupCall (msgs : Vector MMsgHdr maxBatch) (hcount : txCount ≤ maxBatch) (f : Flushed A)
    (hcur : f.cur < maxBatch) (result : SendResult) : SendCall A :=
  ⟨((msgs.toList.take (groupStop hcount f hcur)).drop f.cur).map
    (readMsg f.slots f.slots[f.cur].fd), result⟩

theorem groupStop_le {hcount : txCount ≤ maxBatch} {hslot : f.cur < maxBatch}
    (hcur : f.cur < txCount) : groupStop hcount f hslot ≤ txCount := groupEnd_le hcur

theorem lt_groupStop {hcount : txCount ≤ maxBatch} {hslot : f.cur < maxBatch} :
    f.cur < groupStop hcount f hslot := le_groupEnd _ _ _ _ _

/-- It hands over the packets of these slots. -/
theorem msgs_groupCall (h : Served msgs txCount queued history f) {hcount : txCount ≤ maxBatch}
    {hslot : f.cur < maxBatch} (hcur : f.cur < txCount) (result : SendResult) :
    (groupCall msgs hcount f hslot result).msgs =
      (pendingFrom f.slots txCount f.cur).take (groupStop hcount f hslot - f.cur) := by
  refine map_readMsg h.linked hcount (groupStop_le hcur) fun i hi hge hlt => ?_
  rcases Nat.eq_or_lt_of_le hge with rfl | hgt
  · rfl
  · exact fd_of_lt_groupEnd hi hgt hlt

/-- **Packets are sent.** -/
theorem Served.sent (h : Served msgs txCount queued history f) (hcount : txCount ≤ maxBatch)
    (hslot : f.cur < maxBatch) (hcur : f.cur < txCount) (more sentTotal : ℕ) :
    Served msgs txCount queued history
      ⟨f.slots, f.cur + min (more + 1) (groupStop hcount f hslot - f.cur), sentTotal,
        f.calls ++ [groupCall msgs hcount f hslot (.sent more)]⟩ := by
  obtain ⟨retries, -, hexplained⟩ := h.explained
  have hle : groupStop hcount f hslot ≤ txCount := groupStop_le hcur
  have hlt : f.cur < groupStop hcount f hslot := lt_groupStop
  have hpos : 0 < min (more + 1) (groupStop hcount f hslot - f.cur) := by omega
  refine ⟨by simp only; omega, h.linked, fun i hi hgt => h.fresh i hi (by simp only at hgt; omega),
    0, fun hi hnext => ?_, ?_⟩
  · rw [h.fresh _ hi (by simp only; omega) hnext]
    rfl
  · have hattempts : (groupCall msgs hcount f hslot (.sent more)).attempts =
        ((pendingFrom f.slots txCount f.cur).take
          (min (more + 1) (groupStop hcount f hslot - f.cur))).map fun p => (p, .sent) := by
      rw [SendCall.attempts, msgs_groupCall h hcur]
      simp only [groupCall, List.take_take]
    rw [List.flatMap_append, List.flatMap_singleton, hattempts, ← List.append_assoc]
    have hfront : Explained 5 queued (history ++ f.calls.flatMap SendCall.attempts)
        ((pendingFrom f.slots txCount f.cur).take
          (min (more + 1) (groupStop hcount f hslot - f.cur)) ++
            pendingFrom f.slots txCount
              (f.cur + min (more + 1) (groupStop hcount f hslot - f.cur))) retries := by
      rwa [← drop_pendingFrom, List.take_append_drop]
    refine hfront.sendAll ?_
    intro hnil
    have hlen := congrArg List.length hnil
    rw [List.length_take, length_pendingFrom hcount, List.length_nil] at hlen
    omega

/-- The attempt at the head in a call that takes nothing. -/
theorem attempts_groupCall (h : Served msgs txCount queued history f) {hcount : txCount ≤ maxBatch}
    {hslot : f.cur < maxBatch} (hcur : f.cur < txCount) (result : SendResult) :
    (groupCall msgs hcount f hslot result).msgs.take 1 = [f.slots[f.cur].packet] := by
  have hlt : f.cur < groupStop hcount f hslot := lt_groupStop
  rw [msgs_groupCall h hcur, List.take_take, Nat.min_eq_left (by omega),
    pendingFrom_cons hcount hslot hcur, List.take_succ_cons, List.take_zero]

/-- **The head is dropped** at an error. -/
theorem Served.hard (h : Served msgs txCount queued history f) (hcount : txCount ≤ maxBatch)
    (hslot : f.cur < maxBatch) (hcur : f.cur < txCount) :
    Served msgs txCount queued history
      ⟨f.slots, f.cur + 1, f.sentTotal, f.calls ++ [groupCall msgs hcount f hslot .hard]⟩ := by
  obtain ⟨retries, -, hexplained⟩ := h.explained
  refine ⟨hcur, h.linked, fun i hi hgt => h.fresh i hi (by simp only at hgt; omega), 0,
    fun hi hnext => ?_, ?_⟩
  · rw [h.fresh _ hi (by simp only; omega) hnext]
    rfl
  · have hattempts : (groupCall msgs hcount f hslot .hard).attempts =
        [(f.slots[f.cur].packet, .hard)] := by
      rw [SendCall.attempts, attempts_groupCall h hcur]
      rfl
    rw [List.flatMap_append, List.flatMap_singleton, hattempts, ← List.append_assoc]
    rw [pendingFrom_cons hcount hslot hcur] at hexplained
    exact hexplained.drop

/-- The slots with another count of retries in one of them. -/
def retry (slots : Vector (TxSlot A) maxBatch) {i : ℕ} (hi : i < maxBatch) :
    Vector (TxSlot A) maxBatch :=
  slots.set i { slots[i] with retries := slots[i].retries + 1 }

theorem getElem_retry {i j : ℕ} (hi : i < maxBatch) (hj : j < maxBatch) :
    (retry slots hi)[j] =
      if i = j then { slots[j] with retries := slots[j].retries + 1 } else slots[j] := by
  rw [retry, Vector.getElem_set]
  split
  · rename_i hij
    subst hij
    rfl
  · rfl

/-- The packets are the same. -/
theorem pendingFrom_retry {i : ℕ} (hi : i < maxBatch) :
    pendingFrom (retry slots hi) txCount cur = pendingFrom slots txCount cur := by
  have hmap : (retry slots hi).toList.map TxSlot.packet = slots.toList.map TxSlot.packet := by
    refine List.ext_getElem (by simp) fun j hj _ => ?_
    rw [List.length_map, Vector.length_toList] at hj
    rw [List.getElem_map, List.getElem_map, Vector.getElem_toList, Vector.getElem_toList,
      getElem_retry hi hj]
    split
    · rfl
    · rfl
  rw [pendingFrom, pendingFrom, List.map_drop, List.map_drop, List.map_take, List.map_take, hmap]

/-- The headers point to the same slots. -/
theorem linked_retry {i : ℕ} (hi : i < maxBatch) (h : Linked slots msgs txCount) :
    Linked (retry slots hi) msgs txCount := by
  intro j hj hlt
  obtain ⟨hmsg, hbase, hlen, hle⟩ := h j hj hlt
  constructor
  · exact hmsg
  · rw [getElem_retry hi hj]
    split <;> exact hbase
  · rw [getElem_retry hi hj]
    split <;> exact hlen
  · rw [getElem_retry hi hj]
    split <;> exact hle

/-- **The head has been congested**, and is dropped if that was the fifth time. -/
theorem Served.congested (h : Served msgs txCount queued history f) (hcount : txCount ≤ maxBatch)
    (hslot : f.cur < maxBatch) (hcur : f.cur < txCount) :
    Served msgs txCount queued history
      ⟨retry f.slots hslot, if f.slots[f.cur].retries + 1 ≥ 5 then f.cur + 1 else f.cur,
        f.sentTotal, f.calls ++ [groupCall msgs hcount f hslot .congested]⟩ := by
  obtain ⟨retries, hretries, hexplained⟩ := h.explained
  obtain rfl := hretries hslot hcur
  have hlt := hexplained.retries_lt
  have hnext : (f.slots[f.cur].retries + 1).toNat = f.slots[f.cur].retries.toNat + 1 := by
    rw [UInt8.toNat_add, UInt8.toNat_one]
    omega
  have hlast : f.slots[f.cur].retries + 1 ≥ 5 ↔ 5 ≤ f.slots[f.cur].retries.toNat + 1 := by
    rw [ge_iff_le, UInt8.le_iff_toNat_le, hnext]
    rfl
  have hattempts : (groupCall msgs hcount f hslot .congested).attempts =
      [(f.slots[f.cur].packet, .congested)] := by
    rw [SendCall.attempts, attempts_groupCall h hcur]
    rfl
  have hfresh : ∀ i (hi : i < maxBatch), f.cur < i → i < txCount →
      (retry f.slots hslot)[i].retries = 0 := by
    intro i hi hgt hi'
    rw [getElem_retry hslot hi, if_neg (by omega)]
    exact h.fresh i hi hgt hi'
  rw [pendingFrom_cons hcount hslot hcur] at hexplained
  by_cases hdrop : f.slots[f.cur].retries + 1 ≥ 5
  · rw [if_pos hdrop]
    refine ⟨hcur, linked_retry hslot h.linked,
      fun i hi hgt => hfresh i hi (by simp only at hgt; omega), 0, fun hi hnext => ?_, ?_⟩
    · rw [hfresh _ hi (by simp only; omega) hnext]
      rfl
    · rw [List.flatMap_append, List.flatMap_singleton, hattempts, ← List.append_assoc,
        pendingFrom_retry]
      exact hexplained.giveUp (hlast.mp hdrop)
  · rw [if_neg hdrop]
    refine ⟨h.cur_le, linked_retry hslot h.linked, hfresh, f.slots[f.cur].retries.toNat + 1,
      fun hi _ => ?_, ?_⟩
    · rw [getElem_retry hslot hslot, if_pos rfl]
      exact hnext
    · rw [List.flatMap_append, List.flatMap_singleton, hattempts, ← List.append_assoc,
        pendingFrom_retry, pendingFrom_cons hcount hslot hcur]
      exact hexplained.stay (not_le.mp (mt hlast.mpr hdrop))

/-- **The loop keeps to the queue.** -/
theorem Served.flushLoop (h : Served msgs txCount queued history f) (hcount : txCount ≤ maxBatch)
    (result : ℕ → SendResult) :
    Served msgs txCount queued history (flushLoop msgs txCount hcount result f) := by
  fun_induction Wire.flushLoop msgs txCount hcount result f with
  | case1 f hcur curFd stop batchLen answer call more hanswer sent f' hpartial =>
    have hcall : call = groupCall msgs hcount f (lt_of_lt_of_le hcur hcount) (.sent more) := by
      rw [← hanswer]
      rfl
    have hsent := h.sent hcount (lt_of_lt_of_le hcur hcount) hcur more
      (f.sentTotal + sent)
    rwa [← hcall] at hsent
  | case2 f hcur curFd stop batchLen answer call more hanswer sent f' hfull ih =>
    have hcall : call = groupCall msgs hcount f (lt_of_lt_of_le hcur hcount) (.sent more) := by
      rw [← hanswer]
      rfl
    have hsent := h.sent hcount (lt_of_lt_of_le hcur hcount) hcur more
      (f.sentTotal + sent)
    rw [← hcall] at hsent
    exact ih hsent
  | case3 f hcur curFd stop answer call hanswer slot slots =>
    have hcall : call = groupCall msgs hcount f (lt_of_lt_of_le hcur hcount) .congested := by
      rw [← hanswer]
      rfl
    have hcongested := h.congested hcount (lt_of_lt_of_le hcur hcount) hcur
    rwa [← hcall] at hcongested
  | case4 f hcur curFd stop answer call hanswer ih =>
    have hcall : call = groupCall msgs hcount f (lt_of_lt_of_le hcur hcount) .hard := by
      rw [← hanswer]
      rfl
    have hhard := h.hard hcount (lt_of_lt_of_le hcur hcount) hcur
    rw [← hcall] at hhard
    exact ih hhard
  | case5 f hcur => exact h

/-- **A flush ends** after a call for each packet, at most. -/
theorem length_calls_flushLoop (hcount : txCount ≤ maxBatch) (result : ℕ → SendResult) :
    (flushLoop msgs txCount hcount result f).calls.length ≤ f.calls.length + (txCount - f.cur) := by
  fun_induction Wire.flushLoop msgs txCount hcount result f with
  | case1 f hcur curFd stop batchLen answer call more hanswer sent f' hpartial =>
    simp only [f', List.length_append, List.length_singleton]
    omega
  | case2 f hcur curFd stop batchLen answer call more hanswer sent f' hfull ih =>
    have hlt : f.cur < stop := le_groupEnd _ _ _ _ _
    have hcalls : f'.calls.length = f.calls.length + 1 := by
      rw [List.length_append, List.length_singleton]
    have hcur' : f'.cur = f.cur + sent := rfl
    omega
  | case3 f hcur curFd stop answer call hanswer slot slots =>
    simp only [List.length_append, List.length_singleton]
    omega
  | case4 f hcur curFd stop answer call hanswer ih =>
    simp only [List.length_append, List.length_singleton] at ih
    omega
  | case5 f hcur => omega

/-- **A flush stops at the first congested call.** -/
theorem congested_dropLast_flushLoop (hcount : txCount ≤ maxBatch) (result : ℕ → SendResult)
    (h : ∀ c ∈ f.calls, c.result ≠ .congested) :
    ∀ c ∈ (flushLoop msgs txCount hcount result f).calls.dropLast, c.result ≠ .congested := by
  fun_induction Wire.flushLoop msgs txCount hcount result f with
  | case1 f hcur curFd stop batchLen answer call more hanswer sent f' hpartial =>
    rwa [List.dropLast_concat]
  | case2 f hcur curFd stop batchLen answer call more hanswer sent f' hfull ih =>
    refine ih fun c hc => ?_
    rcases List.mem_append.mp hc with hold | hnew
    · exact h c hold
    · obtain rfl := List.mem_singleton.mp hnew
      exact fun heq => nomatch hanswer.symm.trans heq
  | case3 f hcur curFd stop answer call hanswer slot slots => rwa [List.dropLast_concat]
  | case4 f hcur curFd stop answer call hanswer ih =>
    refine ih fun c hc => ?_
    rcases List.mem_append.mp hc with hold | hnew
    · exact h c hold
    · obtain rfl := List.mem_singleton.mp hnew
      exact fun heq => nomatch hanswer.symm.trans heq
  | case5 f hcur => exact fun c hc => h c (List.dropLast_subset _ hc)

/-! ### Moving the rest to the front -/

variable {a b : Arrays A}

/-- The slot `j` holds what the slot `cur + j` held, with its own header. -/
structure Moved (a b : Arrays A) (cur j : ℕ) (hj : j < maxBatch) (hsrc : cur + j < maxBatch) :
    Prop where
  /-- The header is that of the slot. -/
  linked : LinkedAt b.slots b.msgs j hj
  /-- The packet is the same. -/
  packet : b.slots[j].packet = a.slots[cur + j].packet
  /-- So is the count of retries. -/
  retries : b.slots[j].retries = a.slots[cur + j].retries

/-- A copy elsewhere. -/
theorem copySlot_of_ne {i j k : ℕ} (hi : i < maxBatch) (hj : j < maxBatch) (hk : k < maxBatch)
    (hne : i ≠ k) :
    (a.copySlot hi hj).slots[k] = a.slots[k] ∧ (a.copySlot hi hj).msgs[k] = a.msgs[k] :=
  ⟨Vector.getElem_set_ne hi hk hne, Vector.getElem_set_ne hi hk hne⟩

/-- **A copy moves its slot.** -/
theorem moved_copySlot {i : ℕ} (hi : i < maxBatch) (hsrc : cur + i < maxBatch)
    (hlen : a.slots[cur + i].len ≤ txSlotSize) : Moved a (a.copySlot hi hsrc) cur i hi hsrc := by
  have hslot : (a.copySlot hi hsrc).slots[i] =
      { fd := a.slots[cur + i].fd
        addr := a.slots[cur + i].addr
        len := a.slots[cur + i].len
        retries := a.slots[cur + i].retries
        data := copyIn a.slots[i].data 0
          (copyOut a.slots[cur + i].data.toList 0 a.slots[cur + i].len)
        iov := ⟨⟨i, hi⟩, a.slots[cur + i].len⟩ } := Vector.getElem_set_self _
  have hmsg : (a.copySlot hi hsrc).msgs[i] = .of ⟨i, hi⟩ := Vector.getElem_set_self _
  constructor
  · exact ⟨hmsg, by rw [hslot], by rw [hslot], by rwa [hslot]⟩
  · rw [hslot, TxSlot.packet, TxSlot.packet]
    simp only
    rw [take_copyIn_self _ _ (Nat.zero_add _) hlen, List.take_zero, List.nil_append,
      toList_copyOut_zero _ (by rwa [Vector.length_toList])]
  · rw [hslot]

/-- What is moved from the copy has not been touched by it. -/
theorem Moved.congr {a' b' : Arrays A} {j : ℕ} {hj : j < maxBatch} {hsrc : cur + j < maxBatch}
    (h : Moved a b cur j hj hsrc) (ha : a'.slots[cur + j] = a.slots[cur + j])
    (hb : b'.slots[j] = b.slots[j]) (hmsg : b'.msgs[j] = b.msgs[j]) :
    Moved a' b' cur j hj hsrc := by
  obtain ⟨⟨hlink, hbase, hlen, hle⟩, hpacket, hretries⟩ := h
  constructor
  · exact ⟨hmsg.trans hlink, by rwa [hb], by rwa [hb], by rwa [hb]⟩
  · rw [hb, hpacket, ha]
  · rw [hb, hretries, ha]

/-- **The copies move their slots**, and leave the others alone: each is read before it is
written, because the slots move to the front. -/
theorem retain_spec (hcur : 0 < cur) (n i : ℕ) (h : cur + i + n ≤ maxBatch)
    (hlen : ∀ j (hj : j < maxBatch), j < cur + i + n → a.slots[j].len ≤ txSlotSize) :
    (∀ j (hj : j < maxBatch), j < i ∨ i + n ≤ j →
      (Arrays.retain cur n i h a).slots[j] = a.slots[j] ∧
        (Arrays.retain cur n i h a).msgs[j] = a.msgs[j]) ∧
      ∀ j (hj : j < maxBatch) (hsrc : cur + j < maxBatch), i ≤ j → j < i + n →
        Moved a (Arrays.retain cur n i h a) cur j hj hsrc := by
  induction n generalizing i a with
  | zero => exact ⟨fun j hj _ => ⟨rfl, rfl⟩, fun j hj hsrc hge hlt => by omega⟩
  | succ n ih =>
    have hi : i < maxBatch := by omega
    have hsrc : cur + i < maxBatch := by omega
    have hfirst := moved_copySlot hi hsrc (hlen _ hsrc (by omega))
    obtain ⟨hother, hmoved⟩ := ih (a := a.copySlot hi hsrc) (i + 1) (by omega) (by
      intro j hj hlt
      by_cases hij : i = j
      · subst hij
        exact hfirst.linked.len_le
      · rw [(copySlot_of_ne hi hsrc hj hij).1]
        exact hlen j hj (by omega))
    constructor
    · intro j hj hout
      have hne := copySlot_of_ne hi hsrc hj (show i ≠ j by omega) (a := a)
      have hrest := hother j hj (by omega)
      exact ⟨hrest.1.trans hne.1, hrest.2.trans hne.2⟩
    · intro j hj hsrc' hge hlt
      by_cases hij : i = j
      · subst hij
        have hrest := hother i hj (by omega)
        exact hfirst.congr rfl hrest.1 hrest.2
      · exact (hmoved j hj hsrc' (by omega) (by omega)).congr
          (copySlot_of_ne hi hsrc hsrc' (by omega)).1.symm rfl rfl

/-- Slots with the same packets. -/
theorem pendingFrom_eq_of_packet {slots' : Vector (TxSlot A) maxBatch} {txCount' cur' : ℕ}
    (hcount : txCount ≤ maxBatch) (hcount' : txCount' ≤ maxBatch)
    (hlen : txCount' - cur' = txCount - cur)
    (h : ∀ i (hi : cur + i < maxBatch) (hi' : cur' + i < maxBatch), i < txCount - cur →
      slots'[cur' + i].packet = slots[cur + i].packet) :
    pendingFrom slots' txCount' cur' = pendingFrom slots txCount cur := by
  refine List.ext_getElem ?_ fun i hi hi' => ?_
  · rw [length_pendingFrom hcount, length_pendingFrom hcount', hlen]
  · rw [length_pendingFrom hcount'] at hi
    rw [getElem_pendingFrom _ (by omega), getElem_pendingFrom _ (by omega)]
    exact h i (by omega) (by omega) (by omega)

/-! ### The steps of a run -/

/-- **The state of a batch between two calls.** -/
def Kept (st : TxState A) : Prop :=
  Served st.scratch.batchMsgs st.scratch.txCount st.queued st.history
    ⟨st.scratch.txSlots, 0, 0, []⟩

theorem kept_txStart (s : PacketScratch A) : Kept (txStart s) := by
  refine ⟨Nat.zero_le _, fun i hi hlt => absurd hlt (Nat.not_lt_zero _),
    fun i hi _ hlt => absurd hlt (Nat.not_lt_zero _), 0,
    fun hi hlt => absurd hlt (Nat.not_lt_zero _), ?_⟩
  have hnone : pendingFrom (txStart s).scratch.txSlots (txStart s).scratch.txCount 0 = [] :=
    pendingFrom_of_le le_rfl
  rw [hnone]
  exact explained_nil (by decide)

/-- The slots that a flush retains are moved to the front. -/
theorem moved_arrays (h : Served msgs txCount queued history f) (hcount : txCount ≤ maxBatch)
    (hcur : f.cur < txCount) {j : ℕ} (hj : j < maxBatch) (hsrc : f.cur + j < maxBatch)
    (hlt : f.cur + j < txCount) :
    Moved ⟨f.slots, msgs⟩ (f.arrays msgs hcount hcur) f.cur j hj hsrc := by
  rw [Flushed.arrays]
  split
  · rename_i hpos
    exact (retain_spec hpos _ 0 _ fun i hi hi' => (h.linked i hi (by omega)).len_le).2 j hj hsrc
      (Nat.zero_le _) (by omega)
  · rename_i hzero
    have hsame : f.cur + j = j := by omega
    have hslot : f.slots[f.cur + j] = f.slots[j] := by simp only [hsame]
    exact ⟨h.linked j hj (by omega), by rw [hslot], by rw [hslot]⟩

/-- **What is retained** is what the flush has left. -/
theorem Served.retain {s : PacketScratch A} (h : Served s.batchMsgs s.txCount queued history f) :
    Served (s.retain f).batchMsgs (s.retain f).txCount queued
      (history ++ f.calls.flatMap SendCall.attempts) ⟨(s.retain f).txSlots, 0, 0, []⟩ := by
  obtain ⟨retries, hretries, hexplained⟩ := h.explained
  have hcount := s.txCount_le
  by_cases hcur : f.cur < s.txCount
  · have hmoved := fun j hj hsrc hlt => moved_arrays h hcount hcur (j := j) hj hsrc hlt
    rw [PacketScratch.retain, dif_pos hcur]
    refine ⟨Nat.zero_le _, fun i hi hlt => ?_, fun i hi hpos hlt => ?_, retries,
      fun hi hlt => ?_, ?_⟩
    · simp only at hlt
      exact (hmoved i hi (by omega) (by omega)).linked
    · simp only at hpos hlt
      exact (hmoved i hi (by omega) (by omega)).retries.trans
        (h.fresh _ (by omega) (by omega) (by omega))
    · simp only at hlt
      rw [← hretries (by omega) hcur]
      exact congrArg UInt8.toNat (hmoved 0 hi (by omega) (by omega)).retries
    · rw [List.flatMap_nil, List.append_nil]
      have hpending : pendingFrom (f.arrays s.batchMsgs hcount hcur).slots (s.txCount - f.cur) 0 =
          pendingFrom f.slots s.txCount f.cur := by
        refine pendingFrom_eq_of_packet hcount (by omega) (by omega) fun i hi hi' hlt => ?_
        have hpacket := (hmoved i (by omega) hi (by omega)).packet
        simpa only [Nat.zero_add] using hpacket
      exact hpending ▸ hexplained
  · have hnone : pendingFrom f.slots s.txCount f.cur = [] := pendingFrom_of_le (not_lt.mp hcur)
    rw [hnone] at hexplained
    obtain rfl := hexplained.idle rfl
    rw [PacketScratch.retain, dif_neg hcur]
    refine ⟨Nat.zero_le _, fun i hi hlt => absurd hlt (Nat.not_lt_zero _),
      fun i hi _ hlt => absurd hlt (Nat.not_lt_zero _), 0,
      fun hi hlt => absurd hlt (Nat.not_lt_zero _), ?_⟩
    rw [List.flatMap_nil, List.append_nil]
    have hempty : pendingFrom f.slots 0 0 = [] := pendingFrom_of_le le_rfl
    exact hempty ▸ hexplained

/-- **A flush keeps the batch.** -/
theorem Kept.flushTx {st : TxState A} (h : Kept st) (result : ℕ → SendResult) :
    Kept { st with
      scratch := (st.scratch.flushTx result).1
      history := st.history ++ (st.scratch.flushTx result).2.2.flatMap SendCall.attempts } := by
  rw [Kept, PacketScratch.flushTx]
  split
  · simp only [List.flatMap_nil, List.append_nil]
    exact h
  · exact (Served.flushLoop h st.scratch.txCount_le result).retain

/-- **A slot filled in behind the queue** is queued. -/
theorem Kept.put {st : TxState A} (h : Kept st) (hfree : st.scratch.txCount < maxBatch)
    {slot : TxSlot A} {packet : TxPacket A} (hpacket : slot.packet = packet)
    (hlen : slot.len ≤ txSlotSize) (hfresh : slot.retries = 0) :
    Kept { st with scratch := st.scratch.put hfree slot, queued := st.queued ++ [packet] } := by
  obtain ⟨retries, hretries, hexplained⟩ := h.explained
  have hnew : (st.scratch.put hfree slot).txSlots[st.scratch.txCount] =
      { slot with iov := ⟨⟨st.scratch.txCount, hfree⟩, slot.len⟩ } := Vector.getElem_set_self hfree
  have hold : ∀ i (hi : i < maxBatch), i < st.scratch.txCount →
      (st.scratch.put hfree slot).txSlots[i] = st.scratch.txSlots[i] ∧
        (st.scratch.put hfree slot).batchMsgs[i] = st.scratch.batchMsgs[i] := fun i hi hlt =>
    ⟨Vector.getElem_set_ne hfree hi (by omega), Vector.getElem_set_ne hfree hi (by omega)⟩
  have hcount : (st.scratch.put hfree slot).txCount = st.scratch.txCount + 1 := rfl
  refine ⟨Nat.zero_le _, fun i hi hlt => ?_, fun i hi hpos hlt => ?_, retries, fun hi hlt => ?_, ?_⟩
  · simp only [hcount] at hlt
    rcases Nat.eq_or_lt_of_le (Nat.le_of_lt_succ hlt) with rfl | hlt'
    · exact ⟨Vector.getElem_set_self hfree, by rw [hnew], by rw [hnew], by rwa [hnew]⟩
    · obtain ⟨hmsg, hbase, hlen', hle⟩ := h.linked i hi hlt'
      obtain ⟨hslot, hhdr⟩ := hold i hi hlt'
      exact ⟨hhdr.trans hmsg, by rwa [hslot], by rwa [hslot], by rwa [hslot]⟩
  · simp only [hcount] at hlt
    rcases Nat.eq_or_lt_of_le (Nat.le_of_lt_succ hlt) with rfl | hlt'
    · simp only [hnew]
      exact hfresh
    · simp only [(hold i hi hlt').1]
      exact h.fresh i hi hpos hlt'
  · rcases Nat.eq_zero_or_pos st.scratch.txCount with hzero | hpos
    · -- the new packet is the head
      have hnone : pendingFrom st.scratch.txSlots st.scratch.txCount 0 = [] :=
        pendingFrom_of_le (by omega)
      simp only [hnone] at hexplained
      rw [hexplained.idle rfl]
      have hhead : (st.scratch.put hfree slot).txSlots[0] =
          { slot with iov := ⟨⟨st.scratch.txCount, hfree⟩, slot.len⟩ } := by
        simpa only [hzero] using hnew
      simp only [hhead, hfresh]
      rfl
    · simp only [(hold 0 hi hpos).1]
      exact hretries hi hpos
  · have hpending : pendingFrom (st.scratch.put hfree slot).txSlots
        (st.scratch.put hfree slot).txCount 0 =
          pendingFrom st.scratch.txSlots st.scratch.txCount 0 ++ [packet] := by
      refine List.ext_getElem ?_ fun i hi hi' => ?_
      · rw [List.length_append, length_pendingFrom st.scratch.txCount_le,
          length_pendingFrom (PacketScratch.txCount_le _), hcount]
        rfl
      · rw [length_pendingFrom (PacketScratch.txCount_le _), hcount] at hi
        rw [getElem_pendingFrom _ (by omega), List.getElem_append]
        simp only [Nat.zero_add]
        split
        · rename_i hlt
          rw [length_pendingFrom st.scratch.txCount_le] at hlt
          rw [getElem_pendingFrom _ (by omega), (hold i (by omega) hlt).1]
          simp only [Nat.zero_add]
        · rename_i hge
          rw [length_pendingFrom st.scratch.txCount_le] at hge
          obtain rfl : i = st.scratch.txCount := by omega
          rw [hnew, List.getElem_singleton, ← hpacket]
          rfl
    have hpush := hexplained.push packet
    simp only [List.flatMap_nil, List.append_nil] at hpush ⊢
    exact hpending ▸ hpush

/-- The content of a slot that a payload is copied to. -/
theorem take_copyIn_payload (data : Vector UInt8 txSlotSize) (payload : List UInt8)
    (hlen : payload.length ≤ txSlotSize) :
    (copyIn data 0 (copyOut payload 0 payload.length)).toList.take payload.length = payload := by
  rw [take_copyIn_self _ _ (Nat.zero_add _) hlen, List.take_zero, List.nil_append,
    toList_copyOut_zero _ le_rfl, List.take_length]

/-- **`queue_tx` keeps the batch.** -/
theorem Kept.queueTx {st : TxState A} (h : Kept st) (fd : ℤ) (addr : A) (payload : List UInt8) :
    Kept { st with
      scratch := st.scratch.queueTx fd addr payload
      queued := if st.scratch.txCount < maxBatch ∧ payload.length ≤ txSlotSize then
        st.queued ++ [⟨fd, addr, payload⟩] else st.queued } := by
  rw [PacketScratch.queueTx]
  by_cases hfree : st.scratch.txCount < maxBatch
  · rw [dif_pos hfree]
    by_cases hlen : payload.length > txSlotSize
    · rw [if_pos hlen, if_neg (fun hboth => absurd hboth.2 (not_le.mpr hlen))]
      exact ⟨h.cur_le, h.linked, h.fresh, h.explained⟩
    · rw [if_neg hlen, if_pos ⟨hfree, not_lt.mp hlen⟩]
      refine h.put hfree ?_ (not_lt.mp hlen) rfl
      rw [TxSlot.packet, take_copyIn_payload _ _ (not_lt.mp hlen)]
  · rw [dif_neg hfree, if_neg (fun hboth => hfree hboth.1)]
    exact h

/-- **`queue_tx_mimicry` keeps the batch.** -/
theorem Kept.queueTxMimicry {st : TxState A} (h : Kept st) (fd : ℤ) (addr : A)
    (payload : List UInt8) (sessionSeed : Option (Vector UInt8 2)) (rand : Option RandBytes) :
    Kept { st with
      scratch := st.scratch.queueTxMimicry fd addr payload sessionSeed rand
      queued := if st.scratch.txCount < maxBatch ∧ payload.length + 24 ≤ txSlotSize then
        st.queued ++ [⟨fd, addr, mimicked payload sessionSeed rand⟩] else st.queued } := by
  rw [PacketScratch.queueTxMimicry]
  by_cases hfree : st.scratch.txCount < maxBatch
  · rw [dif_pos hfree]
    by_cases hlen : payload.length + 24 > txSlotSize
    · rw [if_pos hlen, if_neg (fun hboth => absurd hboth.2 (not_le.mpr hlen))]
      exact ⟨h.cur_le, h.linked, h.fresh, h.explained⟩
    · have hcap : payload.length + quicHeaderSize ≤ txSlotSize := not_lt.mp hlen
      rw [if_neg hlen, if_pos ⟨hfree, not_lt.mp hlen⟩]
      have hcontent := take_copyIn_payload st.scratch.txSlots[st.scratch.txCount].data
        payload (by omega)
      refine h.put hfree ?_ ?_ rfl
      · rw [TxSlot.packet, TxPacket.mk.injEq]
        refine ⟨rfl, rfl, ?_⟩
        cases rand with
        | none => exact (wrapped_wrapQuicInitial_none _ _ _ _).trans hcontent
        | some draw =>
          refine (wrapped_wrapQuicInitial draw _ sessionSeed 0 hcap).trans ?_
          rw [mimicked, hcontent]
      · simp only [wrapQuicInitial, if_neg (not_lt.mpr hcap)]
        cases rand with
        | none => simp only; omega
        | some draw => exact hcap
  · rw [dif_neg hfree, if_neg (fun hboth => hfree hboth.1)]
    exact h

/-- **Every step keeps the batch.** -/
theorem Kept.step {st st' : TxState A} {ev : TxEvent A} (h : Kept st)
    (hstep : txStep st ev = some st') : Kept st' := by
  cases ev with
  | queueTx fd addr payload =>
    obtain rfl := Option.some.inj hstep
    exact h.queueTx fd addr payload
  | queueTxMimicry fd addr payload sessionSeed rand =>
    obtain rfl := Option.some.inj hstep
    exact h.queueTxMimicry fd addr payload sessionSeed rand
  | flushTx result =>
    obtain rfl := Option.some.inj hstep
    exact h.flushTx result

theorem length_calls_flushTx (s : PacketScratch A) (result : ℕ → SendResult) :
    (s.flushTx result).2.2.length ≤ s.txCount := by
  rw [PacketScratch.flushTx]
  split
  · exact Nat.zero_le _
  · refine le_trans (length_calls_flushLoop s.txCount_le result) ?_
    simp

theorem congested_dropLast_flushTx (s : PacketScratch A) (result : ℕ → SendResult) :
    ∀ c ∈ (s.flushTx result).2.2.dropLast, c.result ≠ .congested := by
  rw [PacketScratch.flushTx]
  split
  · exact fun c hc => absurd hc List.not_mem_nil
  · exact congested_dropLast_flushLoop s.txCount_le result
      fun c hc => absurd hc List.not_mem_nil

/-- The packets that wait in the batch. -/
def PacketScratch.pending (s : PacketScratch A) : List (TxPacket A) :=
  pendingFrom s.txSlots s.txCount 0

/-- **What the kernel got is what was queued**, in every run and whatever it answers: the
packets left in order, each after a stay at the head; those that have not are in the batch; each
has been sent at most once, and in the order of the queue. A flush makes no more calls than there
are packets, and only its last one is congested, so that the attempts of a stay are of different
flushes. -/
theorem explained_of_runs (s : PacketScratch A) {evs : List (TxEvent A)} {st : TxState A}
    (hrun : runs txStep (txStart s) evs = some st) :
    (∃ retries, Explained 5 st.queued st.history st.scratch.pending retries) ∧
      (sent st.history).Sublist st.queued ∧ st.scratch.txCount ≤ maxBatch ∧
      ∀ result, (st.scratch.flushTx result).2.2.length ≤ st.scratch.txCount ∧
        ∀ c ∈ (st.scratch.flushTx result).2.2.dropLast, c.result ≠ .congested := by
  have hkept : Kept st :=
    inv_of_runs (I := Kept) (fun h hstep => h.step hstep) (kept_txStart s) hrun
  obtain ⟨retries, -, hexplained⟩ := hkept.explained
  rw [List.flatMap_nil, List.append_nil] at hexplained
  exact ⟨⟨retries, hexplained⟩, hexplained.sent_sublist, st.scratch.txCount_le, fun result =>
    ⟨length_calls_flushTx st.scratch result, congested_dropLast_flushTx st.scratch result⟩⟩

end

/-- A scratchpad nobody has written to. -/
def emptyScratch : PacketScratch ℕ where
  txSlots := Vector.replicate maxBatch
    ⟨Vector.replicate txSlotSize 0, 0, 0, -1, 0, ⟨⟨0, by decide⟩, 0⟩⟩
  batchMsgs := Vector.replicate maxBatch (.of ⟨0, by decide⟩)
  txCount := 0
  droppedOversized := 0
  txCount_le := Nat.zero_le _

/-- Two packets are queued and flushed, and a third one is queued behind the flush. -/
def threePackets : List (TxEvent ℕ) :=
  [.queueTx 3 1 [1, 2], .queueTxMimicry 4 1 [3] none (some (Vector.replicate 18 1)),
    .flushTx fun _ => .sent 0, .queueTx 3 2 [4]]

theorem sublist_threePackets :
    ∃ st, runs txStep (txStart emptyScratch) threePackets = some st ∧
      (sent st.history).Sublist st.queued := by
  obtain ⟨st, hrun⟩ : ∃ st, runs txStep (txStart emptyScratch) threePackets = some st := ⟨_, rfl⟩
  exact ⟨st, hrun, (explained_of_runs emptyScratch hrun).2.1⟩

end Wire

end Aegs
