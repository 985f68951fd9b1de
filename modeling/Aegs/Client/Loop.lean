import Mathlib.Data.Int.Notation
import Aegs.Lib.Transition
import Aegs.Replay.Window
import Aegs.Wire.Mimicry
import Aegs.Wire.TxBatch

/-!
# The loop of the C++ client

A turn of the loop sends chaff, takes in datagrams and queues what comes from the TUN device,
to send it in batches. Without the device the client is a proxy with one socket: what is not from
the server is taken for a packet of the local WireGuard, whoever sent it, and what the server sends
goes to the last one who did.

The packets of all three kinds take their numbers from one counter. Those of the device are
numbered when they are queued, and chaff overtakes them while the socket is congested, so the
numbers on the wire are not in order; but no number is there twice (`Aegs.Client.numbers_of_runs`).
What is delivered is what the datagram in front of it holds, under a number that nothing was
delivered under before (`Aegs.Client.justified_of_runs`).
-/

namespace Aegs

namespace Client

open Bytes Wire Transition AntiReplayFilterT RetryQueue

/-- A `sockaddr_in`. -/
structure SockAddr where
  /-- `sin_addr`. -/
  addr : UInt32
  /-- `sin_port`, in host byte order. -/
  port : UInt16
deriving DecidableEq

/-- What the loop is entered with. -/
structure Setup where
  /-- `use_tun`. -/
  useTun : Bool
  /-- `enable_quic_mimicry`. -/
  quicMimicry : Bool
  /-- `s_addr.sin_addr`. -/
  serverAddr : UInt32
  /-- `s_port`. -/
  sPort : ℤ
  /-- `port_count`. -/
  portCount : ℤ
  /-- `raw_kid`, `mask_key` and `session_keys.recv_key`. -/
  keys : ClientKeys
  /-- `session_keys.send_key`. -/
  sendKey : Vector UInt8 32

/-- The address of the server, and `port_ok`. -/
def Setup.fromServer (e : Setup) (src : SockAddr) : Bool :=
  decide (src.addr = e.serverAddr) && (decide (UInt16.ofInt e.sPort ≤ src.port) &&
    decide (src.port < UInt16.ofInt (e.sPort + e.portCount)))

/-- What a slot has to hold besides the packet: `queue_tx_mimicry` leaves room for its header. -/
def Setup.headerRoom (e : Setup) : ℕ := if e.quicMimicry then 24 else 0

/-- What has come in and gone out. -/
inductive Note
  /-- A datagram has arrived. -/
  | arrived (src : SockAddr) (bytes : List UInt8)
  /-- A packet went to the server, under the header that mimicry puts in front. -/
  | server (pkt : List UInt8)
  /-- A payload went to the TUN device, from a packet of this number. -/
  | tun (rxSeq : UInt64) (payload : List UInt8)
  /-- A payload went to `wg_addr`. -/
  | wg (rxSeq : UInt64) (dst : SockAddr) (payload : List UInt8)
deriving DecidableEq

/-- The state of the loop. -/
structure LoopState where
  /-- `client_tx_seq`. -/
  txSeq : UInt64
  /-- `replay_filter`. -/
  replayFilter : AntiReplayFilter
  /-- `wg_addr`, if `has_wg`. -/
  wgAddr : Option SockAddr
  /-- The packets in `tx_slots`. -/
  txSlots : List (List UInt8)
  /-- `retries` of the first of them. -/
  retries : ℕ
  /-- History: what has happened, the last first. -/
  log : List Note

/-- In front of the loop. -/
def LoopState.start : LoopState := ⟨0, reset, none, [], 0, []⟩

/-- What the network, the device and the library do. A call that fails behind the counter drops the
packet and keeps the number. -/
inductive LoopEvent
  /-- `should_send_chaff` says so. -/
  | chaff (d : ChaffDraws) (works : Bool)
  /-- The TUN device has a packet. -/
  | tun (payload : List UInt8) (d : Draws) (works : Bool)
  /-- `flush_tx`, behind a batch from the device: how the attempts to send turn out. -/
  | flush (outcomes : List Outcome)
  /-- A datagram arrives. -/
  | datagram (src : SockAddr) (bytes : List UInt8) (d : Draws) (works : Bool)

variable (C : DataCipher)

/-- The number of a packet, as a receiver with the mask key reads it. -/
def numberOf (maskKey : Vector UInt8 32) (pkt : List UInt8) : UInt64 :=
  nonceSeq (packetNonce (unmaskedHeader C maskKey pkt) pkt)

namespace LoopState

/-- A packet that was built with the next number. -/
def send (s : LoopState) (pkt : List UInt8) (works : Bool) : LoopState :=
  { s with
    txSeq := s.txSeq + 1
    log := if works then .server pkt :: s.log else s.log }

/-- The chaff of a turn. -/
def sendChaff (e : Setup) (s : LoopState) (d : ChaffDraws) (works : Bool) : LoopState :=
  s.send (buildChaffPacket C e.keys.keyId e.keys.maskKey e.sendKey (s.txSeq + 1) d) works

/-- `queue_tx` and `queue_tx_mimicry`: a packet that was built with the next number waits, if
there is a slot for it and it fits. -/
def queueTx (e : Setup) (s : LoopState) (pkt : List UInt8) (works : Bool) : LoopState :=
  { s with
    txSeq := s.txSeq + 1
    txSlots :=
      if works ∧ s.txSlots.length < maxBatch ∧
          pkt.length + e.headerRoom ≤ txSlotSize then s.txSlots ++ [pkt]
      else s.txSlots }

/-- `flush_tx`. All the packets are of one socket. -/
def flushTx (s : LoopState) (outcomes : List Outcome) : LoopState :=
  let r := serve 5 outcomes s.txSlots s.retries
  { s with
    txSlots := r.2.1
    retries := r.2.2
    log := (r.1.map Note.server).reverse ++ s.log }

/-- A packet from the device. -/
def enqueue (e : Setup) (s : LoopState) (payload : List UInt8) (d : Draws) (works : Bool) :
    LoopState :=
  match clientEncode C e.keys.keyId e.keys.maskKey e.sendKey (s.txSeq + 1) payload d with
  | none => s
  | some pkt => s.queueTx e pkt works

/-- A packet from the local WireGuard. -/
def upload (e : Setup) (s : LoopState) (payload : List UInt8) (d : Draws) (works : Bool) :
    LoopState :=
  match clientEncode C e.keys.keyId e.keys.maskKey e.sendKey (s.txSeq + 1) payload d with
  | none => s
  | some pkt => s.send pkt works

/-- Where a payload goes. -/
def deliver (e : Setup) (s : LoopState) (rxSeq : UInt64) (payload : List UInt8) : List Note :=
  if e.useTun then [.tun rxSeq payload]
  else
    match s.wgAddr with
    | none => []
    | some dst => [.wg rxSeq dst payload]

/-- A datagram from the server. -/
def download (e : Setup) (s : LoopState) (bytes : List UInt8) : LoopState :=
  let pkt := clientUnwrap bytes
  if isTokenPacket pkt then s
  else
    let r := clientReceive C e.keys s.replayFilter pkt
    { s with
      replayFilter := r.1
      log :=
        match r.2 with
        | none => s.log
        | some payload => s.deliver e (numberOf C e.keys.maskKey pkt) payload ++ s.log }

/-- **What the loop does.** -/
def step (e : Setup) (s : LoopState) : LoopEvent → Option LoopState
  | .chaff d works => some (s.sendChaff C e d works)
  | .tun payload d works =>
    if e.useTun ∧ 0 < payload.length ∧ payload.length ≤ bufferSize then
      some (s.enqueue C e payload d works)
    else none
  | .flush outcomes => if e.useTun then some (s.flushTx outcomes) else none
  | .datagram src bytes d works =>
    if 0 < bytes.length ∧ bytes.length ≤ bufferSize then
      let s : LoopState := { s with log := .arrived src bytes :: s.log }
      if e.fromServer src then some (s.download C e bytes)
      else if e.useTun then some s
      else some (upload C e { s with wgAddr := some src } bytes d works)
    else none

end LoopState

/-! ### The numbers of what is sent -/

/-- The number under which a packet went to the server. -/
def Note.sent (maskKey : Vector UInt8 32) : Note → Option UInt64
  | .server pkt => some (numberOf C maskKey pkt)
  | _ => none

variable {C}

/-- A packet carries the number it was built with. -/
theorem numberOf_sealPacket {keyId : UInt64} {maskKey sendKey : Vector UInt8 32} {flag : UInt8}
    {hdrIv : Vector UInt8 12} {junk : List UInt8} (hjunk : junk.length < 65536) (seq : UInt64)
    (tail : Vector UInt8 4) (frame : List UInt8) :
    numberOf C maskKey (sealPacket C (outerHeader C keyId maskKey flag hdrIv junk) sendKey
      (aeadNonce seq tail) frame) = seq := by
  have hhdr : unmaskedHeader C maskKey (sealPacket C (outerHeader C keyId maskKey flag hdrIv junk)
      sendKey (aeadNonce seq tail) frame) = plainHeader keyId junk.length.toUInt16 flag := by
    rw [sealPacket, List.append_assoc]
    exact unmaskedHeader_outerHeader _
  rw [numberOf, hhdr, packetNonce_sealPacket hjunk, nonceSeq_aeadNonce]

theorem numberOf_clientEncode {keyId : UInt64} {maskKey sendKey : Vector UInt8 32} {seq : UInt64}
    {payload pkt : List UInt8} {d : Draws}
    (h : clientEncode C keyId maskKey sendKey seq payload d = some pkt) :
    numberOf C maskKey pkt = seq := by
  obtain ⟨padLen, -, rfl⟩ := Option.map_eq_some_iff.mp h
  exact numberOf_sealPacket d.junkBytes_lt seq d.nonceTail _

theorem numberOf_buildChaffPacket (keyId : UInt64) (maskKey sendKey : Vector UInt8 32)
    (seq : UInt64) (d : ChaffDraws) :
    numberOf C maskKey (buildChaffPacket C keyId maskKey sendKey seq d) = seq :=
  numberOf_sealPacket (show ([] : List UInt8).length < 65536 by decide) seq d.nonceTail _

/-- The numbers that are used: of what was sent, and of what waits. -/
def LoopState.numbers (C : DataCipher) (e : Setup) (s : LoopState) : List UInt64 :=
  s.log.filterMap (Note.sent C e.keys.maskKey) ++ s.txSlots.map (numberOf C e.keys.maskKey)

/-- The numbers that are used, and the counter. -/
structure Numbered (C : DataCipher) (e : Setup) (s : LoopState) : Prop where
  /-- None is above the counter. -/
  le : ∀ n ∈ s.numbers C e, n.toNat ≤ s.txSeq.toNat
  /-- None is used twice. -/
  nodup : (s.numbers C e).Nodup

variable {e : Setup} {s t : LoopState} {as : List LoopEvent}

/-- What happens beside the sending changes nothing. -/
theorem Numbered.congr (h : Numbered C e s) (htx : t.txSeq = s.txSeq)
    (hnumbers : t.numbers C e = s.numbers C e) : Numbered C e t := by
  constructor
  · rw [hnumbers, htx]
    exact h.le
  · rw [hnumbers]
    exact h.nodup

/-- The next number. -/
theorem toNat_next (hroom : s.txSeq.toNat + 1 < UInt64.size) :
    (s.txSeq + 1).toNat = s.txSeq.toNat + 1 := by
  rw [UInt64.toNat_add]
  exact Nat.mod_eq_of_lt hroom

/-- **A number is taken**, and used for one packet at most. -/
theorem Numbered.take (h : Numbered C e s) (hroom : s.txSeq.toNat + 1 < UInt64.size)
    (htx : t.txSeq = s.txSeq + 1)
    (hnumbers : t.numbers C e = s.numbers C e ∨
      (t.numbers C e).Perm ((s.txSeq + 1) :: s.numbers C e)) :
    Numbered C e t ∧ t.txSeq.toNat = s.txSeq.toNat + 1 := by
  have hnext := toNat_next hroom
  have hold : ∀ n ∈ s.numbers C e, n.toNat < (s.txSeq + 1).toNat := fun n hn => by
    rw [hnext]
    exact Nat.lt_succ_of_le (h.le n hn)
  refine ⟨?_, htx ▸ hnext⟩
  rcases hnumbers with heq | hperm
  · constructor
    · rw [heq, htx]
      exact fun n hn => Nat.le_of_lt (hold n hn)
    · rw [heq]
      exact h.nodup
  · -- the new number is above all that were used
    constructor
    · rw [htx]
      intro n hn
      rcases List.mem_cons.mp (hperm.mem_iff.mp hn) with rfl | hn
      · exact Nat.le_refl _
      · exact Nat.le_of_lt (hold n hn)
    · refine hperm.nodup_iff.mpr (List.nodup_cons.mpr ⟨fun hmem => ?_, h.nodup⟩)
      exact Nat.lt_irrefl _ (hold _ hmem)

/-- A packet with the next number goes out at once. -/
theorem Numbered.send (h : Numbered C e s) (hroom : s.txSeq.toNat + 1 < UInt64.size)
    {pkt : List UInt8} (hpkt : numberOf C e.keys.maskKey pkt = s.txSeq + 1) (works : Bool) :
    Numbered C e (s.send pkt works) ∧ (s.send pkt works).txSeq.toNat = s.txSeq.toNat + 1 := by
  refine h.take hroom rfl ?_
  cases works with
  | false => exact Or.inl rfl
  | true =>
    have hnote : (Note.server pkt).sent C e.keys.maskKey = some (s.txSeq + 1) :=
      congrArg some hpkt
    refine Or.inr (List.Perm.of_eq ?_)
    show List.filterMap _ (.server pkt :: s.log) ++ _ = _
    rw [List.filterMap_cons_some hnote]
    rfl

/-- A packet with the next number waits. -/
theorem Numbered.queueTx (h : Numbered C e s) (hroom : s.txSeq.toNat + 1 < UInt64.size)
    {pkt : List UInt8} (hpkt : numberOf C e.keys.maskKey pkt = s.txSeq + 1) (works : Bool) :
    Numbered C e (s.queueTx e pkt works) ∧
      (s.queueTx e pkt works).txSeq.toNat = s.txSeq.toNat + 1 := by
  refine h.take hroom rfl ?_
  simp only [LoopState.queueTx, LoopState.numbers]
  split
  · refine Or.inr ?_
    rw [List.map_append, List.map_singleton, hpkt, ← List.append_assoc]
    exact List.perm_append_singleton _ _
  · exact Or.inl rfl

/-- **A flush** moves numbers from the queue to the wire, and drops some. -/
theorem Numbered.flushTx (h : Numbered C e s) (outcomes : List Outcome) :
    Numbered C e (s.flushTx outcomes) := by
  obtain ⟨sent, hsent⟩ : ∃ sent, sent = (serve 5 outcomes s.txSlots s.retries).1 := ⟨_, rfl⟩
  obtain ⟨left, hleft⟩ : ∃ left, left = (serve 5 outcomes s.txSlots s.retries).2.1 := ⟨_, rfl⟩
  have hserved : (sent ++ left).Sublist s.txSlots := by
    rw [hsent, hleft]
    exact serve_sublist outcomes s.txSlots s.retries
  have hwire : ((sent.map Note.server).reverse).filterMap (Note.sent C e.keys.maskKey) =
      (sent.map (numberOf C e.keys.maskKey)).reverse := by
    rw [← List.map_reverse, List.filterMap_map, ← List.map_reverse, ← List.filterMap_eq_map]
    rfl
  have hnumbers : (s.flushTx outcomes).numbers C e =
      (sent.map (numberOf C e.keys.maskKey)).reverse ++
        s.log.filterMap (Note.sent C e.keys.maskKey) ++
        left.map (numberOf C e.keys.maskKey) := by
    rw [← hwire, ← List.filterMap_append, hsent, hleft]
    rfl
  have hperm : ((s.flushTx outcomes).numbers C e).Perm
      (s.log.filterMap (Note.sent C e.keys.maskKey) ++
        (sent ++ left).map (numberOf C e.keys.maskKey)) := by
    rw [hnumbers, List.map_append, ← List.append_assoc]
    exact ((List.reverse_perm _).append_right _ |>.trans List.perm_append_comm).append_right _
  have hsub : (s.log.filterMap (Note.sent C e.keys.maskKey) ++
      (sent ++ left).map (numberOf C e.keys.maskKey)).Sublist (s.numbers C e) :=
    (List.Sublist.refl _).append (hserved.map _)
  exact ⟨fun n hn => h.le n (hsub.mem (hperm.mem_iff.mp hn)),
    hperm.nodup_iff.mpr (h.nodup.sublist hsub)⟩

theorem Numbered.enqueue (h : Numbered C e s) (hroom : s.txSeq.toNat + 1 < UInt64.size)
    (payload : List UInt8) (d : Draws) (works : Bool) :
    Numbered C e (s.enqueue C e payload d works) ∧
      (s.enqueue C e payload d works).txSeq.toNat ≤ s.txSeq.toNat + 1 := by
  rw [LoopState.enqueue]
  split
  · exact ⟨h, Nat.le_succ _⟩
  · rename_i pkt hpkt
    obtain ⟨hqueued, htx⟩ := h.queueTx hroom (numberOf_clientEncode hpkt) works
    exact ⟨hqueued, Nat.le_of_eq htx⟩

theorem Numbered.upload (h : Numbered C e s) (hroom : s.txSeq.toNat + 1 < UInt64.size)
    (payload : List UInt8) (d : Draws) (works : Bool) :
    Numbered C e (s.upload C e payload d works) ∧
      (s.upload C e payload d works).txSeq.toNat ≤ s.txSeq.toNat + 1 := by
  rw [LoopState.upload]
  split
  · exact ⟨h, Nat.le_succ _⟩
  · rename_i pkt hpkt
    obtain ⟨hsent, htx⟩ := h.send hroom (numberOf_clientEncode hpkt) works
    exact ⟨hsent, Nat.le_of_eq htx⟩

/-- Nothing that is delivered goes to the server. -/
theorem filterMap_sent_deliver (maskKey : Vector UInt8 32) (rxSeq : UInt64)
    (payload : List UInt8) :
    (s.deliver e rxSeq payload).filterMap (Note.sent C maskKey) = [] := by
  rw [LoopState.deliver]
  split
  · rfl
  · split <;> rfl

theorem Numbered.download (h : Numbered C e s) (bytes : List UInt8) :
    Numbered C e (s.download C e bytes) ∧ (s.download C e bytes).txSeq = s.txSeq := by
  rw [LoopState.download]
  split
  · exact ⟨h, rfl⟩
  · refine ⟨h.congr rfl ?_, rfl⟩
    simp only [LoopState.numbers]
    split
    · rfl
    · rw [List.filterMap_append, filterMap_sent_deliver, List.nil_append]

/-- **One event** uses one number at most. -/
theorem Numbered.step (h : Numbered C e s) (hroom : s.txSeq.toNat + 1 < UInt64.size)
    {a : LoopEvent} (hstep : s.step C e a = some t) :
    Numbered C e t ∧ t.txSeq.toNat ≤ s.txSeq.toNat + 1 := by
  cases a with
  | chaff d works =>
    obtain rfl := Option.some.inj hstep
    obtain ⟨hsent, htx⟩ := h.send hroom (numberOf_buildChaffPacket e.keys.keyId e.keys.maskKey
      e.sendKey (s.txSeq + 1) d) works
    exact ⟨hsent, Nat.le_of_eq htx⟩
  | tun payload d works =>
    rw [LoopState.step] at hstep
    split at hstep
    · obtain rfl := Option.some.inj hstep
      exact h.enqueue hroom payload d works
    · cases hstep
  | flush outcomes =>
    rw [LoopState.step] at hstep
    split at hstep
    · obtain rfl := Option.some.inj hstep
      exact ⟨h.flushTx outcomes, Nat.le_succ _⟩
    · cases hstep
  | datagram src bytes d works =>
    rw [LoopState.step] at hstep
    split at hstep
    · have harrived : Numbered C e { s with log := .arrived src bytes :: s.log } := h.congr rfl rfl
      have hmet : Numbered C e
          { s with wgAddr := some src, log := .arrived src bytes :: s.log } := h.congr rfl rfl
      -- from the server it is read; from others it is dropped, or sent on without a device
      dsimp only at hstep
      split at hstep
      · obtain rfl := Option.some.inj hstep
        obtain ⟨hsent, htx⟩ := harrived.download bytes
        exact ⟨hsent, by rw [htx]; exact Nat.le_succ _⟩
      · split at hstep
        · obtain rfl := Option.some.inj hstep
          exact ⟨harrived, Nat.le_succ _⟩
        · obtain rfl := Option.some.inj hstep
          exact hmet.upload hroom bytes d works
    · cases hstep

/-- **No number is on the wire twice**: neither chaff, nor the packets of the device, which wait in
a queue, nor those of the local WireGuard go out under a number that another packet went out under,
as long as there are fewer events than numbers. So no nonce is used twice under the one key of the
loop. -/
theorem numbers_of_runs (hrun : runs (LoopState.step C e) .start as = some s)
    (hlen : as.length < UInt64.size) :
    (s.log.filterMap (Note.sent C e.keys.maskKey)).Nodup := by
  have hall : ∀ (as : List LoopEvent) (s : LoopState),
      runs (LoopState.step C e) .start as = some s → as.length < UInt64.size →
        Numbered C e s ∧ s.txSeq.toNat ≤ as.length := by
    intro as
    -- from the start on, with a number for each event
    induction as using List.reverseRecOn with
    | nil =>
      intro s hrun _
      obtain rfl := Option.some.inj hrun
      refine ⟨⟨?_, List.Pairwise.nil⟩, Nat.le_refl 0⟩
      rintro n ⟨⟩
    | append_singleton as a ih =>
      intro s hrun hlen
      rw [List.length_append, List.length_singleton] at hlen ⊢
      obtain ⟨u, hu, hstep⟩ := runs_snoc.mp hrun
      obtain ⟨hnumbered, htx⟩ := ih u hu (Nat.lt_of_succ_lt hlen)
      obtain ⟨hnumbered, htx'⟩ := hnumbered.step (by omega) hstep
      exact ⟨hnumbered, by omega⟩
  exact ((hall as s hrun hlen).1.nodup).sublist (List.sublist_append_left _ _)

/-! ### A small client -/

/-- Its keys, all different. -/
def smallSetup (useTun : Bool) : Setup where
  useTun := useTun
  quicMimicry := false
  serverAddr := 0x0a000001
  sPort := 51820
  portCount := 10
  keys := ⟨5, Vector.replicate 32 1, Vector.replicate 32 3⟩
  sendKey := Vector.replicate 32 2

theorem zero_lt_65 : 0 < 65 := by decide

/-- Chaff of the shortest length. -/
def smallChaff : ChaffDraws :=
  ⟨Fin.mk 0 zero_lt_65, fun n => Vector.replicate n 7, Vector.replicate 4 9, Vector.replicate 12 4⟩

/-- Chaff overtakes a packet of the device, which is sent at the second attempt. -/
def smallSending : List LoopEvent :=
  [.tun [1, 2] (smallDraws (Vector.replicate 12 4)) true, .flush [.congested],
    .chaff smallChaff true, .chaff smallChaff false, .flush [.sent], .chaff smallChaff true]

theorem numbers_of_runs_small : ∃ s,
    runs (LoopState.step smallDataCipher (smallSetup true)) .start smallSending = some s ∧
    (s.log.filterMap (Note.sent smallDataCipher (smallSetup true).keys.maskKey)).Nodup :=
  ⟨_, rfl, @numbers_of_runs smallDataCipher (smallSetup true) _ smallSending rfl (by decide)⟩

/-! ### What is delivered -/

/-- The number under which something was delivered. -/
def Note.delivered : Note → Option UInt64
  | .tun rxSeq _ => some rxSeq
  | .wg rxSeq _ _ => some rxSeq
  | _ => none

/-- The last one who was not the server. -/
def lastStranger (e : Setup) : List Note → Option SockAddr
  | [] => none
  | .arrived src _ :: log => if e.fromServer src then lastStranger e log else some src
  | _ :: log => lastStranger e log

/-- The last datagram is from the server and holds the payload under the number. -/
def Brought (C : DataCipher) (e : Setup) (rxSeq : UInt64) (payload : List UInt8)
    (older : List Note) : Prop :=
  ∃ src bytes rest, older = .arrived src bytes :: rest ∧ e.fromServer src = true ∧
    clientDecode C e.keys (clientUnwrap bytes) = some payload ∧
    numberOf C e.keys.maskKey (clientUnwrap bytes) = rxSeq

/-- What has to be so for a note, given those before it. -/
def Justified (C : DataCipher) (e : Setup) (older : List Note) : Note → Prop
  | .arrived _ _ => True
  | .server _ => True
  | .tun rxSeq payload => e.useTun = true ∧ Brought C e rxSeq payload older ∧
      rxSeq ∉ older.filterMap Note.delivered
  | .wg rxSeq dst payload => e.useTun = false ∧ lastStranger e older = some dst ∧
      Brought C e rxSeq payload older ∧ rxSeq ∉ older.filterMap Note.delivered

/-- What the state knows of the history. -/
structure Kept (C : DataCipher) (e : Setup) (s : LoopState) : Prop where
  /-- The filter is one that calls have made. -/
  coherent : Coherent s.replayFilter
  /-- It turns down what was delivered. -/
  turnsDown : ∀ n ∈ s.log.filterMap Note.delivered, s.replayFilter.checkPeek n = true
  /-- It has the address of the last stranger. -/
  wgAddr : e.useTun = false → s.wgAddr = lastStranger e s.log
  /-- All that has happened is justified. -/
  justified : ∀ newer note older, s.log = newer ++ note :: older → Justified C e older note

/-- One more note. -/
theorem justified_cons {log : List Note} {note : Note}
    (h : ∀ newer note' older, log = newer ++ note' :: older → Justified C e older note')
    (hnote : Justified C e log note) :
    ∀ newer note' older, note :: log = newer ++ note' :: older → Justified C e older note' := by
  rintro (_ | ⟨first, newer⟩) note' older heq
  · obtain ⟨rfl, rfl⟩ := List.cons.inj heq
    exact hnote
  · exact h newer note' older (List.cons.inj heq).2

/-- What the code does with a datagram of the server, by what comes of it. -/
theorem clientReceive_cases (k : ClientKeys) (filter : AntiReplayFilter) (pkt : List UInt8) :
    clientReceive C k filter pkt = (filter, none) ∨
      (filter.checkPeek (numberOf C k.maskKey pkt) = false ∧
        clientReceive C k filter pkt =
          (filter.updateCommit (numberOf C k.maskKey pkt), clientDecode C k pkt)) := by
  cases hpeek : filter.checkPeek (numberOf C k.maskKey pkt) with
  | true =>
    refine Or.inl ?_
    simp only [numberOf] at hpeek
    simp only [clientReceive, hpeek, if_true]
    split_ifs <;> rfl
  | false =>
    have hdecode := clientReceive_eq C hpeek
    simp only [numberOf] at hpeek ⊢
    simp only [clientReceive, hpeek, Bool.false_eq_true, if_false] at hdecode ⊢
    split_ifs at hdecode ⊢
    · exact Or.inl rfl
    · -- the filter is written only behind a decryption that succeeds
      cases hopen : openPacket C k.recvKey (unmaskedHeader C k.maskKey pkt) pkt with
      | none => exact Or.inl rfl
      | some frame =>
        rw [hopen] at hdecode
        exact Or.inr ⟨trivial, Prod.ext rfl hdecode⟩
    · exact Or.inl rfl
    · exact Or.inl rfl
    · exact Or.inl rfl

theorem kept_start : Kept C e .start where
  coherent := coherent_reset
  turnsDown := by
    rintro n ⟨⟩
  wgAddr _ := rfl
  justified newer note older heq := by
    cases newer <;> cases heq

/-- What goes to the server is no delivery. -/
theorem Kept.send (h : Kept C e s) (pkt : List UInt8) (works : Bool) :
    Kept C e (s.send pkt works) := by
  cases works with
  | false => exact ⟨h.coherent, h.turnsDown, h.wgAddr, h.justified⟩
  | true => exact ⟨h.coherent, h.turnsDown, h.wgAddr, justified_cons h.justified trivial⟩

/-- Nor does what is queued change what has happened. -/
theorem Kept.enqueue (h : Kept C e s) (payload : List UInt8) (d : Draws) (works : Bool) :
    Kept C e (s.enqueue C e payload d works) := by
  rw [LoopState.enqueue]
  split
  · exact h
  · exact ⟨h.coherent, h.turnsDown, h.wgAddr, h.justified⟩

/-- What a flush sends goes to the server. -/
theorem Kept.flushTx (h : Kept C e s) (outcomes : List Outcome) :
    Kept C e (s.flushTx outcomes) := by
  have hlogged : ∀ pkts : List (List UInt8), Kept C e
      { s with log := pkts.map Note.server ++ s.log } := by
    intro pkts
    induction pkts with
    | nil => exact h
    | cons pkt pkts ih =>
      exact ⟨ih.coherent, ih.turnsDown, ih.wgAddr, justified_cons ih.justified trivial⟩
  rw [LoopState.flushTx, ← List.map_reverse]
  obtain ⟨hcoherent, hdown, hwg, hjustified⟩ :=
    hlogged (serve 5 outcomes s.txSlots s.retries).1.reverse
  exact ⟨hcoherent, hdown, hwg, hjustified⟩

theorem Kept.upload (h : Kept C e s) (payload : List UInt8) (d : Draws) (works : Bool) :
    Kept C e (s.upload C e payload d works) := by
  rw [LoopState.upload]
  split
  · exact h
  · exact h.send _ works

/-- A datagram of the server, which has just arrived. -/
theorem Kept.download (h : Kept C e s) {src : SockAddr} {bytes : List UInt8} {rest : List Note}
    (hlog : s.log = .arrived src bytes :: rest) (hsrc : e.fromServer src = true) :
    Kept C e (s.download C e bytes) := by
  rw [LoopState.download]
  split
  · exact h
  · rcases @clientReceive_cases C e.keys s.replayFilter (clientUnwrap bytes) with
      heq | ⟨hpeek, heq⟩
    · rw [heq]
      exact ⟨h.coherent, h.turnsDown, h.wgAddr, h.justified⟩
    · rw [heq]
      -- the filter let the number pass, so it was not delivered yet
      have hcoherent := h.coherent.updateCommit (numberOf C e.keys.maskKey (clientUnwrap bytes))
      have hold : ∀ n ∈ s.log.filterMap Note.delivered,
          (s.replayFilter.updateCommit (numberOf C e.keys.maskKey
            (clientUnwrap bytes))).checkPeek n = true := fun n hn =>
        h.coherent.checkPeek_updateCommit (h.turnsDown n hn) _
      have hnew := h.coherent.checkPeek_updateCommit_self
        (numberOf C e.keys.maskKey (clientUnwrap bytes))
      have hfresh : numberOf C e.keys.maskKey (clientUnwrap bytes) ∉
          s.log.filterMap Note.delivered := by
        intro hmem
        rw [h.turnsDown _ hmem] at hpeek
        cases hpeek
      cases hdecode : clientDecode C e.keys (clientUnwrap bytes) with
      | none => exact ⟨hcoherent, hold, h.wgAddr, h.justified⟩
      | some payload =>
        have hbrought :
            Brought C e (numberOf C e.keys.maskKey (clientUnwrap bytes)) payload s.log :=
          ⟨src, bytes, rest, hlog, hsrc, hdecode, rfl⟩
        have hdown : ∀ n ∈ numberOf C e.keys.maskKey (clientUnwrap bytes) ::
            s.log.filterMap Note.delivered, (s.replayFilter.updateCommit (numberOf C
              e.keys.maskKey (clientUnwrap bytes))).checkPeek n = true := by
          rintro n hn
          rcases List.mem_cons.mp hn with rfl | hn
          · exact hnew
          · exact hold n hn
        dsimp only
        rw [LoopState.deliver]
        split
        · rename_i htun
          refine ⟨hcoherent, hdown, fun hproxy => ?_,
            justified_cons h.justified ⟨htun, hbrought, hfresh⟩⟩
          rw [htun] at hproxy
          cases hproxy
        · rename_i hproxy
          have hproxy := Bool.eq_false_iff.mpr hproxy
          split
          · exact ⟨hcoherent, hold, h.wgAddr, h.justified⟩
          · rename_i dst hdst
            exact ⟨hcoherent, hdown, h.wgAddr, justified_cons h.justified
              ⟨hproxy, (h.wgAddr hproxy).symm.trans hdst, hbrought, hfresh⟩⟩

/-- **One event.** -/
theorem Kept.step (h : Kept C e s) {a : LoopEvent} (hstep : s.step C e a = some t) :
    Kept C e t := by
  cases a with
  | chaff d works =>
    obtain rfl := Option.some.inj hstep
    exact h.send _ works
  | tun payload d works =>
    rw [LoopState.step] at hstep
    split at hstep
    · obtain rfl := Option.some.inj hstep
      exact h.enqueue payload d works
    · cases hstep
  | flush outcomes =>
    rw [LoopState.step] at hstep
    split at hstep
    · obtain rfl := Option.some.inj hstep
      exact h.flushTx outcomes
    · cases hstep
  | datagram src bytes d works =>
    rw [LoopState.step] at hstep
    split at hstep
    · dsimp only at hstep
      have hjustified := @justified_cons C e s.log (.arrived src bytes) h.justified trivial
      split at hstep
      · rename_i hsrc
        obtain rfl := Option.some.inj hstep
        have harrived : Kept C e { s with log := .arrived src bytes :: s.log } := by
          refine ⟨h.coherent, h.turnsDown, fun hproxy => ?_, hjustified⟩
          show s.wgAddr = if e.fromServer src then _ else _
          rw [if_pos hsrc]
          exact h.wgAddr hproxy
        exact harrived.download rfl hsrc
      · rename_i hsrc
        split at hstep
        · rename_i htun
          obtain rfl := Option.some.inj hstep
          refine ⟨h.coherent, h.turnsDown, fun hproxy => ?_, hjustified⟩
          rw [htun] at hproxy
          cases hproxy
        · obtain rfl := Option.some.inj hstep
          have hmet : Kept C e
              { s with wgAddr := some src, log := .arrived src bytes :: s.log } := by
            refine ⟨h.coherent, h.turnsDown, fun _ => ?_, hjustified⟩
            show some src = if e.fromServer src then _ else _
            rw [if_neg hsrc]
          exact hmet.upload bytes d works
    · cases hstep

/-- **What is delivered**: a payload goes to the device if there is one, and otherwise to the last
one who was not the server; the last datagram came from the server and holds it; and nothing was
delivered under its number before. -/
theorem justified_of_runs (hrun : runs (LoopState.step C e) .start as = some s)
    {newer older : List Note} {note : Note} (hlog : s.log = newer ++ note :: older) :
    Justified C e older note :=
  (inv_of_runs (fun hu hstep => Kept.step hu hstep) kept_start hrun).justified newer note older hlog

/-- A packet of the server. -/
def smallAnswer : List UInt8 :=
  encodePacket smallDataCipher 5 (Vector.replicate 32 1) (Vector.replicate 32 3) 1 [7] 0
    (smallDraws (Vector.replicate 12 4))

/-- A datagram of the local WireGuard, and the answer to it. -/
def smallExchange : List LoopEvent :=
  [.datagram ⟨0x7f000001, 40000⟩ [9, 9] (smallDraws (Vector.replicate 12 4)) false,
    .datagram ⟨0x0a000001, 51825⟩ smallAnswer (smallDraws (Vector.replicate 12 4)) true]

/-- The answer goes back to where the datagram was from. -/
theorem justified_of_runs_small : ∃ s older,
    runs (LoopState.step smallDataCipher (smallSetup false)) .start smallExchange = some s ∧
      s.log = .wg 1 ⟨0x7f000001, 40000⟩ [7] :: older ∧
      Justified smallDataCipher (smallSetup false) older (.wg 1 ⟨0x7f000001, 40000⟩ [7]) := by
  have hlog : (runs (LoopState.step smallDataCipher (smallSetup false)) .start smallExchange).map
      LoopState.log = some [.wg 1 ⟨0x7f000001, 40000⟩ [7],
        .arrived ⟨0x0a000001, 51825⟩ smallAnswer, .arrived ⟨0x7f000001, 40000⟩ [9, 9]] := by
    decide +kernel
  obtain ⟨s, hrun, hlog⟩ := Option.map_eq_some_iff.mp hlog
  exact ⟨s, _, hrun, hlog,
    @justified_of_runs smallDataCipher (smallSetup false) s smallExchange hrun [] _ _ hlog⟩

end Client

end Aegs
