import Aegs.Lib.Bytes
import Mathlib.Tactic.Common

/-!
# Port hopping

`PortHopper`: the port that a key stands for at a time, and the ports that are good for
a key within two periods of a time. The client asks the first question, for its
`send_key`, with the period it is configured with. A worker of the server asks the
second, for the `recv_key` of the session, and builds its own hopper for it
(`Aegs.Wire.workerHopper`), from the list of ports it is given.

That list carries the base port and the number of ports. It does not carry the period:
the worker's is thirty seconds. The two sides agree whatever the HMAC is exactly if there
is no hopping at all or the configured period is this one
(`Aegs.Wire.hopAgree_iff`).
-/

namespace Aegs

namespace Wire

open Bytes

/-- `PortHopper`. -/
structure PortHopper where
  /-- `base_port_`. -/
  basePort : UInt16
  /-- `count_`. -/
  count : ℕ
  /-- `hop_interval_sec_`. -/
  hopIntervalSec : UInt32
  one_le_count : 1 ≤ count
  count_le : count ≤ 64
  one_le_hopIntervalSec : 1 ≤ hopIntervalSec.toNat

/-- HMAC-SHA256 of the eight bytes of an epoch, if the library has a result. -/
abbrev EpochHmac := Vector UInt8 32 → Vector UInt8 8 → Option (Vector UInt8 32)

namespace PortHopper

/-- The constructor, which brings the number of ports and the period into range. -/
def new (basePort : UInt16) (count : ℤ) (hopIntervalSec : UInt32) : PortHopper where
  basePort := basePort
  count := if count < 1 then 1 else if count > 64 then 64 else count.toNat
  hopIntervalSec := if hopIntervalSec < 1 then 1 else hopIntervalSec
  one_le_count := by split_ifs <;> omega
  count_le := by split_ifs <;> omega
  one_le_hopIntervalSec := by
    split
    · decide
    · rename_i h
      rwa [UInt32.lt_iff_toNat_lt, not_lt] at h

variable (h : PortHopper) (hmac : EpochHmac) (sessionKey : Vector UInt8 32)

/-- `server_ports`. -/
def serverPorts : List UInt16 := (List.range h.count).map fun i => h.basePort + UInt16.ofNat i

/-- `epoch_to_port`. -/
def epochToPort (epoch : UInt64) : UInt16 :=
  match hmac sessionKey (be64 epoch) with
  | none => h.basePort
  | some out => h.basePort + UInt16.ofNat ((ofLe32 (copyOut out.toList 0 4)).toNat % h.count)

/-- The epoch at a time. -/
def epochAt (now : UInt64) : UInt64 := now / h.hopIntervalSec.toUInt64

/-- `current_port` at a time. -/
def currentPort (now : UInt64) : UInt16 := h.epochToPort hmac sessionKey (h.epochAt now)

/-- `is_valid_port` at a time. -/
def isValidPort (receivedPort : UInt16) (now : UInt64) : Bool :=
  if h.count ≤ 1 then receivedPort == h.basePort
  else if receivedPort = h.basePort then true
  else
    let epoch := h.epochAt now
    if h.epochToPort hmac sessionKey epoch = receivedPort then true
    else if epoch > 0 ∧ h.epochToPort hmac sessionKey (epoch - 1) = receivedPort then true
    else if h.epochToPort hmac sessionKey (epoch + 1) = receivedPort then true
    else if epoch > 1 ∧ h.epochToPort hmac sessionKey (epoch - 2) = receivedPort then true
    else if h.epochToPort hmac sessionKey (epoch + 2) = receivedPort then true
    else false

end PortHopper

/-- The hopper of `worker_loop`. -/
def workerHopper (ports : List UInt16) : PortHopper :=
  PortHopper.new (ports.headD 50001) ports.length 30

/-- The compliance check of `process_udp_packet`: whether it drops a packet of a session
that came in on the socket of a port. -/
def dropsPort (hmac : EpochHmac) (ports : List UInt16) (v3HandshakeDone : Bool)
    (recvKey : Vector UInt8 32) (fdPort : Option UInt16) (now : UInt64) : Bool :=
  if ports.length > 1 ∧ v3HandshakeDone then
    match fdPort with
    | none => false
    | some port =>
      port != ports.headD 50001 && !(workerHopper ports).isValidPort hmac recvKey port now
  else false

/-! ### The ports of a hopper -/

namespace PortHopper

variable (h : PortHopper) (hmac : EpochHmac) (sessionKey : Vector UInt8 32)

theorem toNat_epochAt (now : UInt64) :
    (h.epochAt now).toNat = now.toNat / h.hopIntervalSec.toNat := by
  rw [epochAt, UInt64.toNat_div, UInt32.toNat_toUInt64]

theorem length_serverPorts : h.serverPorts.length = h.count := by
  rw [serverPorts, List.length_map, List.length_range]

/-- The first of the ports is the base port. -/
theorem headD_serverPorts (d : UInt16) : h.serverPorts.headD d = h.basePort := by
  obtain ⟨n, hn⟩ : ∃ n, h.count = n + 1 := ⟨h.count - 1, by have := h.one_le_count; omega⟩
  rw [serverPorts, hn, List.range_succ_eq_map]
  exact UInt16.add_zero h.basePort

/-- Every port the client may choose is one the server listens on. -/
theorem epochToPort_mem (epoch : UInt64) :
    h.epochToPort hmac sessionKey epoch ∈ h.serverPorts := by
  rw [epochToPort, serverPorts, List.mem_map]
  split
  · exact ⟨0, List.mem_range.mpr h.one_le_count, UInt16.add_zero h.basePort⟩
  · exact ⟨_, List.mem_range.mpr (Nat.mod_lt _ h.one_le_count), rfl⟩

/-- The port of an epoch does not depend on the period. -/
theorem epochToPort_congr {h h' : PortHopper} (hbase : h.basePort = h'.basePort)
    (hcount : h.count = h'.count) (epoch : UInt64) :
    h.epochToPort hmac sessionKey epoch = h'.epochToPort hmac sessionKey epoch := by
  rw [epochToPort, epochToPort, hbase, hcount]

/-- The five epochs that `is_valid_port` tries, where those after it do not wrap. -/
theorem near_iff {epoch now : UInt64} (hwrap : now.toNat + 2 < 2 ^ 64) :
    (epoch.toNat ≤ now.toNat + 2 ∧ now.toNat ≤ epoch.toNat + 2) ↔
      epoch = now ∨ (now > 0 ∧ epoch = now - 1) ∨ epoch = now + 1 ∨
        (now > 1 ∧ epoch = now - 2) ∨ epoch = now + 2 := by
  simp only [← UInt64.toNat_inj, gt_iff_lt, UInt64.lt_iff_toNat_lt, UInt64.toNat_sub,
    UInt64.toNat_add, UInt64.toNat_ofNat]
  omega

/-- **The window**: with several ports, what is good at a time is the base port and the
port of each epoch at most two away. -/
theorem isValidPort_iff {port : UInt16} {now : UInt64} (hcount : 1 < h.count)
    (hwrap : (h.epochAt now).toNat + 2 < 2 ^ 64) :
    h.isValidPort hmac sessionKey port now = true ↔ port = h.basePort ∨
      ∃ epoch : UInt64, (epoch.toNat ≤ (h.epochAt now).toNat + 2 ∧
        (h.epochAt now).toNat ≤ epoch.toNat + 2) ∧
        h.epochToPort hmac sessionKey epoch = port := by
  rw [isValidPort, if_neg (by omega)]
  simp only [near_iff hwrap, or_and_right, and_assoc, exists_or, exists_and_left,
    exists_eq_left]
  split_ifs <;> simp_all

end PortHopper

/-! ### The worker's hopper -/

/-- **The worker's hopper has the configured ports**, and its own period. -/
theorem workerHopper_serverPorts (h : PortHopper) :
    (workerHopper h.serverPorts).basePort = h.basePort ∧
      (workerHopper h.serverPorts).count = h.count ∧
      (workerHopper h.serverPorts).hopIntervalSec = 30 := by
  have hlow := h.one_le_count
  have hhigh := h.count_le
  refine ⟨h.headD_serverPorts 50001, ?_, rfl⟩
  simp only [workerHopper, PortHopper.new, h.length_serverPorts]
  rw [if_neg (by omega), if_neg (by omega), Int.toNat_natCast]

/-- A client's packet reaches the data path: the server listens on the port the client has
chosen for its `send_key`, and the worker's check for the equal `recv_key` lets the packet
through. -/
def HopAccepted (hmac : EpochHmac) (h : PortHopper) (v3HandshakeDone : Bool)
    (key : Vector UInt8 32) (clientNow serverNow : UInt64) : Prop :=
  h.currentPort hmac key clientNow ∈ h.serverPorts ∧
    dropsPort hmac h.serverPorts v3HandshakeDone key (some (h.currentPort hmac key clientNow))
      serverNow = false

/-- Two clock readings at most two periods apart. -/
def WithinTwoHops (h : PortHopper) (now now' : UInt64) : Prop :=
  now.toNat ≤ now'.toNat + 2 * h.hopIntervalSec.toNat ∧
    now'.toNat ≤ now.toNat + 2 * h.hopIntervalSec.toNat

/-- The epochs of the worker are far from the end of their range. -/
theorem epochAt_worker_lt (h : PortHopper) (now : UInt64) :
    ((workerHopper h.serverPorts).epochAt now).toNat + 2 < 2 ^ 64 := by
  rw [PortHopper.toNat_epochAt, (workerHopper_serverPorts h).2.2,
    show (30 : UInt32).toNat = 30 from rfl]
  have := now.toNat_lt
  omega

/-- With a single port nothing is dropped. -/
theorem hopAccepted_of_single (hmac : EpochHmac) {h : PortHopper} (hcount : h.count = 1)
    (v3HandshakeDone : Bool) (key : Vector UInt8 32) (clientNow serverNow : UInt64) :
    HopAccepted hmac h v3HandshakeDone key clientNow serverNow := by
  refine ⟨h.epochToPort_mem hmac key _, ?_⟩
  rw [dropsPort, if_neg]
  rintro ⟨hmany, -⟩
  rw [h.length_serverPorts] at hmany
  omega

/-- With the worker's period nothing in the window is dropped. -/
theorem hopAccepted_of_interval (hmac : EpochHmac) {h : PortHopper}
    (hinterval : h.hopIntervalSec = 30) (v3HandshakeDone : Bool) (key : Vector UInt8 32)
    {clientNow serverNow : UInt64} (hnear : WithinTwoHops h clientNow serverNow) :
    HopAccepted hmac h v3HandshakeDone key clientNow serverNow := by
  obtain ⟨hbase, hcount, hworker⟩ := workerHopper_serverPorts h
  refine ⟨h.epochToPort_mem hmac key _, ?_⟩
  rw [dropsPort]
  split
  · rename_i hmany
    rw [h.length_serverPorts] at hmany
    have hvalid : (workerHopper h.serverPorts).isValidPort hmac key
        (h.currentPort hmac key clientNow) serverNow = true := by
      rw [PortHopper.isValidPort_iff _ hmac key (by omega) (epochAt_worker_lt h serverNow)]
      refine Or.inr ⟨h.epochAt clientNow, ?_, ?_⟩
      · -- sixty seconds are at most two of the worker's epochs
        rw [WithinTwoHops, hinterval] at hnear
        rw [PortHopper.toNat_epochAt, PortHopper.toNat_epochAt, hworker, hinterval]
        simp only [show (30 : UInt32).toNat = 30 from rfl] at hnear ⊢
        omega
      · exact PortHopper.epochToPort_congr hmac key hbase hcount _
    simp only [hvalid, Bool.not_true, Bool.and_false]
  · rfl

/-! ### An HMAC that shows the difference -/

/-- An HMAC that stands for the base port in all epochs but one. -/
def lonelyHmac (lonely : UInt64) : EpochHmac := fun _ epoch =>
  some (copyIn (Vector.replicate 32 0) 0 (le32 (if epoch = be64 lonely then 1 else 0)))

theorem epochToPort_lonelyHmac (h : PortHopper) (hcount : 1 < h.count) (key : Vector UInt8 32)
    (lonely epoch : UInt64) :
    h.epochToPort (lonelyHmac lonely) key epoch =
      h.basePort + if epoch = lonely then 1 else 0 := by
  simp only [PortHopper.epochToPort, lonelyHmac, be64_inj]
  rw [copyOut_copyIn_self _ _ (by decide), ofLe32_le32]
  split
  · rw [show (1 : UInt32).toNat = 1 from rfl, Nat.mod_eq_of_lt hcount]
    rfl
  · rw [show (0 : UInt32).toNat = 0 from rfl, Nat.zero_mod]
    rfl

/-- **Another period loses packets**: with several ports and any other period there is a
time at which client and worker, with the same clock, are more than two epochs apart, and
an HMAC under which the worker then drops what the client sends. -/
theorem not_hopAccepted {h : PortHopper} (hcount : 1 < h.count) (hinterval : h.hopIntervalSec ≠ 30)
    (key : Vector UInt8 32) :
    ¬HopAccepted (lonelyHmac 90) h true key (90 * h.hopIntervalSec.toUInt64)
      (90 * h.hopIntervalSec.toUInt64) := by
  obtain ⟨hbase, hworkerCount, hworker⟩ := workerHopper_serverPorts h
  have hone := h.one_le_hopIntervalSec
  have htime : (90 * h.hopIntervalSec.toUInt64).toNat = 90 * h.hopIntervalSec.toNat := by
    have := h.hopIntervalSec.toNat_lt
    rw [UInt64.toNat_mul, UInt32.toNat_toUInt64, show (90 : UInt64).toNat = 90 from rfl]
    omega
  have hne : h.hopIntervalSec.toNat ≠ 30 := fun heq =>
    hinterval (UInt32.toNat_inj.mp (heq.trans rfl))
  -- the client is in the lonely epoch
  have hclient : h.epochAt (90 * h.hopIntervalSec.toUInt64) = 90 := by
    rw [← UInt64.toNat_inj, h.toNat_epochAt, htime, Nat.mul_div_cancel _ (by omega)]
    rfl
  have hport : h.currentPort (lonelyHmac 90) key (90 * h.hopIntervalSec.toUInt64) =
      h.basePort + 1 := by
    rw [PortHopper.currentPort, hclient, epochToPort_lonelyHmac h hcount, if_pos rfl]
  have hother : h.basePort + 1 ≠ h.basePort := by
    rw [Ne, ← UInt16.toNat_inj, UInt16.toNat_add, show (1 : UInt16).toNat = 1 from rfl]
    omega
  -- the worker is not near it
  have hvalid : (workerHopper h.serverPorts).isValidPort (lonelyHmac 90) key (h.basePort + 1)
      (90 * h.hopIntervalSec.toUInt64) = false := by
    rw [Bool.eq_false_iff, Ne, PortHopper.isValidPort_iff _ _ key (by omega)
      (epochAt_worker_lt h _), hbase]
    rintro (heq | ⟨epoch, ⟨hlow, hhigh⟩, heq⟩)
    · exact hother heq
    · rw [PortHopper.epochToPort_congr _ key hbase hworkerCount,
        epochToPort_lonelyHmac h hcount] at heq
      split at heq
      · rename_i hlonely
        rw [PortHopper.toNat_epochAt, htime, hworker, hlonely,
          show (30 : UInt32).toNat = 30 from rfl, show (90 : UInt64).toNat = 90 from rfl]
          at hlow hhigh
        omega
      · exact hother (heq.symm.trans (UInt16.add_zero h.basePort))
  rintro ⟨-, hdrop⟩
  rw [hport, dropsPort, if_pos ⟨by rw [h.length_serverPorts]; exact hcount, rfl⟩] at hdrop
  simp only [hvalid, Bool.not_false, Bool.and_true, bne_eq_false_iff_eq,
    h.headD_serverPorts] at hdrop
  exact hother hdrop

/-- **Agreement on the port**: client and server are configured alike, with ports up to
65535. Every packet of every key at every pair of clock readings at most two periods
apart is let through exactly if there is one port or the period is thirty seconds. -/
theorem hopAgree_iff (basePort : UInt16) (portCount : ℤ) (hopIntervalSec : UInt32)
    (_hfit : basePort.toNat + (PortHopper.new basePort portCount hopIntervalSec).count - 1 ≤
      65535) :
    (∀ (hmac : EpochHmac) (v3HandshakeDone : Bool) (key : Vector UInt8 32)
        (clientNow serverNow : UInt64),
      WithinTwoHops (PortHopper.new basePort portCount hopIntervalSec) clientNow serverNow →
        HopAccepted hmac (PortHopper.new basePort portCount hopIntervalSec) v3HandshakeDone key
          clientNow serverNow) ↔
      portCount ≤ 1 ∨ hopIntervalSec = 30 := by
  have hcount : (PortHopper.new basePort portCount hopIntervalSec).count = 1 ↔ portCount ≤ 1 := by
    simp only [PortHopper.new]
    split_ifs <;> omega
  have hinterval : (PortHopper.new basePort portCount hopIntervalSec).hopIntervalSec = 30 ↔
      hopIntervalSec = 30 := by
    simp only [PortHopper.new]
    split
    · rename_i hlt
      refine ⟨fun h => absurd h (by decide), fun h => ?_⟩
      rw [h] at hlt
      exact absurd hlt (by decide)
    · rfl
  rw [← hcount, ← hinterval]
  constructor
  · intro hall
    by_contra hneither
    rw [not_or] at hneither
    have hmany := (PortHopper.new basePort portCount hopIntervalSec).one_le_count
    exact not_hopAccepted (by omega) hneither.2 (Vector.replicate 32 0)
      (hall _ _ _ _ _ ⟨Nat.le_add_right _ _, Nat.le_add_right _ _⟩)
  · rintro (hone | hperiod) hmac v3HandshakeDone key clientNow serverNow hnear
    · exact hopAccepted_of_single hmac hone v3HandshakeDone key clientNow serverNow
    · exact hopAccepted_of_interval hmac hperiod v3HandshakeDone key hnear

/-- The defaults of client and server. -/
theorem hopAgree_defaults :
    (50001 : UInt16).toNat + (PortHopper.new 50001 10 30).count - 1 ≤ 65535 ∧
    ((∀ (hmac : EpochHmac) (v3HandshakeDone : Bool) (key : Vector UInt8 32)
        (clientNow serverNow : UInt64),
      WithinTwoHops (PortHopper.new 50001 10 30) clientNow serverNow →
        HopAccepted hmac (PortHopper.new 50001 10 30) v3HandshakeDone key clientNow serverNow) ↔
      (10 : ℤ) ≤ 1 ∨ (30 : UInt32) = 30) :=
  ⟨by decide, hopAgree_iff 50001 10 30 (by decide)⟩

/-- A period of one minute on both sides, with ten ports: at second 5400 the client is in
epoch 90, the worker in epoch 180, and a key whose port differs between the two is shut
out. -/
theorem not_hopAgree_minute :
    ¬∀ (basePort : UInt16) (portCount : ℤ) (hopIntervalSec : UInt32),
      basePort.toNat + (PortHopper.new basePort portCount hopIntervalSec).count - 1 ≤ 65535 →
      ∀ (hmac : EpochHmac) (v3HandshakeDone : Bool) (key : Vector UInt8 32)
        (clientNow serverNow : UInt64),
        WithinTwoHops (PortHopper.new basePort portCount hopIntervalSec) clientNow serverNow →
          HopAccepted hmac (PortHopper.new basePort portCount hopIntervalSec) v3HandshakeDone key
            clientNow serverNow := fun hall =>
  not_hopAccepted (h := PortHopper.new 50001 10 60) (by decide) (by decide)
    (Vector.replicate 32 0)
    (hall 50001 10 60 (by decide) _ _ _ _ _ ⟨Nat.le_add_right _ _, Nat.le_add_right _ _⟩)

end Wire

end Aegs
