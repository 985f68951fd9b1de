import Mathlib.Data.Int.Notation
import Mathlib.Data.List.GetD
import Mathlib.Data.List.Nodup
import Aegs.Wire.PortHopper

/-!
# The configuration of the server

`AegsConfig::from_env` reads the settings from the environment and brings some of them into
range. The number of ports is clamped; the base port is what 16 bits hold of the number in
`AEGS_PORT`, whatever it is.

The ports that the server listens on are then those from the base port on
(`Aegs.Wire.PortRange`) exactly if there are that many ports from it on, and it is not 0
(`Aegs.Wire.portRange_iff`). The kill switch asks for the same before it sets its rules.
-/

namespace Aegs

namespace Wire

/-! ### `AegsConfig` -/

/-- `isspace`. -/
def isSpace (c : Char) : Bool := c.toNat = 32 ∨ (9 ≤ c.toNat ∧ c.toNat ≤ 13)

/-- The number that a run of digits stands for. -/
def digits (cs : List Char) : ℤ :=
  (cs.takeWhile Char.isDigit).foldl (fun n c => 10 * n + (c.toNat - 48 : ℕ)) 0

/-- `std::atoi`. A number that no `int` holds has no defined result; this is its low 32 bits. -/
def atoi (s : String) : Int32 :=
  match s.toList.dropWhile isSpace with
  | [] => 0
  | c :: cs =>
    Int32.ofInt (if c.toNat = 45 then -digits cs else if c.toNat = 43 then digits cs
      else digits (c :: cs))

/-- `AegsConfig`, the settings that `from_env` reads. -/
structure AegsConfig where
  /-- `base_port`. -/
  basePort : UInt16
  /-- `port_count`. -/
  portCount : ℤ
  /-- `hop_interval_sec`. -/
  hopIntervalSec : UInt32
  /-- `quic_mimicry`. -/
  quicMimicry : Bool
  /-- `traffic_shaping`. -/
  trafficShaping : Bool
  /-- `semantic_padding`. -/
  semanticPadding : Bool
  /-- `jitter_ms`. -/
  jitterMs : ℤ
  /-- `mtu`. -/
  mtu : ℤ
  /-- `db_path`. -/
  dbPath : String
  /-- `key_path`. -/
  keyPath : String
  /-- `session_idle_timeout`. -/
  sessionIdleTimeout : ℤ
  /-- `worker_threads`. -/
  workerThreads : ℤ
  /-- `recv_batch_size`. -/
  recvBatchSize : ℤ
  /-- `client_isolation`. -/
  clientIsolation : Bool
deriving DecidableEq

/-- The environment: `getenv`. -/
abbrev Env := String → Option String

/-- `gi`. -/
def Env.gi (env : Env) (name : String) (d : Int32) : Int32 := ((env name).map atoi).getD d

/-- `gb`. -/
def Env.gb (env : Env) (name : String) (d : Bool) : Bool := ((env name).map (· == "1")).getD d

/-- `gs`. -/
def Env.gs (env : Env) (name : String) (d : String) : String := (env name).getD d

/-- `AegsConfig::from_env`. -/
def AegsConfig.fromEnv (env : Env) : AegsConfig :=
  let portCount := (env.gi "AEGS_PORT_COUNT" 10).toInt
  let portCount := if portCount < 1 then 1 else portCount
  let portCount := if portCount > 64 then 64 else portCount
  let mtu := (env.gi "AEGS_MTU" 1280).toInt
  let mtu := if mtu < 576 then 576 else mtu
  let mtu := if mtu > 9000 then 9000 else mtu
  { basePort := (env.gi "AEGS_PORT" 50001).toUInt32.toUInt16
    portCount := portCount
    hopIntervalSec := (env.gi "AEGS_HOP_INTERVAL" 30).toUInt32
    quicMimicry := env.gb "AEGS_QUIC_MIMICRY" false
    trafficShaping := env.gb "AEGS_TRAFFIC_SHAPING" false
    semanticPadding := env.gb "AEGS_SEMANTIC_PADDING" true
    jitterMs := (env.gi "AEGS_JITTER_MS" 5).toInt
    mtu := mtu
    dbPath := env.gs "AEGS_DB_PATH" "/app/data/aegis.db"
    keyPath := env.gs "AEGS_KEY_PATH" "server_key.bin"
    sessionIdleTimeout := (env.gi "AEGS_SESSION_TIMEOUT" 180).toInt
    workerThreads := (env.gi "AEGS_WORKERS" 0).toInt
    recvBatchSize := (env.gi "AEGS_RECV_BATCH_SIZE" 32).toInt
    clientIsolation := env.gb "AEGS_CLIENT_ISOLATION" true }

/-- The hopper of the server. -/
def AegsConfig.hopper (c : AegsConfig) : PortHopper :=
  .new c.basePort c.portCount c.hopIntervalSec

/-- **The settings are in range**: the number of ports, and the MTU. -/
theorem AegsConfig.fromEnv_range (env : Env) :
    (1 ≤ (fromEnv env).portCount ∧ (fromEnv env).portCount ≤ 64) ∧
      576 ≤ (fromEnv env).mtu ∧ (fromEnv env).mtu ≤ 9000 := by
  simp only [fromEnv]
  refine ⟨⟨?_, ?_⟩, ?_, ?_⟩ <;> split <;> (try split) <;> omega

/-- The hopper has the number of ports of the configuration. -/
theorem AegsConfig.count_hopper (env : Env) :
    ((fromEnv env).hopper.count : ℤ) = (fromEnv env).portCount := by
  obtain ⟨⟨hlow, hhigh⟩, -⟩ := fromEnv_range env
  simp only [hopper, PortHopper.new]
  rw [if_neg (by omega), if_neg (by omega)]
  omega

/-! ### The range of ports -/

/-- **The ports are those from the base port on**: as many as configured, without a wrap, all
of them different and none 0; and for every key and epoch the port of the epoch is one of them,
and good at every time of the epoch. -/
structure PortRange (h : PortHopper) (count : ℤ) : Prop where
  /-- They follow the base port. -/
  follow : h.serverPorts.map UInt16.toNat = (List.range count.toNat).map fun i =>
    h.basePort.toNat + i
  /-- They are different. -/
  nodup : h.serverPorts.Nodup
  /-- None is 0. -/
  ne_zero : ∀ port ∈ h.serverPorts, port ≠ 0
  /-- The port of an epoch is one of them. -/
  mem : ∀ (hmac : EpochHmac) (key : Vector UInt8 32) (epoch : UInt64),
    h.epochToPort hmac key epoch ∈ h.serverPorts
  /-- It is good in the epoch. -/
  valid : ∀ (hmac : EpochHmac) (key : Vector UInt8 32) (epoch now : UInt64),
    h.epochAt now = epoch → h.isValidPort hmac key (h.epochToPort hmac key epoch) now = true

namespace PortHopper

variable (h : PortHopper)

/-- The port of an epoch is good in the epoch. -/
theorem isValidPort_epochToPort (hmac : EpochHmac) (key : Vector UInt8 32) (now : UInt64) :
    h.isValidPort hmac key (h.epochToPort hmac key (h.epochAt now)) now = true := by
  rw [isValidPort]
  split
  · -- the only port is the base port
    rename_i hcount
    have hone : h.count = 1 := Nat.le_antisymm hcount h.one_le_count
    rw [beq_iff_eq, epochToPort]
    split
    · rfl
    · rw [hone, Nat.mod_one]
      exact UInt16.add_zero h.basePort
  · split
    · rfl
    · rw [if_pos rfl]

/-- The ports are different even if they wrap: there are no more than 64. -/
theorem nodup_serverPorts : h.serverPorts.Nodup := by
  rw [serverPorts]
  refine List.Nodup.map_on ?_ List.nodup_range
  intro i hi j hj heq
  rw [List.mem_range] at hi hj
  have hle := h.count_le
  have hval := congrArg UInt16.toNat heq
  rw [UInt16.toNat_add, UInt16.toNat_add, UInt16.toNat_ofNat', UInt16.toNat_ofNat'] at hval
  omega

/-- A port that does not wrap. -/
theorem toNat_port {i : ℕ} (hi : i < h.count) (hfit : h.basePort.toNat + h.count ≤ 65536) :
    (h.basePort + UInt16.ofNat i).toNat = h.basePort.toNat + i := by
  rw [UInt16.toNat_add, UInt16.toNat_ofNat']
  omega

/-- Ports that follow the base port do not wrap. -/
theorem fits_of_follow {count : ℤ} (hcount : (h.count : ℤ) = count)
    (hfollow : h.serverPorts.map UInt16.toNat = (List.range count.toNat).map fun i =>
      h.basePort.toNat + i) : h.basePort.toNat + count ≤ 65536 := by
  subst hcount
  have hone := h.one_le_count
  -- the last port
  have hlast := congrArg (fun l => l.getD (h.count - 1) 0) hfollow
  have hlt := (h.basePort + UInt16.ofNat (h.count - 1)).toNat_lt
  simp only [PortHopper.serverPorts, List.map_map, Int.toNat_natCast] at hlast
  rw [List.getD_eq_getElem _ _ (by simp; omega), List.getD_eq_getElem _ _ (by simp; omega)]
    at hlast
  simp only [List.getElem_map, List.getElem_range, Function.comp_apply] at hlast
  omega

end PortHopper

/-- **The range is right** exactly when the base port is not 0 and there are as many ports from
it on. -/
theorem portRange_iff (env : Env) :
    PortRange (AegsConfig.fromEnv env).hopper (AegsConfig.fromEnv env).portCount ↔
      (AegsConfig.fromEnv env).basePort ≠ 0 ∧
        (AegsConfig.fromEnv env).basePort.toNat + (AegsConfig.fromEnv env).portCount ≤ 65536 := by
  have hcount := AegsConfig.count_hopper env
  have hbase : (AegsConfig.fromEnv env).hopper.basePort = (AegsConfig.fromEnv env).basePort := rfl
  rw [← hcount, ← hbase]
  generalize (AegsConfig.fromEnv env).hopper = h
  have hone := h.one_le_count
  constructor
  · intro hrange
    constructor
    · have hmem : h.basePort ∈ h.serverPorts := by
        rw [PortHopper.serverPorts, List.mem_map]
        exact ⟨0, List.mem_range.mpr hone, UInt16.add_zero h.basePort⟩
      exact hrange.ne_zero _ hmem
    · exact h.fits_of_follow rfl hrange.follow
  · rintro ⟨hne, hfit⟩
    have hfit' : h.basePort.toNat + h.count ≤ 65536 := by omega
    constructor
    · rw [PortHopper.serverPorts, List.map_map, Int.toNat_natCast]
      refine List.map_congr_left fun i hi => ?_
      exact h.toNat_port (List.mem_range.mp hi) hfit'
    · exact h.nodup_serverPorts
    · intro port hport
      rw [PortHopper.serverPorts, List.mem_map] at hport
      obtain ⟨i, hi, rfl⟩ := hport
      rw [Ne, ← UInt16.toNat_inj, h.toNat_port (List.mem_range.mp hi) hfit']
      have hpos : h.basePort.toNat ≠ 0 := fun hzero => hne (UInt16.toNat_inj.mp hzero)
      intro hsum
      exact hpos (Nat.eq_zero_of_add_eq_zero_right hsum)
    · exact fun hmac key epoch => h.epochToPort_mem hmac key epoch
    · rintro hmac key epoch now rfl
      exact h.isValidPort_epochToPort hmac key now

/-- **Ten ports from 65530 on wrap**, to 0 and beyond. -/
theorem not_portRange :
    ¬∀ env : Env,
      PortRange (AegsConfig.fromEnv env).hopper (AegsConfig.fromEnv env).portCount := by
  intro h
  have hrange := h fun name => if name = "AEGS_PORT" then some "65530" else none
  have hfits := PortHopper.fits_of_follow _ (AegsConfig.count_hopper _) hrange.follow
  exact absurd hfits (by decide +kernel)

end Wire

end Aegs
