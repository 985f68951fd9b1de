import Aegs.Firewall.Commands
import Mathlib.Algebra.Group.Int.Defs

/-!
# The kill switch and the DNS shield

The two transactions of `network_security.cpp`: `prepare` looks at the arguments, `apply`
runs the rules one after another, `verify` asks for the jump, and `commit` sets `active_`.
An outcome for each command that a call may run is given from outside
(`Aegs.Firewall.Outcomes`). The branches for Windows are left out, and so is what `disable`
of the DNS shield does about `resolv.conf`: no member sets the flags it asks for.
-/

namespace Aegs

namespace Firewall

open RuleTable

/-- Which of the commands of one call work. -/
structure Outcomes where
  /-- The rules of `apply`, for `iptables`. -/
  rule : ℕ → Bool
  /-- The test for `ip6tables`. -/
  list : Bool
  /-- The rules of `apply`, for `ip6tables`. -/
  rule6 : ℕ → Bool
  /-- The test of `verify`. -/
  check : Bool
  /-- The commands of `disable`. -/
  disable : ℕ → Bool
  /-- The commands of `rollback`. -/
  rollback : ℕ → Bool

/-- `TxPhase`. -/
inductive TxPhase
  /-- `IDLE`. -/
  | idle
  /-- `PREPARED`. -/
  | prepared
  /-- `APPLIED`. -/
  | applied
  /-- `VERIFIED`. -/
  | verified
  /-- `COMMITTED`. -/
  | committed
  /-- `ROLLED_BACK`. -/
  | rolledBack
deriving DecidableEq

section Checks

variable {F X : Type} (L : System F X)

/-- `is_valid_ip_address`. -/
def isValidIpAddress (ip : String) : Bool :=
  !(ip.isEmpty || ip.utf8ByteSize > 64) && ((L.inetPton4 ip).isSome || (L.inetPton6 ip).isSome)

/-- `is_valid_iface_name`. -/
def isValidIfaceName (iface : String) : Bool :=
  !(iface.isEmpty || iface.utf8ByteSize > 15) &&
    iface.toList.all fun c => ('a' ≤ c && c ≤ 'z') || ('A' ≤ c && c ≤ 'Z') ||
      ('0' ≤ c && c ≤ '9') || c == '_' || c == '-'

variable [DecidableEq F]

/-- `is_ipv6_available`. -/
def isIpv6Available (works : Bool) (fw : Rules F) : Bool :=
  (executeCommand L works (.list .ip6tables) fw).isSome

end Checks

/-! ### `KillSwitch` -/

/-- The chain of the kill switch. -/
def killSwitchChain : String := "AEGS_KILLSWITCH"

/-- The same for `ip6tables`. -/
def killSwitchChain6 : String := "AEGS_KILLSWITCH6"

/-- What `apply` notes for taking a chain down again. -/
def cleanupCommands {F : Type} (tool : Tool) (chain : String) : List (Command F) :=
  [.delete tool (.jump chain), .flush tool chain, .deleteChain tool chain]

namespace KillSwitch

variable {F X : Type}

/-- `generate_ipv6_rules`. -/
def generateIpv6Rules : List (Command F) :=
  [.newChain .ip6tables killSwitchChain6,
    .append .ip6tables killSwitchChain6 ⟨[.ctstate [.established, .related]], .verdict .accept⟩,
    .append .ip6tables killSwitchChain6 ⟨[.outInterface "lo"], .verdict .accept⟩,
    .append .ip6tables killSwitchChain6 ⟨[], .verdict .drop⟩,
    .insert .ip6tables (.jump killSwitchChain6)]

/-- The last port of the range, a `uint16_t`. -/
def endPort (basePort : UInt16) (portCount : ℤ) : ℕ :=
  (((basePort.toNat : ℤ) + if portCount > 0 then portCount - 1 else 0) % 2 ^ 16).toNat

/-- `port_spec`: a range, or the port alone. -/
def portSpec (basePort : UInt16) (portCount : ℤ) : Condition F :=
  if portCount > 1 then .destinationPort basePort.toNat (endPort basePort portCount)
  else .destinationPort basePort.toNat basePort.toNat

/-- `generate_rules`. -/
def generateRules (L : System F X) (serverIp : String) (basePort : UInt16) (portCount : ℤ)
    (tunIface : String) : List (Command F) :=
  if !isValidIpAddress L serverIp || !isValidIfaceName tunIface then []
  else
    [.newChain .iptables killSwitchChain,
      .append .iptables killSwitchChain
        ⟨[.ctstate [.established, .related]], .verdict .accept⟩,
      .append .iptables killSwitchChain ⟨[.outInterface "lo"], .verdict .accept⟩,
      .append .iptables killSwitchChain ⟨[.outInterface tunIface], .verdict .accept⟩,
      .append .iptables killSwitchChain
        ⟨[.protocol .udp, .sourcePort 68, .destinationPort 67 67], .verdict .accept⟩,
      .append .iptables killSwitchChain
        ⟨[.destination serverIp, .protocol .udp, portSpec basePort portCount], .verdict .accept⟩,
      .append .iptables killSwitchChain
        ⟨[.destination serverIp, .protocol .tcp, portSpec basePort portCount], .verdict .accept⟩,
      .append .iptables killSwitchChain ⟨[], .verdict .drop⟩,
      .insert .iptables (.jump killSwitchChain)]

end KillSwitch

/-- `KillSwitch`. -/
structure KillSwitch (F : Type) where
  /-- `active_`. -/
  active : Bool
  /-- `phase_`. -/
  phase : TxPhase
  /-- `server_ip_`. -/
  serverIp : String
  /-- `base_port_`. -/
  basePort : UInt16
  /-- `port_count_`. -/
  portCount : ℤ
  /-- `tun_iface_`. -/
  tunIface : String
  /-- `applied_cleanup_commands_`. -/
  appliedCleanupCommands : List (Command F)
  /-- `ipv6_blocked_`. -/
  ipv6Blocked : Bool
  /-- The commands for a chain are noted together, those of `ip6tables` behind the others. -/
  noted : appliedCleanupCommands = [] ∨
    appliedCleanupCommands = cleanupCommands .iptables killSwitchChain ∨
      appliedCleanupCommands = cleanupCommands .iptables killSwitchChain ++
        cleanupCommands .ip6tables killSwitchChain6

namespace KillSwitch

variable {F X : Type}

/-- `KillSwitch()`. -/
def new : KillSwitch F :=
  ⟨false, .idle, "", 50001, 1, "aegs0", [], false, Or.inl rfl⟩

variable [DecidableEq F] (L : System F X)

/-- `prepare`. -/
def prepare (k : KillSwitch F) : Bool × KillSwitch F :=
  if !isValidIpAddress L k.serverIp then (false, k)
  else if !isValidIfaceName k.tunIface then (false, k)
  else if k.basePort = 0 ∨ k.portCount < 1 ∨ k.portCount > 1000 ∨
      (k.basePort.toNat : ℤ) + k.portCount - 1 > 65535 then (false, k)
  else (true, { k with phase := .prepared })

/-- The commands noted before any rule is run. -/
def noteChain (k : KillSwitch F) : KillSwitch F :=
  { k with
    appliedCleanupCommands := cleanupCommands .iptables killSwitchChain
    noted := Or.inr (Or.inl rfl) }

/-- The same, with those that `ip6tables` adds. -/
def noteChain6 (k : KillSwitch F) : KillSwitch F :=
  { k with
    appliedCleanupCommands := cleanupCommands .iptables killSwitchChain ++
      cleanupCommands .ip6tables killSwitchChain6
    ipv6Blocked := true
    noted := Or.inr (Or.inr rfl) }

/-- `applied_cleanup_commands_.clear()`. -/
def forget (k : KillSwitch F) : KillSwitch F :=
  { k with
    appliedCleanupCommands := []
    active := false
    ipv6Blocked := false
    noted := Or.inl rfl }

omit [DecidableEq F] in
/-- Nothing but its own chains is ever noted. -/
theorem mem_of_noted (k : KillSwitch F) {c : Command F} (hc : c ∈ k.appliedCleanupCommands) :
    c ∈ cleanupCommands .iptables killSwitchChain ++
      cleanupCommands .ip6tables killSwitchChain6 := by
  rcases k.noted with h | h | h
  · rw [h] at hc
    cases hc
  · exact List.mem_append_left _ (h ▸ hc)
  · exact h ▸ hc

/-- `rollback`. -/
def rollback (o : Outcomes) (k : KillSwitch F) (fw : Rules F) : KillSwitch F × Rules F :=
  ({ k.forget with phase := .rolledBack }, executeEach L o.rollback k.appliedCleanupCommands fw)

/-- `apply`. -/
def apply (o : Outcomes) (k : KillSwitch F) (fw : Rules F) : Bool × KillSwitch F × Rules F :=
  if k.phase ≠ .prepared then (false, k, fw)
  else
    let rules := generateRules L k.serverIp k.basePort k.portCount k.tunIface
    match executeAll L o.rule rules fw with
    | (false, fw) => (false, rollback L o k.noteChain fw)
    | (true, fw) =>
      if isIpv6Available L o.list fw then
        (true, { k.noteChain6 with phase := .applied },
          executeEach L o.rule6 generateIpv6Rules fw)
      else (true, { k.noteChain with phase := .applied }, fw)

/-- `verify`. -/
def verify (o : Outcomes) (k : KillSwitch F) (fw : Rules F) : Bool × KillSwitch F × Rules F :=
  if k.phase ≠ .applied then (false, k, fw)
  else if (executeCommand L o.check (.check .iptables (.jump killSwitchChain)) fw).isNone then
    (false, rollback L o k fw)
  else (true, { k with phase := .verified }, fw)

/-- `commit`. -/
def commit (k : KillSwitch F) : Bool × KillSwitch F :=
  if k.phase ≠ .verified then (false, k)
  else (true, { k with active := true, phase := .committed })

/-- `disable`, which returns true. -/
def disable (o : Outcomes) (k : KillSwitch F) (fw : Rules F) : KillSwitch F × Rules F :=
  if k.active then (k.forget, executeEach L o.disable k.appliedCleanupCommands fw) else (k, fw)

/-- The arguments of `enable` are stored. -/
def store (serverIp : String) (basePort : UInt16) (portCount : ℤ) (tunIface : String)
    (k : KillSwitch F) : KillSwitch F :=
  { k with
    serverIp := serverIp
    basePort := basePort
    portCount := if portCount < 1 then 1 else portCount
    tunIface := tunIface }

/-- **`enable`.** -/
def enable (o : Outcomes) (serverIp : String) (basePort : UInt16) (portCount : ℤ)
    (tunIface : String) (k : KillSwitch F) (fw : Rules F) : Bool × KillSwitch F × Rules F :=
  let (k, fw) := disable L o k fw
  match prepare L (store serverIp basePort portCount tunIface k) with
  | (false, k) => (false, k, fw)
  | (true, k) => match apply L o k fw with
    | (false, k, fw) => (false, k, fw)
    | (true, k, fw) => match verify L o k fw with
      | (false, k, fw) => (false, k, fw)
      | (true, k, fw) => ((commit k).1, (commit k).2, fw)

end KillSwitch

/-! ### `DnsLeakProtector` -/

/-- The chain of the DNS shield. -/
def dnsShieldChain : String := "AEGS_DNS_SHIELD"

/-- `DnsLeakProtector`. -/
structure DnsLeakProtector where
  /-- `active_`. -/
  active : Bool
  /-- `phase_`. -/
  phase : TxPhase
  /-- `tun_iface_`. -/
  tunIface : String
  /-- `secure_dns_`. -/
  secureDns : String
  /-- `ipv6_dns_blocked_`. -/
  ipv6DnsBlocked : Bool

namespace DnsLeakProtector

variable {F X : Type}

/-- The rule that drops what goes to port 53. -/
def dropDns (p : Protocol) : Rule F := ⟨[.protocol p, .destinationPort 53 53], .verdict .drop⟩

/-- `generate_ipv6_rules`. -/
def generateIpv6Rules : List (Command F) :=
  [.appendOutput .ip6tables (dropDns .udp), .appendOutput .ip6tables (dropDns .tcp)]

/-- The rule that lets out what goes to port 53 by an interface. -/
def acceptDns (iface : String) (p : Protocol) : Rule F :=
  ⟨[.outInterface iface, .protocol p, .destinationPort 53 53], .verdict .accept⟩

/-- `generate_rules`. -/
def generateRules (tunIface : String) : List (Command F) :=
  if !isValidIfaceName tunIface then []
  else
    [.newChain .iptables dnsShieldChain,
      .append .iptables dnsShieldChain (acceptDns tunIface .udp),
      .append .iptables dnsShieldChain (acceptDns tunIface .tcp),
      .append .iptables dnsShieldChain (acceptDns "lo" .udp),
      .append .iptables dnsShieldChain (acceptDns "lo" .tcp),
      .append .iptables dnsShieldChain (dropDns .udp),
      .append .iptables dnsShieldChain (dropDns .tcp),
      .insert .iptables (.jump dnsShieldChain)]

/-- `DnsLeakProtector()`. -/
def new : DnsLeakProtector := ⟨false, .idle, "aegs0", "10.8.0.1", false⟩

/-- The text of a command with ` -A ` in it replaced by ` -D `. -/
def reverse : Command F → Command F
  | .appendOutput tool rule => .delete tool rule
  | c => c

variable [DecidableEq F] (L : System F X)

/-- `prepare`. -/
def prepare (d : DnsLeakProtector) : Bool × DnsLeakProtector :=
  let dns := if d.secureDns.isEmpty then "10.8.0.1" else d.secureDns
  if !isValidIpAddress L dns then (false, d)
  else if !isValidIfaceName d.tunIface then (false, d)
  else (true, { d with phase := .prepared })

/-- `rollback`. The rules of `ip6tables` are the fourth and the fifth command. -/
def rollback (o : Outcomes) (d : DnsLeakProtector) (fw : Rules F) :
    DnsLeakProtector × Rules F :=
  let fw := executeEach L o.rollback (cleanupCommands .iptables dnsShieldChain) fw
  ({ d with active := false, ipv6DnsBlocked := false, phase := .rolledBack },
    if d.ipv6DnsBlocked then
      executeEach L (fun i => o.rollback (i + 3)) (generateIpv6Rules.map reverse) fw
    else fw)

/-- `apply`. -/
def apply (o : Outcomes) (d : DnsLeakProtector) (fw : Rules F) :
    Bool × DnsLeakProtector × Rules F :=
  if d.phase ≠ .prepared then (false, d, fw)
  else
    match executeAll L o.rule (generateRules d.tunIface) fw with
    | (false, fw) => (false, rollback L o d fw)
    | (true, fw) =>
      if isIpv6Available L o.list fw then
        (true, { d with ipv6DnsBlocked := true, phase := .applied },
          executeEach L o.rule6 generateIpv6Rules fw)
      else (true, { d with phase := .applied }, fw)

/-- `verify`. -/
def verify (o : Outcomes) (d : DnsLeakProtector) (fw : Rules F) :
    Bool × DnsLeakProtector × Rules F :=
  if d.phase ≠ .applied then (false, d, fw)
  else if (executeCommand L o.check (.check .iptables (.jump dnsShieldChain)) fw).isNone then
    (false, rollback L o d fw)
  else (true, { d with phase := .verified }, fw)

/-- `commit`. -/
def commit (d : DnsLeakProtector) : Bool × DnsLeakProtector :=
  if d.phase ≠ .verified then (false, d)
  else (true, { d with active := true, phase := .committed })

/-- `disable`, which returns true. -/
def disable (o : Outcomes) (d : DnsLeakProtector) (fw : Rules F) :
    DnsLeakProtector × Rules F :=
  if d.active then
    let fw := executeEach L o.disable (cleanupCommands .iptables dnsShieldChain) fw
    ({ d with active := false, ipv6DnsBlocked := false },
      if d.ipv6DnsBlocked then
        executeEach L (fun i => o.disable (i + 3))
          [.delete .ip6tables (dropDns .udp), .delete .ip6tables (dropDns .tcp)] fw
      else fw)
  else (d, fw)

/-- **`enable`.** -/
def enable (o : Outcomes) (tunIface secureDns : String) (d : DnsLeakProtector) (fw : Rules F) :
    Bool × DnsLeakProtector × Rules F :=
  let (d, fw) := disable L o d fw
  let d := { d with
    tunIface := tunIface
    secureDns := if secureDns.isEmpty then "10.8.0.1" else secureDns }
  match prepare L d with
  | (false, d) => (false, d, fw)
  | (true, d) => match apply L o d fw with
    | (false, d, fw) => (false, d, fw)
    | (true, d, fw) => match verify L o d fw with
      | (false, d, fw) => (false, d, fw)
      | (true, d, fw) => ((commit d).1, (commit d).2, fw)

end DnsLeakProtector

end Firewall

end Aegs
