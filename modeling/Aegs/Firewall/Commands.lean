import Aegs.Lib.RuleTable

/-!
# Firewall commands

`KillSwitch` and `DnsLeakProtector` work by running `iptables` and `ip6tables`, one command
after another, each through `safe_exec`, and all they learn is its exit code. A command is
refused by the tool (there is no such chain, the address is not one of its kind), or it fails
for a reason of its own – the table is locked, no process can be started. Either way the
exit code is not zero and the rules are what they were.

The rules of the two families are tables as in `RuleTable`, with whatever rules of others
there are: their conditions are a parameter. A command names the chain and the rule that
the source's text does; `safe_exec` splits that text at its blanks, and no name that the
source puts into it has one.
-/

namespace Aegs

namespace Firewall

open RuleTable

/-- The states of `conntrack`. -/
inductive CtState
  /-- `NEW`. -/
  | new
  /-- `ESTABLISHED`. -/
  | established
  /-- `RELATED`. -/
  | related
  /-- `INVALID`. -/
  | invalid
  /-- `UNTRACKED`. -/
  | untracked
deriving DecidableEq

/-- Protocols over IP. -/
inductive Protocol
  /-- `udp`. -/
  | udp
  /-- `tcp`. -/
  | tcp
  /-- Any other. -/
  | other (n : UInt8)
deriving DecidableEq

/-- Addresses of both families. -/
inductive Address
  /-- IPv4. -/
  | v4 (a : UInt32)
  /-- IPv6. -/
  | v6 (a : BitVec 128)
deriving DecidableEq

/-- An outbound packet. `X` is whatever else the rules of others look at. -/
structure Packet (X : Type) where
  /-- The interface it leaves by. -/
  outInterface : String
  /-- The state of its connection. -/
  ctstate : CtState
  /-- Its protocol. -/
  protocol : Protocol
  /-- Where it goes. -/
  destination : Address
  /-- Its ports, where the protocol has them. -/
  sourcePort : UInt16
  /-- The port it goes to. -/
  destinationPort : UInt16
  /-- The rest of it. -/
  rest : X

/-- The conditions of rules; those of others are `F`. -/
inductive Condition (F : Type)
  /-- `-m conntrack --ctstate`. -/
  | ctstate (states : List CtState)
  /-- `-o`. -/
  | outInterface (name : String)
  /-- `-p`. -/
  | protocol (p : Protocol)
  /-- `--sport`. -/
  | sourcePort (port : ℕ)
  /-- `--dport`, a port or a range of ports. -/
  | destinationPort (first last : ℕ)
  /-- `-d`. -/
  | destination (ip : String)
  /-- A condition of another kind. -/
  | other (f : F)
deriving DecidableEq

/-- Rules. -/
abbrev Rule (F : Type) := RuleTable.Rule (Condition F) String

/-- The rules of a family. -/
abbrev Table (F : Type) := RuleTable.Table (Condition F) String

/-- What is called outside the source: `inet_pton`, and the conditions of others. -/
structure System (F X : Type) where
  /-- `inet_pton(AF_INET, …)`. -/
  inetPton4 : String → Option UInt32
  /-- `inet_pton(AF_INET6, …)`. -/
  inetPton6 : String → Option (BitVec 128)
  /-- What the conditions of others mean. -/
  other : F → Packet X → Bool

/-- The tools. -/
inductive Tool
  /-- `iptables`. -/
  | iptables
  /-- `ip6tables`. -/
  | ip6tables
deriving DecidableEq

/-- The commands of the source. -/
inductive Command (F : Type)
  /-- `-N chain`. -/
  | newChain (tool : Tool) (chain : String)
  /-- `-A chain rule`. -/
  | append (tool : Tool) (chain : String) (rule : Rule F)
  /-- `-A OUTPUT rule`. -/
  | appendOutput (tool : Tool) (rule : Rule F)
  /-- `-I OUTPUT 1 rule`. -/
  | insert (tool : Tool) (rule : Rule F)
  /-- `-D OUTPUT rule`. -/
  | delete (tool : Tool) (rule : Rule F)
  /-- `-F chain`. -/
  | flush (tool : Tool) (chain : String)
  /-- `-X chain`. -/
  | deleteChain (tool : Tool) (chain : String)
  /-- `-C OUTPUT rule`. -/
  | check (tool : Tool) (rule : Rule F)
  /-- `-L -n`. -/
  | list (tool : Tool)
deriving DecidableEq

/-- The rules of the machine. -/
structure Rules (F : Type) where
  /-- Those of `iptables`. -/
  v4 : Table F
  /-- Those of `ip6tables`. -/
  v6 : Table F
  /-- `ip6tables` is there. -/
  hasIp6tables : Bool

variable {F X : Type}

/-- Both tables are valid. -/
structure Rules.Valid (fw : Rules F) : Prop where
  /-- That of `iptables`. -/
  v4 : fw.v4.Valid
  /-- That of `ip6tables`. -/
  v6 : fw.v6.Valid

/-- The rules of a machine, which its tools keep valid. -/
def Machine (F : Type) := { fw : Rules F // fw.Valid }

/-- The table a tool works on. -/
def Rules.table (fw : Rules F) : Tool → Table F
  | .iptables => fw.v4
  | .ip6tables => fw.v6

/-- A tool's table becomes another. -/
def Rules.set (fw : Rules F) : Tool → Table F → Rules F
  | .iptables, t => { fw with v4 := t }
  | .ip6tables, t => { fw with v6 := t }

section Meaning

variable (L : System F X)

/-- A condition holds of a packet. -/
def holds : Condition F → Packet X → Bool
  | .ctstate states, p => decide (p.ctstate ∈ states)
  | .outInterface name, p => decide (p.outInterface = name)
  | .protocol q, p => decide (p.protocol = q)
  | .sourcePort port, p => decide (p.sourcePort.toNat = port)
  | .destinationPort first last, p =>
    decide (first ≤ p.destinationPort.toNat ∧ p.destinationPort.toNat ≤ last)
  | .destination ip, p => match L.inetPton4 ip with
    | some a => decide (p.destination = .v4 a)
    | none => false
  | .other f, p => L.other f p

/-- The tool takes the condition: an address must be one of its family. -/
def takes : Tool → Condition F → Bool
  | .iptables, .destination ip => (L.inetPton4 ip).isSome
  | .ip6tables, .destination ip => (L.inetPton6 ip).isSome
  | _, _ => true

/-- The verdict on a packet, where jumps are followed `n` deep. -/
def Rules.verdict (fw : Rules F) (n : ℕ) (p : Packet X) : Verdict :=
  match p.destination with
  | .v4 _ => fw.v4.verdict (holds L) n p
  | .v6 _ => fw.v6.verdict (holds L) n p

end Meaning

section Execution

variable [DecidableEq F] (L : System F X)

/-- The tool of a command. -/
def Command.tool : Command F → Tool
  | .newChain tool _ | .append tool _ _ | .appendOutput tool _ | .insert tool _
  | .delete tool _ | .flush tool _ | .deleteChain tool _ | .check tool _ | .list tool => tool

/-- The rule that a command is given. -/
def Command.rule : Command F → Option (Rule F)
  | .append _ _ rule | .appendOutput _ rule | .insert _ rule | .delete _ rule
  | .check _ rule => some rule
  | .newChain _ _ | .flush _ _ | .deleteChain _ _ | .list _ => none

/-- What a command does to the table of its tool. -/
def Command.run : Command F → Table F → Option (Table F)
  | .newChain _ chain, t => t.newChain chain
  | .append _ chain rule, t => t.appendTo chain rule
  | .appendOutput _ rule, t => t.appendOutput rule
  | .insert _ rule, t => t.insertFirst rule
  | .delete _ rule, t => t.deleteFirst rule
  | .flush _ chain, t => t.flush chain
  | .deleteChain _ chain, t => t.deleteChain chain
  | .check _ rule, t => if rule ∈ t.output then some t else none
  | .list _, t => some t

/-- The tool is there and takes what the command says. -/
def Command.runs (c : Command F) (fw : Rules F) : Bool :=
  (c.tool == .iptables || fw.hasIp6tables) &&
    c.rule.all fun r => r.conditions.all (takes L c.tool)

/-- **`execute_command`**: the rules behind it if its exit code is zero. -/
def executeCommand (works : Bool) (c : Command F) (fw : Rules F) : Option (Rules F) :=
  if works && c.runs L fw then (c.run (fw.table c.tool)).map (fw.set c.tool) else none

/-- A loop over commands that ends at the first that fails. -/
def executeAll (works : ℕ → Bool) : List (Command F) → Rules F → Bool × Rules F
  | [], fw => (true, fw)
  | c :: cs, fw => match executeCommand L (works 0) c fw with
    | none => (false, fw)
    | some fw' => executeAll (fun i => works (i + 1)) cs fw'

/-- A loop over commands that goes on whatever becomes of them. -/
def executeEach (works : ℕ → Bool) : List (Command F) → Rules F → Rules F
  | [], fw => fw
  | c :: cs, fw => executeEach (fun i => works (i + 1)) cs
    ((executeCommand L (works 0) c fw).getD fw)

end Execution

/-! ### Valid rules -/

section Validity

variable [DecidableEq F] {L : System F X}

omit [DecidableEq F] in
theorem Rules.Valid.table {fw : Rules F} (h : fw.Valid) (tool : Tool) : (fw.table tool).Valid := by
  cases tool
  · exact h.v4
  · exact h.v6

omit [DecidableEq F] in
theorem Rules.Valid.set {fw : Rules F} (h : fw.Valid) (tool : Tool) {t : Table F}
    (ht : t.Valid) : (fw.set tool t).Valid := by
  cases tool
  · exact ⟨ht, h.v6⟩
  · exact ⟨h.v4, ht⟩

/-- Every command keeps its table valid. -/
theorem valid_run {c : Command F} {t t' : Table F} (h : t.Valid) (hrun : c.run t = some t') :
    t'.Valid := by
  cases c with
  | newChain tool chain => exact h.newChain hrun
  | append tool chain rule => exact h.appendTo hrun
  | appendOutput tool rule => exact h.appendOutput hrun
  | insert tool rule => exact h.insertFirst hrun
  | delete tool rule => exact h.deleteFirst hrun
  | flush tool chain => exact h.flush hrun
  | deleteChain tool chain => exact h.deleteChain hrun
  | check tool rule =>
    rw [Command.run] at hrun
    split at hrun
    · exact Option.some.inj hrun ▸ h
    · exact nomatch hrun
  | list tool => exact Option.some.inj hrun ▸ h

theorem Rules.Valid.executeCommand {works : Bool} {c : Command F} {fw fw' : Rules F}
    (h : fw.Valid) (hexec : executeCommand L works c fw = some fw') : fw'.Valid := by
  unfold Firewall.executeCommand at hexec
  split at hexec
  · obtain ⟨t, ht, rfl⟩ := Option.map_eq_some_iff.mp hexec
    exact h.set c.tool (valid_run (h.table c.tool) ht)
  · exact nomatch hexec

theorem Rules.Valid.executeEach {works : ℕ → Bool} {cs : List (Command F)} {fw : Rules F}
    (h : fw.Valid) : (executeEach L works cs fw).Valid := by
  induction cs generalizing works fw with
  | nil => exact h
  | cons c cs ih =>
    refine ih ?_
    cases hexec : Firewall.executeCommand L (works 0) c fw with
    | none => exact h
    | some fw' => exact h.executeCommand hexec

end Validity

end Firewall

end Aegs
