import Aegs.Firewall.SafeExec
import Aegs.Lib.RuleTable

/-!
# The rules of the server

The server puts three rules up when it starts, each unless it is there (`NatManager.setup`), and
takes them down when it stops in order (`NatManager.teardown`). Behind its TUN device it appends
five more, which nothing takes down (`TunInterface.configureInterface`). All of it goes through
`safe_exec`.
-/

namespace Aegs

namespace Firewall

/-! ### What `iptables` does -/

/-- The part of the machine that the commands work on. `R` are rules as `iptables` reads them. -/
structure Host (R : Type) where
  /-- The rules of a chain of a table. -/
  rules : String → String → List R
  /-- `/proc/sys/net/ipv4/ip_forward`. -/
  ipForward : Bool

namespace Host

variable {R : Type}

/-- A chain gets other rules. -/
def set (h : Host R) (table chain : String) (rs : List R) : Host R :=
  { h with rules := fun t c => if t = table ∧ c = chain then rs else h.rules t c }

@[simp] theorem rules_set_self (h : Host R) (table chain : String) (rs : List R) :
    (h.set table chain rs).rules table chain = rs := if_pos ⟨rfl, rfl⟩

theorem rules_set_of_ne (h : Host R) {table chain t c : String} (hne : ¬(t = table ∧ c = chain))
    (rs : List R) : (h.set table chain rs).rules t c = h.rules t c := if_neg hne

@[simp] theorem ipForward_set (h : Host R) (table chain : String) (rs : List R) :
    (h.set table chain rs).ipForward = h.ipForward := rfl

end Host

/-- `-A`, `-D` and `-C`. -/
inductive Op
  /-- A rule is appended. -/
  | append
  /-- The first of its kind is deleted. -/
  | delete
  /-- A rule is looked for. -/
  | check
deriving DecidableEq

/-- The option. -/
def Op.ofString (s : String) : Option Op :=
  if s = "-A" then some .append else if s = "-D" then some .delete
  else if s = "-C" then some .check else none

/-- The arguments behind the table: the operation, the chain, and the text of the rule. -/
def parseOp (table : String) : List String → Option (String × Op × String × List String)
  | opt :: chain :: text => (Op.ofString opt).map fun op => (table, op, chain, text)
  | _ => none

/-- The arguments. The table is `filter` where none is named. -/
def parseArgs : List String → Option (String × Op × String × List String)
  | first :: second :: rest =>
    if first = "-t" then parseOp second rest else parseOp "filter" (first :: second :: rest)
  | _ => none

section Iptables

variable {R : Type} [DecidableEq R] (read : List String → Option R)

/-- One operation on the rules of a chain: the rules behind it, unless it is refused. -/
def Op.run (op : Op) (r : R) (rs : List R) : Option (List R) :=
  match op with
  | .append => some (rs ++ [r])
  | .delete => if r ∈ rs then some (rs.erase r) else none
  | .check => if r ∈ rs then some rs else none

/-- **`iptables`**: `read` is how it understands the text of a rule, and `works` whether it gets
to it at all. The exit code is zero where it has done what it was told to. -/
def iptables (works : Bool) (args : List String) (h : Host R) : ℤ × Host R :=
  match parseArgs args with
  | none => (2, h)
  | some (table, op, chain, text) =>
    match (if works then (read text).bind fun r => op.run r (h.rules table chain) else none) with
    | none => (1, h)
    | some rs => (0, h.set table chain rs)

/-- The programs that are started. `ip link` has to do with no rule. -/
def program (works : Bool) (tokens : List String) (h : Host R) : ℤ × Host R :=
  match tokens with
  | [] => (0, h)
  | name :: args => if name = "iptables" then iptables read works args h else (0, h)

end Iptables

/-! ### `NatManager` -/

/-- `NatManager`. -/
structure NatManager where
  /-- `tun_iface_`. -/
  tunIface : String
  /-- `out_iface_`. -/
  outIface : String
  /-- `subnet_`. -/
  subnet : String
  /-- `active_`. -/
  active : Bool

/-- The characters that a parameter may have. -/
def safeChar (c : Char) : Bool := c.isAlphanum || c = '_' || c = '-' || c = '.' || c = '/'

/-- `is_safe_shell_param`, and `is_safe_identifier` of the TUN device. -/
def isSafeShellParam (str : String) : Bool :=
  !(str.isEmpty || 64 < str.utf8ByteSize) &&
    str.toList.all safeChar

namespace NatManager

variable (n : NatManager)

/-- The command that looks for the first rule. -/
def checkMasq : String :=
  "iptables -t nat -C POSTROUTING -s " ++ n.subnet ++ " -o " ++ n.outIface ++
    " -j MASQUERADE 2>/dev/null"

/-- `rule_masq`, of `setup`. -/
def ruleMasq : String :=
  "-t nat -A POSTROUTING -s " ++ n.subnet ++ " -o " ++ n.outIface ++ " -j MASQUERADE"

/-- `rule_fwd_in`. -/
def ruleFwdIn : String := "FORWARD -i " ++ n.tunIface ++ " -j ACCEPT"

/-- `rule_fwd_out`. -/
def ruleFwdOut : String :=
  "FORWARD -o " ++ n.tunIface ++ " -m conntrack --ctstate RELATED,ESTABLISHED -j ACCEPT"

/-- The three parameters pass the check. -/
def safe : Bool :=
  isSafeShellParam n.tunIface && isSafeShellParam n.outIface && isSafeShellParam n.subnet

section

variable {R : Type} [DecidableEq R] (read : List String → Option R)

/-- A rule is put up, unless it is there. -/
def ensure (checks appends : Bool) (check append : String) (h : Host R) : Host R :=
  let (code, h) := safeExec (program read checks) check h
  if code ≠ 0 then (safeExec (program read appends) append h).2 else h

/-- **`setup`**, where `works i` is whether `iptables` works for the command `i`. -/
def setup (canWrite : Bool) (works : ℕ → Bool) (h : Host R) : Bool × NatManager × Host R :=
  if !n.safe then (false, n, h)
  else
    let h := if canWrite then { h with ipForward := true } else h
    let h := ensure read (works 0) (works 1) n.checkMasq ("iptables " ++ n.ruleMasq) h
    let h := ensure read (works 2) (works 3) ("iptables -C " ++ n.ruleFwdIn ++ " 2>/dev/null")
      ("iptables -A " ++ n.ruleFwdIn) h
    let h := ensure read (works 4) (works 5) ("iptables -C " ++ n.ruleFwdOut ++ " 2>/dev/null")
      ("iptables -A " ++ n.ruleFwdOut) h
    (true, { n with active := true }, h)

/-- `rule_masq`, of `teardown`. -/
def unruleMasq : String :=
  "-t nat -D POSTROUTING -s " ++ n.subnet ++ " -o " ++ n.outIface ++ " -j MASQUERADE"

/-- `rule_fwd_in`, of `teardown`. -/
def unruleFwdIn : String := "-D FORWARD -i " ++ n.tunIface ++ " -j ACCEPT"

/-- `rule_fwd_out`, of `teardown`. -/
def unruleFwdOut : String :=
  "-D FORWARD -o " ++ n.tunIface ++ " -m conntrack --ctstate RELATED,ESTABLISHED -j ACCEPT"

/-- **`teardown`**. -/
def teardown (works : ℕ → Bool) (h : Host R) : NatManager × Host R :=
  if !n.active then (n, h)
  else
    let h := (safeExec (program read (works 0)) ("iptables " ++ n.unruleMasq) h).2
    let h := (safeExec (program read (works 1)) ("iptables " ++ n.unruleFwdIn) h).2
    let h := (safeExec (program read (works 2)) ("iptables " ++ n.unruleFwdOut) h).2
    ({ n with active := false }, h)

end

end NatManager

/-! ### `TunInterface` -/

namespace TunInterface

/-- The commands that end `configure_interface`. -/
def commands (ifaceName : String) : List String :=
  ["ip link set dev " ++ ifaceName ++ " txqueuelen 4096",
    "iptables -t mangle -A FORWARD -i " ++ ifaceName ++
      " -p tcp --tcp-flags SYN,RST SYN -j TCPMSS --clamp-mss-to-pmtu",
    "iptables -t mangle -A FORWARD -o " ++ ifaceName ++
      " -p tcp --tcp-flags SYN,RST SYN -j TCPMSS --clamp-mss-to-pmtu",
    "iptables -t mangle -A FORWARD -i " ++ ifaceName ++
      " -p tcp --tcp-flags SYN,RST SYN -j TCPMSS --set-mss 1240",
    "iptables -t mangle -A FORWARD -o " ++ ifaceName ++
      " -p tcp --tcp-flags SYN,RST SYN -j TCPMSS --set-mss 1240",
    "iptables -t mangle -A POSTROUTING -p tcp --tcp-flags SYN,RST SYN -j TCPMSS" ++
      " --clamp-mss-to-pmtu"]

/-- The end of `configure_interface`, for which no exit code matters. -/
def configureInterface {R : Type} [DecidableEq R] (read : List String → Option R)
    (ifaceName : String) (works : ℕ → Bool) (h : Host R) : Host R :=
  (commands ifaceName).zipIdx.foldl (fun h c => (safeExec (program read (works c.2)) c.1 h).2) h

end TunInterface

/-! ### What the lines are cut into -/

/-- None of them means anything to `safe_exec`. -/
theorem of_safeChar {c : Char} (hc : safeChar c = true) :
    shell.quote c = false ∧ shell.blank c = false ∧ c.toNat ≠ 0 ∧ c ≠ '>' ∧ c ≠ '&' := by
  have hnot : ∀ n : ℕ, safeChar (Char.ofNat n) = false → c.toNat ≠ n := by
    rintro n hn rfl
    rw [Char.ofNat_toNat, hc] at hn
    exact absurd hn (by decide)
  refine ⟨?_, ?_, hnot 0 (by decide), ?_, ?_⟩
  · rw [shell, Bool.or_eq_false_iff, decide_eq_false_iff_not, decide_eq_false_iff_not]
    exact ⟨hnot 0x22 (by decide), hnot 0x27 (by decide)⟩
  · have hspace := hnot 0x20 (by decide)
    have htab := hnot 9 (by decide)
    have hnewline := hnot 10 (by decide)
    have hvertical := hnot 11 (by decide)
    have hfeed := hnot 12 (by decide)
    have hreturn := hnot 13 (by decide)
    show isspace c = false
    rw [isspace, Bool.or_eq_false_iff, Bool.and_eq_false_iff, decide_eq_false_iff_not,
      decide_eq_false_iff_not, decide_eq_false_iff_not]
    omega
  · rintro rfl
    exact absurd hc (by decide)
  · rintro rfl
    exact absurd hc (by decide)

/-- **A parameter that passes the check** is one word of whatever line it is put into. -/
theorem word_of_isSafeShellParam {s : String} (h : isSafeShellParam s = true) : Word s := by
  rw [isSafeShellParam, Bool.and_eq_true, Bool.not_eq_true', Bool.or_eq_false_iff,
    List.all_eq_true] at h
  obtain ⟨⟨hne, -⟩, hall⟩ := h
  have hmark : ∀ w ∈ redirects, '>' ∈ w.toList ∨ '&' ∈ w.toList := by decide
  refine ⟨⟨fun hnil => ?_, fun c hc => ?_⟩, fun hmem => ?_⟩
  · rw [String.toList_eq_nil_iff.mp hnil] at hne
    exact absurd hne (by decide)
  · obtain ⟨hquote, hblank, hnul, -⟩ := of_safeChar (hall c hc)
    exact ⟨hquote, hblank, hnul⟩
  · rcases hmark s hmem with hmark | hmark
    · exact (of_safeChar (hall _ hmark)).2.2.2.1 rfl
    · exact (of_safeChar (hall _ hmark)).2.2.2.2 rfl

/-! ### What the lines do -/

/-- What is done about one rule. -/
inductive Action
  /-- It is looked for, and appended where it is not found. -/
  | ensure (checks appends : Bool)
  /-- It is appended. -/
  | append (works : Bool)
  /-- The first of its kind is deleted. -/
  | erase (works : Bool)

/-- A rule by its text, the chain it belongs to, and what is done about it. -/
structure Edit where
  /-- The table. -/
  table : String
  /-- The chain. -/
  chain : String
  /-- The text of the rule. -/
  text : List String
  /-- What is done about it. -/
  action : Action

section

variable {R : Type} [DecidableEq R] (read : List String → Option R)

/-- The rules of a chain behind it; nothing is done about a rule that is not understood. -/
def Action.run (a : Action) (r : Option R) (rs : List R) : List R :=
  match r, a with
  | none, _ => rs
  | some r, .ensure checks appends =>
    if checks && decide (r ∈ rs) then rs else RuleTable.appendIf appends r rs
  | some r, .append works => RuleTable.appendIf works r rs
  | some r, .erase works => RuleTable.eraseIf works r rs

/-- The machine behind it. -/
def Edit.run (h : Host R) (e : Edit) : Host R :=
  h.set e.table e.chain (e.action.run (read e.text) (h.rules e.table e.chain))

theorem Edit.run_mk (h : Host R) (table chain : String) (text : List String) (a : Action) :
    Edit.run read h ⟨table, chain, text, a⟩ =
      h.set table chain (a.run (read text) (h.rules table chain)) := rfl

/-- A chain that gets the rules it has. -/
theorem Host.set_self {R : Type} (h : Host R) (table chain : String) :
    h.set table chain (h.rules table chain) = h := by
  have hrules : (h.set table chain (h.rules table chain)).rules = h.rules := by
    funext t c
    by_cases htc : t = table ∧ c = chain
    · rw [htc.1, htc.2, rules_set_self]
    · exact rules_set_of_ne h htc _
  calc h.set table chain (h.rules table chain)
    _ = ⟨(h.set table chain (h.rules table chain)).rules, h.ipForward⟩ := rfl
    _ = h := by rw [hrules]

theorem Host.set_set {R : Type} (h : Host R) (table chain : String) (rs rs' : List R) :
    (h.set table chain rs).set table chain rs' = h.set table chain rs' := by
  rw [set, set, set]
  refine congrArg (fun f => (⟨f, h.ipForward⟩ : Host R)) ?_
  funext t c
  by_cases htc : t = table ∧ c = chain
  · rw [if_pos htc, if_pos htc]
  · rw [if_neg htc, if_neg htc]
    exact rules_set_of_ne h htc rs

variable {read}

/-- The arguments that name a table, and those that do not. -/
theorem program_eq {table chain : String} {op : Op} {args text : List String}
    (hargs : parseArgs args = some (table, op, chain, text)) (works : Bool) (h : Host R) :
    program read works ("iptables" :: args) h =
      match (if works then (read text).bind fun r => op.run r (h.rules table chain) else none) with
      | none => (1, h)
      | some rs => (0, h.set table chain rs) := by
  rw [program, if_pos rfl, iptables, hargs]

/-- A line of `iptables`: its arguments, and the redirections behind them. -/
structure Line (line : String) (table chain : String) (op : Op) (text : List String) : Prop where
  /-- The words of the line. -/
  words : ∃ args rs, line = " ".intercalate (("iptables" :: args) ++ rs) ∧
    (∀ w ∈ args, Word w) ∧ (∀ w ∈ rs, w ∈ redirects) ∧
    parseArgs args = some (table, op, chain, text)

theorem Line.safeExec {line table chain : String} {op : Op} {text : List String}
    (hline : Line line table chain op text) (works : Bool) (h : Host R) :
    safeExec (program read works) line h =
      match (if works then (read text).bind fun r => op.run r (h.rules table chain) else none) with
      | none => (1, h)
      | some rs => (0, h.set table chain rs) := by
  obtain ⟨args, rs, hwords, hargs, hrs, hparse⟩ := hline.words
  have hword : ∀ w ∈ "iptables" :: args, Word w := by
    intro w hw
    rcases List.mem_cons.mp hw with rfl | hw
    · decide
    · exact hargs w hw
  rw [safeExec_eq _ rs (List.cons_ne_nil _ _) hword hrs hwords, program_eq hparse]

omit [DecidableEq R] in
/-- The rules that a refusal leaves are those that were there. -/
theorem Host.eq_set (h : Host R) (table chain : String) : h = h.set table chain
    (h.rules table chain) := (h.set_self table chain).symm

/-- **Appending.** -/
theorem Line.append {line table chain : String} {text : List String}
    (hline : Line line table chain .append text) (works : Bool) (h : Host R) :
    (Firewall.safeExec (program read works) line h).2 =
      Edit.run read h ⟨table, chain, text, .append works⟩ := by
  rw [hline.safeExec, Edit.run_mk]
  cases hread : read text with
  | none =>
    rw [Option.bind_none, ite_self]
    exact h.eq_set table chain
  | some r =>
    cases works with
    | false => exact h.eq_set table chain
    | true => rfl

/-- **Deleting.** -/
theorem Line.delete {line table chain : String} {text : List String}
    (hline : Line line table chain .delete text) (works : Bool) (h : Host R) :
    (Firewall.safeExec (program read works) line h).2 =
      Edit.run read h ⟨table, chain, text, .erase works⟩ := by
  rw [hline.safeExec, Edit.run_mk]
  cases hread : read text with
  | none =>
    rw [Option.bind_none, ite_self]
    exact h.eq_set table chain
  | some r =>
    cases works with
    | false => exact h.eq_set table chain
    | true =>
      rw [if_pos rfl, Option.bind_some, Op.run, Action.run, RuleTable.eraseIf, if_pos rfl]
      by_cases hmem : r ∈ h.rules table chain
      · rw [if_pos hmem]
      · rw [if_neg hmem, List.erase_of_not_mem hmem]
        exact h.eq_set table chain

/-- **Putting up what is not there.** -/
theorem Line.ensure {check append table chain : String} {text : List String}
    (hcheck : Line check table chain .check text)
    (happend : Line append table chain .append text) (checks appends : Bool) (h : Host R) :
    NatManager.ensure read checks appends check append h =
      Edit.run read h ⟨table, chain, text, .ensure checks appends⟩ := by
  rw [NatManager.ensure, hcheck.safeExec, Edit.run_mk]
  cases hread : read text with
  | none =>
    rw [Option.bind_none, ite_self]
    show (if (1 : ℤ) ≠ 0 then _ else _) = _
    rw [if_pos (by decide), happend.append, Edit.run_mk, hread]
    rfl
  | some r =>
    have hfallback : (Firewall.safeExec (program read appends) append h).2 =
        h.set table chain (RuleTable.appendIf appends r (h.rules table chain)) := by
      rw [happend.append, Edit.run_mk, hread]
      rfl
    cases checks with
    | false =>
      show (if (1 : ℤ) ≠ 0 then _ else _) = _
      rw [if_pos (by decide), hfallback]
      rfl
    | true =>
      rw [if_pos rfl, Option.bind_some, Op.run, Action.run, Bool.true_and]
      by_cases hmem : r ∈ h.rules table chain
      · rw [if_pos hmem, decide_eq_true hmem, if_pos rfl]
        exact if_neg (by decide)
      · rw [if_neg hmem, decide_eq_false hmem, if_neg Bool.false_ne_true]
        show (if (1 : ℤ) ≠ 0 then _ else _) = _
        rw [if_pos (by decide), hfallback]

/-- A line that names its table. -/
theorem Line.ofTable {line table chain : String} {op : Op} {text : List String} (opt : String)
    (rs : List String) (hop : Op.ofString opt = some op)
    (hline : line = " ".intercalate
      (("iptables" :: "-t" :: table :: opt :: chain :: text) ++ rs))
    (hwords : ∀ w ∈ [table, opt, chain], Word w) (htext : ∀ w ∈ text, Word w)
    (hrs : ∀ w ∈ rs, w ∈ redirects) : Line line table chain op text := by
  refine ⟨_, rs, hline, ?_, hrs, ?_⟩
  · intro w hw
    rcases List.mem_cons.mp hw with rfl | hw
    · decide
    · rcases List.mem_append.mp (show w ∈ [table, opt, chain] ++ text from hw) with hw | hw
      · exact hwords w hw
      · exact htext w hw
  · rw [parseArgs, if_pos rfl, parseOp, hop]
    rfl

/-- A line that does not, and means the table `filter`. -/
theorem Line.ofFilter {line chain : String} {op : Op} {text : List String} (opt : String)
    (rs : List String) (hop : Op.ofString opt = some op)
    (hline : line = " ".intercalate (("iptables" :: opt :: chain :: text) ++ rs))
    (hwords : ∀ w ∈ [opt, chain], Word w) (htext : ∀ w ∈ text, Word w)
    (hrs : ∀ w ∈ rs, w ∈ redirects) : Line line "filter" chain op text := by
  have hopt : opt ≠ "-t" := by
    rintro rfl
    rw [show Op.ofString "-t" = none by decide] at hop
    cases hop
  refine ⟨_, rs, hline, ?_, hrs, ?_⟩
  · intro w hw
    rcases List.mem_append.mp (show w ∈ [opt, chain] ++ text from hw) with hw | hw
    · exact hwords w hw
    · exact htext w hw
  · rw [parseArgs, if_neg hopt, parseOp, hop]
    rfl

/-! ### What the lines of the source are -/

/-- The rules of `NatManager`. -/
def NatManager.rules (n : NatManager) : List (String × String × List String) :=
  [("nat", "POSTROUTING", ["-s", n.subnet, "-o", n.outIface, "-j", "MASQUERADE"]),
    ("filter", "FORWARD", ["-i", n.tunIface, "-j", "ACCEPT"]),
    ("filter", "FORWARD", ["-o", n.tunIface, "-m", "conntrack", "--ctstate",
      "RELATED,ESTABLISHED", "-j", "ACCEPT"])]

namespace NatManager

variable {n : NatManager}

theorem safe_iff : n.safe = true ↔ isSafeShellParam n.tunIface = true ∧
    isSafeShellParam n.outIface = true ∧ isSafeShellParam n.subnet = true := by
  rw [safe, Bool.and_eq_true, Bool.and_eq_true, and_assoc]

/-- The words of the three rules. -/
theorem word_rules (hn : n.safe = true) : ∀ r ∈ n.rules, ∀ w ∈ r.2.2, Word w := by
  obtain ⟨htun, hout, hsubnet⟩ := safe_iff.mp hn
  have hwtun := word_of_isSafeShellParam htun
  have hwout := word_of_isSafeShellParam hout
  have hwsubnet := word_of_isSafeShellParam hsubnet
  intro r hr
  rcases List.mem_cons.mp hr with rfl | hr
  · simp +decide [hwsubnet, hwout]
  · rcases List.mem_cons.mp hr with rfl | hr
    · simp +decide [hwtun]
    · obtain rfl := List.mem_singleton.mp hr
      simp +decide [hwtun]

theorem line_masq (hn : n.safe = true) :
    Line n.checkMasq "nat" "POSTROUTING" .check
        ["-s", n.subnet, "-o", n.outIface, "-j", "MASQUERADE"] ∧
      Line ("iptables " ++ n.ruleMasq) "nat" "POSTROUTING" .append
        ["-s", n.subnet, "-o", n.outIface, "-j", "MASQUERADE"] ∧
      Line ("iptables " ++ n.unruleMasq) "nat" "POSTROUTING" .delete
        ["-s", n.subnet, "-o", n.outIface, "-j", "MASQUERADE"] := by
  have htext := word_rules hn _ List.mem_cons_self
  refine ⟨.ofTable "-C" ["2>/dev/null"] rfl ?_ (by decide) htext (by decide),
    .ofTable "-A" [] rfl ?_ (by decide) htext (by decide),
    .ofTable "-D" [] rfl ?_ (by decide) htext (by decide)⟩
  · have h := eq_intercalate_two "iptables -t nat -C POSTROUTING -s " n.subnet " -o " n.outIface
      " -j MASQUERADE 2>/dev/null"
      (a := ["iptables", "-t", "nat", "-C", "POSTROUTING", "-s"]) (b := ["-o"])
      (c := ["-j", "MASQUERADE", "2>/dev/null"]) (by decide) (by decide) (by decide)
      (by decide) (by decide) (by decide)
    exact h
  · have h := eq_intercalate_two ("iptables " ++ "-t nat -A POSTROUTING -s ") n.subnet
      " -o " n.outIface " -j MASQUERADE"
      (a := ["iptables", "-t", "nat", "-A", "POSTROUTING", "-s"]) (b := ["-o"])
      (c := ["-j", "MASQUERADE"]) (by decide) (by decide) (by decide)
      (by decide) (by decide) (by decide)
    exact (append_two _ _ _ _ _ _).trans h
  · have h := eq_intercalate_two ("iptables " ++ "-t nat -D POSTROUTING -s ") n.subnet
      " -o " n.outIface " -j MASQUERADE"
      (a := ["iptables", "-t", "nat", "-D", "POSTROUTING", "-s"]) (b := ["-o"])
      (c := ["-j", "MASQUERADE"]) (by decide) (by decide) (by decide)
      (by decide) (by decide) (by decide)
    exact (append_two _ _ _ _ _ _).trans h

theorem line_fwdIn (hn : n.safe = true) :
    Line ("iptables -C " ++ n.ruleFwdIn ++ " 2>/dev/null") "filter" "FORWARD" .check
        ["-i", n.tunIface, "-j", "ACCEPT"] ∧
      Line ("iptables -A " ++ n.ruleFwdIn) "filter" "FORWARD" .append
        ["-i", n.tunIface, "-j", "ACCEPT"] ∧
      Line ("iptables " ++ n.unruleFwdIn) "filter" "FORWARD" .delete
        ["-i", n.tunIface, "-j", "ACCEPT"] := by
  have htext := word_rules hn _ (List.mem_cons_of_mem _ List.mem_cons_self)
  refine ⟨.ofFilter "-C" ["2>/dev/null"] rfl ?_ (by decide) htext (by decide),
    .ofFilter "-A" [] rfl ?_ (by decide) htext (by decide),
    .ofFilter "-D" [] rfl ?_ (by decide) htext (by decide)⟩
  · have h := eq_intercalate_one ("iptables -C " ++ "FORWARD -i ") n.tunIface
      (" -j ACCEPT" ++ " 2>/dev/null")
      (a := ["iptables", "-C", "FORWARD", "-i"])
      (b := ["-j", "ACCEPT", "2>/dev/null"])
      (by decide) (by decide) (by decide) (by decide)
    exact (append_one _ _ _ _ _).trans h
  · have h := eq_intercalate_one ("iptables -A " ++ "FORWARD -i ") n.tunIface
      " -j ACCEPT"
      (a := ["iptables", "-A", "FORWARD", "-i"])
      (b := ["-j", "ACCEPT"]) (by decide) (by decide)
      (by decide) (by decide)
    exact (append_one_left _ _ _ _).trans h
  · have h := eq_intercalate_one ("iptables " ++ "-D FORWARD -i ") n.tunIface
      " -j ACCEPT"
      (a := ["iptables", "-D", "FORWARD", "-i"])
      (b := ["-j", "ACCEPT"]) (by decide) (by decide)
      (by decide) (by decide)
    exact (append_one_left _ _ _ _).trans h

theorem line_fwdOut (hn : n.safe = true) :
    Line ("iptables -C " ++ n.ruleFwdOut ++ " 2>/dev/null") "filter" "FORWARD" .check
        ["-o", n.tunIface, "-m", "conntrack", "--ctstate", "RELATED,ESTABLISHED", "-j",
          "ACCEPT"] ∧
      Line ("iptables -A " ++ n.ruleFwdOut) "filter" "FORWARD" .append
        ["-o", n.tunIface, "-m", "conntrack", "--ctstate", "RELATED,ESTABLISHED", "-j",
          "ACCEPT"] ∧
      Line ("iptables " ++ n.unruleFwdOut) "filter" "FORWARD" .delete
        ["-o", n.tunIface, "-m", "conntrack", "--ctstate", "RELATED,ESTABLISHED", "-j",
          "ACCEPT"] := by
  have htext := word_rules hn _
    (List.mem_cons_of_mem _ (List.mem_cons_of_mem _ List.mem_cons_self))
  refine ⟨.ofFilter "-C" ["2>/dev/null"] rfl ?_ (by decide) htext (by decide),
    .ofFilter "-A" [] rfl ?_ (by decide) htext (by decide),
    .ofFilter "-D" [] rfl ?_ (by decide) htext (by decide)⟩
  · have h := eq_intercalate_one ("iptables -C " ++ "FORWARD -o ") n.tunIface
      (" -m conntrack --ctstate RELATED,ESTABLISHED -j ACCEPT" ++ " 2>/dev/null")
      (a := ["iptables", "-C", "FORWARD", "-o"])
      (b := ["-m", "conntrack", "--ctstate", "RELATED,ESTABLISHED", "-j", "ACCEPT", "2>/dev/null"])
      (by decide) (by decide) (by decide) (by decide)
    exact (append_one _ _ _ _ _).trans h
  · have h := eq_intercalate_one ("iptables -A " ++ "FORWARD -o ") n.tunIface
      " -m conntrack --ctstate RELATED,ESTABLISHED -j ACCEPT"
      (a := ["iptables", "-A", "FORWARD", "-o"])
      (b := ["-m", "conntrack", "--ctstate", "RELATED,ESTABLISHED", "-j", "ACCEPT"])
      (by decide) (by decide) (by decide) (by decide)
    exact (append_one_left _ _ _ _).trans h
  · have h := eq_intercalate_one ("iptables " ++ "-D FORWARD -o ") n.tunIface
      " -m conntrack --ctstate RELATED,ESTABLISHED -j ACCEPT"
      (a := ["iptables", "-D", "FORWARD", "-o"])
      (b := ["-m", "conntrack", "--ctstate", "RELATED,ESTABLISHED", "-j", "ACCEPT"])
      (by decide) (by decide) (by decide) (by decide)
    exact (append_one_left _ _ _ _).trans h

/-- What `setup` does about each rule. -/
def edits (n : NatManager) (works : ℕ → Bool) : List Edit :=
  [⟨"nat", "POSTROUTING", ["-s", n.subnet, "-o", n.outIface, "-j", "MASQUERADE"],
      .ensure (works 0) (works 1)⟩,
    ⟨"filter", "FORWARD", ["-i", n.tunIface, "-j", "ACCEPT"], .ensure (works 2) (works 3)⟩,
    ⟨"filter", "FORWARD", ["-o", n.tunIface, "-m", "conntrack", "--ctstate",
      "RELATED,ESTABLISHED", "-j", "ACCEPT"], .ensure (works 4) (works 5)⟩]

/-- What `teardown` does. -/
def unedits (n : NatManager) (works : ℕ → Bool) : List Edit :=
  [⟨"nat", "POSTROUTING", ["-s", n.subnet, "-o", n.outIface, "-j", "MASQUERADE"],
      .erase (works 0)⟩,
    ⟨"filter", "FORWARD", ["-i", n.tunIface, "-j", "ACCEPT"], .erase (works 1)⟩,
    ⟨"filter", "FORWARD", ["-o", n.tunIface, "-m", "conntrack", "--ctstate",
      "RELATED,ESTABLISHED", "-j", "ACCEPT"], .erase (works 2)⟩]

/-- Forwarding, where it can be written. -/
def forwarding (canWrite : Bool) (h : Host R) : Host R :=
  if canWrite then { h with ipForward := true } else h

/-- **What `setup` does**, whatever its parameters are: nothing, or the three rules. -/
theorem setup_eq (n : NatManager) (canWrite : Bool) (works : ℕ → Bool) (h : Host R) :
    n.setup read canWrite works h =
      if n.safe then
        (true, { n with active := true },
          (n.edits works).foldl (Edit.run read) (forwarding canWrite h))
      else (false, n, h) := by
  rw [setup]
  cases hn : n.safe with
  | false => rfl
  | true =>
    obtain ⟨hcheck₁, happend₁, -⟩ := line_masq hn
    obtain ⟨hcheck₂, happend₂, -⟩ := line_fwdIn hn
    obtain ⟨hcheck₃, happend₃, -⟩ := line_fwdOut hn
    simp only [hcheck₁.ensure happend₁, hcheck₂.ensure happend₂, hcheck₃.ensure happend₃]
    rfl

/-- **What `teardown` does.** -/
theorem teardown_eq (n : NatManager) (hn : n.safe = true) (works : ℕ → Bool) (h : Host R) :
    n.teardown read works h =
      if n.active then ({ n with active := false }, (n.unedits works).foldl (Edit.run read) h)
      else (n, h) := by
  rw [teardown]
  cases n.active with
  | false => rfl
  | true =>
    obtain ⟨-, -, hdelete₁⟩ := line_masq hn
    obtain ⟨-, -, hdelete₂⟩ := line_fwdIn hn
    obtain ⟨-, -, hdelete₃⟩ := line_fwdOut hn
    simp only [hdelete₁.delete, hdelete₂.delete, hdelete₃.delete]
    rfl

end NatManager

/-- An edit leaves the other rules of a chain, and their order. -/
theorem Edit.filter_run (e : Edit) (h : Host R) {table chain : String} {p : R → Bool}
    (hp : e.table = table → e.chain = chain → ∀ r, read e.text = some r → p r = false) :
    ((e.run read h).rules table chain).filter p = (h.rules table chain).filter p := by
  rw [Edit.run]
  by_cases hplace : table = e.table ∧ chain = e.chain
  · obtain ⟨rfl, rfl⟩ := hplace
    rw [Host.rules_set_self]
    cases hread : read e.text with
    | none => rfl
    | some r =>
      have hr : p r = false := hp rfl rfl r hread
      have happend : ∀ (b : Bool) (rs : List R),
          (RuleTable.appendIf b r rs).filter p = rs.filter p := by
        rintro (_ | _) rs
        · rfl
        · rw [RuleTable.appendIf, if_pos rfl, List.filter_append, List.filter_singleton, hr,
            cond_false, List.append_nil]
      have herase : ∀ rs : List R, (rs.erase r).filter p = rs.filter p := by
        intro rs
        induction rs with
        | nil => rfl
        | cons r' rs ih =>
          rw [List.erase_cons]
          split
          · rename_i heq
            rw [beq_iff_eq.mp heq, List.filter_cons, hr, if_neg Bool.false_ne_true]
          · rw [List.filter_cons, List.filter_cons, ih]
      cases e.action with
      | ensure checks appends =>
        rw [Action.run]
        split
        · rfl
        · exact happend appends _
      | append works => exact happend works _
      | erase works =>
        rw [Action.run]
        cases works with
        | false => rfl
        | true => exact herase _
  · rw [Host.rules_set_of_ne h hplace]

theorem filter_foldl {es : List Edit} {table chain : String} {p : R → Bool}
    (hp : ∀ e ∈ es, e.table = table → e.chain = chain → ∀ r, read e.text = some r → p r = false)
    (h : Host R) :
    ((es.foldl (Edit.run read) h).rules table chain).filter p =
      (h.rules table chain).filter p := by
  induction es generalizing h with
  | nil => rfl
  | cons e es ih =>
    rw [List.foldl_cons, ih fun e' he' => hp e' (List.mem_cons_of_mem e he'),
      e.filter_run h (hp e List.mem_cons_self)]

/-- **No parameter gets at a rule of others**: whatever the names of the devices and the subnet
are, and whichever commands work, `setup` and `teardown` leave all rules as they are, and in
their order, but the three that they are about. -/
theorem NatManager.others_untouched {n : NatManager} (hn : n.active = false) (canWrite : Bool)
    (works : ℕ → Bool) (h : Host R) {table chain : String} {p : R → Bool}
    (hp : ∀ text r, (table, chain, text) ∈ n.rules → read text = some r → p r = false) :
    (((n.setup read canWrite works h).2.2.rules table chain).filter p =
        (h.rules table chain).filter p) ∧
      ∀ (works' : ℕ → Bool) (h' : Host R),
        (((n.setup read canWrite works h).2.1.teardown read works' h').2.rules table chain).filter
          p = (h'.rules table chain).filter p := by
  have hedits : ∀ e ∈ n.edits works, e.table = table → e.chain = chain →
      ∀ r, read e.text = some r → p r = false := by
    rintro e he rfl rfl r hread
    refine hp e.text r ?_ hread
    simp only [edits, List.mem_cons, List.not_mem_nil, or_false] at he
    rcases he with rfl | rfl | rfl <;> simp [rules]
  rw [setup_eq]
  cases hsafe : n.safe with
  | false =>
    rw [if_neg Bool.false_ne_true]
    refine ⟨rfl, fun works' h' => ?_⟩
    rw [teardown, hn]
    rfl
  | true =>
    rw [if_pos rfl]
    refine ⟨(filter_foldl hedits _).trans ?_, fun works' h' => ?_⟩
    · rw [forwarding]
      split <;> rfl
    · have hactive : ({ n with active := true } : NatManager).safe = true := hsafe
      rw [teardown_eq _ hactive]
      refine filter_foldl ?_ h'
      rintro e he rfl rfl r hread
      refine hp e.text r ?_ hread
      simp only [unedits, List.mem_cons, List.not_mem_nil, or_false] at he
      rcases he with rfl | rfl | rfl <;> simp [rules]

/-- Rules by their texts. -/
def byText (text : List String) : Option String := some (" ".intercalate text)

/-- A manager whose parameters pass the check. -/
def NatManager.small : NatManager := ⟨"aegs0", "eth0", "10.8.0.0/24", false⟩

/-- A machine with a rule of others in each chain. -/
def ruledHost : Host String := ⟨fun _ _ => ["-j DROP"], false⟩

/-- Its rules are appended behind the rule of others, which stays, also when they go again. -/
theorem NatManager.others_untouched_small :
    (small.setup byText true (fun _ => true) ruledHost).2.2.rules "filter" "FORWARD" =
        ["-j DROP", "-i aegs0 -j ACCEPT",
          "-o aegs0 -m conntrack --ctstate RELATED,ESTABLISHED -j ACCEPT"] ∧
      ((small.setup byText true (fun _ => true) ruledHost).2.2.rules "filter" "FORWARD").filter
        (fun r => decide (r = "-j DROP")) = ["-j DROP"] ∧
      (((small.setup byText true (fun _ => true) ruledHost).2.1.teardown byText (fun _ => true)
        (small.setup byText true (fun _ => true) ruledHost).2.2).2.rules "filter" "FORWARD").filter
          (fun r => decide (r = "-j DROP")) = ["-j DROP"] := by
  obtain ⟨hsetup, hteardown⟩ := @others_untouched String _ byText small rfl true (fun _ => true)
    ruledHost "filter" "FORWARD" (fun r => decide (r = "-j DROP")) (by
      intro text r hmem hread
      simp only [rules, List.mem_cons, List.not_mem_nil, or_false, Prod.mk.injEq] at hmem
      rcases hmem with ⟨h, -, -⟩ | ⟨-, -, rfl⟩ | ⟨-, -, rfl⟩
      · exact absurd h (by decide)
      · exact Option.some.inj hread ▸ (by decide)
      · exact Option.some.inj hread ▸ (by decide))
  have hleft := hsetup.trans (by decide : (ruledHost.rules "filter" "FORWARD").filter
    (fun r => decide (r = "-j DROP")) = ["-j DROP"])
  refine ⟨?_, hleft, (hteardown (fun _ => true) _).trans hleft⟩
  rw [setup_eq, if_pos (by decide)]
  decide

namespace TunInterface

/-- What `configure_interface` does about each rule, if the name is a word. -/
def edits (ifaceName : String) (works : ℕ → Bool) : List Edit :=
  [⟨"mangle", "FORWARD", ["-i", ifaceName, "-p", "tcp", "--tcp-flags", "SYN,RST", "SYN", "-j",
      "TCPMSS", "--clamp-mss-to-pmtu"], .append (works 1)⟩,
    ⟨"mangle", "FORWARD", ["-o", ifaceName, "-p", "tcp", "--tcp-flags", "SYN,RST", "SYN", "-j",
      "TCPMSS", "--clamp-mss-to-pmtu"], .append (works 2)⟩,
    ⟨"mangle", "FORWARD", ["-i", ifaceName, "-p", "tcp", "--tcp-flags", "SYN,RST", "SYN", "-j",
      "TCPMSS", "--set-mss", "1240"], .append (works 3)⟩,
    ⟨"mangle", "FORWARD", ["-o", ifaceName, "-p", "tcp", "--tcp-flags", "SYN,RST", "SYN", "-j",
      "TCPMSS", "--set-mss", "1240"], .append (works 4)⟩,
    ⟨"mangle", "POSTROUTING", ["-p", "tcp", "--tcp-flags", "SYN,RST", "SYN", "-j", "TCPMSS",
      "--clamp-mss-to-pmtu"], .append (works 5)⟩]

/-- A line of the chain `FORWARD`, by the direction and what is set. -/
theorem line_forward {ifaceName : String} (hname : Word ifaceName) (direction l₁ l₂ : String)
    (what : List String) (hdirection : Word direction) (hwhat : ∀ w ∈ what, Word w)
    (h₁ : l₁ = " ".intercalate ["iptables", "-t", "mangle", "-A", "FORWARD", direction] ++ " ")
    (h₂ : l₂ = " " ++ " ".intercalate
      (["-p", "tcp", "--tcp-flags", "SYN,RST", "SYN", "-j", "TCPMSS"] ++ what)) :
    Line (l₁ ++ ifaceName ++ l₂) "mangle" "FORWARD" .append
      (direction :: ifaceName ::
        (["-p", "tcp", "--tcp-flags", "SYN,RST", "SYN", "-j", "TCPMSS"] ++ what)) := by
  have hfixed : ∀ w ∈ ["-p", "tcp", "--tcp-flags", "SYN,RST", "SYN", "-j", "TCPMSS"], Word w := by
    decide
  refine .ofTable "-A" [] rfl ?_ (by decide) ?_ (by decide)
  · have h := eq_intercalate_one l₁ ifaceName l₂ (List.cons_ne_nil _ _)
      (List.cons_ne_nil _ _) h₁ h₂
    rw [List.append_nil]
    exact h
  · intro w hw
    rcases List.mem_cons.mp hw with rfl | hw
    · exact hdirection
    · rcases List.mem_cons.mp hw with rfl | hw
      · exact hname
      · rcases List.mem_append.mp hw with hw | hw
        · exact hfixed w hw
        · exact hwhat w hw

/-- **What `configure_interface` does** with a name that is a word. -/
theorem configureInterface_eq {ifaceName : String} (hname : Word ifaceName) (works : ℕ → Bool)
    (h : Host R) :
    configureInterface read ifaceName works h =
      (edits ifaceName works).foldl (Edit.run read) h := by
  have hlink : (safeExec (program read (works 0))
      ("ip link set dev " ++ ifaceName ++ " txqueuelen 4096") h).2 = h := by
    have hline := eq_intercalate_one "ip link set dev " ifaceName " txqueuelen 4096"
      (a := ["ip", "link", "set", "dev"]) (b := ["txqueuelen", "4096"]) (by decide) (by decide)
      (by decide) (by decide)
    have hwords : ∀ w ∈ "ip" :: (["link", "set", "dev"] ++ ifaceName :: ["txqueuelen", "4096"]),
        Word w := by
      simp +decide [hname]
    have hexec := safeExec_eq (program read (works 0)) [] (List.cons_ne_nil _ _) hwords (by decide)
      (hline.trans (congrArg _ (List.append_nil _).symm)) h
    rw [hexec, program, if_neg (by decide)]
  have hin := line_forward hname "-i" "iptables -t mangle -A FORWARD -i "
    " -p tcp --tcp-flags SYN,RST SYN -j TCPMSS --clamp-mss-to-pmtu" ["--clamp-mss-to-pmtu"]
    (by decide) (by decide) (by decide) (by decide)
  have hout := line_forward hname "-o" "iptables -t mangle -A FORWARD -o "
    " -p tcp --tcp-flags SYN,RST SYN -j TCPMSS --clamp-mss-to-pmtu" ["--clamp-mss-to-pmtu"]
    (by decide) (by decide) (by decide) (by decide)
  have hin' := line_forward hname "-i" "iptables -t mangle -A FORWARD -i "
    " -p tcp --tcp-flags SYN,RST SYN -j TCPMSS --set-mss 1240" ["--set-mss", "1240"]
    (by decide) (by decide) (by decide) (by decide)
  have hout' := line_forward hname "-o" "iptables -t mangle -A FORWARD -o "
    " -p tcp --tcp-flags SYN,RST SYN -j TCPMSS --set-mss 1240" ["--set-mss", "1240"]
    (by decide) (by decide) (by decide) (by decide)
  have hpost : Line ("iptables -t mangle -A POSTROUTING -p tcp --tcp-flags SYN,RST SYN -j TCPMSS" ++
      " --clamp-mss-to-pmtu") "mangle" "POSTROUTING" .append
      ["-p", "tcp", "--tcp-flags", "SYN,RST", "SYN", "-j", "TCPMSS", "--clamp-mss-to-pmtu"] :=
    .ofTable "-A" [] rfl (by decide) (by decide) (by decide) (by decide)
  rw [configureInterface, commands, edits]
  simp only [List.zipIdx_cons, List.zipIdx_nil, List.foldl_cons, List.foldl_nil, hlink]
  rw [hin.append, hout.append, hin'.append, hout'.append, hpost.append]
  rfl

end TunInterface

end

end Firewall

end Aegs
