import Aegs.Firewall.Shield

/-!
# What the transactions put up and take down

One statement for each `apply`: it goes through exactly if the chain is not there, each
command works and the tool takes each rule, and ends otherwise in a `rollback` of rules in
which nobody sees more than before. And one for each way of taking down what it has put up:
the table of `iptables` is as it was exactly if its three commands work
(`Aegs.Firewall.cleanUp_hook_iff`), that of `ip6tables` if each command works that has
something to undo (`Aegs.Firewall.KillSwitch.restored6_iff`), or, for the rules of the DNS
shield that have no chain, if each rule is settled
(`Aegs.Firewall.DnsLeakProtector.restored6_iff`).
-/

namespace Aegs

namespace Firewall

open RuleTable

section Rules

variable {F X : Type} [DecidableEq F] {L : System F X}

omit [DecidableEq F] in
/-- Both tables make the rules. -/
theorem Rules.eq_iff {fw fw' : Rules F} (hip6 : fw.hasIp6tables = fw'.hasIp6tables) :
    fw = fw' ↔ fw.v4 = fw'.v4 ∧ fw.v6 = fw'.v6 := by
  constructor
  · rintro rfl
    exact ⟨rfl, rfl⟩
  · rcases fw with ⟨v4, v6, b⟩
    rcases fw' with ⟨v4', v6', b'⟩
    rintro ⟨rfl, rfl⟩
    obtain rfl : b = b' := hip6
    rfl

theorem executeEach_append_list (works : ℕ → Bool) (cs cs' : List (Command F)) (fw : Rules F) :
    executeEach L works (cs ++ cs') fw =
      executeEach L (fun i => works (i + cs.length)) cs' (executeEach L works cs fw) := by
  induction cs generalizing works fw with
  | nil => rfl
  | cons c cs ih =>
    rw [List.cons_append, executeEach, ih, executeEach]
    simp only [List.length_cons, Nat.add_assoc]

/-- The test for `ip6tables` succeeds where it works and the tool is there. -/
theorem isIpv6Available_eq (works : Bool) (fw : Rules F) :
    isIpv6Available L works fw = (works && fw.hasIp6tables) := by
  rw [isIpv6Available, executeCommand]
  have hruns : Command.runs L (.list .ip6tables) fw = fw.hasIp6tables := by
    simp [Command.runs, Command.tool, Command.rule]
  rw [hruns]
  cases works <;> cases fw.hasIp6tables <;> rfl

/-- The test of `verify` succeeds where it works and the jump is there. -/
theorem executeCommand_check {works : Bool} {fw : Rules F} {chain : String}
    (hjump : RuleTable.Rule.jump chain ∈ fw.v4.output) :
    (executeCommand L works (.check .iptables (.jump chain)) fw).isNone = !works := by
  cases works with
  | false => rfl
  | true =>
    have hruns : Command.runs L (.check .iptables (.jump chain)) fw = true :=
      runs_iff.mpr ⟨Or.inl rfl, rfl⟩
    have hrun : Command.run (.check .iptables (.jump chain)) (fw.table .iptables) =
        some (fw.table .iptables) := if_pos hjump
    rw [executeCommand_of_run rfl hruns hrun]
    rfl

/-- The two noted lists, one after the other. -/
theorem executeEach_cleanupBoth {works : ℕ → Bool} {chain chain6 : String} {fw : Rules F}
    (h6 : fw.hasIp6tables = true) :
    executeEach L works (cleanupCommands .iptables chain ++ cleanupCommands .ip6tables chain6) fw =
      (fw.set .iptables (Table.cleanUp (works 0) (works 1) (works 2) chain fw.v4)).set .ip6tables
        (Table.cleanUp (works 3) (works 4) (works 5) chain6 fw.v6) := by
  rw [executeEach_append_list, executeEach_cleanupCommands (Or.inl rfl),
    executeEach_cleanupCommands (Or.inr (by rw [hasIp6tables_set, h6]))]
  rfl

/-- **A chain that `iptables` has hooked in** with rules in it is gone exactly if all three
commands work. -/
theorem cleanUp_hook_iff {t : Table F} (h : t.Valid) {chain : String} (hc : chain ∉ t.names)
    {rs : List (Rule F)} (hrs : rs ≠ []) (d f x : Bool) :
    Table.cleanUp d f x chain ((t.addChain chain rs).hook chain) = t ↔
      d = true ∧ f = true ∧ x = true := by
  have hiff := Table.cleanUp_addChain_iff h hc rs true d f x
  rw [Table.hooked, if_pos rfl] at hiff
  rw [hiff]
  simp [hrs]

/-- **The chain survives being taken down**: it is not there, or it is empty, and a rule
jumps to it that is not the one that is deleted. -/
def Spared (t : Table F) (chain : String) (inserted : Bool) : Prop :=
  chain ∉ t.names ∨
    t.lookup chain = some [] ∧
      (inserted = false → RuleTable.Rule.jump chain ∉ t.output) ∧ t.referenced chain = true

/-- The same for a table that nobody has added a rule to. -/
theorem cleanUp_eq_iff {t : Table F} (h : t.Valid) (chain : String) :
    Table.cleanUp true true true chain t = t ↔ Spared t chain false := by
  by_cases hc : chain ∈ t.names
  · obtain ⟨rs, hrs⟩ := Table.exists_lookup hc
    have hiff := Table.cleanUp_setChain_iff h hc rs false
    rw [Table.setChain_self h.nodup hrs] at hiff
    rw [show Table.cleanUp true true true chain t = t ↔ _ from hiff, Spared]
    simp [hc]
  · exact iff_of_true (Table.cleanUp_of_not_mem h hc true true true) (Or.inl hc)

end Rules

/-- The chain is not there, each command works, and the tool takes each rule. -/
def GoesUp (L : System F X) (tool : Tool) (chain : String) (rs : List (Rule F))
    (works : ℕ → Bool) (fw : Rules F) : Prop :=
  chain ∉ (fw.table tool).names ∧ (∀ i < rs.length + 2, works i = true) ∧ TakesAll L tool rs

/-- **A chain goes up**, or leaves what nobody sees. -/
theorem executeAll_shield_cases {F X : Type} [DecidableEq F] {L : System F X} {tool : Tool}
    (chain : String) {fw : Rules F} (hready : Ready fw tool) {rs : List (Rule F)}
    (hplain : Plain rs) (works : ℕ → Bool) :
    (GoesUp L tool chain rs works fw ∧ executeAll L works (shield tool chain rs) fw =
        (true, fw.set tool (((fw.table tool).addChain chain rs).hook chain))) ∨
      (¬GoesUp L tool chain rs works fw ∧
        ∃ fw₂, executeAll L works (shield tool chain rs) fw = (false, fw₂) ∧
          (fw₂ = fw ∨ chain ∉ (fw.table tool).names ∧
            ∃ rs', fw₂ = fw.set tool ((fw.table tool).addChain chain rs'))) := by
  rcases executeAll_shield (L := L) chain hready hplain works with
    ⟨hexec, hnot⟩ | ⟨b, rs', hc, hworks, hexec, hgood, hrs⟩
  · exact Or.inr ⟨fun h => hnot ⟨h.1, h.2.1 0 (by omega)⟩, fw, hexec, Or.inl rfl⟩
  · cases b with
    | false =>
      refine Or.inr ⟨fun h => ?_, _, hexec, Or.inr ⟨hc, rs', rfl⟩⟩
      have hall := hgood.mpr h.2
      exact nomatch hall
    | true =>
      refine Or.inl ⟨⟨hc, hgood.mp rfl⟩, ?_⟩
      rw [hexec, hrs rfl]
      rfl

/-- Rules are left where a command works. -/
theorem kept_ne_nil_iff {α : Type} {works : ℕ → Bool} {rs : List α} :
    kept works rs ≠ [] ↔ ∃ i < rs.length, works i = true := by
  induction rs generalizing works with
  | nil => simp [kept]
  | cons r rs ih =>
    rw [kept]
    split_ifs with hworks
    · exact iff_of_true (List.cons_ne_nil _ _) ⟨0, by simp, hworks⟩
    · rw [ih]
      constructor
      · rintro ⟨i, hi, hworks'⟩
        exact ⟨i + 1, by simpa using hi, hworks'⟩
      · rintro ⟨i, hi, hworks'⟩
        rcases i with _ | i
        · exact absurd hworks' hworks
        · exact ⟨i, by simpa using hi, hworks'⟩

/-! ### The kill switch -/

namespace KillSwitch

section Lists

variable {F X : Type}

/-- The rules of the chain. -/
def rules (serverIp : String) (basePort : UInt16) (portCount : ℤ) (tunIface : String) :
    List (Rule F) :=
  [⟨[.ctstate [.established, .related]], .verdict .accept⟩,
    ⟨[.outInterface "lo"], .verdict .accept⟩,
    ⟨[.outInterface tunIface], .verdict .accept⟩,
    ⟨[.protocol .udp, .sourcePort 68, .destinationPort 67 67], .verdict .accept⟩,
    ⟨[.destination serverIp, .protocol .udp, portSpec basePort portCount], .verdict .accept⟩,
    ⟨[.destination serverIp, .protocol .tcp, portSpec basePort portCount], .verdict .accept⟩,
    ⟨[], .verdict .drop⟩]

/-- The rules of the chain of `ip6tables`. -/
def rules6 : List (Rule F) :=
  [⟨[.ctstate [.established, .related]], .verdict .accept⟩,
    ⟨[.outInterface "lo"], .verdict .accept⟩, ⟨[], .verdict .drop⟩]

variable (L : System F X)

/-- The lists of commands put up a chain each. -/
theorem generateRules_eq {serverIp : String} {basePort : UInt16} {portCount : ℤ}
    {tunIface : String} (hip : isValidIpAddress L serverIp = true)
    (hiface : isValidIfaceName tunIface = true) :
    generateRules L serverIp basePort portCount tunIface =
      shield .iptables killSwitchChain (rules serverIp basePort portCount tunIface) := by
  rw [generateRules, if_neg (by simp [hip, hiface])]
  rfl

theorem generateIpv6Rules_eq :
    (generateIpv6Rules : List (Command F)) = shield .ip6tables killSwitchChain6 rules6 := rfl

theorem plain_rules (serverIp : String) (basePort : UInt16) (portCount : ℤ)
    (tunIface : String) : Plain (F := F) (rules serverIp basePort portCount tunIface) := by
  simp [Plain, rules]

theorem plain_rules6 : Plain (rules6 : List (Rule F)) := by
  simp [Plain, rules6]

theorem takes_portSpec {basePort : UInt16} {portCount : ℤ} :
    takes L .iptables (portSpec basePort portCount) = true := by
  unfold portSpec
  split <;> rfl

/-- `iptables` takes the rules if the server's address is one of IPv4. -/
theorem takesAll_rules {serverIp : String} {basePort : UInt16} {portCount : ℤ}
    {tunIface : String} :
    TakesAll L .iptables (rules serverIp basePort portCount tunIface) ↔
      (L.inetPton4 serverIp).isSome = true := by
  simp only [TakesAll, rules, List.forall_mem_cons, List.all_cons, List.all_nil, takes_portSpec]
  simp [takes]

theorem takesAll_rules6 : TakesAll L .ip6tables rules6 := by
  simp [TakesAll, rules6, takes]

end Lists

section Apply

variable {F X : Type} [DecidableEq F] (L : System F X)

/-- What `prepare` asks of the arguments. -/
def Accepts (k : KillSwitch F) : Prop :=
  isValidIpAddress L k.serverIp = true ∧ isValidIfaceName k.tunIface = true ∧
    ¬(k.basePort = 0 ∨ k.portCount < 1 ∨ k.portCount > 1000 ∨
      (k.basePort.toNat : ℤ) + k.portCount - 1 > 65535)

omit [DecidableEq F] in
theorem prepare_of_accepts {k : KillSwitch F} (h : Accepts L k) :
    prepare L k = (true, { k with phase := .prepared }) := by
  rw [prepare, if_neg (by simp [h.1]), if_neg (by simp [h.2.1]), if_neg h.2.2]

omit [DecidableEq F] in
theorem prepare_of_not_accepts {k : KillSwitch F} (h : ¬Accepts L k) :
    prepare L k = (false, k) := by
  unfold prepare
  split_ifs with hip hiface hports
  · rfl
  · rfl
  · rfl
  · refine absurd ⟨?_, ?_, hports⟩ h
    · simpa using hip
    · simpa using hiface

/-- The chain is not there, all commands work, and the server has an IPv4 address. -/
def Applies (o : Outcomes) (k : KillSwitch F) (fw : Rules F) : Prop :=
  killSwitchChain ∉ fw.v4.names ∧ (∀ i < 9, o.rule i = true) ∧
    (L.inetPton4 k.serverIp).isSome = true

/-- `ip6tables` is there, and its test works. -/
def listed (o : Outcomes) (fw : Rules F) : Bool := o.list && fw.hasIp6tables

/-- The rules behind those of `iptables`. -/
def hooked4 (k : KillSwitch F) (fw : Rules F) : Rules F :=
  fw.set .iptables ((fw.v4.addChain killSwitchChain
    (rules k.serverIp k.basePort k.portCount k.tunIface)).hook killSwitchChain)

/-- What becomes of the table of `ip6tables`. -/
def shielded6 (o : Outcomes) (t : Table F) : Table F :=
  if killSwitchChain6 ∈ t.names then shielded o.rule6 killSwitchChain6 rules6 t
  else if o.rule6 0 then shielded o.rule6 killSwitchChain6 rules6 (t.addChain killSwitchChain6 [])
  else t

/-- The rules of `ip6tables`, each of which may fail. -/
theorem executeEach_generateIpv6Rules (o : Outcomes) {fw : Rules F}
    (h6 : fw.hasIp6tables = true) (hnodup : fw.v6.names.Nodup) :
    executeEach L o.rule6 generateIpv6Rules fw = fw.set .ip6tables (shielded6 o fw.v6) := by
  have hready : Ready fw .ip6tables := Or.inr h6
  have hnodup6 : (fw.table .ip6tables).names.Nodup := hnodup
  have hexec := executeEach_shield killSwitchChain6 hnodup6 hready plain_rules6
    (takesAll_rules6 L) o.rule6
  rw [generateIpv6Rules_eq, hexec, shielded6]
  show (if killSwitchChain6 ∈ fw.v6.names then _ else _) = _
  split_ifs
  · rfl
  · rfl
  · exact (set_table fw .ip6tables).symm

/-- **The rules behind `apply`.** -/
def appliedRules (o : Outcomes) (k : KillSwitch F) (fw : Rules F) : Rules F :=
  (hooked4 k fw).set .ip6tables (if listed o fw then shielded6 o fw.v6 else fw.v6)

/-- The object behind `apply`. -/
def appliedSwitch (o : Outcomes) (k : KillSwitch F) (fw : Rules F) : KillSwitch F :=
  { (if listed o fw then k.noteChain6 else k.noteChain) with phase := .applied }

/-- **`apply`**: it goes through, or rolls back what nobody has seen. -/
theorem apply_cases {o : Outcomes} {k : KillSwitch F} {fw : Rules F} (hfw : fw.Valid)
    (hphase : k.phase = .prepared) (hip : isValidIpAddress L k.serverIp = true)
    (hiface : isValidIfaceName k.tunIface = true) :
    (Applies L o k fw ∧ apply L o k fw = (true, appliedSwitch o k fw, appliedRules o k fw)) ∨
      (¬Applies L o k fw ∧ ∃ fw₂, apply L o k fw = (false, rollback L o k.noteChain fw₂) ∧
        (fw₂ = fw ∨ killSwitchChain ∉ fw.v4.names ∧
          ∃ rs, fw₂ = fw.set .iptables (fw.v4.addChain killSwitchChain rs))) := by
  have hplain := plain_rules (F := F) k.serverIp k.basePort k.portCount k.tunIface
  have hready : Ready fw .iptables := Or.inl rfl
  have happly : ∀ r, executeAll L o.rule (shield .iptables killSwitchChain
      (rules k.serverIp k.basePort k.portCount k.tunIface)) fw = r →
      apply L o k fw = if r.1 then
        if isIpv6Available L o.list r.2 then
          (true, { k.noteChain6 with phase := .applied },
            executeEach L o.rule6 generateIpv6Rules r.2)
        else (true, { k.noteChain with phase := .applied }, r.2)
      else (false, rollback L o k.noteChain r.2) := by
    rintro ⟨_ | _, fw'⟩ hexec <;>
      rw [apply, if_neg (by simp [hphase]), generateRules_eq L hip hiface] <;>
      simp only [hexec, if_true, Bool.false_eq_true, if_false]
  rcases executeAll_shield_cases (L := L) killSwitchChain hready hplain o.rule with
    ⟨⟨hc, hworks, htakes⟩, hexec⟩ | ⟨hnot, fw₂, hexec, hfw₂⟩
  · refine Or.inl ⟨⟨hc, hworks, (takesAll_rules L).mp htakes⟩, ?_⟩
    have hhook : executeAll L o.rule (shield .iptables killSwitchChain
        (rules k.serverIp k.basePort k.portCount k.tunIface)) fw = (true, hooked4 k fw) := hexec
    have hip6 : (hooked4 k fw).hasIp6tables = fw.hasIp6tables := rfl
    rw [happly _ hhook, if_pos rfl, appliedSwitch, appliedRules]
    simp only [isIpv6Available_eq, hip6]
    cases hlisted : listed o fw with
    | false =>
      rw [listed] at hlisted
      rw [hlisted]
      rfl
    | true =>
      have h6 : (hooked4 k fw).hasIp6tables = true := (Bool.and_eq_true_iff.mp hlisted).2
      rw [listed] at hlisted
      rw [hlisted]
      simp only [if_true]
      rw [executeEach_generateIpv6Rules L o h6 hfw.v6.nodup]
      rfl
  · refine Or.inr ⟨fun h => hnot ⟨h.1, h.2.1, (takesAll_rules L).mpr h.2.2⟩, fw₂, ?_, hfw₂⟩
    exact happly _ hexec

/-- Where the arguments are none that `generate_rules` takes, it has no rules, and `apply`
goes through without a chain of `iptables`. -/
theorem apply_of_invalid {o : Outcomes} {k : KillSwitch F} {fw : Rules F} (hfw : fw.Valid)
    (hphase : k.phase = .prepared)
    (hargs : ¬(isValidIpAddress L k.serverIp = true ∧ isValidIfaceName k.tunIface = true)) :
    apply L o k fw = (true, appliedSwitch o k fw,
      fw.set .ip6tables (if listed o fw then shielded6 o fw.v6 else fw.v6)) := by
  have hnone : generateRules L k.serverIp k.basePort k.portCount k.tunIface = [] := by
    refine if_pos ?_
    cases hip : isValidIpAddress L k.serverIp <;>
      cases hiface : isValidIfaceName k.tunIface <;> simp_all
  rw [apply, if_neg (by simp [hphase]), hnone, appliedSwitch]
  simp only [executeAll, isIpv6Available_eq]
  cases hlisted : listed o fw with
  | false =>
    rw [listed] at hlisted
    rw [hlisted]
    rfl
  | true =>
    have h6 : fw.hasIp6tables = true := (Bool.and_eq_true_iff.mp hlisted).2
    rw [listed] at hlisted
    rw [hlisted]
    simp only [if_true]
    rw [executeEach_generateIpv6Rules L o h6 hfw.v6.nodup]

/-- **A chain of `ip6tables`** is gone exactly if each command works that has something to
undo. -/
theorem restored6_iff (o : Outcomes) {t : Table F} (h : t.Valid) (hc : killSwitchChain6 ∉ t.names)
    (d f x : Bool) :
    Table.cleanUp d f x killSwitchChain6 (shielded6 o t) = t ↔
      (o.rule6 0 = true → (o.rule6 4 = true → d = true) ∧
        ((∃ i < 3, o.rule6 (i + 1) = true) → f = true) ∧ x = true) := by
  rw [shielded6, if_neg hc]
  split_ifs with hworks
  · have hshielded : shielded o.rule6 killSwitchChain6 rules6 (t.addChain killSwitchChain6 []) =
        Table.hooked (o.rule6 4) (t.addChain killSwitchChain6
          (kept (fun i => o.rule6 (i + 1)) rules6)) killSwitchChain6 := by
      rw [shielded, Table.lookup_addChain_self hc, Option.getD_some, List.nil_append,
        Table.setChain_addChain hc]
      rfl
    rw [hshielded, Table.cleanUp_addChain_iff h hc, kept_ne_nil_iff]
    exact ⟨fun hcond _ => hcond, fun hcond => hcond hworks⟩
  · exact iff_of_true (Table.cleanUp_of_not_mem h hc d f x) fun hyes => absurd hyes hworks

/-- **A chain of `ip6tables` that may have been there**, where all commands of the undoing
work. -/
theorem spared6_iff (o : Outcomes) {t : Table F} (h : t.Valid) :
    Table.cleanUp true true true killSwitchChain6 (shielded6 o t) = t ↔
      Spared t killSwitchChain6 (o.rule6 4) := by
  by_cases hc : killSwitchChain6 ∈ t.names
  · rw [shielded6, if_pos hc, shielded, Spared]
    rw [show rules6.length + 1 = 4 from rfl, Table.cleanUp_setChain_iff h hc]
    exact (or_iff_right (not_not.mpr hc)).symm
  · refine iff_of_true ((restored6_iff o h hc true true true).mpr ?_) (Or.inl hc)
    exact fun _ => ⟨fun _ => rfl, fun _ => rfl, rfl⟩

/-! #### `enable` -/

/-- The object that `enable` prepares. -/
def stored (o : Outcomes) (serverIp : String) (basePort : UInt16) (portCount : ℤ)
    (tunIface : String) (k : KillSwitch F) (fw : Rules F) : KillSwitch F :=
  store serverIp basePort portCount tunIface (disable L o k fw).1

/-- The object that is prepared. -/
def prepared (k : KillSwitch F) : KillSwitch F := { k with phase := .prepared }

/-- What `disable` leaves is valid. -/
theorem valid_disable {o : Outcomes} {k : KillSwitch F} {fw : Rules F} (hfw : fw.Valid) :
    (disable L o k fw).2.Valid := by
  rw [disable]
  split
  · exact hfw.executeEach
  · exact hfw

/-- `verify`, behind `apply`. -/
theorem verify_applied (o : Outcomes) (k : KillSwitch F) (fw : Rules F) :
    verify L o (appliedSwitch o k fw) (appliedRules o k fw) =
      if o.check then
        (true, { appliedSwitch o k fw with phase := .verified }, appliedRules o k fw)
      else (false, rollback L o (appliedSwitch o k fw) (appliedRules o k fw)) := by
  have hjump : RuleTable.Rule.jump killSwitchChain ∈ (appliedRules o k fw).v4.output :=
    List.mem_cons_self
  have hphase : ¬(appliedSwitch o k fw).phase ≠ .applied := by simp [appliedSwitch]
  rw [verify, if_neg hphase, executeCommand_check hjump]
  cases o.check <;> rfl

/-- **`enable`**: the arguments are refused, or a rule, or the test; or it goes through. -/
theorem enable_cases (o : Outcomes) (serverIp : String) (basePort : UInt16) (portCount : ℤ)
    (tunIface : String) (k : KillSwitch F) {k₁ : KillSwitch F} {fw fw₁ : Rules F} (hfw : fw.Valid)
    (hk₁ : stored L o serverIp basePort portCount tunIface k fw = k₁)
    (hfw₁ : (disable L o k fw).2 = fw₁) :
    (¬Accepts L k₁ ∧ enable L o serverIp basePort portCount tunIface k fw = (false, k₁, fw₁)) ∨
      (Accepts L k₁ ∧ ¬Applies L o k₁ fw₁ ∧ ∃ fw₂,
        enable L o serverIp basePort portCount tunIface k fw =
          (false, rollback L o (prepared k₁).noteChain fw₂) ∧
        (fw₂ = fw₁ ∨ killSwitchChain ∉ fw₁.v4.names ∧
          ∃ rs, fw₂ = fw₁.set .iptables (fw₁.v4.addChain killSwitchChain rs))) ∨
      (Accepts L k₁ ∧ Applies L o k₁ fw₁ ∧ o.check = false ∧
        enable L o serverIp basePort portCount tunIface k fw =
          (false, rollback L o (appliedSwitch o (prepared k₁) fw₁) (appliedRules o k₁ fw₁))) ∨
      (Accepts L k₁ ∧ Applies L o k₁ fw₁ ∧ o.check = true ∧
        enable L o serverIp basePort portCount tunIface k fw =
          (true, { appliedSwitch o (prepared k₁) fw₁ with active := true, phase := .committed },
            appliedRules o k₁ fw₁)) := by
  have hvalid : fw₁.Valid := hfw₁ ▸ valid_disable L hfw
  rw [stored] at hk₁
  rw [enable]
  rcases hdisable : disable L o k fw with ⟨k₀, fw₀⟩
  rw [hdisable] at hk₁ hfw₁
  obtain rfl : fw₀ = fw₁ := hfw₁
  simp only [hk₁]
  by_cases haccepts : Accepts L k₁
  · right
    rw [prepare_of_accepts L haccepts]
    rcases apply_cases L (o := o) (k := prepared k₁) hvalid rfl haccepts.1 haccepts.2.1 with
      ⟨happlies, happly⟩ | ⟨hnot, fw₂, happly, hfw₂⟩
    · right
      have hverify := verify_applied L o (prepared k₁) fw₀
      rw [prepared] at happly hverify
      simp only [happly, hverify]
      cases hcheck : o.check with
      | false => exact Or.inl ⟨haccepts, happlies, rfl, rfl⟩
      | true => exact Or.inr ⟨haccepts, happlies, rfl, rfl⟩
    · left
      refine ⟨haccepts, hnot, fw₂, ?_, hfw₂⟩
      rw [prepared] at happly
      simp only [happly]
      rfl
  · left
    rw [prepare_of_not_accepts L haccepts]
    exact ⟨haccepts, rfl⟩

end Apply

end KillSwitch

/-! ### The DNS shield -/

namespace DnsLeakProtector

section Lists

variable {F X : Type}

/-- The rules of the chain. -/
def rules (tunIface : String) : List (Rule F) :=
  [acceptDns tunIface .udp, acceptDns tunIface .tcp, acceptDns "lo" .udp, acceptDns "lo" .tcp,
    dropDns .udp, dropDns .tcp]

/-- The commands put up a chain. -/
theorem generateRules_eq {tunIface : String} (hiface : isValidIfaceName tunIface = true) :
    (generateRules tunIface : List (Command F)) =
      shield .iptables dnsShieldChain (rules tunIface) := by
  rw [generateRules, if_neg (by simp [hiface])]
  rfl

theorem plain_rules (tunIface : String) : Plain (F := F) (rules tunIface) := by
  simp [Plain, rules, acceptDns, dropDns]

/-- `iptables` takes the rules. -/
theorem takesAll_rules (L : System F X) (tunIface : String) :
    TakesAll L .iptables (rules tunIface) := by
  simp [TakesAll, rules, acceptDns, dropDns, takes]

/-- `ip6tables` takes the rules that have no chain. -/
theorem takes_dropDns (L : System F X) (tool : Tool) (p : Protocol) :
    (dropDns p : Rule F).conditions.all (takes L tool) = true := by
  cases tool <;> rfl

theorem dropDns_ne : (dropDns .udp : Rule F) ≠ dropDns .tcp := by
  simp [dropDns]

end Lists

section Apply

variable {F X : Type} [DecidableEq F] (L : System F X)

/-- What `prepare` asks of the arguments. -/
def Accepts (d : DnsLeakProtector) : Prop :=
  isValidIpAddress L (if d.secureDns.isEmpty then "10.8.0.1" else d.secureDns) = true ∧
    isValidIfaceName d.tunIface = true

omit [DecidableEq F] in
theorem prepare_of_accepts {d : DnsLeakProtector} (h : Accepts L d) :
    prepare L d = (true, { d with phase := .prepared }) := by
  have hip : ¬(!isValidIpAddress L (if d.secureDns.isEmpty then "10.8.0.1" else d.secureDns)) =
      true := by
    rw [h.1]
    decide
  simp only [prepare, if_neg hip]
  exact if_neg (by simp [h.2])

omit [DecidableEq F] in
theorem prepare_of_not_accepts {d : DnsLeakProtector} (h : ¬Accepts L d) :
    prepare L d = (false, d) := by
  unfold prepare
  unfold Accepts at h
  generalize (if d.secureDns.isEmpty then "10.8.0.1" else d.secureDns) = dns at h
  dsimp only
  split_ifs with hip hiface
  · rfl
  · rfl
  · exact absurd ⟨by simpa using hip, by simpa using hiface⟩ h

/-- The chain is not there, and all commands work. -/
def Applies (o : Outcomes) (fw : Rules F) : Prop :=
  dnsShieldChain ∉ fw.v4.names ∧ ∀ i < 8, o.rule i = true

/-- The rules behind those of `iptables`. -/
def hooked4 (d : DnsLeakProtector) (fw : Rules F) : Rules F :=
  fw.set .iptables ((fw.v4.addChain dnsShieldChain (rules d.tunIface)).hook dnsShieldChain)

/-- The list that every packet is put to becomes another. -/
def setOutput (t : Table F) (rs : List (Rule F)) : Table F := { t with output := rs }

/-- The rules of `ip6tables` are appended, each or not. -/
def block6 (a a' : Bool) (fw : Rules F) : Rules F :=
  fw.set .ip6tables (setOutput fw.v6
    (appendIf a' (dropDns .tcp) (appendIf a (dropDns .udp) fw.v6.output)))

/-- They are deleted, each or not. -/
def unblock6 (e e' : Bool) (fw : Rules F) : Rules F :=
  fw.set .ip6tables (setOutput fw.v6
    (eraseIf e' (dropDns .tcp) (eraseIf e (dropDns .udp) fw.v6.output)))

/-- One rule is appended. -/
theorem getD_executeCommand_append {works : Bool} {fw : Rules F} (h6 : fw.hasIp6tables = true)
    (p : Protocol) :
    (executeCommand L works (.appendOutput .ip6tables (dropDns p)) fw).getD fw =
      fw.set .ip6tables (setOutput fw.v6 (appendIf works (dropDns p) fw.v6.output)) := by
  have hruns : Command.runs L (.appendOutput .ip6tables (dropDns p)) fw = true :=
    runs_iff.mpr ⟨Or.inr h6, takes_dropDns L .ip6tables p⟩
  rw [getD_executeCommand hruns]
  cases works <;> rfl

/-- One rule is deleted. -/
theorem getD_executeCommand_delete {works : Bool} {fw : Rules F} (h6 : fw.hasIp6tables = true)
    (p : Protocol) :
    (executeCommand L works (.delete .ip6tables (dropDns p)) fw).getD fw =
      fw.set .ip6tables (setOutput fw.v6 (eraseIf works (dropDns p) fw.v6.output)) := by
  have hruns : Command.runs L (.delete .ip6tables (dropDns p)) fw = true :=
    runs_iff.mpr ⟨Or.inr h6, takes_dropDns L .ip6tables p⟩
  rw [getD_executeCommand hruns]
  cases works with
  | false => rfl
  | true =>
    refine congrArg (fw.set .ip6tables) ?_
    by_cases hmem : dropDns p ∈ fw.v6.output
    · exact Table.attempt_of_some (if_pos hmem)
    · refine (Table.attempt_of_none true (if_neg hmem)).trans ?_
      rw [eraseIf, if_pos rfl, List.erase_of_not_mem hmem]
      rfl

/-- The rules of `ip6tables`, each of which may fail. -/
theorem executeEach_generateIpv6Rules (works : ℕ → Bool) {fw : Rules F}
    (h6 : fw.hasIp6tables = true) :
    executeEach L works generateIpv6Rules fw = block6 (works 0) (works 1) fw := by
  rw [generateIpv6Rules, executeEach, getD_executeCommand_append L h6, executeEach,
    getD_executeCommand_append L (by rw [hasIp6tables_set, h6])]
  rfl

/-- Their deletion. -/
theorem executeEach_unblock (works : ℕ → Bool) (fw : Rules F) :
    executeEach L works [.delete .ip6tables (dropDns .udp), .delete .ip6tables (dropDns .tcp)] fw =
      unblock6 (works 0 && fw.hasIp6tables) (works 1 && fw.hasIp6tables) fw := by
  cases h6 : fw.hasIp6tables with
  | false =>
    rw [executeEach_of_not_ready]
    · rw [Bool.and_false, Bool.and_false]
      exact (set_table fw .ip6tables).symm
    · intro c hc
      simp only [List.mem_cons, List.not_mem_nil, or_false] at hc
      rcases hc with rfl | rfl <;> simp [Ready, Command.tool, h6]
  | true =>
    rw [executeEach, getD_executeCommand_delete L h6, executeEach,
      getD_executeCommand_delete L (by rw [hasIp6tables_set, h6]), Bool.and_true, Bool.and_true]
    rfl

/-- `ip6tables` is there, and its test works. -/
def listed (o : Outcomes) (fw : Rules F) : Bool := o.list && fw.hasIp6tables

/-- **The rules behind `apply`.** -/
def appliedRules (o : Outcomes) (d : DnsLeakProtector) (fw : Rules F) : Rules F :=
  block6 (listed o fw && o.rule6 0) (listed o fw && o.rule6 1) (hooked4 d fw)

/-- The object behind `apply`. -/
def appliedShield (o : Outcomes) (d : DnsLeakProtector) (fw : Rules F) : DnsLeakProtector :=
  { d with ipv6DnsBlocked := listed o fw || d.ipv6DnsBlocked, phase := .applied }

/-- What `apply` does about `ip6tables`. -/
theorem block6_listed (o : Outcomes) (fw : Rules F) :
    (if isIpv6Available L o.list fw then executeEach L o.rule6 generateIpv6Rules fw else fw) =
      block6 (listed o fw && o.rule6 0) (listed o fw && o.rule6 1) fw := by
  rw [isIpv6Available_eq, ← listed]
  cases hlisted : listed o fw with
  | false => exact (set_table fw .ip6tables).symm
  | true => exact executeEach_generateIpv6Rules L o.rule6 (Bool.and_eq_true_iff.mp hlisted).2

/-- **`apply`**: it goes through, or rolls back what nobody has seen. -/
theorem apply_cases (o : Outcomes) {d : DnsLeakProtector} (fw : Rules F)
    (hphase : d.phase = .prepared) (hiface : isValidIfaceName d.tunIface = true) :
    (Applies o fw ∧ apply L o d fw = (true, appliedShield o d fw, appliedRules o d fw)) ∨
      (¬Applies o fw ∧ ∃ fw₂, apply L o d fw = (false, rollback L o d fw₂) ∧
        (fw₂ = fw ∨ dnsShieldChain ∉ fw.v4.names ∧
          ∃ rs, fw₂ = fw.set .iptables (fw.v4.addChain dnsShieldChain rs))) := by
  have hready : Ready fw .iptables := Or.inl rfl
  simp only [apply, if_neg (not_not.mpr hphase), generateRules_eq hiface]
  rcases executeAll_shield_cases (L := L) dnsShieldChain hready (plain_rules d.tunIface) o.rule with
    ⟨⟨hc, hworks, -⟩, hexec⟩ | ⟨hnot, fw₂, hexec, hfw₂⟩
  · refine Or.inl ⟨⟨hc, hworks⟩, ?_⟩
    have hhook : executeAll L o.rule (shield .iptables dnsShieldChain (rules d.tunIface)) fw =
        (true, hooked4 d fw) := hexec
    have hblock := block6_listed L o (hooked4 d fw)
    have hlisted : listed o (hooked4 d fw) = listed o fw := rfl
    rw [hlisted] at hblock
    rw [hhook, appliedRules, appliedShield, ← hblock]
    simp only [isIpv6Available_eq]
    rw [← listed, hlisted]
    cases listed o fw <;> rfl
  · refine Or.inr ⟨fun h => hnot ⟨h.1, h.2, takesAll_rules L d.tunIface⟩, fw₂, ?_, hfw₂⟩
    rw [hexec]

/-! #### `enable` -/

/-- The object that `enable` prepares. -/
def stored (o : Outcomes) (tunIface secureDns : String) (d : DnsLeakProtector) (fw : Rules F) :
    DnsLeakProtector :=
  { (disable L o d fw).1 with
    tunIface := tunIface
    secureDns := if secureDns.isEmpty then "10.8.0.1" else secureDns }

/-- The object that is prepared. -/
def prepared (d : DnsLeakProtector) : DnsLeakProtector := { d with phase := .prepared }

/-- `verify`, behind `apply`. -/
theorem verify_applied (o : Outcomes) (d : DnsLeakProtector) (fw : Rules F) :
    verify L o (appliedShield o d fw) (appliedRules o d fw) =
      if o.check then
        (true, { appliedShield o d fw with phase := .verified }, appliedRules o d fw)
      else (false, rollback L o (appliedShield o d fw) (appliedRules o d fw)) := by
  have hjump : RuleTable.Rule.jump dnsShieldChain ∈ (appliedRules o d fw).v4.output :=
    List.mem_cons_self
  have hphase : ¬(appliedShield o d fw).phase ≠ .applied := by simp [appliedShield]
  rw [verify, if_neg hphase, executeCommand_check hjump]
  cases o.check <;> rfl

/-- **`enable`**: the arguments are refused, or a rule, or the test; or it goes through. -/
theorem enable_cases (o : Outcomes) (tunIface secureDns : String) (d : DnsLeakProtector)
    (fw : Rules F) {d₁ : DnsLeakProtector} {fw₁ : Rules F}
    (hd₁ : stored L o tunIface secureDns d fw = d₁) (hfw₁ : (disable L o d fw).2 = fw₁) :
    (¬Accepts L d₁ ∧ enable L o tunIface secureDns d fw = (false, d₁, fw₁)) ∨
      (Accepts L d₁ ∧ ¬Applies o fw₁ ∧ ∃ fw₂,
        enable L o tunIface secureDns d fw = (false, rollback L o (prepared d₁) fw₂) ∧
        (fw₂ = fw₁ ∨ dnsShieldChain ∉ fw₁.v4.names ∧
          ∃ rs, fw₂ = fw₁.set .iptables (fw₁.v4.addChain dnsShieldChain rs))) ∨
      (Accepts L d₁ ∧ Applies o fw₁ ∧ o.check = false ∧
        enable L o tunIface secureDns d fw =
          (false, rollback L o (appliedShield o (prepared d₁) fw₁) (appliedRules o d₁ fw₁))) ∨
      (Accepts L d₁ ∧ Applies o fw₁ ∧ o.check = true ∧
        enable L o tunIface secureDns d fw =
          (true, { appliedShield o (prepared d₁) fw₁ with active := true, phase := .committed },
            appliedRules o d₁ fw₁)) := by
  rw [stored] at hd₁
  rw [enable]
  rcases hdisable : disable L o d fw with ⟨d₀, fw₀⟩
  rw [hdisable] at hd₁ hfw₁
  obtain rfl : fw₀ = fw₁ := hfw₁
  simp only [hd₁]
  by_cases haccepts : Accepts L d₁
  · right
    rw [prepare_of_accepts L haccepts]
    rcases apply_cases (d := prepared d₁) L o fw₀ rfl haccepts.2 with
      ⟨happlies, happly⟩ | ⟨hnot, fw₂, happly, hfw₂⟩
    · right
      have hverify := verify_applied L o (prepared d₁) fw₀
      rw [prepared] at happly hverify
      simp only [happly, hverify]
      cases hcheck : o.check with
      | false => exact Or.inl ⟨haccepts, happlies, rfl, rfl⟩
      | true => exact Or.inr ⟨haccepts, happlies, rfl, rfl⟩
    · left
      refine ⟨haccepts, hnot, fw₂, ?_, hfw₂⟩
      rw [prepared] at happly
      simp only [happly]
      rfl
  · left
    rw [prepare_of_not_accepts L haccepts]
    exact ⟨haccepts, rfl⟩

/-! #### The rules without a chain -/

omit [DecidableEq F] in
theorem setOutput_eq_iff {t : Table F} {rs : List (Rule F)} :
    setOutput t rs = t ↔ rs = t.output := by
  constructor
  · intro heq
    rw [← heq, setOutput]
  · rintro rfl
    rfl

/-- **Both rules are settled**, and each copy is where it was. -/
structure Restored6 (e a c e' a' c' : Bool) (rs : List (Rule F)) : Prop where
  /-- That for UDP. -/
  udp : Settled e a c (dropDns .udp) rs
  /-- That for TCP. -/
  tcp : Settled e' a' c' (dropDns .tcp) rs
  /-- The copies that are appended and those that are deleted are at the end of the list. -/
  inPlace : toEnd a' (dropDns .tcp) (toEnd a (dropDns .udp) rs) = rs

/-- **The rules of `ip6tables`** that are deleted, appended and deleted again, each or not, are
as they were exactly if they are settled. -/
theorem restored6_iff (e a c e' a' c' : Bool) (fw : Rules F) :
    unblock6 c c' (block6 a a' (unblock6 e e' fw)) = fw ↔
      Restored6 e a c e' a' c' fw.v6.output := by
  have heq : unblock6 c c' (block6 a a' (unblock6 e e' fw)) =
      fw.set .ip6tables (setOutput fw.v6 (settle e' a' c' (dropDns .tcp)
        (settle e a c (dropDns .udp) fw.v6.output))) := by
    rw [← settle_settle dropDns_ne]
    rfl
  rw [heq, set_eq_self_iff, show fw.table .ip6tables = fw.v6 from rfl, setOutput_eq_iff,
    settle_settle_eq_iff dropDns_ne]
  exact ⟨fun h => ⟨h.1, h.2.1, h.2.2⟩, fun h => ⟨h.udp, h.tcp, h.inPlace⟩⟩

end Apply

end DnsLeakProtector

end Firewall

end Aegs
