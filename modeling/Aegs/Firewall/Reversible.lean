import Aegs.Firewall.Undo

/-!
# Switched off again

What `enable` has put up `disable` takes down, and `rollback` what `apply` has put up. The
rules of a machine that had none of the chains are then as they were exactly if every command
works that has something to undo, and the two rules of the DNS shield that have no chain are
settled (`Aegs.Firewall.reversible_iff`).

The commands that delete these two go by their text. So a rule of somebody else that reads the
same is deleted in place of one that could not be appended; and where both are there, the first
is deleted and the last stays, so that the list is in another order
(`Aegs.Firewall.not_reversible`).
-/

namespace Aegs

namespace Firewall

open RuleTable

section

variable {F X : Type} [DecidableEq F] (L : System F X)

/-- A chain that is not there is not taken down. -/
theorem run_cleanup_eq_none {t : Table F} (h : t.Valid) {chain : String} (hc : chain ∉ t.names)
    {tool : Tool} {c : Command F} (hmem : c ∈ cleanupCommands tool chain) :
    c.tool = tool ∧ c.run t = none := by
  simp only [cleanupCommands, List.mem_cons, List.not_mem_nil, or_false] at hmem
  rcases hmem with rfl | rfl | rfl
  · exact ⟨rfl, if_neg fun hjump => h.target_ne hc (List.mem_append_left _ hjump) rfl⟩
  · exact ⟨rfl, if_neg hc⟩
  · refine ⟨rfl, ?_⟩
    rw [Command.run, Table.deleteChain, Table.lookup_eq_none hc]
    rfl

namespace KillSwitch

/-- **The second call undoes what the first has done**: each of its commands works that has
something to undo. The chain of `iptables` is there if `put` says so. -/
structure Undoes (put : Prop) (o : Outcomes) (works : ℕ → Bool) (fw : Rules F) : Prop where
  /-- The chain of `iptables`. -/
  chain : put → works 0 = true ∧ works 1 = true ∧ works 2 = true
  /-- That of `ip6tables`, of which there may be a part. -/
  chain6 : listed o fw = true → o.rule6 0 = true → (o.rule6 4 = true → works 3 = true) ∧
    ((∃ i < 3, o.rule6 (i + 1) = true) → works 4 = true) ∧ works 5 = true

/-- What `disable` and `rollback` do. -/
theorem takenDown_iff {o : Outcomes} {k : KillSwitch F} {fw fw' : Rules F} (hfw : fw.Valid)
    (h6 : killSwitchChain6 ∉ fw.v6.names) {works : ℕ → Bool} {put : Prop}
    (h4 : Table.cleanUp (works 0) (works 1) (works 2) killSwitchChain fw'.v4 = fw.v4 ↔
      (put → works 0 = true ∧ works 1 = true ∧ works 2 = true))
    (hv6 : fw'.v6 = if listed o fw then shielded6 o fw.v6 else fw.v6)
    (hip6 : fw'.hasIp6tables = fw.hasIp6tables) :
    executeEach L works (appliedSwitch o k fw).appliedCleanupCommands fw' = fw ↔
      Undoes put o works fw := by
  cases hlisted : listed o fw with
  | false =>
    have hnoted : (appliedSwitch o k fw).appliedCleanupCommands =
        cleanupCommands .iptables killSwitchChain := by
      rw [appliedSwitch, hlisted]
      rfl
    rw [hlisted] at hv6
    rw [hnoted, executeEach_cleanupCommands (Or.inl rfl)]
    refine (Rules.eq_iff (by exact hip6)).trans ?_
    constructor
    · rintro ⟨hv4, -⟩
      exact ⟨h4.mp hv4, fun hyes => by cases hlisted.symm.trans hyes⟩
    · intro hundoes
      exact ⟨h4.mpr hundoes.chain, hv6⟩
  | true =>
    have hnoted : (appliedSwitch o k fw).appliedCleanupCommands =
        cleanupCommands .iptables killSwitchChain ++
          cleanupCommands .ip6tables killSwitchChain6 := by
      rw [appliedSwitch, hlisted]
      rfl
    have hready : fw'.hasIp6tables = true := hip6.trans (Bool.and_eq_true_iff.mp hlisted).2
    rw [hlisted, if_pos rfl] at hv6
    rw [hnoted, executeEach_cleanupBoth hready]
    refine (Rules.eq_iff (by exact hip6)).trans ?_
    have hrestored := restored6_iff o hfw.v6 h6 (works 3) (works 4) (works 5)
    rw [← hv6] at hrestored
    constructor
    · rintro ⟨hv4, htable⟩
      exact ⟨h4.mp hv4, fun _ => hrestored.mp htable⟩
    · intro hundoes
      exact ⟨h4.mpr hundoes.chain, hrestored.mpr (hundoes.chain6 hlisted)⟩

/-- Where the chains are not there, `disable` leaves the rules alone. -/
theorem disable_of_absent {o : Outcomes} {k : KillSwitch F} {fw : Rules F} (hfw : fw.Valid)
    (h4 : killSwitchChain ∉ fw.v4.names) (h6 : killSwitchChain6 ∉ fw.v6.names) :
    (disable L o k fw).2 = fw := by
  rw [disable]
  split
  · refine executeEach_of_run_none fun c hc => ?_
    rcases List.mem_append.mp (k.mem_of_noted hc) with hmem | hmem
    · obtain ⟨htool, hrun⟩ := run_cleanup_eq_none hfw.v4 h4 hmem
      rw [htool]
      exact hrun
    · obtain ⟨htool, hrun⟩ := run_cleanup_eq_none hfw.v6 h6 hmem
      rw [htool]
      exact hrun
  · rfl

/-- **`enable` and `disable`.** -/
theorem disable_enable_iff {o o' : Outcomes} {serverIp : String} {basePort : UInt16}
    {portCount : ℤ} {tunIface : String} {k : KillSwitch F} {fw : Rules F} (hfw : fw.Valid)
    (h4 : killSwitchChain ∉ fw.v4.names) (h6 : killSwitchChain6 ∉ fw.v6.names)
    {r : Bool × KillSwitch F × Rules F}
    (hr : enable L o serverIp basePort portCount tunIface k fw = r) (htrue : r.1 = true) :
    (disable L o' r.2.1 r.2.2).2 = fw ↔ Undoes True o o'.disable fw := by
  rcases enable_cases L o serverIp basePort portCount tunIface k hfw rfl
      (disable_of_absent L hfw h4 h6) with
    ⟨-, henable⟩ | ⟨-, -, fw₂, henable, -⟩ | ⟨-, -, -, henable⟩ | ⟨-, -, -, henable⟩
  · rw [← hr, henable] at htrue
    exact nomatch htrue
  · rw [← hr, henable] at htrue
    exact nomatch htrue
  · rw [← hr, henable] at htrue
    exact nomatch htrue
  · rw [← hr, henable, disable, if_pos rfl]
    refine takenDown_iff L hfw h6 ?_ rfl rfl
    rw [true_imp_iff]
    exact cleanUp_hook_iff hfw.v4 h4 (List.cons_ne_nil _ _) _ _ _

/-- **`apply` and `rollback`.** -/
theorem rollback_apply_iff {o o' : Outcomes} {k : KillSwitch F} {fw : Rules F} (hfw : fw.Valid)
    (h4 : killSwitchChain ∉ fw.v4.names) (h6 : killSwitchChain6 ∉ fw.v6.names)
    {r : Bool × KillSwitch F × Rules F} (hr : apply L o k fw = r) (htrue : r.1 = true) :
    (rollback L o' r.2.1 r.2.2).2 = fw ↔
      Undoes (isValidIpAddress L k.serverIp = true ∧ isValidIfaceName k.tunIface = true) o
        o'.rollback fw := by
  have hphase : k.phase = .prepared := by
    by_contra hne
    rw [← hr, apply, if_pos hne] at htrue
    cases htrue
  by_cases hargs : isValidIpAddress L k.serverIp = true ∧ isValidIfaceName k.tunIface = true
  · rcases apply_cases L hfw hphase hargs.1 hargs.2 with ⟨-, happly⟩ | ⟨-, fw₂, happly, -⟩
    · rw [← hr, happly, rollback]
      refine takenDown_iff L hfw h6 ?_ rfl rfl
      rw [imp_iff_right hargs]
      exact cleanUp_hook_iff hfw.v4 h4 (List.cons_ne_nil _ _) _ _ _
    · rw [← hr, happly] at htrue
      cases htrue
  · rw [← hr, apply_of_invalid L hfw hphase hargs, rollback]
    refine takenDown_iff L hfw h6 ?_ rfl rfl
    exact iff_of_true (Table.cleanUp_of_not_mem hfw.v4 h4 _ _ _) fun hyes => absurd hyes hargs

end KillSwitch

namespace DnsLeakProtector

/-- What `disable` and `rollback` do to the rules. -/
theorem takeDown_eq (works : ℕ → Bool) (blocked : Bool) (fw : Rules F) :
    (if blocked then
        executeEach L (fun i => works (i + 3))
          [.delete .ip6tables (dropDns .udp), .delete .ip6tables (dropDns .tcp)]
          (executeEach L works (cleanupCommands .iptables dnsShieldChain) fw)
      else executeEach L works (cleanupCommands .iptables dnsShieldChain) fw) =
      unblock6 (blocked && works 3 && fw.hasIp6tables) (blocked && works 4 && fw.hasIp6tables)
        (fw.set .iptables
          (Table.cleanUp (works 0) (works 1) (works 2) dnsShieldChain fw.v4)) := by
  rw [executeEach_cleanupCommands (Or.inl rfl)]
  cases blocked with
  | false => exact (set_table _ .ip6tables).symm
  | true =>
    rw [if_pos rfl, executeEach_unblock, hasIp6tables_set, Bool.true_and, Bool.true_and]
    rfl

theorem disable_eq (o : Outcomes) (d : DnsLeakProtector) (fw : Rules F) :
    disable L o d fw = if d.active then
      ({ d with active := false, ipv6DnsBlocked := false },
        unblock6 (d.ipv6DnsBlocked && o.disable 3 && fw.hasIp6tables)
          (d.ipv6DnsBlocked && o.disable 4 && fw.hasIp6tables)
          (fw.set .iptables (Table.cleanUp (o.disable 0) (o.disable 1) (o.disable 2)
            dnsShieldChain fw.v4)))
      else (d, fw) := by
  rw [← takeDown_eq L]
  rfl

theorem rollback_eq (o : Outcomes) (d : DnsLeakProtector) (fw : Rules F) :
    rollback L o d fw = ({ d with active := false, ipv6DnsBlocked := false, phase := .rolledBack },
      unblock6 (d.ipv6DnsBlocked && o.rollback 3 && fw.hasIp6tables)
        (d.ipv6DnsBlocked && o.rollback 4 && fw.hasIp6tables)
        (fw.set .iptables (Table.cleanUp (o.rollback 0) (o.rollback 1) (o.rollback 2)
          dnsShieldChain fw.v4))) := by
  rw [← takeDown_eq L]
  rfl

/-- **The second call undoes what the first has done.** The chain of `iptables` is there if
`put` says so, the rules of `ip6tables` may have been deleted before (`e`, `e'`), and `blocked`
says that they are to be deleted. -/
structure Undoes (put : Prop) (e e' blocked : Bool) (o : Outcomes) (works : ℕ → Bool)
    (fw : Rules F) : Prop where
  /-- The chain of `iptables`. -/
  chain : put → works 0 = true ∧ works 1 = true ∧ works 2 = true
  /-- The rules of `ip6tables`. -/
  rules6 : Restored6 e (listed o fw && o.rule6 0) (blocked && works 3 && fw.hasIp6tables)
    e' (listed o fw && o.rule6 1) (blocked && works 4 && fw.hasIp6tables) fw.v6.output

theorem v6_unblock6_congr (c c' : Bool) {fw fw' : Rules F} (h : fw.v6 = fw'.v6) :
    (unblock6 c c' fw).v6 = (unblock6 c c' fw').v6 := by
  rw [unblock6, unblock6, v6_set_ip6tables, v6_set_ip6tables, h]

/-- What is taken down of what was put up. -/
theorem takenDown_iff {put : Prop} {e e' blocked : Bool} {o : Outcomes} {works : ℕ → Bool}
    {fw fw' : Rules F}
    (h4 : Table.cleanUp (works 0) (works 1) (works 2) dnsShieldChain fw'.v4 = fw.v4 ↔
      (put → works 0 = true ∧ works 1 = true ∧ works 2 = true))
    (hv6 : fw'.v6 = (block6 (listed o fw && o.rule6 0) (listed o fw && o.rule6 1)
      (unblock6 e e' fw)).v6) (hip6 : fw'.hasIp6tables = fw.hasIp6tables) :
    unblock6 (blocked && works 3 && fw'.hasIp6tables) (blocked && works 4 && fw'.hasIp6tables)
        (fw'.set .iptables (Table.cleanUp (works 0) (works 1) (works 2) dnsShieldChain fw'.v4)) =
      fw ↔ Undoes put e e' blocked o works fw := by
  rw [hip6]
  have hrestored := restored6_iff e (listed o fw && o.rule6 0)
    (blocked && works 3 && fw.hasIp6tables) e' (listed o fw && o.rule6 1)
    (blocked && works 4 && fw.hasIp6tables) fw
  replace hrestored := (Rules.eq_iff (by rfl)).symm.trans hrestored
  -- what is done to the one table does not matter to the other
  exact (Rules.eq_iff (by exact hip6)).trans
    ⟨fun h => ⟨h4.mp h.1, hrestored.mp ⟨rfl, (v6_unblock6_congr _ _ hv6).symm.trans h.2⟩⟩,
      fun h => ⟨h4.mpr h.chain, (v6_unblock6_congr _ _ hv6).trans (hrestored.mpr h.rules6).2⟩⟩

/-- `disable` ahead of `enable`, where the chain is not there. -/
theorem disable_of_absent {o : Outcomes} {d : DnsLeakProtector} {fw : Rules F} (hfw : fw.Valid)
    (h4 : dnsShieldChain ∉ fw.v4.names) :
    (disable L o d fw).2 =
      unblock6 (d.active && d.ipv6DnsBlocked && o.disable 3 && fw.hasIp6tables)
        (d.active && d.ipv6DnsBlocked && o.disable 4 && fw.hasIp6tables) fw := by
  rw [disable_eq, Table.cleanUp_of_not_mem hfw.v4 h4]
  cases d.active with
  | false => exact (set_table fw .ip6tables).symm
  | true => rfl

/-- **`enable` and `disable`.** -/
theorem disable_enable_iff {o o' : Outcomes} {tunIface secureDns : String}
    {d : DnsLeakProtector} {fw : Rules F} (hfw : fw.Valid) (h4 : dnsShieldChain ∉ fw.v4.names)
    {r : Bool × DnsLeakProtector × Rules F}
    (hr : enable L o tunIface secureDns d fw = r) (htrue : r.1 = true) :
    (disable L o' r.2.1 r.2.2).2 = fw ↔
      Undoes True (d.active && d.ipv6DnsBlocked && o.disable 3 && fw.hasIp6tables)
        (d.active && d.ipv6DnsBlocked && o.disable 4 && fw.hasIp6tables)
        (listed o fw || !d.active && d.ipv6DnsBlocked) o o'.disable fw := by
  rcases enable_cases L o tunIface secureDns d fw rfl (disable_of_absent L hfw h4) with
    ⟨-, henable⟩ | ⟨-, -, fw₂, henable, -⟩ | ⟨-, -, -, henable⟩ | ⟨-, -, -, henable⟩
  · rw [← hr, henable] at htrue
    exact nomatch htrue
  · rw [← hr, henable] at htrue
    exact nomatch htrue
  · rw [← hr, henable] at htrue
    exact nomatch htrue
  · have hstale : (stored L o tunIface secureDns d fw).ipv6DnsBlocked =
        (!d.active && d.ipv6DnsBlocked) := by
      rw [stored, disable_eq]
      cases d.active <;> rfl
    rw [← hr, henable, disable_eq, if_pos rfl]
    simp only [appliedShield, prepared, hstale]
    refine takenDown_iff ?_ rfl rfl
    rw [true_imp_iff]
    exact cleanUp_hook_iff hfw.v4 h4 (List.cons_ne_nil _ _) _ _ _

/-- Where the interface is none that `generate_rules` takes, it has no rules. -/
theorem apply_of_invalid {o : Outcomes} {d : DnsLeakProtector} {fw : Rules F}
    (hphase : d.phase = .prepared) (hiface : isValidIfaceName d.tunIface = false) :
    apply L o d fw = (true, appliedShield o d fw,
      block6 (listed o fw && o.rule6 0) (listed o fw && o.rule6 1) fw) := by
  have hnone : (generateRules d.tunIface : List (Command F)) = [] := by
    rw [generateRules, hiface]
    rfl
  simp only [apply, if_neg (not_not.mpr hphase), hnone, executeAll]
  rw [← block6_listed L o fw, isIpv6Available_eq, ← listed, appliedShield]
  cases listed o fw <;> rfl

/-- **`apply` and `rollback`.** -/
theorem rollback_apply_iff {o o' : Outcomes} {d : DnsLeakProtector} {fw : Rules F}
    (hfw : fw.Valid) (h4 : dnsShieldChain ∉ fw.v4.names) {r : Bool × DnsLeakProtector × Rules F}
    (hr : apply L o d fw = r) (htrue : r.1 = true) :
    (rollback L o' r.2.1 r.2.2).2 = fw ↔
      Undoes (isValidIfaceName d.tunIface = true) false false
        (listed o fw || d.ipv6DnsBlocked) o o'.rollback fw := by
  have hphase : d.phase = .prepared := by
    by_contra hne
    rw [← hr, apply, if_pos hne] at htrue
    cases htrue
  have hv6 : fw = unblock6 false false fw := (set_table fw .ip6tables).symm
  by_cases hiface : isValidIfaceName d.tunIface = true
  · rcases apply_cases L o fw hphase hiface with
      ⟨-, happly⟩ | ⟨-, fw₂, happly, -⟩
    · rw [← hr, happly, rollback_eq]
      refine takenDown_iff ?_ ?_ rfl
      · rw [imp_iff_right hiface]
        exact cleanUp_hook_iff hfw.v4 h4 (List.cons_ne_nil _ _) _ _ _
      · rw [← hv6]
        rfl
    · rw [← hr, happly] at htrue
      cases htrue
  · rw [← hr, apply_of_invalid L hphase (by simpa using hiface), rollback_eq]
    refine takenDown_iff ?_ ?_ rfl
    · exact iff_of_true (Table.cleanUp_of_not_mem hfw.v4 h4 _ _ _) fun hyes => absurd hyes hiface
    · rw [← hv6]

end DnsLeakProtector

/-- **On and off again**: where none of the chains is there, the rules are as they were exactly
if the second call undoes what the first has done. -/
theorem reversible_iff (m : Machine F) (h4 : killSwitchChain ∉ m.1.v4.names)
    (h6 : killSwitchChain6 ∉ m.1.v6.names) (hdns : dnsShieldChain ∉ m.1.v4.names)
    (o o' : Outcomes) (k : KillSwitch F) (d : DnsLeakProtector) :
    (∀ serverIp basePort portCount tunIface r,
      KillSwitch.enable L o serverIp basePort portCount tunIface k m.1 = r → r.1 = true →
        ((KillSwitch.disable L o' r.2.1 r.2.2).2 = m.1 ↔
          KillSwitch.Undoes True o o'.disable m.1)) ∧
    (∀ r, KillSwitch.apply L o k m.1 = r → r.1 = true →
      ((KillSwitch.rollback L o' r.2.1 r.2.2).2 = m.1 ↔
        KillSwitch.Undoes (isValidIpAddress L k.serverIp = true ∧
          isValidIfaceName k.tunIface = true) o o'.rollback m.1)) ∧
    (∀ tunIface secureDns r, DnsLeakProtector.enable L o tunIface secureDns d m.1 = r →
      r.1 = true →
        ((DnsLeakProtector.disable L o' r.2.1 r.2.2).2 = m.1 ↔
          DnsLeakProtector.Undoes True
            (d.active && d.ipv6DnsBlocked && o.disable 3 && m.1.hasIp6tables)
            (d.active && d.ipv6DnsBlocked && o.disable 4 && m.1.hasIp6tables)
            (DnsLeakProtector.listed o m.1 || !d.active && d.ipv6DnsBlocked) o o'.disable m.1)) ∧
    ∀ r, DnsLeakProtector.apply L o d m.1 = r → r.1 = true →
      ((DnsLeakProtector.rollback L o' r.2.1 r.2.2).2 = m.1 ↔
        DnsLeakProtector.Undoes (isValidIfaceName d.tunIface = true) false false
          (DnsLeakProtector.listed o m.1 || d.ipv6DnsBlocked) o o'.rollback m.1) := by
  refine ⟨?_, ?_, ?_, ?_⟩
  · intro serverIp basePort portCount tunIface r hr htrue
    exact KillSwitch.disable_enable_iff L m.2 h4 h6 hr htrue
  · intro r hr htrue
    exact KillSwitch.rollback_apply_iff L m.2 h4 h6 hr htrue
  · intro tunIface secureDns r hr htrue
    exact DnsLeakProtector.disable_enable_iff L m.2 hdns hr htrue
  · intro r hr htrue
    exact DnsLeakProtector.rollback_apply_iff L m.2 hdns hr htrue

end

/-! ### A rule that reads the same -/

/-- A system that knows one server. -/
def smallSystem : System Unit Unit where
  inetPton4 ip := if ip = "10.8.0.1" then some 0x0A080001 else none
  inetPton6 _ := none
  other _ _ := false

/-- All commands work. -/
def allWork : Outcomes where
  rule _ := true
  list := true
  rule6 _ := true
  check := true
  disable _ := true
  rollback _ := true

/-- A table with these rules, and no chains. -/
def tableOf (rs : List (Rule Unit)) : Table Unit := ⟨rs, .accept, []⟩

theorem valid_tableOf {rs : List (Rule Unit)} (h : ∀ r ∈ rs, ∀ c, r.target ≠ .jump c) :
    (tableOf rs).Valid where
  nodup := List.nodup_nil
  closed r hr c htarget := by
    have hmem : r ∈ rs := by simpa [tableOf, Table.rules] using hr
    exact absurd htarget (h r hmem c)

/-- A machine that lets nobody ask for names over UDP, and lets out everything else. -/
def guardedMachine : Machine Unit where
  val := ⟨tableOf [], tableOf [DnsLeakProtector.dropDns .udp, ⟨[], .verdict .accept⟩], true⟩
  property := by
    refine ⟨valid_tableOf (fun _ hr => nomatch hr), valid_tableOf fun r hr c => ?_⟩
    simp only [List.mem_cons, List.not_mem_nil, or_false] at hr
    rcases hr with rfl | rfl <;> simp [DnsLeakProtector.dropDns]

/-- A machine with rules of others: a chain that a rule jumps to and rules behind it, and rules of
`ip6tables`. -/
def foreignMachine : Machine Unit where
  val := ⟨⟨[.jump "OTHERS", ⟨[.outInterface "eth1"], .verdict .drop⟩], .accept,
      [("OTHERS", [⟨[.protocol .tcp], .ret⟩, ⟨[.outInterface "eth2"], .verdict .drop⟩])]⟩,
    tableOf [⟨[.outInterface "eth1"], .verdict .drop⟩, ⟨[], .verdict .accept⟩], true⟩
  property := by
    refine ⟨⟨List.nodup_singleton _, fun r hr c htarget => ?_⟩, valid_tableOf fun r hr c => ?_⟩
    · simp only [Table.rules, List.flatMap_cons, List.flatMap_nil, List.append_nil,
        List.cons_append, List.nil_append, List.mem_cons, List.not_mem_nil, or_false] at hr
      rcases hr with rfl | rfl | rfl | rfl
      · obtain rfl : "OTHERS" = c := by simpa [RuleTable.Rule.jump] using htarget
        exact List.mem_singleton.mpr rfl
      · cases htarget
      · cases htarget
      · cases htarget
    · simp only [List.mem_cons, List.not_mem_nil, or_false] at hr
      rcases hr with rfl | rfl <;> simp

/-- **All commands work**, and a rule of somebody else is not where it was. -/
theorem not_reversible :
    ¬∀ (m : Machine Unit) (o o' : Outcomes) (d : DnsLeakProtector) (tunIface secureDns : String)
      (r : Bool × DnsLeakProtector × Rules Unit),
      dnsShieldChain ∉ m.1.v4.names →
        DnsLeakProtector.enable smallSystem o tunIface secureDns d m.1 = r → r.1 = true →
          (DnsLeakProtector.disable smallSystem o' r.2.1 r.2.2).2 = m.1 := by
  intro h
  have hrules := congrArg (fun fw : Rules Unit => fw.v6.output)
    (h guardedMachine allWork allWork .new "aegs0" "" _ (by decide) rfl (by decide +kernel))
  revert hrules
  decide +kernel

/-- The kill switch goes up and down among the rules of others. -/
theorem reversible_foreignMachine :
    (KillSwitch.enable smallSystem allWork "10.8.0.1" 50001 1 "aegs0" .new foreignMachine.1).1 =
        true ∧
      (KillSwitch.enable smallSystem allWork "10.8.0.1" 50001 1 "aegs0" .new
        foreignMachine.1).2.2 ≠ foreignMachine.1 ∧
      KillSwitch.Undoes True allWork allWork.disable foreignMachine.1 ∧
      (KillSwitch.disable smallSystem allWork
        (KillSwitch.enable smallSystem allWork "10.8.0.1" 50001 1 "aegs0" .new
          foreignMachine.1).2.1
        (KillSwitch.enable smallSystem allWork "10.8.0.1" 50001 1 "aegs0" .new
          foreignMachine.1).2.2).2 = foreignMachine.1 := by
  have henabled : (KillSwitch.enable smallSystem allWork "10.8.0.1" 50001 1 "aegs0" .new
      foreignMachine.1).1 = true := by decide +kernel
  have hundoes : KillSwitch.Undoes True allWork allWork.disable foreignMachine.1 :=
    ⟨fun _ => ⟨rfl, rfl, rfl⟩, fun _ _ => ⟨fun _ => rfl, fun _ => rfl, rfl⟩⟩
  refine ⟨henabled, fun hsame => ?_, hundoes, ((reversible_iff smallSystem foreignMachine
    (by decide) (by decide) (by decide) allWork allWork .new .new).1 "10.8.0.1" 50001 1 "aegs0" _
      rfl henabled).mpr hundoes⟩
  have houtput := congrArg (fun fw : Rules Unit => fw.v4.output.length) hsame
  revert houtput
  decide +kernel

end Firewall

end Aegs
