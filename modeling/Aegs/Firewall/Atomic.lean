import Aegs.Firewall.Reversible

/-!
# When `enable` fails

`enable` switches off what is active, tries, and rolls back. The undo list of a rollback is
that of a whole chain, whatever was put up: a chain of the same name that was there before, of
another process or of an enable whose object is gone, is taken down with it. And what was
switched off first is not switched on again.

So a failed `enable` leaves everything as it was exactly if nothing was active, and nothing was
there that the rollback takes down (`Aegs.Firewall.atomic_iff`). The commands that undo are
taken to work.
-/

namespace Aegs

namespace Firewall

open RuleTable

section

variable {F X : Type} [DecidableEq F] (L : System F X)

namespace KillSwitch

/-- **The rollback takes down nothing that was there.** -/
structure Harmless (o : Outcomes) (k : KillSwitch F) (fw : Rules F) : Prop where
  /-- The chain of `iptables` was not there, or is one that cannot be taken down. -/
  chain : Spared fw.v4 killSwitchChain false
  /-- The same for `ip6tables`, where it comes to that. -/
  chain6 : Applies L o k fw → listed o fw = true → Spared fw.v6 killSwitchChain6 (o.rule6 4)

/-- A rollback of rules that were not hooked in. -/
theorem rollback_refused_iff {o : Outcomes} (hworks : ∀ i, o.rollback i = true) {k : KillSwitch F}
    {fw fw₂ : Rules F} (hfw : fw.Valid)
    (hfw₂ : fw₂ = fw ∨ killSwitchChain ∉ fw.v4.names ∧
      ∃ rs, fw₂ = fw.set .iptables (fw.v4.addChain killSwitchChain rs)) :
    (rollback L o k.noteChain fw₂).2 = fw ↔ Spared fw.v4 killSwitchChain false := by
  have hnoted : (k.noteChain).appliedCleanupCommands =
      cleanupCommands .iptables killSwitchChain := rfl
  rw [rollback, hnoted, executeEach_cleanupCommands (Or.inl rfl)]
  simp only [hworks]
  rcases hfw₂ with rfl | ⟨hc, rs, rfl⟩
  · rw [set_eq_self_iff]
    exact cleanUp_eq_iff hfw.v4 killSwitchChain
  · refine iff_of_true ?_ (Or.inl hc)
    rw [set_set, set_eq_self_iff, table_set]
    exact (Table.cleanUp_addChain_iff hfw.v4 hc rs false true true true).mpr
      ⟨(fun h => by cases h), fun _ => rfl, rfl⟩

/-- A rollback of rules that were all put up. -/
theorem rollback_applied_iff {o : Outcomes} (hworks : ∀ i, o.rollback i = true)
    {k k' : KillSwitch F} {fw : Rules F} (hfw : fw.Valid) (hc : killSwitchChain ∉ fw.v4.names) :
    (rollback L o (appliedSwitch o k' fw) (appliedRules o k fw)).2 = fw ↔
      (listed o fw = true → Spared fw.v6 killSwitchChain6 (o.rule6 4)) := by
  have hv4 : Table.cleanUp true true true killSwitchChain (appliedRules o k fw).v4 = fw.v4 :=
    (cleanUp_hook_iff hfw.v4 hc (List.cons_ne_nil _ _) true true true).mpr ⟨rfl, rfl, rfl⟩
  rw [rollback]
  cases hlisted : listed o fw with
  | false =>
    have hnoted : (appliedSwitch o k' fw).appliedCleanupCommands =
        cleanupCommands .iptables killSwitchChain := by
      rw [appliedSwitch, hlisted]
      rfl
    have hv6 : (appliedRules o k fw).v6 = fw.v6 := by
      rw [appliedRules, hlisted]
      rfl
    simp only [hnoted, executeEach_cleanupCommands (Or.inl rfl), hworks]
    refine iff_of_true ?_ fun h => by cases h
    exact (Rules.eq_iff (by rfl)).mpr ⟨hv4, hv6⟩
  | true =>
    have hnoted : (appliedSwitch o k' fw).appliedCleanupCommands =
        cleanupCommands .iptables killSwitchChain ++
          cleanupCommands .ip6tables killSwitchChain6 := by
      rw [appliedSwitch, hlisted]
      rfl
    have hv6 : (appliedRules o k fw).v6 = shielded6 o fw.v6 := by
      rw [appliedRules, hlisted]
      rfl
    have hready : (appliedRules o k fw).hasIp6tables = true :=
      (Bool.and_eq_true_iff.mp hlisted).2
    simp only [hnoted, executeEach_cleanupBoth hready, hworks, forall_const]
    rw [← spared6_iff o hfw.v6, ← hv6]
    exact (Rules.eq_iff (by rfl)).trans (and_iff_right hv4)

/-- `disable` leaves no object active. -/
theorem active_disable (o : Outcomes) (k : KillSwitch F) (fw : Rules F) :
    (disable L o k fw).1.active = false := by
  rw [disable]
  split
  · rfl
  · rename_i hactive
    simpa using hactive

/-- **A failed `enable`** leaves the rules and the object's state as they were exactly if the
object was not active and the rollback takes down nothing that was there. -/
theorem enable_false_iff {o : Outcomes} (hworks : ∀ i, o.rollback i = true) {serverIp : String}
    {basePort : UInt16} {portCount : ℤ} {tunIface : String} {k : KillSwitch F} {fw : Rules F}
    (hfw : fw.Valid) {r : Bool × KillSwitch F × Rules F}
    (hr : enable L o serverIp basePort portCount tunIface k fw = r) (hfalse : r.1 = false) :
    (r.2.2 = fw ∧ r.2.1.active = k.active) ↔ k.active = false ∧
      (Accepts L (store serverIp basePort portCount tunIface k) →
        Harmless L o (store serverIp basePort portCount tunIface k) fw) := by
  subst hr
  have hcases := enable_cases L o serverIp basePort portCount tunIface k hfw rfl rfl
  have hactive : (enable L o serverIp basePort portCount tunIface k fw).2.1.active = false := by
    rcases hcases with ⟨-, henable⟩ | ⟨-, -, fw₂, henable, -⟩ | ⟨-, -, -, henable⟩ |
      ⟨-, -, -, henable⟩
    · rw [henable]
      exact active_disable L o k fw
    · rw [henable]
      rfl
    · rw [henable]
      rfl
    · rw [henable] at hfalse
      cases hfalse
  rw [hactive, eq_comm (a := false), and_comm]
  refine and_congr_right fun hinactive => ?_
  have hdisable : disable L o k fw = (k, fw) := by
    rw [disable, hinactive]
    rfl
  rw [stored, hdisable] at hcases
  rcases hcases with ⟨hnot, henable⟩ | ⟨haccepts, hnot, fw₂, henable, hfw₂⟩ |
    ⟨haccepts, happlies, -, henable⟩ | ⟨-, -, -, henable⟩
  · rw [henable]
    exact iff_of_true rfl fun haccepts => absurd haccepts hnot
  · rw [henable, imp_iff_right haccepts]
    refine (rollback_refused_iff L hworks hfw hfw₂).trans
      ⟨fun hspared => ⟨hspared, fun happlies => absurd happlies hnot⟩, fun h => h.chain⟩
  · rw [henable, imp_iff_right haccepts]
    refine (rollback_applied_iff L hworks hfw happlies.1).trans
      ⟨fun hspared => ⟨Or.inl happlies.1, fun _ => hspared⟩, fun h => h.chain6 happlies⟩
  · rw [henable] at hfalse
    cases hfalse

end KillSwitch

namespace DnsLeakProtector

/-- **The rollback takes down nothing that was there.** It deletes the rules of `ip6tables` if
they were appended, or if the object has it that they were. -/
structure Harmless (o : Outcomes) (d : DnsLeakProtector) (fw : Rules F) : Prop where
  /-- The chain was not there, or is one that cannot be taken down. -/
  chain : Spared fw.v4 dnsShieldChain false
  /-- No rule was appended. -/
  refused : ¬Applies o fw → Restored6 false false (d.ipv6DnsBlocked && fw.hasIp6tables)
    false false (d.ipv6DnsBlocked && fw.hasIp6tables) fw.v6.output
  /-- Rules were appended. -/
  applied : Applies o fw → Restored6
    false (listed o fw && o.rule6 0) ((listed o fw || d.ipv6DnsBlocked) && fw.hasIp6tables)
    false (listed o fw && o.rule6 1) ((listed o fw || d.ipv6DnsBlocked) && fw.hasIp6tables)
    fw.v6.output

/-- A rollback of rules that were not hooked in. -/
theorem rollback_refused_iff {o : Outcomes} (hworks : ∀ i, o.rollback i = true)
    {d : DnsLeakProtector} {fw fw₂ : Rules F} (hfw : fw.Valid)
    (hfw₂ : fw₂ = fw ∨ dnsShieldChain ∉ fw.v4.names ∧
      ∃ rs, fw₂ = fw.set .iptables (fw.v4.addChain dnsShieldChain rs)) :
    (rollback L o d fw₂).2 = fw ↔ Spared fw.v4 dnsShieldChain false ∧
      Restored6 false false (d.ipv6DnsBlocked && fw.hasIp6tables)
        false false (d.ipv6DnsBlocked && fw.hasIp6tables) fw.v6.output := by
  have hrestored := restored6_iff false false (d.ipv6DnsBlocked && fw.hasIp6tables) false false
    (d.ipv6DnsBlocked && fw.hasIp6tables) fw
  replace hrestored := (Rules.eq_iff (by rfl)).symm.trans hrestored
  have hv4 : Table.cleanUp true true true dnsShieldChain fw₂.v4 = fw.v4 ↔
      Spared fw.v4 dnsShieldChain false := by
    rcases hfw₂ with rfl | ⟨hc, rs, rfl⟩
    · exact cleanUp_eq_iff hfw.v4 dnsShieldChain
    · refine iff_of_true ?_ (Or.inl hc)
      exact (Table.cleanUp_addChain_iff hfw.v4 hc rs false true true true).mpr
        ⟨(fun h => nomatch h), fun _ => rfl, rfl⟩
  have hv6 : fw₂.v6 = fw.v6 := by
    rcases hfw₂ with rfl | ⟨-, rs, rfl⟩ <;> rfl
  have hip6 : fw₂.hasIp6tables = fw.hasIp6tables := by
    rcases hfw₂ with rfl | ⟨-, rs, rfl⟩ <;> rfl
  rw [rollback_eq]
  simp only [hworks, Bool.and_true, hip6]
  exact (Rules.eq_iff (by exact hip6)).trans
    ⟨fun h => ⟨hv4.mp h.1, hrestored.mp ⟨rfl, (v6_unblock6_congr _ _ hv6).symm.trans h.2⟩⟩,
      fun h => ⟨hv4.mpr h.1, (v6_unblock6_congr _ _ hv6).trans (hrestored.mpr h.2).2⟩⟩

/-- A rollback of rules that were all put up. -/
theorem rollback_applied_iff {o : Outcomes} (hworks : ∀ i, o.rollback i = true)
    {d d' : DnsLeakProtector} {fw : Rules F} (hfw : fw.Valid) (hc : dnsShieldChain ∉ fw.v4.names) :
    (rollback L o (appliedShield o d' fw) (appliedRules o d fw)).2 = fw ↔ Restored6
      false (listed o fw && o.rule6 0) ((listed o fw || d'.ipv6DnsBlocked) && fw.hasIp6tables)
      false (listed o fw && o.rule6 1) ((listed o fw || d'.ipv6DnsBlocked) && fw.hasIp6tables)
      fw.v6.output := by
  have hundoes : Undoes True false false (listed o fw || d'.ipv6DnsBlocked) o o.rollback fw ↔ _ :=
    ⟨fun h => h.rules6, fun h => ⟨fun _ => ⟨hworks 0, hworks 1, hworks 2⟩, h⟩⟩
  simp only [hworks, Bool.and_true] at hundoes
  rw [← hundoes, rollback_eq]
  refine takenDown_iff ?_ ?_ rfl
  · rw [true_imp_iff]
    exact cleanUp_hook_iff hfw.v4 hc (List.cons_ne_nil _ _) _ _ _
  · rw [show unblock6 false false fw = fw from set_table fw .ip6tables]
    rfl

/-- `disable` leaves no object active. -/
theorem active_disable (o : Outcomes) (d : DnsLeakProtector) (fw : Rules F) :
    (disable L o d fw).1.active = false := by
  rw [disable_eq]
  split
  · rfl
  · rename_i hactive
    simpa using hactive

/-- What `enable` stores in an object. -/
def storeDns (tunIface secureDns : String) (d : DnsLeakProtector) : DnsLeakProtector :=
  { d with
    tunIface := tunIface
    secureDns := if secureDns.isEmpty then "10.8.0.1" else secureDns }

/-- **A failed `enable`** leaves the rules and the object's state as they were exactly if the
object was not active and the rollback takes down nothing that was there. -/
theorem enable_false_iff {o : Outcomes} (hworks : ∀ i, o.rollback i = true)
    {tunIface secureDns : String} {d : DnsLeakProtector} {fw : Rules F} (hfw : fw.Valid)
    {r : Bool × DnsLeakProtector × Rules F} (hr : enable L o tunIface secureDns d fw = r)
    (hfalse : r.1 = false) :
    (r.2.2 = fw ∧ r.2.1.active = d.active) ↔ d.active = false ∧
      (Accepts L (storeDns tunIface secureDns d) → Harmless o d fw) := by
  subst hr
  have hcases := enable_cases L o tunIface secureDns d fw rfl rfl
  have hactive : (enable L o tunIface secureDns d fw).2.1.active = false := by
    rcases hcases with ⟨-, henable⟩ | ⟨-, -, fw₂, henable, -⟩ | ⟨-, -, -, henable⟩ |
      ⟨-, -, -, henable⟩
    · rw [henable]
      exact active_disable L o d fw
    · rw [henable]
      rfl
    · rw [henable]
      rfl
    · rw [henable] at hfalse
      cases hfalse
  rw [hactive, eq_comm (a := false), and_comm]
  refine and_congr_right fun hinactive => ?_
  have hdisable : disable L o d fw = (d, fw) := by
    rw [disable, hinactive]
    rfl
  rw [stored, hdisable] at hcases
  rcases hcases with ⟨hnot, henable⟩ | ⟨haccepts, hnot, fw₂, henable, hfw₂⟩ |
    ⟨haccepts, happlies, -, henable⟩ | ⟨-, -, -, henable⟩
  · rw [henable]
    exact iff_of_true rfl fun haccepts => absurd haccepts hnot
  · rw [henable]
    refine (rollback_refused_iff L hworks hfw hfw₂).trans ⟨fun h _ => ?_, fun h => ?_⟩
    · exact ⟨h.1, fun _ => h.2, fun happlies => absurd happlies hnot⟩
    · exact ⟨(h haccepts).chain, (h haccepts).refused hnot⟩
  · rw [henable]
    refine (rollback_applied_iff L hworks hfw happlies.1).trans ⟨fun h _ => ?_, fun h => ?_⟩
    · exact ⟨Or.inl happlies.1, fun hnot => absurd happlies hnot, fun _ => h⟩
    · exact (h haccepts).applied happlies
  · rw [henable] at hfalse
    cases hfalse

end DnsLeakProtector

/-- **A failed `enable` of either shield** leaves the rules and `is_active()` as they were
exactly if the shield was not active and its rollback takes down nothing that was there. -/
theorem atomic_iff (m : Machine F) {o : Outcomes} (hworks : ∀ i, o.rollback i = true)
    (k : KillSwitch F) (d : DnsLeakProtector) :
    (∀ serverIp basePort portCount tunIface r,
      KillSwitch.enable L o serverIp basePort portCount tunIface k m.1 = r → r.1 = false →
        ((r.2.2 = m.1 ∧ r.2.1.active = k.active) ↔ k.active = false ∧
          (KillSwitch.Accepts L (.store serverIp basePort portCount tunIface k) →
            KillSwitch.Harmless L o (.store serverIp basePort portCount tunIface k) m.1))) ∧
    ∀ tunIface secureDns r,
      DnsLeakProtector.enable L o tunIface secureDns d m.1 = r → r.1 = false →
        ((r.2.2 = m.1 ∧ r.2.1.active = d.active) ↔ d.active = false ∧
          (DnsLeakProtector.Accepts L (.storeDns tunIface secureDns d) →
            DnsLeakProtector.Harmless o d m.1)) := by
  constructor
  · intro serverIp basePort portCount tunIface r hr hfalse
    exact KillSwitch.enable_false_iff L hworks m.2 hr hfalse
  · intro tunIface secureDns r hr hfalse
    exact DnsLeakProtector.enable_false_iff L hworks m.2 hr hfalse

end

/-! ### A chain that was there -/

/-- A machine on which another kill switch is up, with everything dropped. -/
def shieldedMachine : Machine Unit where
  val := ⟨⟨[.jump killSwitchChain], .accept, [(killSwitchChain, [⟨[], .verdict .drop⟩])]⟩,
    tableOf [], true⟩
  property := by
    refine ⟨⟨List.nodup_singleton _, fun r hr c htarget => ?_⟩,
      valid_tableOf (fun _ hr => nomatch hr)⟩
    simp only [Table.rules, List.flatMap_cons, List.flatMap_nil, List.append_nil,
      List.singleton_append, List.mem_cons, List.not_mem_nil, or_false] at hr
    rcases hr with rfl | rfl
    · obtain rfl : killSwitchChain = c := by simpa [RuleTable.Rule.jump] using htarget
      exact List.mem_singleton.mpr rfl
    · exact nomatch htarget

/-- **An `enable` that fails** because there is a chain of its name takes that chain down. -/
theorem not_atomic :
    ¬∀ (m : Machine Unit) (o : Outcomes) (k : KillSwitch Unit) (serverIp : String)
      (basePort : UInt16) (portCount : ℤ) (tunIface : String)
      (r : Bool × KillSwitch Unit × Rules Unit),
      (∀ i, o.disable i = true) → (∀ i, o.rollback i = true) →
        KillSwitch.enable smallSystem o serverIp basePort portCount tunIface k m.1 = r →
          r.1 = false → r.2.2 = m.1 ∧ r.2.1.active = k.active := by
  intro h
  have hrules := congrArg (fun fw : Rules Unit => fw.v4.output)
    (h shieldedMachine allWork .new "10.8.0.1" 50001 1 "aegs0" _ (fun _ => rfl) (fun _ => rfl) rfl
      (by decide +kernel)).1
  revert hrules
  decide +kernel

/-- All commands work but the fourth. -/
def fourthFails : Outcomes := { allWork with rule := fun i => i != 3 }

/-- Among the rules of others an `enable` that fails leaves those and no more. -/
theorem atomic_foreignMachine :
    (KillSwitch.enable smallSystem fourthFails "10.8.0.1" 50001 1 "aegs0" .new
        foreignMachine.1).1 = false ∧
      (KillSwitch.enable smallSystem fourthFails "10.8.0.1" 50001 1 "aegs0" .new
        foreignMachine.1).2.2 = foreignMachine.1 := by
  have hfalse : (KillSwitch.enable smallSystem fourthFails "10.8.0.1" 50001 1 "aegs0" .new
      foreignMachine.1).1 = false := by decide +kernel
  have hharmless : KillSwitch.Harmless smallSystem fourthFails
      (.store "10.8.0.1" 50001 1 "aegs0" .new) foreignMachine.1 :=
    ⟨Or.inl (by decide), fun _ _ => Or.inl (by decide)⟩
  exact ⟨hfalse, (((atomic_iff smallSystem foreignMachine (o := fourthFails) (fun _ => rfl) .new
    .new).1 "10.8.0.1" 50001 1 "aegs0" _ rfl hfalse).mpr ⟨rfl, fun _ => hharmless⟩).1⟩

end Firewall

end Aegs
