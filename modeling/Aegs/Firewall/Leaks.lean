import Aegs.Firewall.Atomic

/-!
# What the kill switch lets out

The kill switch is to let out, besides what leaves by the loopback and the tunnel, what goes to
the server and what asks for an address; nothing else (`Aegs.Firewall.KillSwitch.Sealed`).

The first rule of its chain accepts what belongs to a connection that was opened before. With
IPv4 that is all that gets out besides: the chain has all its rules, and it is asked first. With
IPv6 nothing makes sure that the chain is asked, or that it has its rules; what it does not
decide is left to the rules that were there. And where it has all of them, it does not know the
tunnel. Which commands have to work for which packet is `Aegs.Firewall.KillSwitch.Seals6`, and
both halves are `Aegs.Firewall.KillSwitch.sealed_iff`.
-/

namespace Aegs

namespace Firewall

open RuleTable

namespace KillSwitch

variable {F X : Type} (L : System F X)

/-! ### The purpose -/

/-- The packet belongs to a connection that was opened before. -/
def BelongsToOld (p : Packet X) : Prop := p.ctstate = .established ∨ p.ctstate = .related

section Applied

instance decidableBelongsToOld (p : Packet X) : Decidable (BelongsToOld p) :=
  inferInstanceAs (Decidable (_ ∨ _))

/-- The chain is asked: the rules were tried, the jump was inserted, and there is a chain, which
was there or could be made. -/
def Asked6 (o : Outcomes) (t : Table F) : Prop :=
  o.list = true ∧ o.rule6 4 = true ∧ (killSwitchChain6 ∈ t.names ∨ o.rule6 0 = true)

instance decidableAsked6 (o : Outcomes) (t : Table F) : Decidable (Asked6 o t) :=
  inferInstanceAs (Decidable (_ ∧ _ ∧ (_ ∨ _)))

end Applied

/-! ### A connection that was opened before -/

end KillSwitch

end Firewall

end Aegs
