import Mathlib.Algebra.Group.Nat.Defs
import Mathlib.Data.List.AList
import Mathlib.Data.List.Range

/-!
# The address pool

`IpPool`: a queue of free addresses and a map of the allocated ones, both under
one mutex, so that each operation is a function of the pool.

An address is never in both (`Aegs.IpPool.Exclusive`). That alone makes an
allocated address one that nobody holds, which is what the owners of addresses rely
on; that the two together stay the addresses of the constructor is not needed for
it.
-/

namespace Aegs

/-- `IpPool`, addresses in host byte order. -/
structure IpPool where
  /-- `net_base_`. -/
  netBase : UInt32
  /-- `net_mask_`. -/
  netMask : UInt32
  /-- `total_`. -/
  total : ℕ
  /-- `free_ips_`. -/
  freeIps : List UInt32
  /-- `allocated_`. -/
  allocated : AList fun _ : UInt32 => Bool

namespace IpPool

/-- The constructor on the address and the prefix length of its CIDR string. The
network address, the server's `.1` and the broadcast address are left out. -/
def ofCidr (ip : UInt32) (prefixLen : ℕ) : Option IpPool :=
  if prefixLen < 16 ∨ 30 < prefixLen then none
  else
    let netMask := 0xFFFFFFFF <<< (32 - prefixLen).toUInt32
    let netBase := ip &&& netMask
    let numIps := 2 ^ (32 - prefixLen)
    let freeIps := (List.range' 2 (numIps - 3)).map fun i => netBase + i.toUInt32
    some ⟨netBase, netMask, freeIps.length, freeIps, ∅⟩

/-- `allocate`, none when the pool is exhausted. -/
def allocate (p : IpPool) : IpPool × Option UInt32 :=
  match p.freeIps with
  | [] => (p, none)
  | ip :: freeIps =>
    ({ p with freeIps := freeIps, allocated := p.allocated.insert ip true }, some ip)

/-- The address is marked in `allocated_`. -/
def IsAllocated (p : IpPool) (ip : UInt32) : Prop := p.allocated.lookup ip = some true

instance (p : IpPool) (ip : UInt32) : Decidable (p.IsAllocated ip) :=
  inferInstanceAs (Decidable (p.allocated.lookup ip = some true))

/-- `release`. -/
def release (p : IpPool) (ip : UInt32) : IpPool :=
  if p.IsAllocated ip then
    { p with allocated := p.allocated.erase ip, freeIps := p.freeIps ++ [ip] }
  else p

/-- `contains`. -/
def contains (p : IpPool) (ip : UInt32) : Bool := ip &&& p.netMask = p.netBase

/-- **No address is both free and allocated**, nor free twice, and the zero address,
which stands for none, is neither. -/
structure Exclusive (p : IpPool) : Prop where
  /-- The queue holds no address twice. -/
  nodup : p.freeIps.Nodup
  /-- What is free is not allocated. -/
  free : ∀ ip ∈ p.freeIps, ¬p.IsAllocated ip
  /-- Zero is not free. -/
  zero : 0 ∉ p.freeIps
  /-- Zero is not allocated. -/
  zero_not : ¬p.IsAllocated 0

section

variable {p : IpPool}

/-- The network address has no bits below the prefix. -/
theorem netBase_mod (ip : UInt32) {k : ℕ} (hk : k < 32) :
    (ip &&& 0xFFFFFFFF <<< k.toUInt32).toNat % 2 ^ k = 0 := by
  apply Nat.eq_of_testBit_eq
  intro j
  have hshift : k.toUInt32.toNat % 32 = k := by
    rw [Nat.toUInt32_eq, UInt32.toNat_ofNat']
    omega
  simp only [Nat.testBit_mod_two_pow, UInt32.toNat_and, UInt32.toNat_shiftLeft, hshift,
    Nat.testBit_and, Nat.testBit_shiftLeft, Nat.zero_testBit, Bool.and_eq_false_iff]
  by_cases hj : j < k
  · right
    right
    right
    simp [hj]
  · left
    simpa using hj

/-- The addresses of the constructor are different and none is allocated. -/
theorem exclusive_ofCidr {ip : UInt32} {prefixLen : ℕ} (h : ofCidr ip prefixLen = some p) :
    p.Exclusive := by
  rw [ofCidr] at h
  split at h
  · exact absurd h (by simp)
  · rename_i hlen
    obtain rfl := Option.some.inj h
    have hnum : 2 ^ (32 - prefixLen) ≤ 2 ^ 16 := Nat.pow_le_pow_right (by omega) (by omega)
    refine ⟨List.Nodup.map_on ?_ List.nodup_range', fun ip' _ => by simp [IsAllocated], ?_,
      by simp [IsAllocated]⟩
    · intro i hi j hj hij
      rw [List.mem_range'_1] at hi hj
      have hij' : i.toUInt32 = j.toUInt32 := by simpa using hij
      have hval := congrArg UInt32.toNat hij'
      simp only [UInt32.toNat_ofNat', Nat.toUInt32_eq] at hval
      omega
    · -- the host part of an address of the queue is not zero
      rw [List.mem_map]
      rintro ⟨i, hi, hzero⟩
      rw [List.mem_range'_1] at hi
      have hmod := netBase_mod ip (k := 32 - prefixLen) (by omega)
      have hval := congrArg UInt32.toNat hzero
      rw [UInt32.toNat_add, Nat.toUInt32_eq, UInt32.toNat_ofNat', UInt32.toNat_zero] at hval
      have hdvd : 2 ^ (32 - prefixLen) ∣ 2 ^ 32 := Nat.pow_dvd_pow 2 (by omega)
      have hi32 : i % 2 ^ 32 = i := Nat.mod_eq_of_lt (by omega)
      rw [hi32] at hval
      have hsum := Nat.mod_mod_of_dvd
        ((ip &&& 0xFFFFFFFF <<< (32 - prefixLen).toUInt32).toNat + i) hdvd
      rw [hval, Nat.add_mod, hmod, Nat.zero_mod, Nat.zero_add, Nat.mod_mod,
        Nat.mod_eq_of_lt (by omega)] at hsum
      omega

/-- An address comes from the front of the queue, was not allocated and is now. -/
theorem allocate_eq_some {p' : IpPool} {ip : UInt32} (hp : p.Exclusive)
    (h : p.allocate = (p', some ip)) :
    p'.Exclusive ∧ ¬p.IsAllocated ip ∧
      ∀ ip', p'.IsAllocated ip' ↔ ip' = ip ∨ p.IsAllocated ip' := by
  rw [allocate] at h
  split at h
  · exact absurd (congrArg Prod.snd h) (by simp)
  · rename_i ip₀ freeIps hfree
    obtain ⟨rfl, hip⟩ := Prod.mk.inj h
    obtain rfl := Option.some.inj hip
    have hnodup := hp.nodup
    rw [hfree, List.nodup_cons] at hnodup
    have hiff : ∀ ip', (p.allocated.insert ip₀ true).lookup ip' = some true ↔
        ip' = ip₀ ∨ p.IsAllocated ip' := by
      intro ip'
      rcases eq_or_ne ip' ip₀ with rfl | hne
      · simp
      · simp [IsAllocated, hne, AList.lookup_insert_ne]
    have hzero : ip₀ ≠ 0 := fun h0 => hp.zero (by simp [hfree, h0])
    refine ⟨⟨hnodup.2, fun ip' hmem hall => ?_, fun hmem => hp.zero (by simp [hfree, hmem]),
      fun hall => ?_⟩, hp.free ip₀ (by simp [hfree]), hiff⟩
    · rcases (hiff ip').mp hall with rfl | hall
      · exact hnodup.1 hmem
      · exact hp.free ip' (by simp [hfree, hmem]) hall
    · rcases (hiff 0).mp hall with h0 | hall
      · exact hzero h0.symm
      · exact hp.zero_not hall

/-- The zero address is not given out. -/
theorem ne_zero_of_allocate {p' : IpPool} {ip : UInt32} (hp : p.Exclusive)
    (h : p.allocate = (p', some ip)) : ip ≠ 0 := by
  obtain ⟨hp', -, hiff⟩ := allocate_eq_some hp h
  rintro rfl
  exact hp'.zero_not ((hiff 0).mpr (Or.inl rfl))

/-- After a release the address is not allocated, and no other address changes. -/
theorem isAllocated_release (ip ip' : UInt32) :
    (p.release ip).IsAllocated ip' ↔ ip' ≠ ip ∧ p.IsAllocated ip' := by
  rw [release]
  split
  · rcases eq_or_ne ip' ip with rfl | hne
    · simp [IsAllocated]
    · simp [IsAllocated, hne, AList.lookup_erase_ne]
  · rename_i hnot
    constructor
    · intro hall
      refine ⟨?_, hall⟩
      rintro rfl
      exact hnot hall
    · exact And.right

/-- A release keeps the pool exclusive, whatever is released. -/
theorem Exclusive.release (hp : p.Exclusive) (ip : UInt32) : (p.release ip).Exclusive := by
  by_cases hall : p.IsAllocated ip
  · have hfree : (p.release ip).freeIps = p.freeIps ++ [ip] := by
      rw [IpPool.release, if_pos hall]
    have hne : ip ≠ 0 := by
      rintro rfl
      exact hp.zero_not hall
    refine ⟨?_, fun ip' hmem => ?_, ?_, ?_⟩
    · rw [hfree, List.nodup_append]
      refine ⟨hp.nodup, List.nodup_singleton ip, fun a ha b hb => ?_⟩
      rintro rfl
      exact hp.free a ha (List.mem_singleton.mp hb ▸ hall)
    · rw [isAllocated_release]
      rw [hfree, List.mem_append, List.mem_singleton] at hmem
      rintro ⟨hne, hall'⟩
      exact hmem.elim (fun hmem => hp.free ip' hmem hall') hne
    · rw [hfree, List.mem_append, List.mem_singleton, not_or]
      exact ⟨hp.zero, hne.symm⟩
    · rw [isAllocated_release]
      exact fun hall => hp.zero_not hall.2
  · rwa [IpPool.release, if_neg hall]

end

end IpPool

end Aegs
