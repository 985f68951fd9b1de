import Aegs.Lib.Inet
import Aegs.Lib.Transition
import Aegs.Server.IpPool

/-!
# Conservation of the address pool

The pool from the text of its CIDR on. The constructor fixes a set of addresses – the
network's, without its own address, the server's and the broadcast address
(`Aegs.IpPool.mem_freeIps_ofCidr`) – and from then on each of them is free or allocated,
never both and never free twice, whatever is released: an address that is not marked in
`allocated_` is not given back (`Aegs.IpPool.conserved_of_runs`).
-/

namespace Aegs

namespace IpPool

open Inet Transition

/-! ### The constructor -/

/-- **`IpPool(network_cidr)`**, with the text of the exception it throws. -/
def ofString (networkCidr : List Char) : Except String IpPool :=
  match splitSlash networkCidr with
  | none => .error "Invalid CIDR format"
  | some (ipStr, prefixStr) =>
    match stoi prefixStr with
    | none => .error "Invalid CIDR prefix"
    | some pfx =>
      if pfx < 16 ∨ 30 < pfx then
        .error "CIDR prefix must be between /16 and /30 for VPN IP pool"
      else
        match inetPton ipStr with
        | none => .error "Invalid IP address format"
        | some ip =>
          (ofCidr ip pfx.toNat).elim
            (.error "CIDR prefix must be between /16 and /30 for VPN IP pool") .ok

/-- The server's address. -/
def serverIp (p : IpPool) : UInt32 := p.netBase + 1

/-- The broadcast address. -/
def broadcast (p : IpPool) : UInt32 := p.netBase + ~~~p.netMask

/-- An accepted string names an address and a prefix length. -/
theorem ofString_eq_ok {networkCidr : List Char} {p : IpPool}
    (h : ofString networkCidr = .ok p) : ∃ ip prefixLen, ofCidr ip prefixLen = some p := by
  rw [ofString] at h
  split at h
  · exact absurd h (by simp)
  split at h
  · exact absurd h (by simp)
  rename_i pfx _
  split at h
  · exact absurd h (by simp)
  split at h
  · exact absurd h (by simp)
  rename_i ip _
  refine ⟨ip, pfx.toNat, ?_⟩
  cases hp : ofCidr ip pfx.toNat with
  | none => exact absurd (hp ▸ h) (by simp)
  | some p' =>
    rw [hp] at h
    exact congrArg some (Except.ok.inj h)

/-- What the constructor leaves. -/
theorem ofCidr_eq_some {ip : UInt32} {prefixLen : ℕ} {p : IpPool}
    (h : ofCidr ip prefixLen = some p) :
    16 ≤ prefixLen ∧ prefixLen ≤ 30 ∧ p.netMask = netmask prefixLen ∧
      p.netBase = ip &&& netmask prefixLen ∧
      p.freeIps = (List.range' 2 (2 ^ (32 - prefixLen) - 3)).map (fun i => p.netBase + i.toUInt32) ∧
      p.allocated = ∅ ∧ p.total = p.freeIps.length := by
  rw [ofCidr] at h
  split at h
  · exact absurd h (by simp)
  · rename_i hlen
    obtain rfl := Option.some.inj h
    have hmask : netmask prefixLen = 0xFFFFFFFF <<< (32 - prefixLen).toUInt32 := by
      rw [netmask, if_neg (by omega)]
    refine ⟨by omega, by omega, hmask.symm, ?_, rfl, rfl, rfl⟩
    rw [hmask]

/-- **The constructor's set**: the network without its own address, the server's and the
broadcast address. -/
theorem mem_freeIps_ofCidr {ip : UInt32} {prefixLen : ℕ} {p : IpPool}
    (h : ofCidr ip prefixLen = some p) (ip' : UInt32) :
    ip' ∈ p.freeIps ↔
      p.contains ip' = true ∧ ip' ≠ p.netBase ∧ ip' ≠ p.serverIp ∧ ip' ≠ p.broadcast := by
  obtain ⟨hlo, hhi, hmask, hbase, hfree, -, -⟩ := ofCidr_eq_some h
  have hbits : prefixLen ≤ 32 := by omega
  -- the numbers of the block: `q` of them are below it, each of size `2 ^ k`
  obtain ⟨k, hk⟩ : ∃ k, k = 32 - prefixLen := ⟨_, rfl⟩
  rw [← hk] at hfree
  have hsize : 4 ≤ 2 ^ k := by
    calc 4 = 2 ^ 2 := rfl
      _ ≤ 2 ^ k := Nat.pow_le_pow_right (by omega) (by omega)
  have hdvd : 2 ^ 32 = 2 ^ (32 - k) * 2 ^ k := by
    rw [← Nat.pow_add]
    congr 1
    omega
  obtain ⟨q, hq⟩ : ∃ q, q = ip.toNat / 2 ^ k := ⟨_, rfl⟩
  have hbaseNat : p.netBase.toNat = q * 2 ^ k := by
    rw [hbase, toNat_and_netmask ip hbits, ← hk, ← hq]
  have hqlt : (q + 1) * 2 ^ k ≤ 2 ^ 32 := by
    rw [hdvd]
    apply Nat.mul_le_mul_right
    rw [hq, Nat.succ_le_iff, Nat.div_lt_iff_lt_mul (by omega), ← hdvd]
    exact ip.toNat_lt
  have hend : q * 2 ^ k + 2 ^ k ≤ 2 ^ 32 := by rwa [Nat.add_mul, Nat.one_mul] at hqlt
  have hadd : ∀ i < 2 ^ k, (p.netBase + i.toUInt32).toNat = q * 2 ^ k + i := by
    intro i hi
    rw [UInt32.toNat_add, hbaseNat, Nat.toUInt32_eq, UInt32.toNat_ofNat', Nat.mod_eq_of_lt
      (by omega : i < 2 ^ 32), Nat.mod_eq_of_lt (by omega)]
  have hserver : p.serverIp.toNat = q * 2 ^ k + 1 := hadd 1 (by omega)
  have hbroadcast : p.broadcast.toNat = q * 2 ^ k + (2 ^ k - 1) := by
    rw [broadcast, UInt32.toNat_add, UInt32.toNat_not, hmask, toNat_netmask hbits, ← hk, hbaseNat,
      UInt32.size]
    omega
  have hcontains : p.contains ip' = true ↔ ip'.toNat / 2 ^ k = q := by
    rw [contains, decide_eq_true_eq, hmask, hbase, and_netmask_eq_iff ip' ip hbits, ← hk, ← hq]
  rw [hfree, List.mem_map, hcontains]
  constructor
  · rintro ⟨i, hi, rfl⟩
    rw [List.mem_range'_1] at hi
    have hval := hadd i (by omega)
    refine ⟨?_, ?_, ?_, ?_⟩
    · rw [hval, Nat.add_comm, Nat.add_mul_div_right _ _ (by omega), Nat.div_eq_of_lt (by omega),
        Nat.zero_add]
    · intro heq
      have := congrArg UInt32.toNat heq
      omega
    · intro heq
      have := congrArg UInt32.toNat heq
      omega
    · intro heq
      have := congrArg UInt32.toNat heq
      omega
  · rintro ⟨hdiv, hne, hneServer, hneBroadcast⟩
    have hsplit := Nat.div_add_mod' ip'.toNat (2 ^ k)
    have hlt : ip'.toNat % 2 ^ k < 2 ^ k := Nat.mod_lt _ (by omega)
    rw [hdiv] at hsplit
    have hofNat : p.netBase + (ip'.toNat % 2 ^ k).toUInt32 = ip' := by
      rw [← UInt32.toNat_inj, hadd _ hlt, hsplit]
    refine ⟨ip'.toNat % 2 ^ k, ?_, hofNat⟩
    rw [List.mem_range'_1]
    -- the host part is neither zero nor one nor the last of the block
    have h0 : ip'.toNat % 2 ^ k ≠ 0 := by
      intro h0
      exact hne (UInt32.toNat_inj.mp (by omega))
    have h1 : ip'.toNat % 2 ^ k ≠ 1 := by
      intro h1
      exact hneServer (UInt32.toNat_inj.mp (by omega))
    have hlast : ip'.toNat % 2 ^ k ≠ 2 ^ k - 1 := by
      intro hlast
      exact hneBroadcast (UInt32.toNat_inj.mp (by omega))
    omega

/-! ### Runs -/

/-- The calls. -/
inductive Call
  /-- `allocate()`. -/
  | allocate
  /-- `release(ip_host_order)`. -/
  | release (ip : UInt32)

/-- One call, under the mutex. -/
def step (p : IpPool) : Call → Option IpPool
  | .allocate => some p.allocate.1
  | .release ip => some (p.release ip)

/-- **Conservation**: the addresses of `p₀` are the free ones and the allocated ones of `p`,
each once. -/
structure Conserved (p₀ p : IpPool) : Prop where
  /-- The queue holds no address twice. -/
  nodup : p.freeIps.Nodup
  /-- What is free is not allocated. -/
  disjoint : ∀ ip ∈ p.freeIps, ¬p.IsAllocated ip
  /-- Nothing is lost and nothing comes in. -/
  mem_iff : ∀ ip, ip ∈ p.freeIps ∨ p.IsAllocated ip ↔ ip ∈ p₀.freeIps
  /-- An entry of `allocated_` marks its address. -/
  marked : ∀ ip ∈ p.allocated, p.IsAllocated ip
  /-- `total_` counts both. -/
  total : p.freeIps.length + p.allocated.keys.length = p.total
  /-- The network stays. -/
  network : p.netBase = p₀.netBase ∧ p.netMask = p₀.netMask ∧ p.total = p₀.total

section

variable {p₀ p : IpPool}

/-- The constructor conserves its set. -/
theorem conserved_ofCidr {ip : UInt32} {prefixLen : ℕ} (h : ofCidr ip prefixLen = some p) :
    Conserved p p := by
  have hexcl := exclusive_ofCidr h
  obtain ⟨-, -, -, -, -, halloc, htotal⟩ := ofCidr_eq_some h
  refine ⟨hexcl.nodup, hexcl.free, fun ip' => ?_, fun ip' hmem => ?_, ?_, rfl, rfl, rfl⟩
  · simp [IsAllocated, halloc]
  · rw [halloc] at hmem
    exact absurd hmem (AList.notMem_empty ip')
  · rw [halloc, htotal]
    rfl

/-- The front of the queue moves into the map. -/
theorem Conserved.allocate (h : Conserved p₀ p) : Conserved p₀ p.allocate.1 := by
  rw [IpPool.allocate]
  split
  · exact h
  · rename_i ip freeIps hfree
    have hnodup := h.nodup
    rw [hfree, List.nodup_cons] at hnodup
    have hnot : ip ∉ p.allocated := fun hmem =>
      h.disjoint ip (by simp [hfree]) (h.marked ip hmem)
    have hiff : ∀ ip', (p.allocated.insert ip true).lookup ip' = some true ↔
        ip' = ip ∨ p.IsAllocated ip' := by
      intro ip'
      rcases eq_or_ne ip' ip with rfl | hne
      · simp
      · simp [IsAllocated, hne, AList.lookup_insert_ne]
    refine ⟨hnodup.2, fun ip' hmem hall => ?_, fun ip' => ?_, fun ip' hmem => ?_, ?_, h.network⟩
    · rcases (hiff ip').mp hall with rfl | hall
      · exact hnodup.1 hmem
      · exact h.disjoint ip' (by simp [hfree, hmem]) hall
    · rw [← h.mem_iff ip', hfree, List.mem_cons, IsAllocated, hiff ip']
      tauto
    · rw [AList.mem_insert] at hmem
      exact (hiff ip').mpr (hmem.imp_right (h.marked ip'))
    · have hlen := h.total
      rw [hfree, List.length_cons] at hlen
      have hkeys : (p.allocated.insert ip true).keys = ip :: p.allocated.keys := by
        rw [AList.keys_insert, List.erase_of_not_mem hnot]
      change freeIps.length + (p.allocated.insert ip true).keys.length = p.total
      rw [hkeys, List.length_cons]
      omega

/-- A marked address moves to the end of the queue; any other stays where it is. -/
theorem Conserved.release (h : Conserved p₀ p) (ip : UInt32) : Conserved p₀ (p.release ip) := by
  by_cases hall : p.IsAllocated ip
  · have hrel : p.release ip =
        { p with allocated := p.allocated.erase ip, freeIps := p.freeIps ++ [ip] } := by
      rw [IpPool.release, if_pos hall]
    have hiff := fun ip' => isAllocated_release (p := p) ip ip'
    have hmem : ip ∈ p.allocated := by
      rw [← AList.lookup_isSome, show p.allocated.lookup ip = some true from hall]
      rfl
    rw [hrel] at hiff ⊢
    refine ⟨?_, fun ip' hfree => ?_, fun ip' => ?_, fun ip' hmem' => ?_, ?_, h.network⟩
    · rw [List.nodup_append]
      refine ⟨h.nodup, List.nodup_singleton ip, fun a ha b hb => ?_⟩
      rintro rfl
      exact h.disjoint a ha (List.mem_singleton.mp hb ▸ hall)
    · rw [hiff ip']
      rw [List.mem_append, List.mem_singleton] at hfree
      rintro ⟨hne, hall'⟩
      exact hfree.elim (fun hfree => h.disjoint ip' hfree hall') hne
    · rw [hiff ip', ← h.mem_iff ip', List.mem_append, List.mem_singleton]
      rcases eq_or_ne ip' ip with rfl | hne
      · simp [hall]
      · simp [hne]
    · rw [AList.mem_erase] at hmem'
      exact (hiff ip').mpr ⟨hmem'.1, h.marked ip' hmem'.2⟩
    · have hlen := h.total
      have hkeys := List.length_erase_add_one (AList.mem_keys.mp hmem)
      change (p.freeIps ++ [ip]).length + (p.allocated.erase ip).keys.length = p.total
      rw [List.length_append, List.length_singleton, AList.keys_erase]
      omega
  · rwa [IpPool.release, if_neg hall]

/-- Each call conserves the set. -/
theorem conserved_step {p' : IpPool} {c : Call} (h : Conserved p₀ p) (hstep : step p c = some p') :
    Conserved p₀ p' := by
  cases c with
  | allocate =>
    obtain rfl := Option.some.inj hstep
    exact h.allocate
  | release ip =>
    obtain rfl := Option.some.inj hstep
    exact h.release ip

/-- What is handed out was free. -/
theorem mem_freeIps_of_allocate {ip : UInt32} (h : p.allocate.2 = some ip) : ip ∈ p.freeIps := by
  rw [IpPool.allocate] at h
  split at h
  · exact absurd h (by simp)
  · rename_i ip' freeIps hfree
    obtain rfl := Option.some.inj h
    simp [hfree]

end

/-- **The pool is conserved by every sequence of calls**, and neither the network's address
nor the server's nor the broadcast address is ever handed out. -/
theorem conserved_of_runs {networkCidr : List Char} {p₀ p : IpPool} {calls : List Call}
    (h : ofString networkCidr = .ok p₀) (hrun : runs step p₀ calls = some p) :
    Conserved p₀ p ∧
      ∀ ip, p.allocate.2 = some ip →
        ip ≠ p₀.netBase ∧ ip ≠ p₀.serverIp ∧ ip ≠ p₀.broadcast := by
  obtain ⟨ip₀, prefixLen, hcidr⟩ := ofString_eq_ok h
  have hcons : Conserved p₀ p :=
    inv_of_runs (I := Conserved p₀) conserved_step (conserved_ofCidr hcidr) hrun
  refine ⟨hcons, fun ip hip => ?_⟩
  have hmem := (hcons.mem_iff ip).mp (Or.inl (mem_freeIps_of_allocate hip))
  exact ((mem_freeIps_ofCidr hcidr ip).mp hmem).2

/-- A pool of five addresses, and an address released twice. -/
theorem conserved_slash29 : ∃ p₀ p : IpPool,
    ofString ['1', '0', '.', '8', '.', '0', '.', '9', '/', '2', '9'] = .ok p₀ ∧
      runs step p₀ [.allocate, .release 7, .release 0x0A08000A, .release 0x0A08000A] = some p ∧
      Conserved p₀ p ∧ ∀ ip, p.allocate.2 = some ip →
        ip ≠ p₀.netBase ∧ ip ≠ p₀.serverIp ∧ ip ≠ p₀.broadcast := by
  have hok : ∃ p₀,
      ofString ['1', '0', '.', '8', '.', '0', '.', '9', '/', '2', '9'] = .ok p₀ := ⟨_, rfl⟩
  obtain ⟨p₀, h⟩ := hok
  have hrun : runs step p₀
      [.allocate, .release 7, .release 0x0A08000A, .release 0x0A08000A] = some _ := rfl
  exact ⟨p₀, _, h, hrun, conserved_of_runs h hrun⟩

end IpPool

end Aegs
