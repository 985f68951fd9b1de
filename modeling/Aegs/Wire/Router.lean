import Mathlib.Data.List.Sort
import Mathlib.Data.List.TakeWhile
import Aegs.Lib.Inet
import Aegs.Lib.Transition

/-!
# The routes of the packet router

`IpRouter`: a table of routes kept sorted by metric and, at one metric, by falling prefix
length, in which a lookup takes the first entry that matches. The sort is any that sorts
(`Aegs.Router.StdSort`): routes that compare as equal may end up in any order.

An entry matches an address if the masked address *is* the entry's network, and the network
is taken from the string as it stands. A route whose string has bits below the prefix is
therefore accepted and matches nothing (`Aegs.Router.not_matches_of_hostBits`). The prefix
length is the number the rest of the string begins with: what follows it is ignored, and
where there is none the exception of `std::stoi` leaves `add_route`. Apart from these
strings a lookup gives a containing route of the lowest metric and the longest prefix
(`Aegs.Router.routed_of_runs`).
-/

namespace Aegs

namespace Router

open Inet Transition

/-- `RouteType`. -/
inductive RouteType
  /-- `AEGS`. -/
  | aegs
  /-- `BYPASS`. -/
  | bypass
  /-- `BLOCK`. -/
  | block
deriving DecidableEq

/-- `RouteEntry`, addresses in host byte order. -/
structure RouteEntry where
  /-- `network`. -/
  network : UInt32
  /-- `netmask`. -/
  netmask : UInt32
  /-- `type`. -/
  type : RouteType
  /-- `metric`. -/
  metric : ℤ
  /-- `prefix_len`. -/
  prefixLen : ℕ
deriving DecidableEq

/-- `cidr_to_net_mask`: none when `std::stoi` throws, and otherwise none when it returns
false. -/
def cidrToNetMask (cidr : List Char) : Option (Option (UInt32 × UInt32 × ℕ)) :=
  match splitSlash cidr with
  | none => some none
  | some (ipS, bitsS) =>
    (stoi bitsS).map fun bits =>
      if bits < 0 ∨ 32 < bits then none
      else (inetPton ipS).map fun net => (net, netmask bits.toNat, bits.toNat)

/-- The comparison of the sort. -/
def RouteEntry.before (a b : RouteEntry) : Bool :=
  if a.metric ≠ b.metric then a.metric < b.metric else a.prefixLen > b.prefixLen

/-- **`std::sort` with that comparison**: the same entries, none behind one it is before. -/
structure StdSort where
  /-- The sort. -/
  run : List RouteEntry → List RouteEntry
  /-- It loses and adds nothing. -/
  perm : ∀ l, (run l).Perm l
  /-- It sorts. -/
  sorted : ∀ l, (run l).Pairwise fun a b => b.before a = false

/-- A call of `add_route`. -/
structure Call where
  /-- `cidr`. -/
  cidr : List Char
  /-- `type`. -/
  type : RouteType
  /-- `metric`. -/
  metric : ℤ

section

variable (sort : StdSort)

/-- **`add_route`**: its result, none when an exception leaves it, and the table. -/
def addRoute (routes : List RouteEntry) (c : Call) : Option Bool × List RouteEntry :=
  match cidrToNetMask c.cidr with
  | none => (none, routes)
  | some none => (some false, routes)
  | some (some (network, netmask, prefixLen)) =>
    (some true, sort.run (routes ++ [⟨network, netmask, c.type, c.metric, prefixLen⟩]))

/-- One call. -/
def step (routes : List RouteEntry) (c : Call) : Option (List RouteEntry) :=
  some (addRoute sort routes c).2

end

/-- The entry matches the address. -/
def RouteEntry.matches (r : RouteEntry) (dst : UInt32) : Bool := dst &&& r.netmask = r.network

/-- **`lookup_route`.** -/
def lookupRoute (routes : List RouteEntry) (dst : UInt32) : RouteType :=
  ((routes.find? fun r => r.matches dst).map RouteEntry.type).getD .bypass

/-! ### What a route is -/

/-- The address and the prefix length of a CIDR string: a dotted quad, a slash, and the
decimal digits of a number up to 32. -/
def validCidr (cidr : List Char) : Option (UInt32 × ℕ) :=
  match splitSlash cidr with
  | none => none
  | some (ipS, bitsS) =>
    if ipS.all (fun c => c.toNat ≠ 0) ∧ bitsS ≠ [] ∧ bitsS.all Char.isDigit ∧ ofDigits bitsS ≤ 32
    then (inetPton ipS).map fun ip => (ip, ofDigits bitsS)
    else none

/-- A route, by the block it is for. -/
structure Route where
  /-- An address of the block. -/
  ip : UInt32
  /-- The prefix length. -/
  bits : ℕ
  /-- Where the packets of the block go. -/
  type : RouteType
  /-- The metric. -/
  metric : ℤ

/-- The block contains the address: it begins with the same bits. -/
def Route.Contains (r : Route) (dst : UInt32) : Prop :=
  dst.toNat / 2 ^ (32 - r.bits) = r.ip.toNat / 2 ^ (32 - r.bits)

/-- The route of a call with a CIDR string. -/
def Call.route (c : Call) : Option Route :=
  (validCidr c.cidr).map fun (ip, bits) => ⟨ip, bits, c.type, c.metric⟩

/-- **A route for an address**: it contains it, and of those that do it has the lowest
metric and, at that metric, the longest prefix. -/
structure IsBest (added : List Route) (dst : UInt32) (r : Route) : Prop where
  /-- The route was added. -/
  mem : r ∈ added
  /-- It is for the address. -/
  contains : r.Contains dst
  /-- No other is better. -/
  best : ∀ r' ∈ added, r'.Contains dst →
    r.metric < r'.metric ∨ r.metric = r'.metric ∧ r'.bits ≤ r.bits

/-- **Every lookup gives the type of a best route**, and `BYPASS` where there is none. -/
def Routed (added : List Route) (routes : List RouteEntry) : Prop :=
  ∀ dst, (∃ r, IsBest added dst r ∧ lookupRoute routes dst = r.type) ∨
    (∀ r ∈ added, ¬r.Contains dst) ∧ lookupRoute routes dst = .bypass

/-- No bits are set below the prefix. -/
def NoHostBits (ip : UInt32) (bits : ℕ) : Prop := ip.toNat % 2 ^ (32 - bits) = 0

instance (r : Route) (dst : UInt32) : Decidable (r.Contains dst) :=
  inferInstanceAs (Decidable (_ = _))

instance (ip : UInt32) (bits : ℕ) : Decidable (NoHostBits ip bits) :=
  inferInstanceAs (Decidable (_ = _))

/-- What is behind the slash begins with a number that is no prefix length, or what is
before it is no address. -/
def Rejected (cidr : List Char) : Prop :=
  match splitSlash cidr with
  | none => True
  | some (ipS, bitsS) => ∃ bits ∈ stoi bitsS, bits < 0 ∨ 32 < bits ∨ inetPton ipS = none

/-- **A plain string**: a CIDR string without host bits, or one that is rejected. -/
def Plain (cidr : List Char) : Prop :=
  match validCidr cidr with
  | some (ip, bits) => NoHostBits ip bits
  | none => Rejected cidr

/-! ### Strings -/

/-- Decimal digits are read as they are. -/
theorem stoi_of_isDigit {ds : List Char} (hne : ds ≠ []) (hall : ds.all Char.isDigit = true)
    (hle : ofDigits ds ≤ 32) : stoi ds = some (ofDigits ds : ℤ) := by
  have hdigit := List.all_eq_true.mp hall
  obtain ⟨c, cs, rfl⟩ := List.exists_cons_of_ne_nil hne
  have hc : 48 ≤ c.toNat ∧ c.toNat ≤ 57 := by
    have h := hdigit c (by simp)
    simpa [Char.isDigit, UInt32.le_iff_toNat_le] using h
  have hspace : isSpace c = false := by
    simp only [isSpace, Bool.or_eq_false_iff, Bool.and_eq_false_iff, decide_eq_false_iff_not]
    omega
  have hsign : takeSign (c :: cs) = (false, c :: cs) := by
    rw [takeSign]
    · rintro s h
      obtain ⟨rfl, -⟩ := List.cons.inj h
      exact absurd hc (by decide)
    · rintro s h
      obtain ⟨rfl, -⟩ := List.cons.inj h
      exact absurd hc (by decide)
  have htake : (c :: cs).takeWhile Char.isDigit = c :: cs :=
    List.takeWhile_eq_self_iff.mpr hdigit
  rw [stoi, List.dropWhile_cons_of_neg (by simp [hspace]), hsign]
  simp only [htake, Bool.false_eq_true, if_false]
  rw [if_neg]
  rintro (h | h | h)
  · exact absurd h (by simp)
  · omega
  · omega

/-- What a CIDR string is. -/
theorem validCidr_eq_some {cidr : List Char} {ip : UInt32} {bits : ℕ}
    (h : validCidr cidr = some (ip, bits)) : ∃ ipS bitsS, splitSlash cidr = some (ipS, bitsS) ∧
      bitsS ≠ [] ∧ bitsS.all Char.isDigit = true ∧ ofDigits bitsS = bits ∧ bits ≤ 32 ∧
        inetPton ipS = some ip := by
  rw [validCidr] at h
  split at h
  · exact absurd h (by simp)
  · rename_i ipS bitsS hsplit
    split at h
    · rename_i hok
      obtain ⟨ip', hip, heq⟩ := Option.map_eq_some_iff.mp h
      obtain ⟨rfl, rfl⟩ := Prod.mk.inj heq
      exact ⟨ipS, bitsS, hsplit, hok.2.1, hok.2.2.1, rfl, hok.2.2.2, hip⟩
    · exact absurd h (by simp)

/-- A CIDR string gives an entry. -/
theorem cidrToNetMask_of_valid {cidr : List Char} {ip : UInt32} {bits : ℕ}
    (h : validCidr cidr = some (ip, bits)) :
    bits ≤ 32 ∧ cidrToNetMask cidr = some (some (ip, netmask bits, bits)) := by
  obtain ⟨ipS, bitsS, hsplit, hne, hall, rfl, hle, hip⟩ := validCidr_eq_some h
  refine ⟨hle, ?_⟩
  rw [cidrToNetMask, hsplit]
  simp only [stoi_of_isDigit hne hall hle, hip, Option.map_some]
  rw [if_neg (by omega), Int.toNat_natCast]

/-- The strings for which `cidr_to_net_mask` returns false. -/
theorem cidrToNetMask_eq_false_iff (cidr : List Char) :
    cidrToNetMask cidr = some none ↔ Rejected cidr := by
  rw [cidrToNetMask, Rejected]
  split
  · simp
  · rename_i ipS bitsS hsplit
    rw [Option.map_eq_some_iff]
    refine exists_congr fun bits => and_congr_right fun _ => ?_
    split
    · rename_i hrange
      exact iff_of_true rfl (hrange.imp_right Or.inl)
    · rename_i hrange
      rw [Option.map_eq_none_iff]
      exact ⟨fun h => Or.inr (Or.inr h), fun h => by tauto⟩

section

variable (sort : StdSort)

/-- A CIDR string is accepted, and its entry goes into the table. -/
theorem addRoute_of_valid (routes : List RouteEntry) {c : Call} {r : Route}
    (h : c.route = some r) : r.bits ≤ 32 ∧ addRoute sort routes c =
      (some true, sort.run (routes ++ [⟨r.ip, netmask r.bits, r.type, r.metric, r.bits⟩])) := by
  obtain ⟨⟨ip, bits⟩, hvalid, rfl⟩ := Option.map_eq_some_iff.mp h
  obtain ⟨hle, hmask⟩ := cidrToNetMask_of_valid hvalid
  exact ⟨hle, by rw [addRoute, hmask]⟩

/-- **What is rejected**: the call returns false, and the table stays as it is. -/
theorem addRoute_eq_false_iff (routes : List RouteEntry) (c : Call) :
    addRoute sort routes c = (some false, routes) ↔ Rejected c.cidr := by
  rw [← cidrToNetMask_eq_false_iff, addRoute]
  split
  · rename_i h
    simp [h]
  · rename_i h
    simp [h]
  · rename_i h
    simp [h]

end

/-! ### Entries -/

/-- The entry of a route. -/
def Route.entry (r : Route) : RouteEntry := ⟨r.ip, netmask r.bits, r.type, r.metric, r.bits⟩

/-- Without host bits an entry matches the addresses of its block. -/
theorem matches_iff {r : Route} (hbits : r.bits ≤ 32) (hnone : NoHostBits r.ip r.bits)
    (dst : UInt32) : r.entry.matches dst = true ↔ r.Contains dst := by
  have hself : r.ip &&& netmask r.bits = r.ip := by
    rw [← UInt32.toNat_inj, toNat_and_netmask r.ip hbits]
    exact Nat.div_mul_cancel (Nat.dvd_of_mod_eq_zero hnone)
  have hkey := and_netmask_eq_iff dst r.ip hbits
  rw [hself] at hkey
  rw [RouteEntry.matches, decide_eq_true_eq]
  exact hkey

/-- **With host bits an entry matches nothing**: a masked address has none. -/
theorem not_matches_of_hostBits {r : Route} (hbits : r.bits ≤ 32)
    (hhost : ¬NoHostBits r.ip r.bits) (dst : UInt32) : r.entry.matches dst = false := by
  rw [RouteEntry.matches, decide_eq_false_iff_not]
  intro heq
  refine hhost ?_
  rw [NoHostBits, show r.ip = dst &&& netmask r.bits from heq.symm, toNat_and_netmask dst hbits,
    Nat.mul_mod_left]

/-! ### The table -/

/-- An entry is not before another: it has a higher metric, or the same and no longer
prefix. -/
theorem before_eq_false_iff (a b : RouteEntry) :
    b.before a = false ↔ a.metric < b.metric ∨ a.metric = b.metric ∧ b.prefixLen ≤ a.prefixLen := by
  rw [RouteEntry.before]
  by_cases heq : b.metric = a.metric
  · rw [if_neg (not_not.mpr heq), decide_eq_false_iff_not]
    omega
  · rw [if_pos heq, decide_eq_false_iff_not]
    omega

/-- The first of a sorted list with a property is not behind another with it. -/
theorem not_before_of_find? {l : List RouteEntry} {p : RouteEntry → Bool} {a : RouteEntry}
    (hsorted : l.Pairwise fun a b => b.before a = false) (hfind : l.find? p = some a) :
    ∀ b ∈ l, p b = true → b = a ∨ b.before a = false := by
  induction l with
  | nil => exact absurd hfind (by simp)
  | cons c l ih =>
    intro b hb hpb
    rw [List.pairwise_cons] at hsorted
    rw [List.find?_cons] at hfind
    cases hc : p c with
    | true =>
      rw [hc] at hfind
      obtain rfl : c = a := Option.some.inj hfind
      rcases List.mem_cons.mp hb with rfl | hb
      · exact Or.inl rfl
      · exact Or.inr (hsorted.1 b hb)
    | false =>
      rw [hc] at hfind
      rcases List.mem_cons.mp hb with rfl | hb
      · exact absurd hpb (by simp [hc])
      · exact ih hsorted.2 hfind b hb hpb

/-- **What the table holds**: the entries of the routes that were added, sorted. -/
structure Holds (added : List Route) (routes : List RouteEntry) : Prop where
  /-- One entry for each route. -/
  perm : routes.Perm (added.map Route.entry)
  /-- They are sorted. -/
  sorted : routes.Pairwise fun a b => b.before a = false
  /-- The prefix lengths are in range. -/
  bits : ∀ r ∈ added, r.bits ≤ 32

/-- A call with a CIDR string adds its route. -/
theorem Holds.addRoute (sort : StdSort) {added : List Route} {routes : List RouteEntry}
    (h : Holds added routes) {c : Call} {r : Route} (hr : c.route = some r) :
    Holds (added ++ [r]) (Router.addRoute sort routes c).2 := by
  obtain ⟨hbits, hadd⟩ := addRoute_of_valid sort routes hr
  rw [hadd]
  refine ⟨?_, sort.sorted _, fun r' hr' => ?_⟩
  · rw [List.map_append]
    exact (sort.perm _).trans (h.perm.append_right [r.entry])
  · rcases List.mem_append.mp hr' with hr' | hr'
    · exact h.bits r' hr'
    · rw [List.mem_singleton.mp hr']
      exact hbits

/-- Without host bits the first entry that matches is a best route. -/
theorem Holds.routed {added : List Route} {routes : List RouteEntry} (h : Holds added routes)
    (hnone : ∀ r ∈ added, NoHostBits r.ip r.bits) : Routed added routes := by
  intro dst
  have hmem : ∀ {e}, e ∈ routes ↔ ∃ r ∈ added, r.entry = e := by
    intro e
    rw [h.perm.mem_iff, List.mem_map]
  have hmatch : ∀ r ∈ added, (r.entry.matches dst = true ↔ r.Contains dst) :=
    fun r hr => matches_iff (h.bits r hr) (hnone r hr) dst
  cases hfind : routes.find? fun r => r.matches dst with
  | none =>
    refine Or.inr ⟨fun r hr hcontains => ?_, by rw [lookupRoute, hfind]; rfl⟩
    rw [List.find?_eq_none] at hfind
    exact hfind r.entry (hmem.mpr ⟨r, hr, rfl⟩) ((hmatch r hr).mpr hcontains)
  | some e =>
    obtain ⟨r, hr, rfl⟩ := hmem.mp (List.mem_of_find?_eq_some hfind)
    have hfirst : r.entry.matches dst = true := by
      have := List.find?_some hfind
      exact this
    refine Or.inl ⟨r, ⟨hr, (hmatch r hr).mp hfirst, fun r' hr' hcontains => ?_⟩,
      by rw [lookupRoute, hfind]; rfl⟩
    have hbefore := not_before_of_find? h.sorted hfind r'.entry (hmem.mpr ⟨r', hr', rfl⟩)
      ((hmatch r' hr').mpr hcontains)
    rcases hbefore with heq | hbefore
    · have hmetric : r'.metric = r.metric := congrArg RouteEntry.metric heq
      have hbits : r'.bits = r.bits := congrArg RouteEntry.prefixLen heq
      exact Or.inr ⟨hmetric.symm, hbits.le⟩
    · exact (before_eq_false_iff r.entry r'.entry).mp hbefore

/-! ### Runs -/

/-- A rejected string leaves the table, and so does one at which an exception is thrown. -/
theorem addRoute_snd_of_plain (sort : StdSort) (routes : List RouteEntry) {c : Call}
    (hplain : Plain c.cidr) (hnone : c.route = none) : (addRoute sort routes c).2 = routes := by
  rw [Call.route, Option.map_eq_none_iff] at hnone
  rw [Plain, hnone] at hplain
  rw [(addRoute_eq_false_iff sort routes c).mpr hplain]

/-- The table after plain calls. -/
theorem holds_of_runs (sort : StdSort) {calls : List Call} (hplain : ∀ c ∈ calls, Plain c.cidr)
    {routes : List RouteEntry} (hrun : runs (step sort) [] calls = some routes) :
    Holds (calls.filterMap Call.route) routes := by
  induction calls using List.reverseRecOn generalizing routes with
  | nil =>
    obtain rfl := Option.some.inj hrun
    exact ⟨List.Perm.nil, List.Pairwise.nil, fun r hr => absurd hr (by simp)⟩
  | append_singleton calls c ih =>
    obtain ⟨before, hbefore, hstep⟩ := runs_snoc.mp hrun
    obtain rfl : (addRoute sort before c).2 = routes := Option.some.inj hstep
    have hholds := ih (fun c' hc' => hplain c' (by simp [hc'])) hbefore
    rw [List.filterMap_append]
    cases hr : c.route with
    | none =>
      rw [addRoute_snd_of_plain sort before (hplain c (by simp)) hr, List.filterMap_cons_none hr,
        List.filterMap_nil, List.append_nil]
      exact hholds
    | some r =>
      rw [List.filterMap_cons_some hr, List.filterMap_nil]
      exact hholds.addRoute sort hr

/-- **After plain calls every lookup gives a best route**, whatever the order of the calls;
and a string that is no CIDR string is turned down without a trace exactly if it is
rejected. -/
theorem routed_of_runs (sort : StdSort) {calls : List Call} (hplain : ∀ c ∈ calls, Plain c.cidr)
    {routes : List RouteEntry} (hrun : runs (step sort) [] calls = some routes) :
    Routed (calls.filterMap Call.route) routes ∧
      ∀ c : Call, validCidr c.cidr = none →
        (addRoute sort routes c = (some false, routes) ↔ Rejected c.cidr) := by
  refine ⟨(holds_of_runs sort hplain hrun).routed fun r hr => ?_,
    fun c _ => addRoute_eq_false_iff sort routes c⟩
  obtain ⟨c, hc, hroute⟩ := List.mem_filterMap.mp hr
  obtain ⟨⟨ip, bits⟩, hvalid, rfl⟩ := Option.map_eq_some_iff.mp hroute
  have := hplain c hc
  rwa [Plain, hvalid] at this

/-! ### A sort -/

/-- Of two entries one is not behind the other. -/
theorem before_total (a b : RouteEntry) : b.before a = false ∨ a.before b = false := by
  rw [before_eq_false_iff, before_eq_false_iff]
  omega

/-- Not to be before is transitive. -/
theorem before_trans {a b c : RouteEntry} (hab : b.before a = false) (hbc : c.before b = false) :
    c.before a = false := by
  rw [before_eq_false_iff] at hab hbc ⊢
  omega

/-- The sort that inserts each entry before those it is not behind. -/
def StdSort.insertion : StdSort where
  run := List.insertionSort fun a b => b.before a = false
  perm := List.perm_insertionSort _
  sorted := by
    have : Std.Total fun a b : RouteEntry => b.before a = false := ⟨before_total⟩
    have : IsTrans RouteEntry fun a b => b.before a = false := ⟨fun _ _ _ => before_trans⟩
    exact List.pairwise_insertionSort _

/-- A blocked network in a bypassed one, and a string without a slash. -/
theorem routed_blocked : ∃ routes, runs (step .insertion) []
      [⟨['1', '0', '.', '0', '.', '0', '.', '0', '/', '8'], .bypass, 100⟩,
        ⟨['1', '0', '.', '9', '.', '0', '.', '0', '/', '1', '6'], .block, 100⟩,
        ⟨['l', 'a', 'n'], .aegs, 1⟩] = some routes ∧
    Routed (List.filterMap Call.route
      [⟨['1', '0', '.', '0', '.', '0', '.', '0', '/', '8'], .bypass, 100⟩,
        ⟨['1', '0', '.', '9', '.', '0', '.', '0', '/', '1', '6'], .block, 100⟩,
        ⟨['l', 'a', 'n'], .aegs, 1⟩]) routes ∧
      ∀ c : Call, validCidr c.cidr = none →
        (addRoute .insertion routes c = (some false, routes) ↔ Rejected c.cidr) := by
  refine ⟨_, rfl, routed_of_runs .insertion (fun c hc => ?_) rfl⟩
  simp only [List.mem_cons, List.not_mem_nil, or_false] at hc
  rcases hc with rfl | rfl | rfl
  · exact (by decide : NoHostBits 0x0A000000 8)
  · exact (by decide : NoHostBits 0x0A090000 16)
  · trivial

/-- **The address of a host with its prefix length makes a route that matches nothing.** -/
theorem not_routed : ¬∀ (sort : StdSort) (calls : List Call) (routes : List RouteEntry),
    runs (step sort) [] calls = some routes →
      Routed (calls.filterMap Call.route) routes ∧
        ∀ c : Call, validCidr c.cidr = none → addRoute sort routes c = (some false, routes) := by
  intro h
  have hrouted := (h .insertion
    [⟨['1', '0', '.', '0', '.', '0', '.', '1', '/', '8'], .aegs, 100⟩] _ rfl).1 0x0A020304
  rcases hrouted with ⟨r, hbest, htype⟩ | ⟨hnone, -⟩
  · have hmem := hbest.mem
    rw [List.mem_singleton.mp hmem] at htype
    exact absurd htype (by decide)
  · exact hnone ⟨0x0A000001, 8, .aegs, 100⟩ (List.mem_singleton.mpr rfl) (by decide)

end Router

end Aegs
