/-
  IonContrib.Bptun.Lookup

  `bptunRouteLookup` is longest-prefix match.

  `prefixMatches` is brought down to the bits of the two addresses, and the loop to
  the search of `Lib.Argmax`.  What is needed of the table is that its prefix lengths
  are within the addresses, which holds of every table built by `bptunRouteAdd`.
-/
import IonContrib.Bptun.RouteAdd
import IonContrib.Lib.Argmax

namespace IonContrib.Bptun

open Octets CText

variable {pton : Family → Octets → Option Octets}

/-! ## Bits of an address -/

/-- Bit `i` of an address, the most significant of its first octet being bit 0. -/
def addrBit (addr : Octets) (i : Nat) : Bool := (addr.getD (i / 8) 0).toNat.testBit (7 - i % 8)

/-- The first `n` bits of two addresses agree. -/
def AgreeTo (n : Nat) (a b : Octets) : Prop := ∀ i < n, addrBit a i = addrBit b i

theorem addrBit_octet (addr : Octets) (k : Nat) {j : Nat} (h : j < 8) :
    addrBit addr (8 * k + j) = (addr.getD k 0).toNat.testBit (7 - j) := by
  have h_div : (8 * k + j) / 8 = k := by omega
  have h_mod : (8 * k + j) % 8 = j := by omega
  rw [addrBit, h_div, h_mod]

/-- An octet is its bits. -/
theorem octet_ext {a b : UInt8} (h : ∀ j < 8, a.toNat.testBit (7 - j) = b.toNat.testBit (7 - j)) :
    a = b := by
  refine UInt8.toNat_inj.mp (Nat.eq_of_testBit_eq fun i => ?_)
  by_cases h_i : i < 8
  · have h_bit := h (7 - i) (by omega)
    rwa [show 7 - (7 - i) = i by omega] at h_bit
  · have h_pow : 2 ^ 8 ≤ 2 ^ i := Nat.pow_le_pow_right (by decide) (by omega)
    rw [Nat.testBit_lt_two_pow (Nat.lt_of_lt_of_le a.toNat_lt h_pow),
      Nat.testBit_lt_two_pow (Nat.lt_of_lt_of_le b.toNat_lt h_pow)]

/-- Whole octets that compare equal. -/
theorem take_eq_iff {a b : Octets} {k : Nat} (h_a : k ≤ a.length) (h_b : k ≤ b.length) :
    a.take k = b.take k ↔ AgreeTo (8 * k) a b := by
  constructor
  · intro h i h_i
    have h_get : a.getD (i / 8) 0 = b.getD (i / 8) 0 := by
      have h_lt : i / 8 < k := by omega
      have h_at : (a.take k)[i / 8]? = (b.take k)[i / 8]? := by rw [h]
      rw [List.getElem?_take_of_lt h_lt, List.getElem?_take_of_lt h_lt] at h_at
      rw [List.getD_eq_getElem?_getD, List.getD_eq_getElem?_getD, h_at]
    rw [addrBit, addrBit, h_get]
  · intro h
    refine List.ext_getElem (by rw [List.length_take, List.length_take]; omega) fun j h_j h_j' => ?_
    have h_k : j < k := by
      rw [List.length_take] at h_j
      omega
    have h_octet : a.getD j 0 = b.getD j 0 := by
      refine octet_ext fun i h_i => ?_
      have h_bit := h (8 * j + i) (by omega)
      rwa [addrBit_octet a j h_i, addrBit_octet b j h_i] at h_bit
    rw [List.getD_eq_getElem?_getD, List.getD_eq_getElem?_getD,
      List.getElem?_eq_getElem (by omega), List.getElem?_eq_getElem (by omega)] at h_octet
    rw [List.getElem_take, List.getElem_take]
    simpa using h_octet

theorem testBit_mask {k i : Nat} (h : i < 8) :
    (0xff <<< (8 - k)).testBit i = decide (8 - k ≤ i) := by
  rw [Nat.testBit_shiftLeft, show (0xff : Nat) = 2 ^ 8 - 1 from rfl, Nat.testBit_two_pow_sub_one]
  have h_lt : i - (8 - k) < 8 := by omega
  simp [h_lt]

/-- What the mask leaves of two octets is their first bits. -/
theorem masked_eq_zero_iff {a b : UInt8} {k : Nat} (h : k < 8) :
    ((a.toNat ^^^ b.toNat) &&& (0xff <<< (8 - k)) = 0) ↔
      ∀ j < k, a.toNat.testBit (7 - j) = b.toNat.testBit (7 - j) := by
  constructor
  · intro h_zero j h_j
    have h_bit := congrArg (fun n => n.testBit (7 - j)) h_zero
    simp only [Nat.testBit_and, Nat.testBit_xor, Nat.zero_testBit] at h_bit
    rw [testBit_mask (by omega), decide_eq_true (by omega), Bool.and_true] at h_bit
    simpa using h_bit
  · intro h_bits
    refine Nat.eq_of_testBit_eq fun i => ?_
    rw [Nat.testBit_and, Nat.testBit_xor, Nat.zero_testBit]
    by_cases h_i : i < 8
    · rw [testBit_mask h_i]
      by_cases h_k : 8 - k ≤ i
      · have h_same := h_bits (7 - i) (by omega)
        rw [show 7 - (7 - i) = i by omega] at h_same
        simp [h_same]
      · simp [h_k]
    · have h_pow : 2 ^ 8 ≤ 2 ^ i := Nat.pow_le_pow_right (by decide) (by omega)
      rw [Nat.testBit_lt_two_pow (Nat.lt_of_lt_of_le a.toNat_lt h_pow),
        Nat.testBit_lt_two_pow (Nat.lt_of_lt_of_le b.toNat_lt h_pow)]
      rfl

/-- `prefixMatches` compares bits. -/
theorem prefixMatches_iff {a b : Octets} {n : Nat} (h_a : n ≤ 8 * a.length)
    (h_b : n ≤ 8 * b.length) : prefixMatches a b n = true ↔ AgreeTo n a b := by
  have h_split : AgreeTo n a b ↔ AgreeTo (8 * (n / 8)) a b ∧ ∀ j < n % 8,
      (a.getD (n / 8) 0).toNat.testBit (7 - j) = (b.getD (n / 8) 0).toNat.testBit (7 - j) := by
    constructor
    · intro h
      refine ⟨fun i h_i => h i (by omega), fun j h_j => ?_⟩
      have h_bit := h (8 * (n / 8) + j) (by omega)
      rwa [addrBit_octet a _ (by omega), addrBit_octet b _ (by omega)] at h_bit
    · rintro ⟨h_whole, h_rest⟩ i h_i
      by_cases h_front : i < 8 * (n / 8)
      · exact h_whole i h_front
      · have h_bit := h_rest (i - 8 * (n / 8)) (by omega)
        rw [← addrBit_octet a _ (by omega), ← addrBit_octet b _ (by omega)] at h_bit
        rwa [show 8 * (n / 8) + (i - 8 * (n / 8)) = i by omega] at h_bit
  rw [h_split, ← take_eq_iff (by omega) (by omega)]
  unfold prefixMatches
  dsimp only
  by_cases h_whole : a.take (n / 8) = b.take (n / 8)
  · rw [if_neg (not_not_intro h_whole), and_iff_right h_whole]
    by_cases h_rest : n % 8 = 0
    · rw [if_pos h_rest, h_rest]
      exact iff_of_true rfl fun j h_j => absurd h_j (Nat.not_lt_zero j)
    · rw [if_neg h_rest, beq_iff_eq]
      exact masked_eq_zero_iff (by omega)
  · rw [if_pos h_whole]
    exact iff_of_false Bool.false_ne_true fun h => h_whole h.1

/-! ## Packets -/

def Family.version : Family → Nat
  | .inet => 4
  | .inet6 => 6

def Family.destOffset : Family → Nat
  | .inet => ipv4DestOffset
  | .inet6 => ipv6DestOffset

/-- The packet is of the family's IP version and long enough for its destination address. -/
def HasDest (packet : Octets) (family : Family) (dest : Octets) : Prop :=
  (packet.getD 0 0).toNat / 16 = family.version ∧
    family.destOffset + family.addrLen ≤ packet.length ∧
    dest = (packet.drop family.destOffset).take family.addrLen

/-- The high nibble, as the code shifts it down. -/
theorem version_iff (b : UInt8) (v : UInt8) : b >>> 4 = v ↔ b.toNat / 16 = v.toNat := by
  rw [← UInt8.toNat_inj, UInt8.toNat_shiftRight, Nat.shiftRight_eq_div_pow]
  rfl

/-- Either version in `packetDest`, once it is known which it is. -/
theorem longEnough_eq_some_iff {packet rest : Octets} (family : Family) {family' : Family} :
    (if packet.length < family.destOffset + family.addrLen then none
      else some (family, packet.drop family.destOffset)) = some (family', rest) ↔
      family = family' ∧ family'.destOffset + family'.addrLen ≤ packet.length ∧
        rest = packet.drop family'.destOffset := by
  by_cases h_len : packet.length < family.destOffset + family.addrLen
  · rw [if_pos h_len]
    refine iff_of_false (by simp) ?_
    rintro ⟨rfl, h_le, -⟩
    exact absurd h_le (Nat.not_le.mpr h_len)
  · rw [if_neg h_len]
    constructor
    · intro h
      obtain ⟨rfl, rfl⟩ := Prod.mk.inj (Option.some.inj h)
      exact ⟨rfl, Nat.not_lt.mp h_len, rfl⟩
    · rintro ⟨rfl, -, rfl⟩
      rfl

/-- What `packetDest` finds. -/
theorem packetDest_eq_some_iff {packet : Octets} {family : Family} {rest : Octets} :
    packetDest packet = some (family, rest) ↔
      (packet.getD 0 0).toNat / 16 = family.version ∧
        family.destOffset + family.addrLen ≤ packet.length ∧
          rest = packet.drop family.destOffset := by
  cases packet with
  | nil =>
    refine iff_of_false (by simp [packetDest]) fun h => ?_
    have h_len := h.2.1
    cases family with
    | inet => exact absurd h_len (by decide)
    | inet6 => exact absurd h_len (by decide)
  | cons b packet =>
    have h_four := version_iff b 4
    have h_six := version_iff b 6
    rw [show (4 : UInt8).toNat = 4 from rfl] at h_four
    rw [show (6 : UInt8).toNat = 6 from rfl] at h_six
    unfold packetDest
    dsimp only
    rw [List.getD_cons_zero]
    by_cases h_inet : b >>> 4 = 4
    · rw [if_pos h_inet, h_four.mp h_inet]
      refine (longEnough_eq_some_iff .inet).trans (and_congr_left' ?_)
      cases family with
      | inet => exact iff_of_true rfl rfl
      | inet6 => exact iff_of_false (by decide) (by decide)
    rw [if_neg h_inet]
    by_cases h_inet6 : b >>> 4 = 6
    · rw [if_pos h_inet6, h_six.mp h_inet6]
      refine (longEnough_eq_some_iff .inet6).trans (and_congr_left' ?_)
      cases family with
      | inet => exact iff_of_false (by decide) (by decide)
      | inet6 => exact iff_of_true rfl rfl
    rw [if_neg h_inet6]
    refine iff_of_false (by simp) fun h => ?_
    cases family with
    | inet => exact h_inet (h_four.mpr h.1)
    | inet6 => exact h_inet6 (h_six.mpr h.1)

/-! ## Tables -/

/-- A table that some calls of `bptunRouteAdd` have built. -/
inductive Built (pton : Family → Octets → Option Octets) : BptunRouteTable → Prop
  | empty : Built pton .empty
  | add {table : BptunRouteTable} (h : Built pton table) (spec : Octets) (mem : Family → Bool) :
      Built pton (bptunRouteAdd pton table spec mem).1

/-- A prefix length within the address, which is padded to sixteen octets. -/
structure RouteOk (route : BptunRoute) : Prop where
  prefixLen : route.prefixLen ≤ route.family.width
  addr : route.addr.length = 16

theorem addAll_routes {table : BptunRouteTable} {mem : Family → Bool} {routes : List BptunRoute} :
    ∀ route ∈ (addAll table mem routes).1.routes, route ∈ table.routes ∨ route ∈ routes := by
  induction routes generalizing table with
  | nil => exact fun route h => Or.inl h
  | cons first routes ih =>
    intro route h
    rcases addAll_cons table mem first routes with
      ⟨-, -, h_add⟩ | ⟨-, table', h_routes, -, h_add⟩
    · rw [h_add] at h
      exact Or.inl h
    · rw [h_add] at h
      rcases ih route h with h_old | h_new
      · rw [h_routes, List.mem_append, List.mem_singleton] at h_old
        rcases h_old with h_old | rfl
        · exact Or.inl h_old
        · exact Or.inr List.mem_cons_self
      · exact Or.inr (List.mem_cons_of_mem _ h_new)

theorem routeOk_mkRoute {family : Family} {addr eid : Octets} {prefixLen : Nat}
    (h_addr : family.addrLen ≤ addr.length) (h_prefixLen : prefixLen ≤ family.width) :
    RouteOk (mkRoute family addr prefixLen eid) := by
  refine ⟨h_prefixLen, ?_⟩
  have h_le : family.addrLen ≤ 16 := by
    cases family with
    | inet => decide
    | inet6 => decide
  rw [mkRoute, List.length_append, List.length_take, List.length_replicate]
  omega

theorem routeOk_of_asks (h_pton : InetPton pton) {spec : Octets} {routes : List BptunRoute}
    (h : Asks pton ReadsAs spec routes) : ∀ route ∈ routes, RouteOk route := by
  have h_len : ∀ {addrText addr : Octets} {family : Family},
      readAddr pton addrText = some (family, addr) → family.addrLen ≤ addr.length := by
    intro addrText addr family h_addr
    unfold readAddr at h_addr
    split at h_addr
    · rename_i a h_inet
      obtain ⟨rfl, rfl⟩ := Prod.mk.inj (Option.some.inj h_addr)
      exact (h_pton.addr_length h_inet).ge
    · obtain ⟨a, h_inet6, h_eq⟩ := Option.map_eq_some_iff.mp h_addr
      obtain ⟨rfl, rfl⟩ := Prod.mk.inj h_eq
      exact (h_pton.addr_length h_inet6).ge
  intro route h_mem
  cases h with
  | default h_eid =>
    rcases List.mem_pair.mp h_mem with rfl | rfl
    · exact routeOk_mkRoute (by decide) (Nat.zero_le _)
    · exact routeOk_mkRoute (by decide) (Nat.zero_le _)
  | host h_addr h_eid =>
    obtain rfl := List.mem_singleton.mp h_mem
    exact routeOk_mkRoute (h_len h_addr) (Nat.le_refl _)
  | net h_addr h_reads h_eid =>
    obtain rfl := List.mem_singleton.mp h_mem
    obtain ⟨n, -, h_low, h_high, rfl⟩ := h_reads
    exact routeOk_mkRoute (h_len h_addr) (by omega)

/-- Every route of a table that was built is one the lookup can use. -/
theorem Built.routeOk (h_pton : InetPton pton) {table : BptunRouteTable} (h : Built pton table) :
    ∀ route ∈ table.routes, RouteOk route := by
  induction h with
  | empty => simp [BptunRouteTable.empty]
  | @add table h spec mem ih =>
    intro route h_mem
    rw [bptunRouteAdd_eq] at h_mem
    cases h_read : readSpec pton spec with
    | error err =>
      rw [h_read] at h_mem
      exact ih route h_mem
    | ok routes =>
      rw [h_read] at h_mem
      rcases addAll_routes route h_mem with h_old | h_new
      · exact ih route h_old
      · exact routeOk_of_asks h_pton ((readSpec_eq_ok_iff h_pton).mp h_read) route h_new

/-! ## Longest-prefix match -/

/-- The route is of the packet's address family and its prefix agrees with the packet's
    destination address. -/
def Covers (packet : Octets) (route : BptunRoute) : Prop :=
  ∃ dest, HasDest packet route.family dest ∧ AgreeTo route.prefixLen route.addr dest

/-- The test of a round of the loop. -/
def qualifies (family : Family) (dest : Octets) (route : BptunRoute) : Bool :=
  decide (route.family = family) && prefixMatches route.addr dest route.prefixLen

theorem betterRoute_eq (family : Family) (dest : Octets) :
    betterRoute family dest = better (qualifies family dest) (·.prefixLen) := by
  funext best route
  unfold betterRoute better qualifies
  by_cases h_family : route.family = family
  · cases h_matches : prefixMatches route.addr dest route.prefixLen with
    | false => simp [h_family]
    | true =>
      rw [if_neg (by simp [h_family]), if_pos (by simp [h_family])]
      cases best with
      | none => rfl
      | some b => rfl
  · rw [if_pos (Or.inl h_family), if_neg (by simp [h_family])]

/-- The octets behind the address do not matter. -/
theorem agreeTo_take {n k : Nat} (h : n ≤ 8 * k) (a b : Octets) :
    AgreeTo n a (b.take k) ↔ AgreeTo n a b := by
  have h_bit : ∀ i < n, addrBit (b.take k) i = addrBit b i := by
    intro i h_i
    have h_lt : i / 8 < k := by omega
    rw [addrBit, addrBit, List.getD_eq_getElem?_getD, List.getD_eq_getElem?_getD,
      List.getElem?_take_of_lt h_lt]
  constructor
  · intro h_agree i h_i
    rw [h_agree i h_i, h_bit i h_i]
  · intro h_agree i h_i
    rw [h_agree i h_i, h_bit i h_i]

theorem qualifies_iff {packet rest : Octets} {family : Family} {route : BptunRoute}
    (h_dest : packetDest packet = some (family, rest)) (h_ok : RouteOk route) :
    qualifies family rest route = true ↔ Covers packet route := by
  obtain ⟨h_version, h_len, rfl⟩ := packetDest_eq_some_iff.mp h_dest
  have h_width : ∀ f : Family, f.width = 8 * f.addrLen := by
    intro f
    cases f with
    | inet => rfl
    | inet6 => rfl
  have h_prefix := h_ok.prefixLen
  have h_addrLen : route.family.addrLen ≤ 16 := by
    cases route.family with
    | inet => decide
    | inet6 => decide
  rw [h_width] at h_prefix
  unfold qualifies
  rw [Bool.and_eq_true, decide_eq_true_iff]
  constructor
  · rintro ⟨rfl, h_matches⟩
    have h_rest : route.prefixLen ≤ 8 * (packet.drop route.family.destOffset).length := by
      rw [List.length_drop]
      omega
    refine ⟨_, ⟨h_version, h_len, rfl⟩, (agreeTo_take h_prefix _ _).mpr ?_⟩
    exact (prefixMatches_iff (by rw [h_ok.addr]; omega) h_rest).mp h_matches
  · rintro ⟨dest, ⟨h_version', h_len', rfl⟩, h_agree⟩
    have h_family : route.family = family := by
      rw [h_version] at h_version'
      revert h_version'
      cases family <;> cases route.family <;> decide
    subst h_family
    have h_rest : route.prefixLen ≤ 8 * (packet.drop route.family.destOffset).length := by
      rw [List.length_drop]
      omega
    refine ⟨rfl, (prefixMatches_iff (by rw [h_ok.addr]; omega) h_rest).mpr ?_⟩
    exact (agreeTo_take h_prefix _ _).mp h_agree

/-- The route that longest-prefix match picks: no route in front of it that covers the packet is
    as long, and none behind it longer. -/
def Picked (routes : List BptunRoute) (packet : Octets) (route : BptunRoute) : Prop :=
  ∃ pre post, routes = pre ++ route :: post ∧ Covers packet route ∧
    (∀ r ∈ pre, Covers packet r → r.prefixLen < route.prefixLen) ∧
    ∀ r ∈ post, Covers packet r → r.prefixLen ≤ route.prefixLen

theorem lookup_of_dest {packet rest : Octets} {family : Family} {routes : List BptunRoute}
    (h_dest : packetDest packet = some (family, rest)) (h_ok : ∀ r ∈ routes, RouteOk r)
    (route : BptunRoute) :
    routes.foldl (betterRoute family rest) none = some route ↔ Picked routes packet route := by
  rw [betterRoute_eq, foldl_better, argmax_filter_eq_some_iff]
  refine exists_congr fun pre => exists_congr fun post => and_congr_right fun h_routes => ?_
  subst h_routes
  have h_route := h_ok route (List.mem_append_right _ List.mem_cons_self)
  refine and_congr (qualifies_iff h_dest h_route) (and_congr ?_ ?_)
  · refine forall₂_congr fun r h_r => ?_
    rw [qualifies_iff h_dest (h_ok r (List.mem_append_left _ h_r))]
  · refine forall₂_congr fun r h_r => ?_
    rw [qualifies_iff h_dest (h_ok r (List.mem_append_right _ (List.mem_cons_of_mem _ h_r)))]

/-- A packet with no destination address is covered by nothing. -/
theorem packetDest_of_covers {packet : Octets} {route : BptunRoute} (h : Covers packet route) :
    ∃ rest, packetDest packet = some (route.family, rest) := by
  obtain ⟨dest, ⟨h_version, h_len, -⟩, -⟩ := h
  exact ⟨_, packetDest_eq_some_iff.mpr ⟨h_version, h_len, rfl⟩⟩

theorem Picked.covers {routes : List BptunRoute} {packet : Octets} {route : BptunRoute}
    (h : Picked routes packet route) : Covers packet route := by
  obtain ⟨pre, post, -, h_covers, -⟩ := h
  exact h_covers

/-- **Lookup is longest-prefix match** over every table that `bptunRouteAdd` builds, the first
    route that was added on a tie, and nothing where no route covers the packet. -/
theorem bptunRouteLookup_longest (h_pton : InetPton pton) {table : BptunRouteTable}
    (h_built : Built pton table) (packet : Octets) :
    (∀ eid, bptunRouteLookup table packet = some eid ↔
      ∃ route, Picked table.routes packet route ∧ route.eid = eid) ∧
    (bptunRouteLookup table packet = none ↔ ∀ route ∈ table.routes, ¬ Covers packet route) := by
  have h_ok := h_built.routeOk h_pton
  unfold bptunRouteLookup
  cases h_dest : packetDest packet with
  | none =>
    have h_none : ∀ route, ¬ Covers packet route := by
      intro route h_covers
      obtain ⟨rest, h_some⟩ := packetDest_of_covers h_covers
      rw [h_dest] at h_some
      cases h_some
    refine ⟨fun eid => iff_of_false (by simp) ?_, iff_of_true rfl fun route _ => h_none route⟩
    rintro ⟨route, h_picked, -⟩
    exact h_none route h_picked.covers
  | some found =>
    obtain ⟨family, rest⟩ := found
    dsimp only
    constructor
    · intro eid
      rw [Option.map_eq_some_iff]
      exact exists_congr fun route => and_congr_left' (lookup_of_dest h_dest h_ok route)
    · rw [Option.map_eq_none_iff, betterRoute_eq, foldl_better, List.argmax_eq_none,
        List.filter_eq_nil_iff]
      refine forall₂_congr fun route h_route => ?_
      rw [qualifies_iff h_dest (h_ok route h_route)]

/-- A default route, and one for 1.0.0.0/8. -/
def twoRoutes : BptunRouteTable :=
  (bptunRouteAdd oneAddr (bptunRouteAdd oneAddr .empty (defaultText ++ [0x3d, 0x62])
    fun _ => true).1 plainSpec fun _ => true).1

/-- An IPv4 header for 1.9.9.9. -/
def nearPacket : Octets := 0x45 :: List.replicate 15 0 ++ [1, 9, 9, 9]

theorem bptunRouteLookup_longest_near :
    bptunRouteLookup twoRoutes nearPacket = some [0x61] ∧
      ∃ route, Picked twoRoutes.routes nearPacket route ∧ route.eid = [0x61] := by
  have h_built : Built oneAddr twoRoutes := .add (.add .empty _ _) _ _
  have h_found : bptunRouteLookup twoRoutes nearPacket = some [0x61] := by decide +kernel
  exact ⟨h_found,
    ((bptunRouteLookup_longest inetPton_oneAddr h_built nearPacket).1 [0x61]).mp h_found⟩

end IonContrib.Bptun
