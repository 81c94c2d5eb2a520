/-
  IonContrib.Bptun.RouteAdd

  What a route specification denotes (`Denotes`, the grammar of bptun_route.h), and
  where `bptunRouteAdd` keeps to it.

  The call is cut in two: `readSpec` reads the specification, `addAll` adds the routes
  that were read.  The first takes for a number what `strtol` takes for one, and the
  second stops half way when the second route of a default finds no memory; these are
  the two ways in which the call goes wrong (`Handled`).
-/
import IonContrib.Bptun.Route

namespace IonContrib.Bptun

open Octets CText

variable {pton : Family → Octets → Option Octets}

/-! ## The grammar -/

/-- An endpoint ID the table has room for. -/
def EidText (eid : Octets) : Prop := eid ≠ [] ∧ eid.length ≤ bptunMaxEidLen

/-- The two routes of a default. -/
def defaultRoutes (eid : Octets) : List BptunRoute :=
  [mkRoute .inet (List.replicate 16 0) 0 eid, mkRoute .inet6 (List.replicate 16 0) 0 eid]

/-- The routes that a specification asks for, when `reads` says which texts behind the slash
    are which prefix length. -/
inductive Asks (pton : Family → Octets → Option Octets) (reads : Octets → Family → Nat → Prop) :
    Octets → List BptunRoute → Prop
  | default {eid : Octets} (h_eid : EidText eid) :
      Asks pton reads (defaultText ++ 0x3d :: eid) (defaultRoutes eid)
  | host {addrText addr eid : Octets} {family : Family}
      (h_addr : readAddr pton addrText = some (family, addr)) (h_eid : EidText eid) :
      Asks pton reads (addrText ++ 0x3d :: eid) [mkRoute family addr family.width eid]
  | net {addrText addr text eid : Octets} {family : Family} {prefixLen : Nat}
      (h_addr : readAddr pton addrText = some (family, addr))
      (h_reads : reads text family prefixLen) (h_eid : EidText eid) :
      Asks pton reads ((addrText ++ 0x2f :: text) ++ 0x3d :: eid)
        [mkRoute family addr prefixLen eid]

/-- A string of decimal digits whose value is not above the width of the family's addresses. -/
def Spells (text : Octets) (family : Family) (prefixLen : Nat) : Prop :=
  text ≠ [] ∧ text.all isDigit = true ∧ decimal text ≤ family.width ∧ prefixLen = decimal text

/-- "<address>[/<prefix length>]=<EID>" and "default=<EID>". -/
def Denotes (pton : Family → Octets → Option Octets) : Octets → List BptunRoute → Prop :=
  Asks pton Spells

/-! ## The call in two parts -/

/-- The part of a specification in front of the equals sign. -/
def readPrefix (pton : Family → Octets → Option Octets) (head eid : Octets) :
    Except String (List BptunRoute) :=
  let addrText := head.takeWhile (· ≠ 0x2f)
  if addrText.length = 0 ∨ addrText.length ≥ inet6Addrstrlen then .error "bad address"
  else
    match readAddr pton addrText with
    | none => .error "bad address"
    | some (family, addr) =>
      match head.dropWhile (· ≠ 0x2f) with
      | [] => .ok [mkRoute family addr family.width eid]
      | _ :: text =>
        match readPrefixLen (text ++ 0x3d :: eid) eid family.width with
        | none => .error "bad prefix length"
        | some prefixLen => .ok [mkRoute family addr prefixLen eid]

def readSpec (pton : Family → Octets → Option Octets) (spec : Octets) :
    Except String (List BptunRoute) :=
  match spec.dropWhile (· ≠ 0x3d) with
  | [] => .error routeUsage
  | _ :: eid =>
    if eid = [] then .error routeUsage
    else if eid.length > bptunMaxEidLen then .error "EID too long"
    else
      let head := spec.takeWhile (· ≠ 0x3d)
      if head = defaultText then .ok (defaultRoutes eid) else readPrefix pton head eid

/-- One route after the other, until there is no memory. -/
def addAll (table : BptunRouteTable) (mem : Family → Bool) :
    List BptunRoute → BptunRouteTable × Option String
  | [] => (table, none)
  | route :: routes =>
    match pushRoute table route (mem route.family) with
    | none => (table, some "out of memory")
    | some table => addAll table mem routes

theorem addDefault_eq (table : BptunRouteTable) (eid : Octets) (mem : Family → Bool) :
    addDefault table eid mem = addAll table mem (defaultRoutes eid) := rfl

theorem addPrefix_eq (table : BptunRouteTable) (head eid : Octets) (mem : Family → Bool) :
    addPrefix pton table head eid mem =
      match readPrefix pton head eid with
      | .error err => (table, some err)
      | .ok routes => addAll table mem routes := by
  unfold addPrefix readPrefix
  dsimp only
  split
  · rfl
  cases h_addr : readAddr pton (head.takeWhile fun c => decide (c ≠ 0x2f)) with
  | none => rfl
  | some found =>
    obtain ⟨family, addr⟩ := found
    cases h_slash : head.dropWhile fun c => decide (c ≠ 0x2f) with
    | nil => rfl
    | cons c text =>
      dsimp only
      cases readPrefixLen (text ++ 0x3d :: eid) eid family.width with
      | none => rfl
      | some prefixLen => rfl

theorem bptunRouteAdd_eq (table : BptunRouteTable) (spec : Octets) (mem : Family → Bool) :
    bptunRouteAdd pton table spec mem =
      match readSpec pton spec with
      | .error err => (table, some err)
      | .ok routes => addAll table mem routes := by
  unfold bptunRouteAdd readSpec
  cases h_equals : spec.dropWhile fun c => decide (c ≠ 0x3d) with
  | nil => rfl
  | cons c eid =>
    dsimp only
    by_cases h_empty : eid = []
    · rw [if_pos h_empty, if_pos h_empty]
    rw [if_neg h_empty, if_neg h_empty]
    by_cases h_long : eid.length > bptunMaxEidLen
    · rw [if_pos h_long, if_pos h_long]
    rw [if_neg h_long, if_neg h_long]
    by_cases h_default : spec.takeWhile (fun c => decide (c ≠ 0x3d)) = defaultText
    · rw [if_pos h_default, if_pos h_default]
      exact addDefault_eq ..
    · rw [if_neg h_default, if_neg h_default]
      exact addPrefix_eq ..

/-! ## Reading -/

theorem ends_equals : Ends 0x3d := ⟨by decide, by decide, by decide, by decide⟩

/-- What `strtol` and the checks behind it make of the text between the slash and the equals
    sign. -/
theorem readPrefixLen_eq (text eid : Octets) (maxPrefix : Nat) :
    readPrefixLen (text ++ 0x3d :: eid) eid maxPrefix =
      match number text with
      | some (n, []) =>
        if toInt (toLong n) < 0 ∨ toInt (toLong n) > maxPrefix then none
        else some (toInt (toLong n)).toNat
      | _ => none := by
  unfold readPrefixLen strtol
  rw [number_append_stop ends_equals]
  cases h_number : number text with
  | none => simp
  | some found =>
    obtain ⟨n, rest⟩ := found
    cases rest with
    | nil =>
      have h_text : text ≠ [] := by
        rintro rfl
        simp [number, sign] at h_number
      have h_end : (0x3d :: eid : Octets) ≠ text ++ 0x3d :: eid := by
        intro h_eq
        have h_len := congrArg List.length h_eq
        rw [List.length_append] at h_len
        exact h_text (List.length_eq_zero_iff.mp (by omega))
      simp [h_end]
    | cons c rest =>
      have h_rest : (c :: rest) ++ 0x3d :: eid ≠ 0x3d :: eid := by
        intro h_eq
        have h_len := congrArg List.length h_eq
        rw [List.length_append, List.length_cons] at h_len
        omega
      simp only [Option.map_some]
      rw [if_pos (Or.inr (Or.inl h_rest))]

/-- The text is read as a prefix length of the family. -/
def ReadsAs (text : Octets) (family : Family) (prefixLen : Nat) : Prop :=
  ∃ n, number text = some (n, []) ∧ 0 ≤ toInt (toLong n) ∧ toInt (toLong n) ≤ family.width ∧
    prefixLen = (toInt (toLong n)).toNat

theorem readPrefixLen_eq_some_iff {text eid : Octets} {family : Family} {prefixLen : Nat} :
    readPrefixLen (text ++ 0x3d :: eid) eid family.width = some prefixLen ↔
      ReadsAs text family prefixLen := by
  rw [readPrefixLen_eq]
  constructor
  · intro h
    split at h
    · rename_i n h_number
      split at h
      · cases h
      · rename_i h_range
        rw [not_or] at h_range
        exact ⟨n, h_number, by omega, by omega, (Option.some.inj h).symm⟩
    · cases h
  · rintro ⟨n, h_number, h_low, h_high, rfl⟩
    rw [h_number]
    exact if_neg (by omega)

/-- A plain number in range is read as what it spells. -/
theorem Spells.readsAs {text : Octets} {family : Family} {prefixLen : Nat}
    (h : Spells text family prefixLen) : ReadsAs text family prefixLen := by
  obtain ⟨h_ne, h_digits, h_max, rfl⟩ := h
  have h_number := @number_digits text [] h_ne h_digits (by simp)
  have h_small : decimal text < 2 ^ 31 := by
    cases family with
    | inet => exact Nat.lt_of_le_of_lt h_max (by decide)
    | inet6 => exact Nat.lt_of_le_of_lt h_max (by decide)
  rw [List.append_nil] at h_number
  refine ⟨_, h_number, ?_⟩
  rw [toInt_toLong h_small]
  omega

/-- ... and a number that is read is one, if there are digits only and it does not wrap. -/
theorem ReadsAs.spells {text : Octets} {family : Family} {prefixLen : Nat}
    (h : ReadsAs text family prefixLen)
    (h_plain : text.all isDigit = true ∧ decimal text < 2 ^ 31) :
    Spells text family prefixLen := by
  obtain ⟨n, h_number, -, h_max, rfl⟩ := h
  have h_ne : text ≠ [] := by
    rintro rfl
    simp [number, sign] at h_number
  have h_digits := @number_digits text [] h_ne h_plain.1 (by simp)
  rw [List.append_nil, h_number] at h_digits
  obtain ⟨rfl, -⟩ := Prod.mk.inj (Option.some.inj h_digits)
  rw [toInt_toLong h_plain.2] at h_max ⊢
  exact ⟨h_ne, h_plain.1, by omega, by omega⟩

theorem Asks.mono {reads reads' : Octets → Family → Nat → Prop} {spec : Octets}
    {routes : List BptunRoute} (h : Asks pton reads spec routes)
    (h_reads : ∀ text family prefixLen, reads text family prefixLen → reads' text family prefixLen) :
    Asks pton reads' spec routes := by
  cases h with
  | default h_eid => exact .default h_eid
  | host h_addr h_eid => exact .host h_addr h_eid
  | net h_addr h_read h_eid => exact .net h_addr (h_reads _ _ _ h_read) h_eid

/-- What an address is written with. -/
theorem addrText_chars (h_pton : InetPton pton) {addrText addr : Octets} {family : Family}
    (h : readAddr pton addrText = some (family, addr)) :
    (∀ c ∈ addrText, isAddrChar c = true) ∧ addrText ≠ [] ∧ addrText.length < inet6Addrstrlen := by
  unfold readAddr at h
  split at h
  · rename_i a h_inet
    exact ⟨List.all_eq_true.mp (h_pton.text_chars h_inet), h_pton.text_length h_inet⟩
  · obtain ⟨a, h_inet6, -⟩ := Option.map_eq_some_iff.mp h
    exact ⟨List.all_eq_true.mp (h_pton.text_chars h_inet6), h_pton.text_length h_inet6⟩

theorem addrText_notMem (h_pton : InetPton pton) {addrText addr : Octets} {family : Family}
    (h : readAddr pton addrText = some (family, addr)) {c : UInt8} (h_c : isAddrChar c = false) :
    c ∉ addrText := by
  intro h_mem
  rw [(addrText_chars h_pton h).1 c h_mem] at h_c
  cases h_c

/-- Reading an address and what may be behind it. -/
theorem readPrefix_of_addr (h_pton : InetPton pton) {addrText addr : Octets} {family : Family}
    (h : readAddr pton addrText = some (family, addr)) {head : Octets}
    (h_head : head.takeWhile (fun c => decide (c ≠ 0x2f)) = addrText) (eid : Octets) :
    readPrefix pton head eid =
      match head.dropWhile (fun c => decide (c ≠ 0x2f)) with
      | [] => .ok [mkRoute family addr family.width eid]
      | _ :: text =>
        match readPrefixLen (text ++ 0x3d :: eid) eid family.width with
        | none => .error "bad prefix length"
        | some prefixLen => .ok [mkRoute family addr prefixLen eid] := by
  obtain ⟨-, h_ne, h_short⟩ := addrText_chars h_pton h
  have h_len : ¬ (addrText.length = 0 ∨ addrText.length ≥ inet6Addrstrlen) := by
    rw [not_or]
    exact ⟨fun h_zero => h_ne (List.length_eq_zero_iff.mp h_zero), Nat.not_le.mpr h_short⟩
  unfold readPrefix
  simp only [h_head, if_neg h_len, h]

theorem asks_of_readPrefix {head eid : Octets} {routes : List BptunRoute} (h_eid : EidText eid)
    (h : readPrefix pton head eid = .ok routes) :
    Asks pton ReadsAs (head ++ 0x3d :: eid) routes := by
  unfold readPrefix at h
  dsimp only at h
  split at h
  · cases h
  split at h
  · cases h
  · rename_i family addr h_addr
    split at h
    · rename_i h_slash
      rw [List.takeWhile_eq_self_iff.mpr (List.dropWhile_eq_nil_iff.mp h_slash)] at h_addr
      obtain rfl := Except.ok.inj h
      exact .host h_addr h_eid
    · rename_i c text h_slash
      split at h
      · cases h
      · rename_i prefixLen h_read
        obtain rfl := Except.ok.inj h
        rw [of_dropWhile_separator h_slash]
        exact .net h_addr (readPrefixLen_eq_some_iff.mp h_read) h_eid

theorem readSpec_of_head {head eid : Octets} (h_equals : 0x3d ∉ head) (h_eid : EidText eid) :
    readSpec pton (head ++ 0x3d :: eid) =
      if head = defaultText then .ok (defaultRoutes eid) else readPrefix pton head eid := by
  obtain ⟨h_take, h_drop⟩ := span_separator h_equals eid
  unfold readSpec
  simp only [h_drop, h_take, if_neg h_eid.1, if_neg (Nat.not_lt.mpr h_eid.2)]

/-- **What is read**: `readSpec` keeps to the grammar but for the numbers. -/
theorem readSpec_eq_ok_iff (h_pton : InetPton pton) {spec : Octets} {routes : List BptunRoute} :
    readSpec pton spec = .ok routes ↔ Asks pton ReadsAs spec routes := by
  constructor
  · intro h
    unfold readSpec at h
    split at h
    · cases h
    rename_i c eid h_equals
    split at h
    · cases h
    rename_i h_ne
    split at h
    · cases h
    rename_i h_len
    have h_eid : EidText eid := ⟨h_ne, Nat.not_lt.mp h_len⟩
    have h_spec := of_dropWhile_separator h_equals
    dsimp only at h
    split at h
    · rename_i h_default
      rw [h_spec, h_default]
      obtain rfl := Except.ok.inj h
      exact .default h_eid
    · rw [h_spec]
      exact asks_of_readPrefix h_eid h
  · intro h
    cases h with
    | default h_eid => rw [readSpec_of_head (by decide) h_eid, if_pos rfl]
    | @host addrText addr eid family h_addr h_eid =>
      have h_default : addrText ≠ defaultText := by
        rintro rfl
        exact addrText_notMem h_pton h_addr (c := 0x6c) (by decide) (by decide)
      obtain ⟨h_take, h_drop⟩ :=
        span_of_notMem (addrText_notMem h_pton h_addr (c := 0x2f) (by decide))
      rw [readSpec_of_head (addrText_notMem h_pton h_addr (by decide)) h_eid, if_neg h_default,
        readPrefix_of_addr h_pton h_addr h_take, h_drop]
    | @net addrText addr text eid family prefixLen h_addr h_reads h_eid =>
      have h_default : addrText ++ 0x2f :: text ≠ defaultText := by
        intro h_eq
        have h_slash : (0x2f : UInt8) ∈ defaultText := by
          rw [← h_eq]
          exact List.mem_append_right _ List.mem_cons_self
        exact absurd h_slash (by decide)
      have h_equals : 0x3d ∉ addrText ++ 0x2f :: text := by
        obtain ⟨n, h_number, -⟩ := h_reads
        rw [List.mem_append, List.mem_cons, not_or, not_or]
        exact ⟨addrText_notMem h_pton h_addr (by decide), by decide,
          notMem_of_number ends_equals h_number⟩
      obtain ⟨h_take, h_drop⟩ :=
        span_separator (addrText_notMem h_pton h_addr (c := 0x2f) (by decide)) text
      rw [readSpec_of_head h_equals h_eid, if_neg h_default,
        readPrefix_of_addr h_pton h_addr h_take, h_drop]
      simp only [readPrefixLen_eq_some_iff.mpr h_reads]

/-! ## Adding -/

/-- The first of the routes is not added, or the others are added behind it. -/
theorem addAll_cons (table : BptunRouteTable) (mem : Family → Bool) (route : BptunRoute)
    (routes : List BptunRoute) :
    (table.full ∧ mem route.family = false ∧
        addAll table mem (route :: routes) = (table, some "out of memory")) ∨
      (¬ (table.full ∧ mem route.family = false) ∧ ∃ table',
        table'.routes = table.routes ++ [route] ∧ table'.capacity = table.widen.capacity ∧
          addAll table mem (route :: routes) = addAll table' mem routes) := by
  rw [addAll]
  rcases pushRoute_cases table route (mem route.family) with
    ⟨h_full, h_mem, h_push⟩ | ⟨h_room, table', h_push, h_routes, h_capacity⟩
  · rw [h_push]
    exact Or.inl ⟨h_full, h_mem, rfl⟩
  · rw [h_push]
    exact Or.inr ⟨h_room, table', h_routes, h_capacity, rfl⟩

/-- A table that has just been given a route is full when there was one place left: doubling
    leaves seven at least. -/
theorem full_of_push {table table' : BptunRouteTable} {route : BptunRoute}
    (h_routes : table'.routes = table.routes ++ [route])
    (h_capacity : table'.capacity = table.widen.capacity) :
    table'.full ↔ table.routes.length + 1 = table.capacity := by
  have h_room := table.room
  have h_grown := table.grown
  unfold BptunRouteTable.full
  rw [h_routes, h_capacity, List.length_append, List.length_singleton]
  by_cases h_full : table.routes.length = table.capacity
  · have h_widen : table.widen.capacity =
        if table.capacity ≠ 0 then table.capacity * 2 else 8 := if_pos h_full
    rw [h_widen]
    split
    · omega
    · omega
  · have h_widen : table.widen.capacity = table.capacity := if_neg h_full
    rw [h_widen]

/-- A default adds both routes, or one of them, or none. -/
theorem addAll_default (table : BptunRouteTable) (mem : Family → Bool) (eid : Octets) :
    (table.full ∧ mem .inet = false ∧
        addAll table mem (defaultRoutes eid) = (table, some "out of memory")) ∨
      ∃ table', (table.routes.length + 1 = table.capacity ∧ mem .inet6 = false ∧
          addAll table mem (defaultRoutes eid) = (table', some "out of memory") ∧
          table'.routes = table.routes ++ (defaultRoutes eid).take 1) ∨
        ((table.routes.length + 1 = table.capacity → mem .inet6 = true) ∧
          addAll table mem (defaultRoutes eid) = (table', none) ∧
          table'.routes = table.routes ++ defaultRoutes eid) := by
  unfold defaultRoutes
  rcases addAll_cons table mem (mkRoute .inet (List.replicate 16 0) 0 eid)
      [mkRoute .inet6 (List.replicate 16 0) 0 eid] with
    ⟨h_full, h_mem, h_add⟩ | ⟨-, table₁, h_routes, h_capacity, h_add⟩
  · exact Or.inl ⟨h_full, h_mem, h_add⟩
  · have h_full := full_of_push h_routes h_capacity
    rcases addAll_cons table₁ mem (mkRoute .inet6 (List.replicate 16 0) 0 eid) [] with
      ⟨h_full₁, h_mem, h_add₁⟩ | ⟨h_room₁, table₂, h_routes₂, -, h_add₂⟩
    · exact Or.inr ⟨table₁, Or.inl ⟨h_full.mp h_full₁, h_mem, h_add.trans h_add₁, h_routes⟩⟩
    · refine Or.inr ⟨table₂, Or.inr ⟨?_, h_add.trans h_add₂, ?_⟩⟩
      · intro h_last
        have h_mem : mem .inet6 ≠ false := fun h => h_room₁ ⟨h_full.mpr h_last, h⟩
        simpa using h_mem
      · rw [h_routes₂, h_routes, List.append_assoc]
        rfl

/-! ## Where the call goes right -/

/-- What the call owes: what it accepts is of the grammar and is added as it is written there,
    and when it reports failure the routes are those before and there was cause. -/
structure AddsRight (pton : Family → Octets → Option Octets) (table : BptunRouteTable)
    (spec : Octets) (mem : Family → Bool) : Prop where
  accepted : (bptunRouteAdd pton table spec mem).2 = none → ∃ routes, Denotes pton spec routes ∧
    (bptunRouteAdd pton table spec mem).1.routes = table.routes ++ routes
  refused : (bptunRouteAdd pton table spec mem).2 ≠ none →
    (bptunRouteAdd pton table spec mem).1.routes = table.routes ∧
      ((∃ family, mem family = false) ∨ ∀ routes, ¬ Denotes pton spec routes)

/-- A prefix length that `strtol` reads is written with digits only and does not wrap, where
    there is room for its route; and where there is room for one route only, a default finds the
    memory for its second. -/
structure Handled (pton : Family → Octets → Option Octets) (table : BptunRouteTable)
    (spec : Octets) (mem : Family → Bool) : Prop where
  plain : ∀ addrText text eid family addr prefixLen,
    spec = (addrText ++ 0x2f :: text) ++ 0x3d :: eid →
    readAddr pton addrText = some (family, addr) → EidText eid → ReadsAs text family prefixLen →
    ¬ (table.full ∧ mem family = false) → text.all isDigit = true ∧ decimal text < 2 ^ 31
  both : ∀ eid, spec = defaultText ++ 0x3d :: eid → EidText eid →
    table.routes.length + 1 = table.capacity → mem .inet6 = true

theorem Denotes.readSpec (h_pton : InetPton pton) {spec : Octets} {routes : List BptunRoute}
    (h : Denotes pton spec routes) : readSpec pton spec = .ok routes :=
  (readSpec_eq_ok_iff h_pton).mpr (h.mono fun _ _ _ h_spells => h_spells.readsAs)

theorem bptunRouteAdd_of_asks (h_pton : InetPton pton) {spec : Octets} {routes : List BptunRoute}
    (h : Asks pton ReadsAs spec routes) (table : BptunRouteTable) (mem : Family → Bool) :
    bptunRouteAdd pton table spec mem = addAll table mem routes := by
  rw [bptunRouteAdd_eq, (readSpec_eq_ok_iff h_pton).mpr h]

/-- One route, of the grammar, is added or there is no memory. -/
theorem addsRight_one {table : BptunRouteTable} {spec : Octets} {mem : Family → Bool}
    {route : BptunRoute} (h_add : bptunRouteAdd pton table spec mem = addAll table mem [route])
    (h_denotes : ¬ (table.full ∧ mem route.family = false) → Denotes pton spec [route]) :
    AddsRight pton table spec mem := by
  rcases addAll_cons table mem route [] with
    ⟨-, h_mem, h_one⟩ | ⟨h_room, table', h_routes, -, h_one⟩
  · rw [h_one] at h_add
    refine ⟨fun h => ?_, fun _ => ?_⟩
    · rw [h_add] at h
      cases h
    · rw [h_add]
      exact ⟨rfl, Or.inl ⟨_, h_mem⟩⟩
  · rw [h_one, addAll] at h_add
    refine ⟨fun _ => ?_, fun h => ?_⟩
    · rw [h_add]
      exact ⟨_, h_denotes h_room, h_routes⟩
    · rw [h_add] at h
      exact absurd rfl h

theorem addsRight_of_handled (h_pton : InetPton pton) {table : BptunRouteTable} {spec : Octets}
    {mem : Family → Bool} (h : Handled pton table spec mem) : AddsRight pton table spec mem := by
  have h_add := @bptunRouteAdd_eq pton table spec mem
  cases h_read : readSpec pton spec with
  | error err =>
    rw [h_read] at h_add
    refine ⟨fun h_none => ?_, fun _ => ?_⟩
    · rw [h_add] at h_none
      cases h_none
    · rw [h_add]
      refine ⟨rfl, Or.inr fun routes h_denotes => ?_⟩
      rw [h_denotes.readSpec h_pton] at h_read
      cases h_read
  | ok routes =>
    have h_asks := (readSpec_eq_ok_iff h_pton).mp h_read
    replace h_add := bptunRouteAdd_of_asks h_pton h_asks table mem
    cases h_asks with
    | host h_addr h_eid => exact addsRight_one h_add fun _ => .host h_addr h_eid
    | net h_addr h_reads h_eid =>
      refine addsRight_one h_add fun h_room => .net h_addr ?_ h_eid
      exact h_reads.spells (h.plain _ _ _ _ _ _ rfl h_addr h_eid h_reads h_room)
    | @default eid h_eid =>
      rcases addAll_default table mem eid with
        ⟨-, h_mem, h_none⟩ | ⟨table', ⟨h_last, h_mem, -⟩ | ⟨-, h_both, h_routes⟩⟩
      · rw [h_none] at h_add
        refine ⟨fun h_ok => ?_, fun _ => ?_⟩
        · rw [h_add] at h_ok
          cases h_ok
        · rw [h_add]
          exact ⟨rfl, Or.inl ⟨_, h_mem⟩⟩
      · rw [h.both eid rfl h_eid h_last] at h_mem
        cases h_mem
      · rw [h_both] at h_add
        refine ⟨fun _ => ?_, fun h_err => ?_⟩
        · rw [h_add]
          exact ⟨_, .default h_eid, h_routes⟩
        · rw [h_add] at h_err
          exact absurd rfl h_err

/-- What is between the slash and the equals sign is determined. -/
theorem spells_of_denotes (h_pton : InetPton pton) {addrText addr text eid : Octets}
    {family : Family} {routes : List BptunRoute}
    (h_addr : readAddr pton addrText = some (family, addr)) (h_equals : 0x3d ∉ text)
    (h : Denotes pton ((addrText ++ 0x2f :: text) ++ 0x3d :: eid) routes) :
    ∃ family prefixLen, Spells text family prefixLen := by
  have h_head : 0x3d ∉ addrText ++ 0x2f :: text := by
    rw [List.mem_append, List.mem_cons, not_or, not_or]
    exact ⟨addrText_notMem h_pton h_addr (by decide), by decide, h_equals⟩
  have h_slash : (0x2f : UInt8) ∈ addrText ++ 0x2f :: text :=
    List.mem_append_right _ List.mem_cons_self
  generalize h_spec : (addrText ++ 0x2f :: text) ++ 0x3d :: eid = spec at h
  cases h with
  | default h_eid =>
    obtain ⟨h_eq, -⟩ := separator_inj h_head (by decide) h_spec
    rw [h_eq] at h_slash
    exact absurd h_slash (by decide)
  | host h_addr' h_eid =>
    obtain ⟨h_eq, -⟩ := separator_inj h_head (addrText_notMem h_pton h_addr' (by decide)) h_spec
    rw [h_eq] at h_slash
    exact absurd h_slash (addrText_notMem h_pton h_addr' (by decide))
  | @net addrText' addr' text' eid' family' prefixLen' h_addr' h_reads h_eid =>
    have h_equals' : 0x3d ∉ text' := by
      obtain ⟨n, h_number, -⟩ := Spells.readsAs h_reads
      exact notMem_of_number ends_equals h_number
    have h_head' : 0x3d ∉ addrText' ++ 0x2f :: text' := by
      rw [List.mem_append, List.mem_cons, not_or, not_or]
      exact ⟨addrText_notMem h_pton h_addr' (by decide), by decide, h_equals'⟩
    obtain ⟨h_eq, -⟩ := separator_inj h_head h_head' h_spec
    obtain ⟨-, rfl⟩ := separator_inj (addrText_notMem h_pton h_addr (by decide))
      (addrText_notMem h_pton h_addr' (by decide)) h_eq
    exact ⟨_, _, h_reads⟩

theorem handled_of_addsRight (h_pton : InetPton pton) {table : BptunRouteTable} {spec : Octets}
    {mem : Family → Bool} (h : AddsRight pton table spec mem) : Handled pton table spec mem := by
  refine ⟨?_, ?_⟩
  · rintro addrText text eid family addr prefixLen rfl h_addr h_eid h_reads h_room
    have h_asks : Asks pton ReadsAs ((addrText ++ 0x2f :: text) ++ 0x3d :: eid) _ :=
      .net h_addr h_reads h_eid
    have h_add := bptunRouteAdd_of_asks h_pton h_asks table mem
    rcases addAll_cons table mem (mkRoute family addr prefixLen eid) [] with
      ⟨h_full, h_mem, -⟩ | ⟨-, table', -, -, h_one⟩
    · exact absurd ⟨h_full, h_mem⟩ h_room
    · have h_none : (bptunRouteAdd pton table ((addrText ++ 0x2f :: text) ++ 0x3d :: eid) mem).2 =
          none := by
        rw [h_add]
        exact congrArg Prod.snd h_one
      obtain ⟨routes, h_denotes, -⟩ := h.accepted h_none
      obtain ⟨n, h_number, -⟩ := h_reads
      obtain ⟨family', prefixLen', -, h_digits, h_max, -⟩ :=
        spells_of_denotes h_pton h_addr (notMem_of_number ends_equals h_number) h_denotes
      refine ⟨h_digits, Nat.lt_of_le_of_lt h_max ?_⟩
      cases family' with
      | inet => decide
      | inet6 => decide
  · rintro eid rfl h_eid h_last
    have h_asks : Asks pton ReadsAs (defaultText ++ 0x3d :: eid) _ := .default h_eid
    have h_add := bptunRouteAdd_of_asks h_pton h_asks table mem
    rcases addAll_default table mem eid with
      ⟨h_full, -⟩ | ⟨table', ⟨-, -, h_half, h_routes⟩ | ⟨h_both, -⟩⟩
    · have h_len : table.routes.length = table.capacity := h_full
      omega
    · rw [h_half] at h_add
      have h_some : (bptunRouteAdd pton table (defaultText ++ 0x3d :: eid) mem).2 ≠ none := by
        rw [h_add]
        exact Option.some_ne_none _
      have h_same := (h.refused h_some).1
      rw [h_add, h_routes] at h_same
      have h_len := congrArg List.length h_same
      rw [List.length_append] at h_len
      simp [defaultRoutes] at h_len
    · exact h_both h_last

/-- **A route is added as it is written, or nothing is**, exactly where the number is plain and
    a default does not run out of memory half way. -/
theorem bptunRouteAdd_right_iff (h_pton : InetPton pton) (table : BptunRouteTable) (spec : Octets)
    (mem : Family → Bool) : AddsRight pton table spec mem ↔ Handled pton table spec mem :=
  ⟨handled_of_addsRight h_pton, addsRight_of_handled h_pton⟩

/-! ## A number that is not what it says -/

/-- An `inet_pton` that knows one address. -/
def oneAddr (family : Family) (text : Octets) : Option Octets :=
  if family = .inet ∧ text = [0x31, 0x2e, 0x32, 0x2e, 0x33, 0x2e, 0x34] then some [1, 2, 3, 4]
  else none

theorem oneAddr_eq_some {family : Family} {text addr : Octets}
    (h : oneAddr family text = some addr) :
    family = .inet ∧ text = [0x31, 0x2e, 0x32, 0x2e, 0x33, 0x2e, 0x34] ∧ addr = [1, 2, 3, 4] := by
  unfold oneAddr at h
  split at h
  · rename_i h_eq
    exact ⟨h_eq.1, h_eq.2, (Option.some.inj h).symm⟩
  · cases h

theorem inetPton_oneAddr : InetPton oneAddr where
  addr_length := by
    intro family text addr h
    obtain ⟨rfl, -, rfl⟩ := oneAddr_eq_some h
    rfl
  text_chars := by
    intro family text addr h
    obtain ⟨-, rfl, -⟩ := oneAddr_eq_some h
    decide
  text_length := by
    intro family text addr h
    obtain ⟨-, rfl, -⟩ := oneAddr_eq_some h
    decide

/-- "1.2.3.4/4294967304=a": 2^32 + 8. -/
def wrappedSpec : Octets :=
  [0x31, 0x2e, 0x32, 0x2e, 0x33, 0x2e, 0x34, 0x2f, 0x34, 0x32, 0x39, 0x34, 0x39, 0x36, 0x37, 0x33,
    0x30, 0x34, 0x3d, 0x61]

/-- A prefix length of 2^32 + 8 is stored as one of 8. -/
theorem bptunRouteAdd_wraps :
    ¬ ∀ pton, InetPton pton → ∀ table spec mem, AddsRight pton table spec mem := by
  intro h
  have h_right := h oneAddr inetPton_oneAddr .empty wrappedSpec fun _ => true
  have h_ok : (bptunRouteAdd oneAddr .empty wrappedSpec fun _ => true).2 = none := by
    decide +kernel
  obtain ⟨routes, h_denotes, -⟩ := h_right.accepted h_ok
  have h_addr : readAddr oneAddr [0x31, 0x2e, 0x32, 0x2e, 0x33, 0x2e, 0x34] =
      some (.inet, [1, 2, 3, 4]) := by
    decide
  obtain ⟨family, prefixLen, -, -, h_max, -⟩ := @spells_of_denotes oneAddr inetPton_oneAddr _ _
    [0x34, 0x32, 0x39, 0x34, 0x39, 0x36, 0x37, 0x33, 0x30, 0x34] [0x61] _ _ h_addr (by decide)
    h_denotes
  cases family with
  | inet => exact absurd h_max (by decide)
  | inet6 => exact absurd h_max (by decide)

/-- "1.2.3.4/8=a". -/
def plainSpec : Octets :=
  [0x31, 0x2e, 0x32, 0x2e, 0x33, 0x2e, 0x34, 0x2f, 0x38, 0x3d, 0x61]

theorem bptunRouteAdd_right_iff_plain :
    AddsRight oneAddr .empty plainSpec (fun _ => true) ↔
      Handled oneAddr .empty plainSpec (fun _ => true) :=
  bptunRouteAdd_right_iff inetPton_oneAddr .empty plainSpec fun _ => true

end IonContrib.Bptun
