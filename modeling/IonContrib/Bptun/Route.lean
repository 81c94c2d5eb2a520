/-
  IonContrib.Bptun.Route

  The route table of bptun (`bptun_route.c`): adding a route from its text, and
  looking up the endpoint for the destination of an IP packet.

  `inet_pton` is outside: `pton` is what it makes of a text for an address family,
  and `InetPton` what its documentation says of it.
-/
import IonContrib.Lib.CText

namespace IonContrib.Bptun

open Octets CText

inductive Family where
  | inet
  | inet6
  deriving DecidableEq, Repr

def Family.addrLen : Family → Nat
  | .inet => 4
  | .inet6 => 16

/-- `maxPrefix`. -/
def Family.width : Family → Nat
  | .inet => 32
  | .inet6 => 128

def ipv4DestOffset : Nat := 16
def ipv6DestOffset : Nat := 24
def inet6Addrstrlen : Nat := 46
def bptunMaxEidLen : Nat := 255

/-- "default". -/
def defaultText : Octets := [0x64, 0x65, 0x66, 0x61, 0x75, 0x6c, 0x74]

structure BptunRoute where
  family : Family
  addr : Octets
  prefixLen : Nat
  eid : Octets
  deriving DecidableEq, Repr

/-- `count` is the length of `routes`; an array that has been grown has eight places at least. -/
structure BptunRouteTable where
  routes : List BptunRoute
  capacity : Nat
  room : routes.length ≤ capacity
  grown : capacity = 0 ∨ 8 ≤ capacity

def BptunRouteTable.empty : BptunRouteTable := ⟨[], 0, Nat.le_refl 0, Or.inl rfl⟩

/-! ## Adding a route -/

/-- A route as it stands in the table: the address is padded to sixteen octets. -/
def mkRoute (family : Family) (addr : Octets) (prefixLen : Nat) (eid : Octets) : BptunRoute where
  family := family
  addr := addr.take family.addrLen ++ List.replicate (16 - family.addrLen) 0
  prefixLen := prefixLen
  eid := eid

def BptunRouteTable.full (table : BptunRouteTable) : Prop := table.routes.length = table.capacity

instance (table : BptunRouteTable) : Decidable table.full := by
  unfold BptunRouteTable.full
  infer_instance

/-- The table with its array doubled where it is full. -/
def BptunRouteTable.widen (table : BptunRouteTable) : BptunRouteTable where
  routes := table.routes
  capacity :=
    if table.full then if table.capacity ≠ 0 then table.capacity * 2 else 8 else table.capacity
  room := by
    have h_room := table.room
    split
    · split
      · omega
      · omega
    · exact h_room
  grown := by
    have h_grown := table.grown
    split
    · split
      · omega
      · exact Or.inr (Nat.le_refl 8)
    · exact h_grown

theorem BptunRouteTable.length_lt_widen (table : BptunRouteTable) :
    table.routes.length < table.widen.capacity := by
  have h_room := table.room
  show table.routes.length < if table.full then if table.capacity ≠ 0 then table.capacity * 2 else 8
    else table.capacity
  by_cases h_full : table.full
  · rw [if_pos h_full]
    have h_eq : table.routes.length = table.capacity := h_full
    split
    · omega
    · omega
  · rw [if_neg h_full]
    exact Nat.lt_of_le_of_ne h_room h_full

/-- `mem` tells whether `realloc` finds the memory, if it is asked. -/
def pushRoute (table : BptunRouteTable) (route : BptunRoute) (mem : Bool) :
    Option BptunRouteTable :=
  if table.full ∧ mem = false then none
  else
    some {
      routes := table.routes ++ [route]
      capacity := table.widen.capacity
      room := by
        rw [List.length_append, List.length_singleton]
        exact table.length_lt_widen
      grown := table.widen.grown }

def addRoute (table : BptunRouteTable) (family : Family) (addr : Octets) (prefixLen : Nat)
    (eid : Octets) (mem : Bool) : Option BptunRouteTable :=
  pushRoute table (mkRoute family addr prefixLen eid) mem

theorem pushRoute_cases (table : BptunRouteTable) (route : BptunRoute) (mem : Bool) :
    (table.full ∧ mem = false ∧ pushRoute table route mem = none) ∨
      (¬ (table.full ∧ mem = false) ∧ ∃ table', pushRoute table route mem = some table' ∧
        table'.routes = table.routes ++ [route] ∧ table'.capacity = table.widen.capacity) := by
  unfold pushRoute
  by_cases h : table.full ∧ mem = false
  · exact Or.inl ⟨h.1, h.2, if_pos h⟩
  · exact Or.inr ⟨h, _, if_neg h, rfl, rfl⟩

def routeUsage : String := "a route is <address>[/<prefix length>]=<EID>"

/-- The number between the slash and the equals sign, `text` being all that is behind the
    slash and `eid` what is behind the equals sign. -/
def readPrefixLen (text eid : Octets) (maxPrefix : Nat) : Option Nat :=
  let (value, rest) := strtol text
  let prefixLen := toInt value
  if rest = text ∨ rest ≠ 0x3d :: eid ∨ prefixLen < 0 ∨ prefixLen > maxPrefix then none
  else some prefixLen.toNat

/-- The families are tried in this order. -/
def readAddr (pton : Family → Octets → Option Octets) (addrText : Octets) :
    Option (Family × Octets) :=
  match pton .inet addrText with
  | some addr => some (.inet, addr)
  | none => (pton .inet6 addrText).map fun addr => (.inet6, addr)

/-- Both families get the default route, one after the other. -/
def addDefault (table : BptunRouteTable) (eid : Octets) (mem : Family → Bool) :
    BptunRouteTable × Option String :=
  match addRoute table .inet (List.replicate 16 0) 0 eid (mem .inet) with
  | none => (table, some "out of memory")
  | some table =>
    match addRoute table .inet6 (List.replicate 16 0) 0 eid (mem .inet6) with
    | none => (table, some "out of memory")
    | some table => (table, none)

/-- The part of a specification in front of the equals sign, with what is behind the slash
    where there is one. -/
def addPrefix (pton : Family → Octets → Option Octets) (table : BptunRouteTable)
    (head eid : Octets) (mem : Family → Bool) : BptunRouteTable × Option String :=
  let addrText := head.takeWhile (· ≠ 0x2f)
  if addrText.length = 0 ∨ addrText.length ≥ inet6Addrstrlen then (table, some "bad address")
  else
    match readAddr pton addrText with
    | none => (table, some "bad address")
    | some (family, addr) =>
      let prefixLen :=
        match head.dropWhile (· ≠ 0x2f) with
        | [] => some family.width
        | _ :: text => readPrefixLen (text ++ 0x3d :: eid) eid family.width
      match prefixLen with
      | none => (table, some "bad prefix length")
      | some prefixLen =>
        match addRoute table family addr prefixLen eid (mem family) with
        | none => (table, some "out of memory")
        | some table => (table, none)

/-- With the text of the error where it answers -1.  `mem` is what `realloc` answers when the
    route of a family is added. -/
def bptunRouteAdd (pton : Family → Octets → Option Octets) (table : BptunRouteTable)
    (spec : Octets) (mem : Family → Bool) : BptunRouteTable × Option String :=
  match spec.dropWhile (· ≠ 0x3d) with
  | [] => (table, some routeUsage)
  | _ :: eid =>
    if eid = [] then (table, some routeUsage)
    else if eid.length > bptunMaxEidLen then (table, some "EID too long")
    else
      let head := spec.takeWhile (· ≠ 0x3d)
      if head = defaultText then addDefault table eid mem
      else addPrefix pton table head eid mem

/-! ## Lookup -/

/-- `memcmp` over the whole octets, then the bits of the next one. -/
def prefixMatches (a b : Octets) (prefixLen : Nat) : Bool :=
  let wholeBytes := prefixLen / 8
  let restBits := prefixLen % 8
  if a.take wholeBytes ≠ b.take wholeBytes then false
  else if restBits = 0 then true
  else
    ((a.getD wholeBytes 0).toNat ^^^ (b.getD wholeBytes 0).toNat) &&& (0xff <<< (8 - restBits)) == 0

/-- The destination address of a packet, from where it starts to the end of the packet. -/
def packetDest (packet : Octets) : Option (Family × Octets) :=
  match packet with
  | [] => none
  | b :: _ =>
    if b >>> 4 = 4 then
      if packet.length < ipv4DestOffset + 4 then none
      else some (.inet, packet.drop ipv4DestOffset)
    else if b >>> 4 = 6 then
      if packet.length < ipv6DestOffset + 16 then none
      else some (.inet6, packet.drop ipv6DestOffset)
    else none

/-- A round of the loop of `bptunRouteLookup`. -/
def betterRoute (family : Family) (dest : Octets) (best : Option BptunRoute)
    (route : BptunRoute) : Option BptunRoute :=
  if route.family ≠ family ∨ prefixMatches route.addr dest route.prefixLen = false then best
  else
    match best with
    | none => some route
    | some b => if route.prefixLen > b.prefixLen then some route else some b

def bptunRouteLookup (table : BptunRouteTable) (packet : Octets) : Option Octets :=
  match packetDest packet with
  | none => none
  | some (family, dest) =>
    (table.routes.foldl (betterRoute family dest) none).map (·.eid)

/-- Addressed to the packet's own link only. -/
def bptunIsLinkLocal (packet : Octets) : Bool :=
  match packetDest packet with
  | none => false
  | some (.inet, dest) => dest.take 3 = [224, 0, 0] ∨ dest.take 4 = [255, 255, 255, 255]
  | some (.inet6, dest) => dest.getD 0 0 = 0xff ∧ dest.getD 1 0 &&& 0x0f ≤ 2

/-! ## What is assumed of `inet_pton` -/

/-- A character of an address in text. -/
def isAddrChar (c : UInt8) : Bool :=
  isDigit c || (0x61 ≤ c && c ≤ 0x66) || (0x41 ≤ c && c ≤ 0x46) || c = 0x2e || c = 0x3a

/-- It writes an address of the family's length, and reads digits, dots and colons only, fewer
    than `INET6_ADDRSTRLEN` of them. -/
structure InetPton (pton : Family → Octets → Option Octets) : Prop where
  addr_length : ∀ {family text addr}, pton family text = some addr → addr.length = family.addrLen
  text_chars : ∀ {family text addr}, pton family text = some addr → text.all isAddrChar = true
  text_length : ∀ {family text addr}, pton family text = some addr →
    text ≠ [] ∧ text.length < inet6Addrstrlen

end IonContrib.Bptun
