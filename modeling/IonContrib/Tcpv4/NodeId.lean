/-
  IonContrib.Tcpv4.NodeId

  Node IDs as the engine compares them (`tcpv4nodeid.c`): two ipn spellings by
  the numbers they stand for, everything else by its text.

  A node ID is the list of the octets of a C string, so none of them is a NUL
  and the empty list is the node ID that is not set.
-/
import IonContrib.Lib.Octets

namespace IonContrib.Tcpv4

/-- The fields that hold a node ID, the NUL included. -/
def tcpv4MaxNodeIdLen : Nat := 256

/-- `istrcpy (field, nodeId, sizeof (field))`. -/
def nodeIdField (nodeId : Octets) : Octets := nodeId.take (tcpv4MaxNodeIdLen - 1)

theorem nodeIdField_of_fits {nodeId : Octets} (h : nodeId.length < tcpv4MaxNodeIdLen) :
    nodeIdField nodeId = nodeId := by
  apply List.take_of_length_le
  omega

def isDigit (c : UInt8) : Bool := 0x30 ≤ c && c ≤ 0x39

/-- The loop of `readComponent`, with the value and the number of the digits read so far. -/
def readComponentFrom : Octets → Nat → Nat → Option (Nat × Octets)
  | [], n, digits => if digits = 0 then none else some (n, [])
  | c :: cursor, n, digits =>
    if isDigit c then
      let d := c.toNat - 0x30
      if n > (2 ^ 64 - 1 - d) / 10 then none
      else readComponentFrom cursor (n * 10 + d) (digits + 1)
    else if digits = 0 then none
    else some (n, c :: cursor)

def readComponent (cursor : Octets) : Option (Nat × Octets) := readComponentFrom cursor 0 0

/-- The loop of `tcpv4NodeIdIpn`, for as many components as there may still be. -/
def readParts : Nat → Octets → Option (List Nat × Octets)
  | 0, cursor => some ([], cursor)
  | count + 1, cursor =>
    match readComponent cursor with
    | none => none
    | some (value, cursor) =>
      match cursor with
      | 0x2e :: cursor => (readParts count cursor).map fun p => (value :: p.1, p.2)
      | _ => some ([value], cursor)

def lowerOctet (c : UInt8) : UInt8 := if 0x41 ≤ c ∧ c ≤ 0x5a then c + 0x20 else c

/-- The allocator and the node number, if it is an ipn node ID. -/
def tcpv4NodeIdIpn (nodeId : Octets) : Option (Nat × Nat) :=
  if (nodeId.take 4).map lowerOctet ≠ [0x69, 0x70, 0x6e, 0x3a] then none
  else
    match readParts 3 (nodeId.drop 4) with
    | some ([node], []) => some (0, node)
    | some ([node, _], []) => some (0, node)
    | some (allocator :: node :: _, []) => some (allocator, node)
    | _ => none

def tcpv4NodeIdIsSet (nodeId : Octets) : Bool := !nodeId.isEmpty

def tcpv4NodeIdMatches (a b : Octets) : Bool :=
  if !tcpv4NodeIdIsSet a || !tcpv4NodeIdIsSet b then false
  else
    match tcpv4NodeIdIpn a, tcpv4NodeIdIpn b with
    | some x, some y => x = y
    | none, none => a = b
    | _, _ => false

def isAlpha (c : UInt8) : Bool := (0x41 ≤ c && c ≤ 0x5a) || (0x61 ≤ c && c ≤ 0x7a)

/-- An octet that may follow the first of a scheme name. -/
def isSchemeOctet (c : UInt8) : Bool :=
  isAlpha c || isDigit c || c = 0x2b || c = 0x2d || c = 0x2e

/-- A scheme name, a colon, and printable octets. -/
def tcpv4NodeIdIsWellFormed (nodeId : Octets) : Bool :=
  match nodeId with
  | [] => false
  | c :: rest =>
    isAlpha c && match rest.dropWhile isSchemeOctet with
      | 0x3a :: part => part.all fun d => 0x21 ≤ d && d ≤ 0x7e
      | _ => false

/-- Nothing matches a node ID that is not set. -/
theorem set_of_matches {a b : Octets} (h : tcpv4NodeIdMatches a b = true) :
    a ≠ [] ∧ b ≠ [] := by
  unfold tcpv4NodeIdMatches at h
  cases a with
  | nil => simp [tcpv4NodeIdIsSet] at h
  | cons c a =>
    cases b with
    | nil => simp [tcpv4NodeIdIsSet] at h
    | cons d b => exact ⟨List.cons_ne_nil _ _, List.cons_ne_nil _ _⟩

/-- A node ID that is set is itself. -/
theorem matches_refl {a : Octets} (h : a ≠ []) : tcpv4NodeIdMatches a a = true := by
  unfold tcpv4NodeIdMatches
  have h_set : tcpv4NodeIdIsSet a = true := by
    cases a with
    | nil => exact absurd rfl h
    | cons c a => rfl
  rw [h_set]
  cases tcpv4NodeIdIpn a <;> simp

end IonContrib.Tcpv4
