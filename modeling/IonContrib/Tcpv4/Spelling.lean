/-
  IonContrib.Tcpv4.Spelling

  Which node IDs are spellings of one node.

  `Denotes` says what an ipn node ID is by its text: the scheme in any case, then
  components of digits with dots between them.  `tcpv4NodeIdIpn` reads just the
  texts of this kind whose numbers fit 64 bits (`tcpv4NodeIdIpn_eq_some_iff`), so
  that a node ID stands for a key, a pair of numbers or else its own text, and
  matching is to be set and to have the same key (`matches_iff`).
-/
import IonContrib.Lib.Decimal
import IonContrib.Tcpv4.X509

namespace IonContrib.Tcpv4

open Octets

/-! ## Texts -/

/-- Components with dots between them. -/
def dotted (parts : List Octets) : Octets := [0x2e].intercalate parts

def IsComponent (part : Octets) : Prop := part ≠ [] ∧ part.all isDigit = true

/-- The text of an ipn node ID with these components.  The code takes a dot behind the third. -/
structure Spells (nodeId : Octets) (parts : List Octets) : Prop where
  some_part : parts ≠ []
  component : ∀ part ∈ parts, IsComponent part
  text : ∃ scheme, scheme.map lowerOctet = ipnColon ∧
    (nodeId = scheme ++ dotted parts ∨
      parts.length = 3 ∧ nodeId = scheme ++ (dotted parts ++ [0x2e]))

/-- The allocator and the node number: a service number, the last of two components or three,
    is no part of either. -/
def ipnNode : List Nat → Option (Nat × Nat)
  | [node] => some (0, node)
  | [node, _] => some (0, node)
  | [allocator, node, _] => some (allocator, node)
  | _ => none

/-- The node ID is readable as an ipn node ID, and is one of this allocator and node number. -/
def Denotes (nodeId : Octets) (node : Nat × Nat) : Prop :=
  ∃ parts, Spells nodeId parts ∧ (∀ part ∈ parts, decimal part < 2 ^ 64) ∧
    ipnNode (parts.map decimal) = some node

theorem isDigit_dot : isDigit 0x2e = false := rfl

theorem IsComponent.no_dot {part : Octets} (h : IsComponent part) : (0x2e : UInt8) ∉ part := by
  intro h_mem
  have h_digit := List.all_eq_true.mp h.2 _ h_mem
  rw [isDigit_dot] at h_digit
  cases h_digit

theorem dotted_cons {parts : List Octets} (h : parts ≠ []) (part : Octets) :
    dotted (part :: parts) = part ++ 0x2e :: dotted parts := by
  rw [dotted, List.intercalate_cons_of_ne_nil h]
  simp [dotted]

/-- A dot behind the last component is one more component, with no digit in it. -/
theorem dotted_snoc_nil {parts : List Octets} (h : parts ≠ []) :
    dotted (parts ++ [[]]) = dotted parts ++ [0x2e] := by
  induction parts with
  | nil => exact absurd rfl h
  | cons part parts ih =>
    cases parts with
    | nil => simp [dotted]
    | cons next parts =>
      have h_next : next :: parts ≠ [] := List.cons_ne_nil next parts
      rw [List.cons_append, dotted_cons (by simp), ih h_next, dotted_cons h_next]
      simp

/-- Texts without dots are read off where the dots stand. -/
theorem dotted_injective {parts parts' : List Octets} (h : dotted parts = dotted parts')
    (h_some : parts ≠ []) (h_some' : parts' ≠ []) (h_dot : ∀ part ∈ parts, (0x2e : UInt8) ∉ part)
    (h_dot' : ∀ part ∈ parts', (0x2e : UInt8) ∉ part) : parts = parts' := by
  have h_split := List.splitOn_intercalate 0x2e h_dot h_some
  have h_split' := List.splitOn_intercalate 0x2e h_dot' h_some'
  unfold dotted at h
  rw [h] at h_split
  exact h_split.symm.trans h_split'

/-! ## Reading -/

/-- The digits of a component and what does not go on with one are read apart, unless the number
    does not fit. -/
theorem readComponentFrom_append {text rest : Octets} (h_text : text.all isDigit = true)
    (h_rest : ∀ c ∈ rest.head?, isDigit c = false) {n : Nat} (h_n : n < 2 ^ 64) (digits : Nat)
    (h_some : digits = 0 → text ≠ []) : readComponentFrom (text ++ rest) n digits =
      if decimalFrom n text < 2 ^ 64 then some (decimalFrom n text, rest) else none := by
  induction text generalizing n digits with
  | nil =>
    have h_digits : digits ≠ 0 := fun h => h_some h rfl
    rw [decimalFrom_nil, if_pos h_n, List.nil_append]
    cases rest with
    | nil => rw [readComponentFrom, if_neg h_digits]
    | cons c rest =>
      have h_c := h_rest c rfl
      rw [readComponentFrom, h_c, if_neg (by simp), if_neg h_digits]
  | cons c text ih =>
    rw [List.all_cons, Bool.and_eq_true] at h_text
    obtain ⟨h_digit, h_text⟩ := h_text
    rw [List.cons_append, readComponentFrom, if_pos h_digit, decimalFrom_cons]
    dsimp only
    have h_d : c.toNat - 0x30 ≤ 9 := by
      simp only [isDigit, Bool.and_eq_true, decide_eq_true_eq, UInt8.le_iff_toNat_le] at h_digit
      have h_nine : c.toNat ≤ 0x39 := h_digit.2
      omega
    by_cases h_over : n > (2 ^ 64 - 1 - (c.toNat - 0x30)) / 10
    · -- The number is too large with this digit, and no digit makes it smaller again.
      have h_le := le_decimalFrom (n * 10 + (c.toNat - 0x30)) text
      rw [if_pos h_over, if_neg (by omega)]
    · rw [if_neg h_over]
      exact ih h_text (by omega) (digits + 1) fun h => absurd h (by omega)

theorem readComponent_append {part rest : Octets} (h_part : IsComponent part)
    (h_rest : ∀ c ∈ rest.head?, isDigit c = false) : readComponent (part ++ rest) =
      if decimal part < 2 ^ 64 then some (decimal part, rest) else none :=
  readComponentFrom_append h_part.2 h_rest (by omega) 0 fun _ => h_part.1

/-- The converse: what is read is a component. -/
theorem readComponent_eq_some {cursor rest : Octets} {value : Nat}
    (h : readComponent cursor = some (value, rest)) :
    ∃ part, IsComponent part ∧ cursor = part ++ rest ∧ decimal part = value ∧
      decimal part < 2 ^ 64 := by
  obtain ⟨part, h_cursor, h_all, h_rest, h_some⟩ := readComponentFrom_eq_some h
  have h_part : IsComponent part := ⟨h_some rfl, h_all⟩
  rw [h_cursor, readComponent_append h_part h_rest] at h
  by_cases h_fits : decimal part < 2 ^ 64
  · rw [if_pos h_fits] at h
    have h_value := congrArg Prod.fst (Option.some.inj h)
    exact ⟨part, h_part, h_cursor, h_value, h_fits⟩
  · rw [if_neg h_fits] at h
    cases h

/-- The text behind the scheme, as a loop that may still take `count` components takes it. -/
def ReadsTo (count : Nat) (cursor : Octets) (parts : List Octets) : Prop :=
  cursor = dotted parts ∨ parts.length = count ∧ cursor = dotted parts ++ [0x2e]

theorem readParts_last_component {count : Nat} {part : Octets} (h_part : IsComponent part)
    (h_fits : decimal part < 2 ^ 64) :
    readParts (count + 1) part = some ([decimal part], []) := by
  have h_end : ∀ c ∈ ([] : Octets).head?, isDigit c = false := by simp
  have h := readComponent_append h_part h_end
  rw [List.append_nil, if_pos h_fits] at h
  rw [readParts, h]

theorem readParts_component {count : Nat} {part cursor : Octets} (h_part : IsComponent part)
    (h_fits : decimal part < 2 ^ 64) : readParts (count + 1) (part ++ 0x2e :: cursor) =
      (readParts count cursor).map fun p => (decimal part :: p.1, p.2) := by
  have h_rest : ∀ c ∈ (0x2e :: cursor).head?, isDigit c = false := by
    intro c h_c
    obtain rfl := Option.some.inj h_c
    exact isDigit_dot
  have h := readComponent_append h_part h_rest
  rw [if_pos h_fits] at h
  rw [readParts, h]
  rfl

/-- What a round of the loop has read when the text is read to its end. -/
theorem readParts_round {count : Nat} {cursor : Octets} {values : List Nat}
    (h : readParts (count + 1) cursor = some (values, [])) :
    ∃ part, IsComponent part ∧ decimal part < 2 ^ 64 ∧
      ((cursor = part ∧ values = [decimal part]) ∨
        ∃ rest values', cursor = part ++ 0x2e :: rest ∧ values = decimal part :: values' ∧
          readParts count rest = some (values', [])) := by
  rw [readParts] at h
  cases h_read : readComponent cursor with
  | none =>
    rw [h_read] at h
    cases h
  | some p =>
    obtain ⟨value, left⟩ := p
    obtain ⟨part, h_part, h_cursor, rfl, h_fits⟩ := readComponent_eq_some h_read
    rw [h_read] at h
    refine ⟨part, h_part, h_fits, ?_⟩
    dsimp only at h
    split at h
    · rename_i rest
      obtain ⟨⟨values', rest'⟩, h_rest, h_eq⟩ := Option.map_eq_some_iff.mp h
      obtain ⟨h_values, rfl⟩ := Prod.mk.inj h_eq
      exact .inr ⟨rest, values', h_cursor, h_values.symm, h_rest⟩
    · obtain ⟨h_values, rfl⟩ := Prod.mk.inj (Option.some.inj h)
      exact .inl ⟨by rw [h_cursor, List.append_nil], h_values.symm⟩

theorem readParts_sound {count : Nat} {cursor : Octets} {values : List Nat}
    (h : readParts (count + 1) cursor = some (values, [])) :
    ∃ parts, parts ≠ [] ∧ parts.length ≤ count + 1 ∧ (∀ part ∈ parts, IsComponent part) ∧
      (∀ part ∈ parts, decimal part < 2 ^ 64) ∧ parts.map decimal = values ∧
        ReadsTo (count + 1) cursor parts := by
  induction count generalizing cursor values with
  | zero =>
    obtain ⟨part, h_part, h_fits, ⟨rfl, rfl⟩ | ⟨rest, values', rfl, rfl, h_rest⟩⟩ :=
      readParts_round h
    · exact ⟨[cursor], by simp, by simp, by simpa using h_part, by simpa using h_fits, rfl,
        .inl (by simp [dotted])⟩
    · -- No component is left to read, but the dot has been passed over.
      obtain ⟨rfl, rfl⟩ := Prod.mk.inj (Option.some.inj h_rest)
      exact ⟨[part], by simp, by simp, by simpa using h_part, by simpa using h_fits, rfl,
        .inr ⟨rfl, by simp [dotted]⟩⟩
  | succ count ih =>
    obtain ⟨part, h_part, h_fits, ⟨rfl, rfl⟩ | ⟨rest, values', rfl, rfl, h_rest⟩⟩ :=
      readParts_round h
    · exact ⟨[cursor], by simp, by simp, by simpa using h_part, by simpa using h_fits, rfl,
        .inl (by simp [dotted])⟩
    · obtain ⟨parts, h_some, h_len, h_parts, h_all, rfl, h_text⟩ := ih h_rest
      refine ⟨part :: parts, List.cons_ne_nil _ _, by simpa using h_len, ?_, ?_, rfl, ?_⟩
      · exact List.forall_mem_cons.mpr ⟨h_part, h_parts⟩
      · exact List.forall_mem_cons.mpr ⟨h_fits, h_all⟩
      · rcases h_text with rfl | ⟨h_count, rfl⟩
        · exact .inl (dotted_cons h_some part).symm
        · refine .inr ⟨by rw [List.length_cons, h_count], ?_⟩
          rw [dotted_cons h_some, List.append_assoc, List.cons_append]

theorem readParts_complete {count : Nat} {cursor : Octets} {parts : List Octets}
    (h_some : parts ≠ []) (h_len : parts.length ≤ count + 1)
    (h_parts : ∀ part ∈ parts, IsComponent part) (h_all : ∀ part ∈ parts, decimal part < 2 ^ 64)
    (h_text : ReadsTo (count + 1) cursor parts) :
    readParts (count + 1) cursor = some (parts.map decimal, []) := by
  induction parts generalizing count cursor with
  | nil => exact absurd rfl h_some
  | cons part parts ih =>
    obtain ⟨h_part, h_parts⟩ := List.forall_mem_cons.mp h_parts
    obtain ⟨h_fits, h_all⟩ := List.forall_mem_cons.mp h_all
    by_cases h_last : parts = []
    · subst h_last
      rcases h_text with rfl | ⟨h_count, rfl⟩
      · rw [dotted, List.intercalate_singleton]
        exact readParts_last_component h_part h_fits
      · obtain rfl : count = 0 := by simpa using h_count.symm
        rw [dotted, List.intercalate_singleton, readParts_component h_part h_fits]
        rfl
    · rw [List.length_cons] at h_len
      have h_pos := List.length_pos_of_ne_nil h_last
      obtain ⟨count, rfl⟩ : ∃ k, count = k + 1 := ⟨count - 1, by omega⟩
      have h_rest : ∃ rest, cursor = part ++ 0x2e :: rest ∧ ReadsTo (count + 1) rest parts := by
        rcases h_text with rfl | ⟨h_count, rfl⟩
        · exact ⟨dotted parts, dotted_cons h_last part, .inl rfl⟩
        · rw [List.length_cons] at h_count
          refine ⟨dotted parts ++ [0x2e], ?_, .inr ⟨by omega, rfl⟩⟩
          rw [dotted_cons h_last, List.append_assoc, List.cons_append]
      obtain ⟨rest, rfl, h_rest⟩ := h_rest
      rw [readParts_component h_part h_fits, ih h_last (by omega) h_parts h_all h_rest]
      rfl

/-! ## Keys -/

theorem read_of_tcpv4NodeIdIpn {nodeId : Octets} {node : Nat × Nat}
    (h : tcpv4NodeIdIpn nodeId = some node) : (nodeId.take 4).map lowerOctet = ipnColon ∧
      ∃ values, readParts 3 (nodeId.drop 4) = some (values, []) := by
  unfold tcpv4NodeIdIpn at h
  split at h
  · cases h
  · rename_i h_scheme
    refine ⟨not_not.mp h_scheme, ?_⟩
    split at h
    · exact ⟨_, by assumption⟩
    · exact ⟨_, by assumption⟩
    · exact ⟨_, by assumption⟩
    · cases h

theorem tcpv4NodeIdIpn_of_read {nodeId : Octets} {values : List Nat}
    (h_scheme : (nodeId.take 4).map lowerOctet = ipnColon)
    (h_read : readParts 3 (nodeId.drop 4) = some (values, [])) (h_some : values ≠ [])
    (h_len : values.length ≤ 3) : tcpv4NodeIdIpn nodeId = ipnNode values := by
  have h_scheme : ¬ (nodeId.take 4).map lowerOctet ≠ [0x69, 0x70, 0x6e, 0x3a] :=
    not_not.mpr h_scheme
  rw [tcpv4NodeIdIpn, if_neg h_scheme, h_read]
  rcases values with _ | ⟨a, _ | ⟨b, _ | ⟨c, _ | ⟨d, values⟩⟩⟩⟩
  · exact absurd rfl h_some
  · rfl
  · rfl
  · rfl
  · exact absurd h_len (by simp)

theorem scheme_split {nodeId scheme rest : Octets} (h_scheme : scheme.map lowerOctet = ipnColon)
    (h_text : nodeId = scheme ++ rest) :
    (nodeId.take 4).map lowerOctet = ipnColon ∧ nodeId.drop 4 = rest := by
  have h_len : scheme.length = 4 := by
    have h := congrArg List.length h_scheme
    rwa [List.length_map] at h
  rw [h_text, ← h_len, List.take_left, List.drop_left]
  exact ⟨h_scheme, rfl⟩

/-- What is read as an ipn node ID is just what denotes one. -/
theorem tcpv4NodeIdIpn_eq_some_iff {nodeId : Octets} {node : Nat × Nat} :
    tcpv4NodeIdIpn nodeId = some node ↔ Denotes nodeId node := by
  constructor
  · intro h
    obtain ⟨h_scheme, values, h_read⟩ := read_of_tcpv4NodeIdIpn h
    obtain ⟨parts, h_some, h_len, h_parts, h_all, rfl, h_text⟩ := readParts_sound h_read
    rw [tcpv4NodeIdIpn_of_read h_scheme h_read (by simpa using h_some) (by simpa using h_len)] at h
    have h_split := (List.take_append_drop 4 nodeId).symm
    refine ⟨parts, ⟨h_some, h_parts, nodeId.take 4, h_scheme, ?_⟩, h_all, h⟩
    rcases h_text with h_text | ⟨h_three, h_text⟩
    · exact .inl (by rw [← h_text]; exact h_split)
    · exact .inr ⟨h_three, by rw [← h_text]; exact h_split⟩
  · rintro ⟨parts, ⟨h_some, h_parts, scheme, h_scheme, h_text⟩, h_all, h_node⟩
    have h_len : parts.length ≤ 3 := by
      rcases parts with _ | ⟨_, _ | ⟨_, _ | ⟨_, _ | ⟨_, _⟩⟩⟩⟩ <;> simp [ipnNode] at h_node ⊢
    have h_rest : ∃ rest, nodeId = scheme ++ rest ∧ ReadsTo 3 rest parts := by
      rcases h_text with h_text | ⟨h_three, h_text⟩
      · exact ⟨_, h_text, .inl rfl⟩
      · exact ⟨_, h_text, .inr ⟨h_three, rfl⟩⟩
    obtain ⟨rest, h_text, h_rest⟩ := h_rest
    obtain ⟨h_take, h_drop⟩ := scheme_split h_scheme h_text
    have h_read := readParts_complete h_some h_len h_parts h_all h_rest
    rw [← h_drop] at h_read
    rw [tcpv4NodeIdIpn_of_read h_take h_read (by simpa using h_some) (by simpa using h_len)]
    exact h_node

/-- The components of a text are its own. -/
theorem Spells.parts_unique {nodeId : Octets} {parts parts' : List Octets}
    (h : Spells nodeId parts) (h' : Spells nodeId parts') : parts = parts' := by
  -- A dot at the end counts as one more component, which has no digit.
  have h_ends : ∀ {parts}, Spells nodeId parts → ∃ tail : List Octets,
      (tail = [] ∨ tail = [[]]) ∧ nodeId.drop 4 = dotted (parts ++ tail) := by
    rintro parts ⟨h_some, -, scheme, h_scheme, h_text | ⟨-, h_text⟩⟩
    · exact ⟨[], .inl rfl, by rw [List.append_nil]; exact (scheme_split h_scheme h_text).2⟩
    · refine ⟨[[]], .inr rfl, ?_⟩
      rw [dotted_snoc_nil h_some]
      exact (scheme_split h_scheme h_text).2
  have h_dots : ∀ {parts tail : List Octets}, (∀ part ∈ parts, IsComponent part) →
      (tail = [] ∨ tail = [[]]) → ∀ part ∈ parts ++ tail, (0x2e : UInt8) ∉ part := by
    intro parts tail h_parts h_tail part h_mem
    rcases List.mem_append.mp h_mem with h_mem | h_mem
    · exact (h_parts part h_mem).no_dot
    · rcases h_tail with rfl | rfl
      · cases h_mem
      · rw [List.mem_singleton.mp h_mem]
        exact List.not_mem_nil
  have h_full : ∀ {parts : List Octets}, (∀ part ∈ parts, IsComponent part) → [] ∉ parts :=
    fun h_parts h_mem => (h_parts [] h_mem).1 rfl
  obtain ⟨tail, h_tail, h_text⟩ := h_ends h
  obtain ⟨tail', h_tail', h_text'⟩ := h_ends h'
  have h_same := dotted_injective (h_text.symm.trans h_text') (by simp [h.some_part])
    (by simp [h'.some_part]) (h_dots h.component h_tail) (h_dots h'.component h_tail')
  rcases h_tail with rfl | rfl <;> rcases h_tail' with rfl | rfl
  · simpa using h_same
  · refine absurd ?_ (h_full h.component)
    rw [List.append_nil] at h_same
    rw [h_same]
    simp
  · refine absurd ?_ (h_full h'.component)
    rw [List.append_nil] at h_same
    rw [← h_same]
    simp
  · exact List.append_cancel_right h_same

/-- A component that does not fit makes the node ID unreadable. -/
theorem tcpv4NodeIdIpn_large {nodeId part : Octets} {parts : List Octets}
    (h : Spells nodeId parts) (h_part : part ∈ parts) (h_large : 2 ^ 64 ≤ decimal part) :
    tcpv4NodeIdIpn nodeId = none := by
  cases h_read : tcpv4NodeIdIpn nodeId with
  | none => rfl
  | some node =>
    obtain ⟨parts', h', h_all, -⟩ := tcpv4NodeIdIpn_eq_some_iff.mp h_read
    rw [← h.parts_unique h'] at h_all
    exact absurd (h_all part h_part) (by omega)

/-- What a node ID is compared by. -/
def nodeKey (nodeId : Octets) : (Nat × Nat) ⊕ Octets :=
  match tcpv4NodeIdIpn nodeId with
  | some node => .inl node
  | none => .inr nodeId

/-- Two node IDs match if they are set and have one key. -/
theorem matches_iff {a b : Octets} :
    tcpv4NodeIdMatches a b = true ↔ a ≠ [] ∧ nodeKey a = nodeKey b ∧ b ≠ [] := by
  have h_set : ∀ a : Octets, (!tcpv4NodeIdIsSet a) = true ↔ a = [] := by
    intro a
    simp [tcpv4NodeIdIsSet]
  unfold tcpv4NodeIdMatches
  by_cases h_unset : (!tcpv4NodeIdIsSet a || !tcpv4NodeIdIsSet b) = true
  · rw [if_pos h_unset]
    rw [Bool.or_eq_true, h_set, h_set] at h_unset
    simp only [Bool.false_eq_true, false_iff]
    rintro ⟨h_a, -, h_b⟩
    exact h_unset.elim h_a h_b
  · rw [if_neg h_unset]
    rw [Bool.or_eq_true, h_set, h_set, not_or] at h_unset
    unfold nodeKey
    cases tcpv4NodeIdIpn a <;> cases tcpv4NodeIdIpn b <;> simp [h_unset]

theorem matches_symm {a b : Octets} (h : tcpv4NodeIdMatches a b = true) :
    tcpv4NodeIdMatches b a = true := by
  obtain ⟨h_a, h_key, h_b⟩ := matches_iff.mp h
  exact matches_iff.mpr ⟨h_b, h_key.symm, h_a⟩

theorem matches_trans {a b c : Octets} (h : tcpv4NodeIdMatches a b = true)
    (h' : tcpv4NodeIdMatches b c = true) : tcpv4NodeIdMatches a c = true := by
  obtain ⟨h_a, h_key, -⟩ := matches_iff.mp h
  obtain ⟨-, h_key', h_c⟩ := matches_iff.mp h'
  exact matches_iff.mpr ⟨h_a, h_key.trans h_key', h_c⟩

theorem matches_self {a : Octets} : tcpv4NodeIdMatches a a = true ↔ a ≠ [] :=
  ⟨fun h => (set_of_matches h).1, matches_refl⟩

theorem Denotes.set {nodeId : Octets} {node : Nat × Nat} (h : Denotes nodeId node) :
    nodeId ≠ [] := by
  rintro rfl
  have h_read := tcpv4NodeIdIpn_eq_some_iff.mpr h
  cases h_read

theorem Denotes.key {nodeId : Octets} {node : Nat × Nat} (h : Denotes nodeId node) :
    nodeKey nodeId = .inl node := by
  rw [nodeKey, tcpv4NodeIdIpn_eq_some_iff.mpr h]

/-- Two spellings match if they denote one node. -/
theorem Denotes.matches_iff {a b : Octets} {node node' : Nat × Nat} (h : Denotes a node)
    (h' : Denotes b node') : tcpv4NodeIdMatches a b = true ↔ node = node' := by
  rw [Tcpv4.matches_iff, h.key, h'.key]
  constructor
  · rintro ⟨-, h_key, -⟩
    exact Sum.inl.inj h_key
  · rintro rfl
    exact ⟨h.set, rfl, h'.set⟩

/-- A spelling that does not fit matches itself alone. -/
theorem Spells.matches_large {a b part : Octets} {parts : List Octets} (h : Spells a parts)
    (h_part : part ∈ parts) (h_large : 2 ^ 64 ≤ decimal part) :
    tcpv4NodeIdMatches a b = true ↔ b = a := by
  have h_none := tcpv4NodeIdIpn_large h h_part h_large
  have h_key : nodeKey a = .inr a := by rw [nodeKey, h_none]
  constructor
  · intro h_match
    obtain ⟨-, h_same, -⟩ := Tcpv4.matches_iff.mp h_match
    rw [h_key, nodeKey] at h_same
    split at h_same
    · cases h_same
    · exact (Sum.inr.inj h_same).symm
  · rintro rfl
    refine matches_refl ?_
    rintro rfl
    obtain ⟨scheme, h_scheme, h_text⟩ := h.text
    have h_nil : scheme = [] := by
      rcases h_text with h_text | ⟨-, h_text⟩
      · exact (List.append_eq_nil_iff.mp h_text.symm).1
      · exact (List.append_eq_nil_iff.mp h_text.symm).1
    rw [h_nil] at h_scheme
    cases h_scheme

end IonContrib.Tcpv4
