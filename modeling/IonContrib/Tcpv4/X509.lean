/-
  IonContrib.Tcpv4.X509

  Node IDs out of a peer's certificate (`tcpv4x509.c`), and what the handshake
  makes of them (`tcpv4TlsMatchNodeId` of the GnuTLS backend).

  A certificate counts for the node IDs in it only: an endpoint ID that names a
  service is passed over.  Which URIs name a node is decided twice, here by the
  text and in `tcpv4NodeIdIpn` by the numbers.  `readParts_last` is what carries
  the comparison: a text that ends in ".0" and reads as ipn components to its end
  has 0 for its last component.
-/
import IonContrib.Tcpv4.NodeId
import Mathlib.Data.Nat.Log

namespace IonContrib.Tcpv4

open Octets

/-! ## DER -/

/-- Where the contents of the value at `off` start and how long they are, if it has that tag. -/
def derTlv (der : Octets) (len off : Nat) (tag : UInt8) : Option (Nat × Nat) :=
  if off ≥ len ∨ len - off < 2 ∨ der.getD off 0 ≠ tag then none
  else
    let b := (der.getD (off + 1) 0).toNat
    let i := off + 2
    if b < 0x80 then
      if b > len - i then none else some (i, b)
    else
      let octets := b % 0x80
      if octets = 0 ∨ octets > 8 ∨ len - i < octets then none
      else
        let n := beNat ((der.drop i).take octets)
        if n > len - (i + octets) then none else some (i + octets, n)

/-- A length in DER: itself below 128, else the number of its octets and the octets. -/
def derLength (n : Nat) : Octets :=
  if n < 0x80 then [UInt8.ofNat n]
  else UInt8.ofNat (0x80 + (Nat.log 256 n + 1)) :: beBytes (Nat.log 256 n + 1) n

/-- The DER of a value. -/
def der (tag : UInt8) (contents : Octets) : Octets :=
  tag :: (derLength contents.length ++ contents)

theorem getD_append_add (pre xs : Octets) (k : Nat) :
    (pre ++ xs).getD (pre.length + k) 0 = xs.getD k 0 := by
  simp [List.getD_eq_getElem?_getD, List.getElem?_append_right]

/-- `derTlv` reads back what `der` wrote, wherever it stands. -/
theorem derTlv_der (pre suf contents : Octets) (tag : UInt8) {len : Nat}
    (h_room : contents.length < 256 ^ 8)
    (h_len : pre.length + (der tag contents).length ≤ len) :
    derTlv (pre ++ (der tag contents ++ suf)) len pre.length tag =
      some (pre.length + 1 + (derLength contents.length).length, contents.length) := by
  have h_tag : (pre ++ (der tag contents ++ suf)).getD pre.length 0 = tag := by
    simp [der]
  rw [der, List.length_cons, List.length_append] at h_len
  unfold derTlv
  by_cases h_short : contents.length < 0x80
  · have h_lens : derLength contents.length = [UInt8.ofNat contents.length] := if_pos h_short
    have h_b : ((pre ++ (der tag contents ++ suf)).getD (pre.length + 1) 0).toNat =
        contents.length := by
      rw [getD_append_add, der, h_lens]
      simp
      omega
    rw [h_lens] at h_len ⊢
    rw [List.length_singleton] at h_len ⊢
    rw [if_neg (by rw [h_tag]; rintro (h | h | h) <;> first | omega | exact h rfl)]
    simp only [h_b, h_short, if_true]
    rw [if_neg (by omega)]
  · have h_lens : derLength contents.length =
        UInt8.ofNat (0x80 + (Nat.log 256 contents.length + 1)) ::
          beBytes (Nat.log 256 contents.length + 1) contents.length := if_neg h_short
    generalize h_k : Nat.log 256 contents.length + 1 = k at h_lens
    have h_k8 : k ≤ 8 := by
      have h_log : Nat.log 256 contents.length < 8 :=
        Nat.log_lt_of_lt_pow (by omega) h_room
      omega
    have h_fits : contents.length < 256 ^ k := by
      rw [← h_k]
      exact Nat.lt_pow_succ_log_self (by omega) _
    have h_b : ((pre ++ (der tag contents ++ suf)).getD (pre.length + 1) 0).toNat = 0x80 + k := by
      rw [getD_append_add, der, h_lens]
      simp
      omega
    have h_n : beNat (((pre ++ (der tag contents ++ suf)).drop (pre.length + 2)).take k) =
        contents.length := by
      have h_drop : (pre ++ (der tag contents ++ suf)).drop (pre.length + 2) =
          beBytes k contents.length ++ (contents ++ suf) := by
        rw [List.drop_append, List.drop_of_length_le (by omega), der, h_lens]
        simp
      rw [h_drop, List.take_append_of_le_length (by simp), List.take_of_length_le (by simp)]
      exact beNat_beBytes h_fits
    rw [h_lens, List.length_cons, length_beBytes] at h_len
    rw [if_neg (by rw [h_tag]; rintro (h | h | h) <;> first | omega | exact h rfl)]
    have h_mod : (0x80 + k) % 0x80 = k := by omega
    simp only [h_b, h_mod, h_n]
    rw [if_neg (by omega), if_neg (by omega), if_neg (by omega), h_lens]
    simp only [List.length_cons, length_beBytes]
    rw [show pre.length + 2 + k = pre.length + 1 + (k + 1) by omega]

def derTagWrapper : UInt8 := 0xa0
def derTagIa5String : UInt8 := 0x16

/-- The URI of a BundleEID, into a buffer of `cap` octets. -/
def tcpv4X509BundleEid (der : Octets) (cap : Nat) : Option Octets :=
  if cap = 0 then none
  else
    -- Descend into the [0] wrapper, if there is one.
    let (stop, off) :=
      match derTlv der der.length 0 derTagWrapper with
      | some (off, vlen) => (off + vlen, off)
      | none => (der.length, 0)
    match derTlv der stop off derTagIa5String with
    | none => none
    | some (off, vlen) =>
      if vlen = 0 ∨ vlen ≥ cap then none
      else
        let into := (der.drop off).take vlen
        -- A URI with a NUL in it would read as a shorter one.
        if (0 : UInt8) ∈ into then none else some into

/-- A URI comes out of its IA5String as it went in. -/
theorem tcpv4X509BundleEid_ia5 {uri : Octets} {cap : Nat} (h_nil : uri ≠ [])
    (h_text : (0 : UInt8) ∉ uri) (h_cap : uri.length < cap) (h_room : uri.length < 256 ^ 8) :
    tcpv4X509BundleEid (der derTagIa5String uri) cap = some uri := by
  have h_wrapper : derTlv (der derTagIa5String uri) (der derTagIa5String uri).length 0
      derTagWrapper = none := by
    unfold derTlv
    exact if_pos (.inr (.inr (by simp [der, derTagIa5String, derTagWrapper])))
  have h_tlv : derTlv (der derTagIa5String uri) (der derTagIa5String uri).length 0
      derTagIa5String = some (1 + (derLength uri.length).length, uri.length) := by
    have h := derTlv_der [] [] uri derTagIa5String h_room (Nat.le_of_eq (Nat.zero_add _))
    simpa using h
  have h_into : ((der derTagIa5String uri).drop (1 + (derLength uri.length).length)).take
      uri.length = uri := by
    rw [der, Nat.add_comm, List.drop_succ_cons, List.drop_left, List.take_length]
  have h_pos : 0 < uri.length := List.length_pos_of_ne_nil h_nil
  unfold tcpv4X509BundleEid
  rw [if_neg (by omega)]
  simp only [h_wrapper, h_tlv, h_into]
  rw [if_neg (by omega), if_neg h_text]

/-! ## Which URIs name a node -/

def ipnColon : Octets := [0x69, 0x70, 0x6e, 0x3a]
def dtnColon : Octets := [0x64, 0x74, 0x6e, 0x3a]
def dtnNone : Octets := dtnColon ++ [0x6e, 0x6f, 0x6e, 0x65]

/-- What an ipn node ID ends in. -/
def dotZero : Octets := [0x2e, 0x30]

def tcpv4X509IsNodeId (uri : Octets) : Bool :=
  if uri.take 4 = ipnColon then
    uri.length > 6 && uri.drop (uri.length - 2) = dotZero
  else if uri.take 4 = dtnColon then
    uri = dtnNone || (uri.length > 6 && uri.getLast? = some 0x2f)
  else true

/-! ## The certificate's node IDs -/

/-- An entry of the subjectAltName list, as the library hands it back. -/
inductive SubjectAltName where
  /-- Some other form of name, or one that does not fit the buffers. -/
  | other
  /-- An otherName, with its OID as text and the DER of its value. -/
  | otherName (oid value : Octets)
  deriving DecidableEq, Repr

/-- "1.3.6.1.5.5.7.8.11" -/
def tcpv4OidBundleEid : Octets :=
  [0x31, 0x2e, 0x33, 0x2e, 0x36, 0x2e, 0x31, 0x2e, 0x35, 0x2e, 0x35, 0x2e, 0x37, 0x2e, 0x38,
    0x2e, 0x31, 0x31]

inductive Tcpv4NodeIdVerdict where
  | success
  | failure
  | absent
  | error
  deriving DecidableEq, Repr

/-- The node ID that an entry carries, if it carries one. -/
def sanNodeId : SubjectAltName → Option Octets
  | .other => none
  | .otherName oid value =>
    if oid ≠ tcpv4OidBundleEid then none
    else
      match tcpv4X509BundleEid value tcpv4MaxNodeIdLen with
      | none => none
      | some uri => if tcpv4X509IsNodeId uri then some uri else none

/-- The loop over the list; it ends at the first entry that matches. -/
def matchNodeIdFrom (nodeId : Octets) : List SubjectAltName → Bool → Tcpv4NodeIdVerdict
  | [], found => if found then .failure else .absent
  | san :: sans, found =>
    match sanNodeId san with
    | none => matchNodeIdFrom nodeId sans found
    | some uri => if uri = nodeId then .success else matchNodeIdFrom nodeId sans true

/-- `none` for a peer whose certificate cannot be had. -/
def tcpv4TlsMatchNodeId (peerCert : Option (List SubjectAltName)) (nodeId : Octets) :
    Tcpv4NodeIdVerdict :=
  if nodeId = [] then .error
  else
    match peerCert with
    | none => .error
    | some sans => matchNodeIdFrom nodeId sans false

/-- A match is an entry that carries the node ID as it is spelled. -/
theorem matchNodeIdFrom_success (nodeId : Octets) (sans : List SubjectAltName) (found : Bool) :
    matchNodeIdFrom nodeId sans found = .success ↔
      ∃ san ∈ sans, sanNodeId san = some nodeId := by
  induction sans generalizing found with
  | nil => cases found <;> simp [matchNodeIdFrom]
  | cons san sans ih =>
    rw [matchNodeIdFrom]
    cases h_san : sanNodeId san with
    | none => simp [h_san, ih]
    | some uri =>
      by_cases h_uri : uri = nodeId
      · simp [h_san, h_uri]
      · simp [h_san, h_uri, ih]

theorem tcpv4TlsMatchNodeId_success (peerCert : Option (List SubjectAltName)) (nodeId : Octets) :
    tcpv4TlsMatchNodeId peerCert nodeId = .success ↔
      nodeId ≠ [] ∧ ∃ sans, peerCert = some sans ∧
        ∃ san ∈ sans, sanNodeId san = some nodeId := by
  unfold tcpv4TlsMatchNodeId
  by_cases h_nil : nodeId = []
  · simp [h_nil]
  · cases peerCert with
    | none => simp [h_nil]
    | some sans => simp [h_nil, matchNodeIdFrom_success]

/-- What an entry carries is a BundleEID that passes for a node ID. -/
theorem sanNodeId_some {san : SubjectAltName} {uri : Octets} (h : sanNodeId san = some uri) :
    (∃ value, tcpv4X509BundleEid value tcpv4MaxNodeIdLen = some uri) ∧
      tcpv4X509IsNodeId uri = true := by
  cases san with
  | other => cases h
  | otherName oid value =>
    simp only [sanNodeId] at h
    split at h
    · cases h
    · split at h
      · cases h
      · rename_i h_eid
        split at h
        · rename_i h_is
          cases h
          exact ⟨⟨value, h_eid⟩, h_is⟩
        · cases h

/-- A BundleEID is text that fits its buffer. -/
theorem tcpv4X509BundleEid_text {value uri : Octets} {cap : Nat}
    (h : tcpv4X509BundleEid value cap = some uri) : (0 : UInt8) ∉ uri ∧ uri.length < cap := by
  unfold tcpv4X509BundleEid at h
  split at h
  · cases h
  · simp only at h
    split at h
    · cases h
    · split at h
      · cases h
      · rename_i h_vlen
        split at h
        · cases h
        · rename_i h_nul
          cases h
          refine ⟨h_nul, ?_⟩
          rw [List.length_take]
          omega

/-- A certificate for a URI, and nothing else. -/
def certFor (uri : Octets) : List SubjectAltName :=
  [.otherName tcpv4OidBundleEid (der derTagIa5String uri)]

/-- It carries the URI if that passes for a node ID. -/
theorem sanNodeId_certFor {uri : Octets} (h_nil : uri ≠ []) (h_text : (0 : UInt8) ∉ uri)
    (h_fits : uri.length < tcpv4MaxNodeIdLen) (h_is : tcpv4X509IsNodeId uri = true) :
    ∃ san ∈ certFor uri, sanNodeId san = some uri := by
  refine ⟨_, List.mem_singleton_self _, ?_⟩
  have h_room : uri.length < 256 ^ 8 := by
    rw [tcpv4MaxNodeIdLen] at h_fits
    omega
  rw [sanNodeId, if_neg (by decide), tcpv4X509BundleEid_ia5 h_nil h_text h_fits h_room]
  exact if_pos h_is

/-! ## ipn URIs by their numbers -/

/-- The service number of an ipn URI: the last of two or three components. -/
def ipnService (uri : Octets) : Option Nat :=
  if (uri.take 4).map lowerOctet ≠ ipnColon then none
  else
    match readParts 3 (uri.drop 4) with
    | some ([_, service], []) => some service
    | some ([_, _, service], []) => some service
    | _ => none

/-- Service number 0 or none: the URI stands for a node, not for a service on it. -/
def NamesNode (uri : Octets) : Prop := ∀ service, ipnService uri = some service → service = 0

/-- What `readComponent` reads is digits, and what is left begins with none. -/
theorem readComponentFrom_eq_some {cursor rest : Octets} {n digits value : Nat}
    (h : readComponentFrom cursor n digits = some (value, rest)) :
    ∃ text, cursor = text ++ rest ∧ text.all isDigit = true ∧
      (∀ c ∈ rest.head?, isDigit c = false) ∧ (digits = 0 → text ≠ []) := by
  induction cursor generalizing n digits with
  | nil =>
    rw [readComponentFrom] at h
    split at h
    · cases h
    · rename_i h_digits
      cases h
      exact ⟨[], rfl, rfl, by simp, fun h => absurd h h_digits⟩
  | cons c cursor ih =>
    rw [readComponentFrom] at h
    split at h
    · rename_i h_digit
      simp only at h
      split at h
      · cases h
      · obtain ⟨text, h_cursor, h_all, h_rest, -⟩ := ih h
        refine ⟨c :: text, by rw [h_cursor]; rfl, ?_, h_rest, fun _ => List.cons_ne_nil _ _⟩
        rw [List.all_cons, h_digit, h_all]
        rfl
    · rename_i h_digit
      split at h
      · cases h
      · rename_i h_digits
        cases h
        exact ⟨[], rfl, rfl, by simpa using h_digit, fun h => absurd h h_digits⟩

/-- What a round of `tcpv4NodeIdIpn`'s loop leaves: the text is at its end, or a dot and more. -/
theorem readParts_succ {count : Nat} {cursor : Octets} {values : List Nat}
    (h : readParts (count + 1) cursor = some (values, [])) :
    ∃ value text, text.all isDigit = true ∧
      ((cursor = text ∧ values = [value]) ∨
        ∃ rest values', cursor = text ++ 0x2e :: rest ∧ values = value :: values' ∧
          readParts count rest = some (values', [])) := by
  rw [readParts] at h
  cases h_read : readComponent cursor with
  | none => rw [h_read] at h; cases h
  | some p =>
    obtain ⟨value, cursor'⟩ := p
    obtain ⟨text, h_cursor, h_all, -, -⟩ := readComponentFrom_eq_some h_read
    rw [h_read] at h
    refine ⟨value, text, h_all, ?_⟩
    simp only at h
    split at h
    · rename_i rest
      obtain ⟨⟨values', rest'⟩, h_rest, h_eq⟩ := Option.map_eq_some_iff.mp h
      cases h_eq
      exact .inr ⟨rest, values', h_cursor, rfl, h_rest⟩
    · cases h
      exact .inl ⟨by rw [h_cursor, List.append_nil], rfl⟩

/-- "0" is the component 0. -/
theorem readParts_zero {count : Nat} {values : List Nat}
    (h : readParts count [0x30] = some (values, [])) : values = [0] := by
  cases count with
  | zero => cases h
  | succ count =>
    have h_read : readParts (count + 1) [0x30] = some ([0], []) := rfl
    rw [h_read] at h
    cases h
    rfl

/-- A text that ends in ".0" and is read to its end has 0 for its last component, and one
    before it. -/
theorem readParts_last {count : Nat} {pre : Octets} {values : List Nat}
    (h : readParts count (pre ++ dotZero) = some (values, [])) :
    ∃ init, init ≠ [] ∧ values = init ++ [0] := by
  have h_dot : ∀ text : Octets, text.all isDigit = true → (0x2e : UInt8) ∉ text := by
    intro text h_all h_mem
    have h_digit := List.all_eq_true.mp h_all _ h_mem
    revert h_digit
    decide
  induction count generalizing pre values with
  | zero =>
    have h_nil : pre ++ dotZero = [] := congrArg Prod.snd (Option.some.inj h)
    exact absurd h_nil (by simp [dotZero])
  | succ count ih =>
    obtain ⟨value, text, h_all, ⟨h_end, -⟩ | ⟨rest, values', h_text, rfl, h_rest⟩⟩ :=
      readParts_succ h
    · -- The components before the dot have no dot in them.
      refine absurd ?_ (h_dot text h_all)
      rw [← h_end]
      simp [dotZero]
    · have h_last : rest = [0x30] → ∃ init, init ≠ [] ∧ value :: values' = init ++ [0] := by
        rintro rfl
        rw [readParts_zero h_rest]
        exact ⟨[value], List.cons_ne_nil _ _, rfl⟩
      rcases List.append_eq_append_iff.mp h_text with ⟨mid, h_mid, h_eq⟩ | ⟨mid, h_mid, h_eq⟩
      · -- The first dot is past `pre`, so it is the one of ".0".
        cases mid with
        | nil =>
          cases h_eq
          exact h_last rfl
        | cons c mid =>
          refine absurd ?_ (h_dot text h_all)
          have h_c : c = 0x2e := (List.cons.inj h_eq).1.symm
          rw [h_mid, h_c]
          simp
      · cases mid with
        | nil =>
          cases h_eq
          exact h_last rfl
        | cons c mid =>
          have h_tail : rest = mid ++ dotZero := (List.cons.inj h_eq).2
          rw [h_tail] at h_rest
          obtain ⟨init, -, h_init⟩ := ih h_rest
          exact ⟨value :: init, List.cons_ne_nil _ _, by rw [h_init]; rfl⟩

/-- The text of an ipn node ID in lower case ends in ".0". -/
theorem tcpv4X509IsNodeId_ipn {uri : Octets} (h_lower : uri.take 4 = ipnColon)
    (h : tcpv4X509IsNodeId uri = true) : ∃ pre, uri.drop 4 = pre ++ dotZero := by
  rw [tcpv4X509IsNodeId, if_pos h_lower, Bool.and_eq_true, decide_eq_true_eq,
    decide_eq_true_eq] at h
  obtain ⟨h_len, h_end⟩ := h
  refine ⟨(uri.drop 4).take (uri.length - 6), ?_⟩
  have h_tail : (uri.drop 4).drop (uri.length - 6) = dotZero := by
    rw [List.drop_drop, show 4 + (uri.length - 6) = uri.length - 2 by omega, h_end]
  rw [← h_tail, List.take_append_drop]

/-- A scheme in any other spelling is one `tcpv4X509IsNodeId` has no rule for. -/
theorem tcpv4X509IsNodeId_of_spelling {uri : Octets}
    (h_ipn : (uri.take 4).map lowerOctet = ipnColon) (h_spelling : uri.take 4 ≠ ipnColon) :
    tcpv4X509IsNodeId uri = true := by
  have h_dtn : uri.take 4 ≠ dtnColon := by
    intro h_eq
    rw [h_eq] at h_ipn
    exact absurd h_ipn (by decide)
  rw [tcpv4X509IsNodeId, if_neg h_spelling, if_neg h_dtn]

/-- Only a URI that the engine reads as ipn has a service number. -/
theorem ipn_of_ipnService {uri : Octets} {service : Nat} (h : ipnService uri = some service) :
    (uri.take 4).map lowerOctet = ipnColon ∧ (tcpv4NodeIdIpn uri).isSome := by
  rw [ipnService] at h
  split at h
  · cases h
  · rename_i h_ipn
    have h_scheme : (uri.take 4).map lowerOctet = ipnColon := not_not.mp h_ipn
    refine ⟨h_scheme, ?_⟩
    rw [ipnColon] at h_ipn
    rw [tcpv4NodeIdIpn, if_neg h_ipn]
    split at h
    · rename_i h_parts
      rw [h_parts]
      rfl
    · rename_i h_parts
      rw [h_parts]
      rfl
    · cases h

/-- In lower case the two readings agree. -/
theorem namesNode_of_isNodeId {uri : Octets} (h_lower : uri.take 4 = ipnColon)
    (h : tcpv4X509IsNodeId uri = true) : NamesNode uri := by
  intro service h_service
  obtain ⟨pre, h_pre⟩ := tcpv4X509IsNodeId_ipn h_lower h
  rw [ipnService, if_neg (not_not.mpr (ipn_of_ipnService h_service).1), h_pre] at h_service
  split at h_service
  · rename_i h_parts
    obtain ⟨init, -, h_init⟩ := readParts_last h_parts
    cases h_service
    have h_last := congrArg List.getLast? h_init
    simpa using h_last
  · rename_i h_parts
    obtain ⟨init, -, h_init⟩ := readParts_last h_parts
    cases h_service
    have h_last := congrArg List.getLast? h_init
    simpa using h_last
  · cases h_service

/-! ## Where the two notions of a node ID agree -/

/-- An ipn URI that passes for a node ID stands for a node. -/
def NotionsAgree (uri : Octets) : Prop :=
  tcpv4X509IsNodeId uri = true → (tcpv4NodeIdIpn uri).isSome → NamesNode uri

/-- A certificate that authenticates a session under an ipn URI was issued for a node. -/
def CertifiesNode (uri : Octets) : Prop :=
  ∀ peerCert, tcpv4TlsMatchNodeId peerCert uri = .success → (tcpv4NodeIdIpn uri).isSome →
    NamesNode uri

/-- The scheme is in lower case, or there is no service number other than 0. -/
def LowerOrNode (uri : Octets) : Prop := uri.take 4 = ipnColon ∨ NamesNode uri

theorem notionsAgree_iff (uri : Octets) : NotionsAgree uri ↔ LowerOrNode uri := by
  constructor
  · intro h_agree
    by_cases h_lower : uri.take 4 = ipnColon
    · exact .inl h_lower
    · refine .inr fun service h_service => ?_
      obtain ⟨h_ipn, h_read⟩ := ipn_of_ipnService h_service
      exact h_agree (tcpv4X509IsNodeId_of_spelling h_ipn h_lower) h_read service h_service
  · rintro (h_lower | h_node) h_is -
    · exact namesNode_of_isNodeId h_lower h_is
    · exact h_node

/-- What authenticates a session is in the certificate, and has passed for a node ID. -/
theorem certifiesNode_iff (uri : Octets) :
    CertifiesNode uri ↔
      LowerOrNode uri ∨ (0 : UInt8) ∈ uri ∨ tcpv4MaxNodeIdLen ≤ uri.length := by
  constructor
  · intro h_certifies
    by_cases h_text : (0 : UInt8) ∈ uri
    · exact .inr (.inl h_text)
    · by_cases h_fits : uri.length < tcpv4MaxNodeIdLen
      · by_cases h_lower : uri.take 4 = ipnColon
        · exact .inl (.inl h_lower)
        · refine .inl (.inr fun service h_service => ?_)
          obtain ⟨h_ipn, h_read⟩ := ipn_of_ipnService h_service
          have h_is := tcpv4X509IsNodeId_of_spelling h_ipn h_lower
          have h_nil : uri ≠ [] := by
            rintro rfl
            exact absurd h_ipn (by decide)
          have h_match : tcpv4TlsMatchNodeId (some (certFor uri)) uri = .success :=
            (tcpv4TlsMatchNodeId_success _ _).mpr
              ⟨h_nil, _, rfl, sanNodeId_certFor h_nil h_text h_fits h_is⟩
          exact h_certifies _ h_match h_read service h_service
      · exact .inr (.inr (by omega))
  · intro h_cond peerCert h_match h_read
    obtain ⟨-, sans, -, san, -, h_san⟩ := (tcpv4TlsMatchNodeId_success _ _).mp h_match
    obtain ⟨⟨value, h_eid⟩, h_is⟩ := sanNodeId_some h_san
    obtain ⟨h_text, h_fits⟩ := tcpv4X509BundleEid_text h_eid
    rcases h_cond with h_or | h_nul | h_long
    · exact (notionsAgree_iff uri).mpr h_or h_is h_read
    · exact absurd h_nul h_text
    · omega

/-- The two notions of an ipn node ID agree on a URI in lower case, and otherwise on one that
    has no service number other than 0; a certificate for any other URI that fits and has no
    NUL in it authenticates a session as the node. -/
theorem node_id_notions (uri : Octets) :
    (NotionsAgree uri ↔ LowerOrNode uri) ∧
      (CertifiesNode uri ↔
        LowerOrNode uri ∨ (0 : UInt8) ∈ uri ∨ tcpv4MaxNodeIdLen ≤ uri.length) :=
  ⟨notionsAgree_iff uri, certifiesNode_iff uri⟩

/-- "IPN:5.7" -/
def serviceUri : Octets := [0x49, 0x50, 0x4e, 0x3a, 0x35, 0x2e, 0x37]

/-- It passes for a node ID, is read as service 7 on node 5, and its certificate authenticates
    a session that then counts as one with "ipn:5.0". -/
theorem service_certified :
    (¬ NotionsAgree serviceUri ∧ ¬ CertifiesNode serviceUri) ∧
      tcpv4X509IsNodeId serviceUri = true ∧ tcpv4NodeIdIpn serviceUri = some (0, 5) ∧
      ipnService serviceUri = some 7 ∧
      tcpv4TlsMatchNodeId (some (certFor serviceUri)) serviceUri = .success ∧
      tcpv4NodeIdMatches serviceUri [0x69, 0x70, 0x6e, 0x3a, 0x35, 0x2e, 0x30] = true := by
  have h_is : tcpv4X509IsNodeId serviceUri = true := by decide
  have h_ipn : tcpv4NodeIdIpn serviceUri = some (0, 5) := by decide
  have h_service : ipnService serviceUri = some 7 := by decide
  have h_match : tcpv4TlsMatchNodeId (some (certFor serviceUri)) serviceUri = .success := by
    refine (tcpv4TlsMatchNodeId_success _ _).mpr ⟨by decide, _, rfl, ?_⟩
    exact sanNodeId_certFor (by decide) (by decide) (by decide) h_is
  have h_node : ¬ NamesNode serviceUri := fun h => absurd (h 7 h_service) (by decide)
  have h_read : (tcpv4NodeIdIpn serviceUri).isSome := by rw [h_ipn]; rfl
  refine ⟨⟨fun h => h_node (h h_is h_read), fun h => h_node (h _ h_match h_read)⟩, h_is, h_ipn,
    h_service, h_match, ?_⟩
  decide

end IonContrib.Tcpv4
