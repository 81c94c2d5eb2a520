/-
  IonContrib.DuctName.Exact

  Where the four parsers do what is meant.

  A port is read by `sscanf` and `atoi`, which stop at the first character that
  is no digit and pass over what is in front of the first that is one.  So each
  parser goes wrong on a text that begins like a port and is none (`PlainPort`),
  and `mailParseServerSpec` also where it looks for the at sign from the wrong
  end, and where there is no port to be read.
-/
import IonContrib.DuctName.Parse

namespace IonContrib.DuctName

open Octets CText

/-! ## Being exact -/

section

variable {Parts Parts' Out Out' : Type} {form : Octets → Parts → Prop} {store : Parts → Out → Out}
  {parse : Octets → Out → Out × Int} {form' : Octets → Parts' → Prop}
  {store' : Parts' → Out → Out} {parse' : Octets → Out → Out × Int} {text text' : Octets}
  {out out' : Out}

/-- Refusing what is not of the form. -/
theorem exact_of_refused (h_form : ¬ ∃ parts, form text parts) (h : (parse text out).2 = -1) :
    Exact form store parse text out :=
  ⟨fun parts h_parts => absurd ⟨parts, h_parts⟩ h_form, fun _ => h⟩

/-- Accepting what can be taken apart in one way. -/
theorem exact_of_accepted (parts : Parts) (h_form : ∀ p, form text p ↔ p = parts)
    (h : parse text out = (store parts out, 0)) : Exact form store parse text out where
  accepts p h_p := by rw [(h_form p).mp h_p, h]
  refuses h_none := absurd ⟨parts, (h_form parts).mpr rfl⟩ h_none

/-- Accepting what is not of the form is not exact. -/
theorem not_exact_of_accepted (h_form : ¬ ∃ parts, form text parts) (h : (parse text out).2 = 0) :
    ¬ Exact form store parse text out := by
  intro h_exact
  have h_refused := h_exact.refuses h_form
  omega

/-- One parser is exact where another is to which it leaves the text. -/
theorem exact_congr (build : Parts' → Parts)
    (h_form : ∀ p, form text p ↔ ∃ p', p = build p' ∧ form' text' p')
    (h_store : ∀ p', store (build p') out = store' p' out')
    (h_parse : parse text out = parse' text' out') :
    Exact form store parse text out ↔ Exact form' store' parse' text' out' := by
  have h_none : (∃ p, form text p) ↔ ∃ p', form' text' p' := by
    constructor
    · rintro ⟨p, h_p⟩
      obtain ⟨p', -, h_p'⟩ := (h_form p).mp h_p
      exact ⟨p', h_p'⟩
    · rintro ⟨p', h_p'⟩
      exact ⟨build p', (h_form _).mpr ⟨p', rfl, h_p'⟩⟩
  constructor
  · rintro ⟨h_acc, h_ref⟩
    refine ⟨fun p' h_p' => ?_, fun h => ?_⟩
    · rw [← h_parse, ← h_store, h_acc _ ((h_form _).mpr ⟨p', rfl, h_p'⟩)]
    · rw [← h_parse]
      exact h_ref (h_none.not.mpr h)
  · rintro ⟨h_acc, h_ref⟩
    refine ⟨fun p h_p => ?_, fun h => ?_⟩
    · obtain ⟨p', rfl, h_p'⟩ := (h_form p).mp h_p
      rw [h_parse, h_store, h_acc p' h_p']
    · rw [h_parse]
      exact h_ref (h_none.not.mp h)

/-! ## Ports -/

/-- What is taken for a port. -/
def PortLike (text : Octets) (port : Int) : Prop :=
  scanInt text = some port ∧ 1 ≤ port ∧ port ≤ 65535

/-- The text is taken for a port only if it is one. -/
def PlainPort (text : Octets) : Prop := ∀ port, PortLike text port → PortText text port

theorem PortText.like {text : Octets} {port : Int} (h : PortText text port) :
    PortLike text port := by
  obtain ⟨h_ne, h_digits, rfl, h_low, h_high⟩ := h
  have h_number := @number_digits text [] h_ne h_digits (by simp)
  rw [List.append_nil] at h_number
  refine ⟨?_, h_low, h_high⟩
  rw [scanInt, h_number, Option.map_some, toInt_toLong (by omega)]

theorem PortLike.inj {text : Octets} {port port' : Int} (h : PortLike text port)
    (h' : PortLike text port') : port = port' :=
  Option.some.inj (h.1.symm.trans h'.1)

theorem PortText.notMem {text : Octets} {port : Int} {c : UInt8} (h : PortText text port)
    (h_c : isDigit c = false) : c ∉ text := by
  intro h_mem
  rw [List.all_eq_true.mp h.2.1 c h_mem] at h_c
  cases h_c

/-- A parser that does everything right but the port. -/
theorem exact_iff_plainPort (rest : Octets) (build : Int → Parts)
    (h_form : ∀ p, form text p ↔ ∃ port, p = build port ∧ PortText rest port)
    (h_like : ∀ port, PortLike rest port → parse text out = (store (build port) out, 0))
    (h_unlike : (¬ ∃ port, PortLike rest port) → (parse text out).2 = -1) :
    Exact form store parse text out ↔ PlainPort rest := by
  constructor
  · intro h_exact port h_port
    by_contra h_bad
    refine not_exact_of_accepted ?_ (by rw [h_like port h_port]) h_exact
    rintro ⟨p, h_p⟩
    obtain ⟨port', -, h_port'⟩ := (h_form p).mp h_p
    exact h_bad (h_port.inj h_port'.like ▸ h_port')
  · intro h_plain
    refine ⟨fun p h_p => ?_, fun h_none => h_unlike ?_⟩
    · obtain ⟨port, rfl, h_port⟩ := (h_form p).mp h_p
      exact h_like port h_port.like
    · rintro ⟨port, h_port⟩
      exact h_none ⟨build port, (h_form _).mpr ⟨port, rfl, h_plain port h_port⟩⟩

end

/-- The check of the length of a host. -/
theorem hostText_iff {cap : Nat} {host : Octets} :
    ¬ (host.length = 0 ∨ host.length ≥ cap) ↔ HostText cap host := by
  rw [not_or, List.length_eq_zero_iff, Nat.not_le, HostText]

/-- What stands behind the colon is a port, is taken for one, or is not. -/
theorem scan_cases (text : Octets) :
    (∃ port, PortLike text port) ∨
      scanInt text = none ∨ ∃ port, scanInt text = some port ∧ (port ≤ 0 ∨ port > 65535) := by
  cases h_scan : scanInt text with
  | none => exact .inr (.inl rfl)
  | some port =>
    by_cases h_range : port ≤ 0 ∨ port > 65535
    · exact .inr (.inr ⟨port, rfl, h_range⟩)
    · exact .inl ⟨port, h_scan, by omega, by omega⟩

/-! ## Hosts and ports -/

/-- The part behind the first colon, if there is one and a host in front of it, is taken for a port
    only if it is one. -/
def HostPortPlain (maxHost : Nat) (ductName : Octets) : Prop :=
  ∀ host rest, splitFirst 0x3a ductName = some (host, rest) → HostText maxHost host → PlainPort rest

theorem hostPort_of_colon {maxHost : Nat} {host rest : Octets} (h_colon : 0x3a ∉ host)
    (parts : Octets × Option Int) :
    HostPort (DuctHost maxHost) (host ++ 0x3a :: rest) parts.1 parts.2 ↔
      HostText maxHost host ∧ ∃ port, parts = (host, some port) ∧ PortText rest port := by
  obtain ⟨host', port'⟩ := parts
  constructor
  · intro h
    generalize h_text : host ++ 0x3a :: rest = text at h
    cases h with
    | bare h_host h_none =>
      rw [← h_text] at h_none
      exact absurd (List.mem_append_right _ List.mem_cons_self) h_none
    | port h_host h_port =>
      obtain ⟨rfl, rfl⟩ := separator_inj h_colon h_host.2 h_text
      exact ⟨h_host.1, _, rfl, h_port⟩
  · rintro ⟨h_host, port, h_eq, h_port⟩
    obtain ⟨rfl, rfl⟩ := Prod.mk.inj h_eq
    exact .port ⟨h_host, h_colon⟩ h_port

theorem hostPort_of_noColon {isHost : Octets → Prop} {text : Octets} (h_colon : 0x3a ∉ text)
    (parts : Octets × Option Int) :
    HostPort isHost text parts.1 parts.2 ↔ isHost text ∧ parts = (text, none) := by
  obtain ⟨host', port'⟩ := parts
  constructor
  · rintro (⟨h_host, -⟩ | ⟨h_host, h_port⟩)
    · exact ⟨h_host, rfl⟩
    · exact absurd (List.mem_append_right _ List.mem_cons_self) h_colon
  · rintro ⟨h_host, h_eq⟩
    obtain ⟨rfl, rfl⟩ := Prod.mk.inj h_eq
    exact .bare h_host h_colon

/-- **"host[:port]"** is read as it is meant unless what is behind the colon only begins like a
    port. -/
theorem parseHostPort_exact_iff (maxHost : Nat) (ductName : Octets) (out : DuctOut) :
    HostPortExact maxHost (parseHostPort maxHost) ductName out ↔
      HostPortPlain maxHost ductName := by
  unfold HostPortExact HostPortPlain
  cases h_split : splitFirst 0x3a ductName with
  | none =>
    have h_colon := splitFirst_eq_none_iff.mp h_split
    refine iff_of_true ?_ (by simp)
    by_cases h_host : HostText maxHost ductName
    · refine exact_of_accepted (ductName, none) (fun p => ?_) ?_
      · rw [hostPort_of_noColon h_colon, and_iff_right ⟨h_host, h_colon⟩]
      · rw [parseHostPort, h_split]
        dsimp only
        rw [if_neg (hostText_iff.mpr h_host), List.take_of_length_le (Nat.le_sub_one_of_lt h_host.2)]
        rfl
    · refine exact_of_refused ?_ ?_
      · rintro ⟨p, h_p⟩
        exact h_host ((hostPort_of_noColon h_colon p).mp h_p).1.1
      · rw [parseHostPort, h_split]
        dsimp only
        rw [if_pos (not_not.mp (hostText_iff.not.mpr h_host))]
  | some found =>
    obtain ⟨host, rest⟩ := found
    obtain ⟨h_colon, rfl⟩ := splitFirst_eq_some_iff.mp h_split
    by_cases h_host : HostText maxHost host
    · have h_unread (h_scan : scanInt rest = none) :
          parseHostPort maxHost (host ++ 0x3a :: rest) out = ({ out with host := host }, -1) := by
        rw [parseHostPort, h_split]
        dsimp only
        rw [if_neg (hostText_iff.mpr h_host), h_scan]
      have h_read {port : Int} (h_scan : scanInt rest = some port) :
          parseHostPort maxHost (host ++ 0x3a :: rest) out =
            if port ≤ 0 ∨ port > 65535 then (⟨host, port⟩, -1) else (⟨host, port⟩, 0) := by
        rw [parseHostPort, h_split]
        dsimp only
        rw [if_neg (hostText_iff.mpr h_host), h_scan]
      rw [exact_iff_plainPort rest fun port => (host, some port)]
      · simp [h_host]
      · intro p
        rw [hostPort_of_colon h_colon, and_iff_right h_host]
      · intro port h_port
        rw [h_read h_port.1]
        exact if_neg (by have := h_port.2; omega)
      · intro h_none
        rcases scan_cases rest with h_like | h_scan | ⟨port, h_scan, h_range⟩
        · exact absurd h_like h_none
        · rw [h_unread h_scan]
        · rw [h_read h_scan, if_pos h_range]
    · refine iff_of_true (exact_of_refused ?_ ?_) ?_
      · rintro ⟨p, h_p⟩
        exact h_host ((hostPort_of_colon h_colon p).mp h_p).1
      · rw [parseHostPort, h_split]
        dsimp only
        rw [if_pos (not_not.mp (hostText_iff.not.mpr h_host))]
      · intro host' rest' h_eq h_host'
        obtain ⟨rfl, rfl⟩ := Prod.mk.inj (Option.some.inj h_eq)
        exact absurd h_host' h_host

/-! ## Hosts, ports and suffixes -/

/-- The part between the first colon and the slash behind it, where the parts around it are right,
    is taken for a port only if it is one. -/
def MqttPlain (ductName : Octets) : Prop :=
  ∀ host rest text suffix, splitFirst 0x3a ductName = some (host, rest) →
    splitFirst 0x2f rest = some (text, suffix) → HostText mqttMaxHostLen host →
    suffix ≠ [] ∧ suffix.length < mqttMaxTopicLen → PlainPort text

theorem ends_slash : Ends 0x2f := ⟨by decide, by decide, by decide, by decide⟩

/-- The scan ends at the slash. -/
theorem scanInt_slash (text suffix : Octets) : scanInt (text ++ 0x2f :: suffix) = scanInt text := by
  rw [scanInt, number_append_stop ends_slash, Option.map_map]
  rfl

theorem hostPortSuffix_iff {host text : Octets} (suffix : Octets) (h_colon : 0x3a ∉ host)
    (h_slash : 0x2f ∉ text) (parts : Octets × Int × Octets) :
    HostPortSuffix (host ++ 0x3a :: (text ++ 0x2f :: suffix)) parts.1 parts.2.1 parts.2.2 ↔
      (HostText mqttMaxHostLen host ∧ suffix ≠ [] ∧ suffix.length < mqttMaxTopicLen) ∧
        ∃ port, parts = (host, port, suffix) ∧ PortText text port := by
  obtain ⟨host', port', suffix'⟩ := parts
  constructor
  · intro h
    generalize h_text : host ++ 0x3a :: (text ++ 0x2f :: suffix) = all at h
    cases h with
    | mk h_host h_none h_port h_suffix =>
      obtain ⟨rfl, h_rest⟩ := separator_inj h_colon h_none h_text
      obtain ⟨rfl, rfl⟩ := separator_inj h_slash (h_port.notMem (by decide)) h_rest
      exact ⟨⟨h_host, h_suffix⟩, port', rfl, h_port⟩
  · rintro ⟨⟨h_host, h_suffix⟩, port, h_eq, h_port⟩
    cases h_eq
    exact .mk h_host h_colon h_port h_suffix

/-- A name without one of the separators is of no form. -/
theorem HostPortSuffix.split {ductName host suffix : Octets} {port : Int}
    (h : HostPortSuffix ductName host port suffix) :
    ∃ text, splitFirst 0x3a ductName = some (host, text ++ 0x2f :: suffix) ∧
      splitFirst 0x2f (text ++ 0x2f :: suffix) = some (text, suffix) := by
  cases h with
  | mk h_host h_colon h_port h_suffix =>
    exact ⟨_, splitFirst_eq_some_iff.mpr ⟨h_colon, rfl⟩,
      splitFirst_eq_some_iff.mpr ⟨h_port.notMem (by decide), rfl⟩⟩

/-- **"host:port/suffix"** is read as it is meant unless what is between the colon and the slash
    only begins like a port. -/
theorem parseMqttDuctName_exact_iff (ductName : Octets) (out : MqttOut) :
    MqttExact ductName out ↔ MqttPlain ductName := by
  unfold MqttExact MqttPlain
  cases h_split : splitFirst 0x3a ductName with
  | none =>
    refine iff_of_true (exact_of_refused ?_ ?_) (by simp)
    · rintro ⟨p, h_p⟩
      obtain ⟨text, h_colon, -⟩ := h_p.split
      rw [h_split] at h_colon
      cases h_colon
    · rw [parseMqttDuctName, h_split]
  | some found =>
    obtain ⟨host, rest⟩ := found
    by_cases h_host : HostText mqttMaxHostLen host
    · cases h_slash : splitFirst 0x2f rest with
      | none =>
        refine iff_of_true (exact_of_refused ?_ ?_) ?_
        · rintro ⟨p, h_p⟩
          obtain ⟨text, h_colon, h_none⟩ := h_p.split
          rw [h_split] at h_colon
          obtain ⟨-, rfl⟩ := Prod.mk.inj (Option.some.inj h_colon)
          rw [h_slash] at h_none
          cases h_none
        · rw [parseMqttDuctName, h_split]
          dsimp only
          rw [if_neg (hostText_iff.mpr h_host), h_slash]
        · rintro host' rest' text suffix h_eq h_some
          obtain ⟨-, rfl⟩ := Prod.mk.inj (Option.some.inj h_eq)
          rw [h_slash] at h_some
          cases h_some
      | some found =>
        obtain ⟨text, suffix⟩ := found
        obtain ⟨h_colon, rfl⟩ := splitFirst_eq_some_iff.mp h_split
        obtain ⟨h_text, rfl⟩ := splitFirst_eq_some_iff.mp h_slash
        have h_unread (h_scan : scanInt text = none) :
            parseMqttDuctName (host ++ 0x3a :: (text ++ 0x2f :: suffix)) out =
              ({ out with host := host }, -1) := by
          rw [parseMqttDuctName, h_split]
          dsimp only
          rw [if_neg (hostText_iff.mpr h_host), h_slash, scanInt_slash, h_scan]
        have h_read {port : Int} (h_scan : scanInt text = some port) :
            parseMqttDuctName (host ++ 0x3a :: (text ++ 0x2f :: suffix)) out =
              if port ≤ 0 ∨ port > 65535 then ({ out with host := host, port := port }, -1)
              else if suffix.length = 0 ∨ suffix.length ≥ mqttMaxTopicLen then
                ({ out with host := host, port := port }, -1)
              else (⟨⟨host, port⟩, suffix.take (mqttMaxTopicLen - 1)⟩, 0) := by
          rw [parseMqttDuctName, h_split]
          dsimp only
          rw [if_neg (hostText_iff.mpr h_host), h_slash, scanInt_slash, h_scan]
        have h_form := hostPortSuffix_iff suffix h_colon h_text
        by_cases h_suffix : suffix ≠ [] ∧ suffix.length < mqttMaxTopicLen
        · rw [exact_iff_plainPort text fun port => (host, port, suffix)]
          · constructor
            · intro h_plain host' rest' text' suffix' h_eq h_eq' _ _
              obtain ⟨-, rfl⟩ := Prod.mk.inj (Option.some.inj h_eq)
              rw [h_slash] at h_eq'
              obtain ⟨rfl, -⟩ := Prod.mk.inj (Option.some.inj h_eq')
              exact h_plain
            · exact fun h_plain => h_plain _ _ _ _ rfl h_slash h_host h_suffix
          · intro p
            rw [h_form, and_iff_right ⟨h_host, h_suffix⟩]
          · intro port h_port
            rw [h_read h_port.1, if_neg (by have := h_port.2; omega),
              if_neg (hostText_iff.mpr h_suffix),
              List.take_of_length_le (Nat.le_sub_one_of_lt h_suffix.2)]
          · intro h_none
            rcases scan_cases text with h_like | h_scan | ⟨port, h_scan, h_range⟩
            · exact absurd h_like h_none
            · rw [h_unread h_scan]
            · rw [h_read h_scan, if_pos h_range]
        · refine iff_of_true (exact_of_refused ?_ ?_) ?_
          · rintro ⟨p, h_p⟩
            exact h_suffix ((h_form p).mp h_p).1.2
          · cases h_scan : scanInt text with
            | none => rw [h_unread h_scan]
            | some port =>
              rw [h_read h_scan, if_pos (not_not.mp (hostText_iff.not.mpr h_suffix)), ite_self]
          · intro host' rest' text' suffix' h_eq h_eq' _ h_suffix'
            obtain ⟨-, rfl⟩ := Prod.mk.inj (Option.some.inj h_eq)
            rw [h_slash] at h_eq'
            obtain ⟨-, rfl⟩ := Prod.mk.inj (Option.some.inj h_eq')
            exact absurd h_suffix' h_suffix
    · refine iff_of_true (exact_of_refused ?_ ?_) ?_
      · rintro ⟨p, h_p⟩
        cases h_p with
        | mk h_host' h_colon' h_port' h_suffix' =>
          rw [splitFirst_eq_some_iff.mpr ⟨h_colon', rfl⟩] at h_split
          obtain ⟨h_eq, -⟩ := Prod.mk.inj (Option.some.inj h_split)
          exact h_host (h_eq ▸ h_host')
      · rw [parseMqttDuctName, h_split]
        dsimp only
        rw [if_pos (not_not.mp (hostText_iff.not.mpr h_host))]
      · intro host' rest' text' suffix' h_eq _ h_host'
        obtain ⟨rfl, -⟩ := Prod.mk.inj (Option.some.inj h_eq)
        exact absurd h_host' h_host

end IonContrib.DuctName
