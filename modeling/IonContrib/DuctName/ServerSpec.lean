/-
  IonContrib.DuctName.ServerSpec

  Where `mailParseServerSpec` does what is meant, and with it all four parsers.

  With one at sign or none there is one place to split a specification, and the
  parser goes wrong behind it: on a port that only begins like one, and on a
  host without a port, whose length it does not look at.  With two at signs it
  splits at the wrong one, and what it then stores as credentials is never what
  is meant (`creds_ne`), so it is right only about what it refuses.
-/
import IonContrib.DuctName.Exact
import IonContrib.Mail.Base64

namespace IonContrib.DuctName

open Octets CText
open Mail (ascii)

/-! ## Behind the credentials -/

/-- A host without a port fits its field, and what is behind the last colon is taken for a port
    only if it is one. -/
def HostPartPlain (hostpart : Octets) : Prop :=
  (splitLast 0x3a hostpart = none → HostText mailMaxHost hostpart) ∧
    ∀ host rest, splitLast 0x3a hostpart = some (host, rest) → HostText mailMaxHost host →
      PlainPort rest

/-- What is taken for a host and a port. -/
def HostPartTaken (hostpart : Octets) : Prop :=
  splitLast 0x3a hostpart = none ∨
    ∃ host rest port, splitLast 0x3a hostpart = some (host, rest) ∧ HostText mailMaxHost host ∧
      PortLike rest port

/-- What `readHostPart` is to do. -/
def HostPartExact (hostpart : Octets) (out : MailOut) : Prop :=
  Exact (fun text (parts : Octets × Option Int) =>
      HostPort (HostText mailMaxHost) text parts.1 parts.2)
    (fun parts out => { out with host := parts.1, port := parts.2.getD 0 }) readHostPart hostpart out

theorem hostPart_of_colon (host : Octets) {rest : Octets} (h_colon : 0x3a ∉ rest)
    (parts : Octets × Option Int) :
    HostPort (HostText mailMaxHost) (host ++ 0x3a :: rest) parts.1 parts.2 ↔
      HostText mailMaxHost host ∧ ∃ port, parts = (host, some port) ∧ PortText rest port := by
  obtain ⟨host', port'⟩ := parts
  constructor
  · intro h
    generalize h_text : host ++ 0x3a :: rest = text at h
    cases h with
    | bare h_host h_none =>
      rw [← h_text] at h_none
      exact absurd (List.mem_append_right _ List.mem_cons_self) h_none
    | @port host' text' port h_host h_port =>
      -- A port has no colon in it, so this is the last.
      have h_last : splitLast 0x3a (host ++ 0x3a :: rest) = some (host', text') :=
        splitLast_eq_some_iff.mpr ⟨h_port.notMem (by decide), h_text⟩
      rw [splitLast_eq_some_iff.mpr ⟨h_colon, rfl⟩] at h_last
      obtain ⟨rfl, rfl⟩ := Prod.mk.inj (Option.some.inj h_last)
      exact ⟨h_host, _, rfl, h_port⟩
  · rintro ⟨h_host, port, h_eq, h_port⟩
    cases h_eq
    exact .port h_host h_port

/-- What becomes of a host with a port. -/
theorem readHostPart_of_colon {host rest : Octets} (h_colon : 0x3a ∉ rest)
    (h_host : HostText mailMaxHost host) (out : MailOut) :
    (∀ port, PortLike rest port →
      readHostPart (host ++ 0x3a :: rest) out = ({ out with host := host, port := port }, 0)) ∧
    ((¬ ∃ port, PortLike rest port) → (readHostPart (host ++ 0x3a :: rest) out).2 = -1) := by
  have h_parse : readHostPart (host ++ 0x3a :: rest) out =
      if (scanInt rest).getD 0 ≤ 0 ∨ (scanInt rest).getD 0 > 65535 then
        ({ out with host := host, port := (scanInt rest).getD 0 }, -1)
      else ({ out with host := host, port := (scanInt rest).getD 0 }, 0) := by
    rw [readHostPart, splitLast_eq_some_iff.mpr ⟨h_colon, rfl⟩]
    dsimp only
    rw [if_neg (hostText_iff.mpr h_host), atoi_eq_scanInt]
  rw [h_parse]
  constructor
  · intro port h_port
    rw [h_port.1, Option.getD_some]
    exact if_neg (by have := h_port.2; omega)
  · intro h_none
    rcases scan_cases rest with h_like | h_scan | ⟨port, h_scan, h_range⟩
    · exact absurd h_like h_none
    · rw [h_scan, Option.getD_none, if_pos (by omega)]
    · rw [h_scan, Option.getD_some, if_pos h_range]

theorem readHostPart_of_badHost {host rest : Octets} (h_colon : 0x3a ∉ rest)
    (h_host : ¬ HostText mailMaxHost host) (out : MailOut) :
    readHostPart (host ++ 0x3a :: rest) out = (out, -1) := by
  rw [readHostPart, splitLast_eq_some_iff.mpr ⟨h_colon, rfl⟩]
  dsimp only
  rw [if_pos (not_not.mp (hostText_iff.not.mpr h_host))]

theorem readHostPart_of_noColon {hostpart : Octets} (h_colon : 0x3a ∉ hostpart) (out : MailOut) :
    readHostPart hostpart out =
      ({ out with host := hostpart.take (mailMaxHost - 1), port := 0 }, 0) := by
  rw [readHostPart, splitLast_eq_none_iff.mpr h_colon]

theorem readHostPart_exact_iff (hostpart : Octets) (out : MailOut) :
    HostPartExact hostpart out ↔ HostPartPlain hostpart := by
  unfold HostPartExact HostPartPlain
  cases h_split : splitLast 0x3a hostpart with
  | none =>
    have h_colon := splitLast_eq_none_iff.mp h_split
    rw [and_iff_left (by simp)]
    constructor
    · intro h_exact _
      by_contra h_host
      refine not_exact_of_accepted ?_ (by rw [readHostPart_of_noColon h_colon]) h_exact
      rintro ⟨p, h_p⟩
      exact h_host ((hostPort_of_noColon h_colon p).mp h_p).1
    · intro h
      have h_host := h rfl
      refine exact_of_accepted (hostpart, none) (fun p => ?_) ?_
      · rw [hostPort_of_noColon h_colon, and_iff_right h_host]
      · rw [readHostPart_of_noColon h_colon,
          List.take_of_length_le (Nat.le_sub_one_of_lt h_host.2)]
        rfl
  | some found =>
    obtain ⟨host, rest⟩ := found
    obtain ⟨h_colon, rfl⟩ := splitLast_eq_some_iff.mp h_split
    rw [and_iff_right (by simp)]
    have h_form := hostPart_of_colon host h_colon
    by_cases h_host : HostText mailMaxHost host
    · obtain ⟨h_like, h_unlike⟩ := readHostPart_of_colon h_colon h_host out
      rw [exact_iff_plainPort rest fun port => (host, some port)]
      · simp [h_host]
      · intro p
        rw [h_form, and_iff_right h_host]
      · exact h_like
      · exact h_unlike
    · refine iff_of_true (exact_of_refused ?_ ?_) ?_
      · rintro ⟨p, h_p⟩
        exact h_host ((h_form p).mp h_p).1
      · rw [readHostPart_of_badHost h_colon h_host]
      · intro host' rest' h_eq h_host'
        obtain ⟨rfl, rfl⟩ := Prod.mk.inj (Option.some.inj h_eq)
        exact absurd h_host' h_host

/-- It is taken, or refused. -/
theorem readHostPart_result (hostpart : Octets) (out : MailOut) :
    HostPartTaken hostpart ∧ (readHostPart hostpart out).2 = 0 ∨
      ¬ HostPartTaken hostpart ∧ (readHostPart hostpart out).2 = -1 := by
  unfold HostPartTaken
  cases h_split : splitLast 0x3a hostpart with
  | none =>
    rw [readHostPart_of_noColon (splitLast_eq_none_iff.mp h_split)]
    exact .inl ⟨.inl rfl, rfl⟩
  | some found =>
    obtain ⟨host, rest⟩ := found
    obtain ⟨h_colon, rfl⟩ := splitLast_eq_some_iff.mp h_split
    by_cases h_host : HostText mailMaxHost host
    · obtain ⟨h_like, h_unlike⟩ := readHostPart_of_colon h_colon h_host out
      by_cases h_port : ∃ port, PortLike rest port
      · obtain ⟨port, h_port⟩ := h_port
        exact .inl ⟨.inr ⟨host, rest, port, rfl, h_host, h_port⟩, by rw [h_like port h_port]⟩
      · refine .inr ⟨?_, h_unlike h_port⟩
        rintro (h_none | ⟨host', rest', port, h_eq, -, h_like'⟩)
        · cases h_none
        · obtain ⟨-, rfl⟩ := Prod.mk.inj (Option.some.inj h_eq)
          exact h_port ⟨port, h_like'⟩
    · refine .inr ⟨?_, by rw [readHostPart_of_badHost h_colon h_host]⟩
      rintro (h_none | ⟨host', rest', port, h_eq, h_host', -⟩)
      · cases h_none
      · obtain ⟨rfl, -⟩ := Prod.mk.inj (Option.some.inj h_eq)
        exact h_host h_host'

/-- It leaves the credentials as they are. -/
theorem readHostPart_creds (hostpart : Octets) (out : MailOut) :
    (readHostPart hostpart out).1.user = out.user ∧
      (readHostPart hostpart out).1.pass = out.pass := by
  unfold readHostPart
  split
  · split
    · exact ⟨rfl, rfl⟩
    · dsimp only
      split
      · exact ⟨rfl, rfl⟩
      · exact ⟨rfl, rfl⟩
  · exact ⟨rfl, rfl⟩

/-! ## Credentials -/

/-- Credentials that have the room they need. -/
def CredsFit (creds : Octets) : Prop := ∃ user pass, Creds creds user pass

theorem Creds.cases {creds user : Octets} {pass : Option Octets} (h : Creds creds user pass) :
    0x3a ∉ user ∧ (creds = user ∧ pass = none ∨ ∃ p, pass = some p ∧ creds = user ++ 0x3a :: p) := by
  cases h with
  | user h_user h_colon => exact ⟨h_colon, .inl ⟨rfl, rfl⟩⟩
  | @pass user p h_user h_colon h_pass => exact ⟨h_colon, .inr ⟨p, rfl, rfl⟩⟩

/-- Credentials are taken apart in one way. -/
theorem Creds.inj {creds user user' : Octets} {pass pass' : Option Octets}
    (h : Creds creds user pass) (h' : Creds creds user' pass') : user = user' ∧ pass = pass' := by
  obtain ⟨h_colon, ⟨rfl, rfl⟩ | ⟨p, rfl, rfl⟩⟩ := h.cases
  · obtain ⟨h_colon', ⟨rfl, rfl⟩ | ⟨p', rfl, rfl⟩⟩ := h'.cases
    · exact ⟨rfl, rfl⟩
    · exact absurd (List.mem_append_right _ List.mem_cons_self) h_colon
  · obtain ⟨h_colon', ⟨h_eq, rfl⟩ | ⟨p', rfl, h_eq⟩⟩ := h'.cases
    · exact absurd (List.mem_append_right _ List.mem_cons_self) (h_eq ▸ h_colon')
    · obtain ⟨rfl, rfl⟩ := separator_inj h_colon h_colon' h_eq
      exact ⟨rfl, rfl⟩

theorem readCreds_cases (creds : Octets) (out : MailOut) :
    (∃ user pass, Creds creds user pass ∧
        readCreds creds out = ({ out with user := user, pass := pass.getD out.pass }, true)) ∨
      (¬ CredsFit creds ∧ ∃ out', readCreds creds out = (out', false)) := by
  unfold readCreds
  cases h_split : splitFirst 0x3a creds with
  | none =>
    have h_colon := splitFirst_eq_none_iff.mp h_split
    by_cases h_user : creds.length ≥ mailMaxCred
    · refine .inr ⟨?_, out, if_pos h_user⟩
      rintro ⟨user, pass, h_creds⟩
      cases h_creds with
      | user h_fits _ => exact absurd h_user (Nat.not_le.mpr h_fits)
      | pass => exact h_colon (List.mem_append_right _ List.mem_cons_self)
    · exact .inl ⟨creds, none, .user (Nat.not_le.mp h_user) h_colon, if_neg h_user⟩
  | some found =>
    obtain ⟨user, pass⟩ := found
    obtain ⟨h_colon, rfl⟩ := splitFirst_eq_some_iff.mp h_split
    have h_only : ∀ user' pass', Creds (user ++ 0x3a :: pass) user' pass' →
        user.length < mailMaxCred ∧ pass.length < mailMaxCred := by
      intro user' pass' h_creds
      generalize h_text : user ++ 0x3a :: pass = text at h_creds
      cases h_creds with
      | user h_fits h_none =>
        rw [← h_text] at h_none
        exact absurd (List.mem_append_right _ List.mem_cons_self) h_none
      | pass h_user h_colon' h_pass =>
        obtain ⟨rfl, rfl⟩ := separator_inj h_colon h_colon' h_text
        exact ⟨h_user, h_pass⟩
    dsimp only
    by_cases h_user : user.length ≥ mailMaxCred
    · refine .inr ⟨?_, out, if_pos h_user⟩
      rintro ⟨user', pass', h_creds⟩
      exact absurd h_user (Nat.not_le.mpr (h_only _ _ h_creds).1)
    · rw [if_neg h_user]
      by_cases h_pass : pass.length ≥ mailMaxCred
      · refine .inr ⟨?_, _, if_pos h_pass⟩
        rintro ⟨user', pass', h_creds⟩
        exact absurd h_pass (Nat.not_le.mpr (h_only _ _ h_creds).2)
      · exact .inl ⟨user, some pass, .pass (Nat.not_le.mp h_user) h_colon (Nat.not_le.mp h_pass),
          if_neg h_pass⟩

/-- Credentials and what is in front of an at sign in them are never stored alike. -/
theorem creds_ne {creds more user user' : Octets} {pass pass' : Option Octets} {old : Octets}
    (h_at : 0x40 ∉ creds) (h : Creds creds user pass)
    (h' : Creds (creds ++ 0x40 :: more) user' pass') (h_user : user' = user)
    (h_pass : pass'.getD old = pass.getD old) : False := by
  subst h_user
  obtain ⟨h_colon, ⟨rfl, rfl⟩ | ⟨p, rfl, rfl⟩⟩ := h.cases
  · -- No password in front of the first at sign: the user would go on behind it.
    obtain ⟨-, ⟨h_eq, -⟩ | ⟨p', -, h_eq⟩⟩ := h'.cases
    · have h_len := congrArg List.length h_eq
      rw [List.length_append, List.length_cons] at h_len
      omega
    · have h_cons := List.append_cancel_left h_eq
      exact absurd (List.cons.inj h_cons).1 (by decide)
  · obtain ⟨-, ⟨h_eq, -⟩ | ⟨p', rfl, h_eq⟩⟩ := h'.cases
    · have h_len := congrArg List.length h_eq
      rw [List.length_append, List.length_append, List.length_cons] at h_len
      omega
    · rw [List.append_assoc] at h_eq
      have h_cons := List.append_cancel_left h_eq
      obtain ⟨-, rfl⟩ := List.cons.inj h_cons
      have h_same : p ++ 0x40 :: more = p := h_pass
      have h_len := congrArg List.length h_same
      rw [List.length_append, List.length_cons] at h_len
      omega

/-! ## Specifications -/

/-- The parser looks for the at sign where it is meant to be, or refuses what is to be refused; and
    what it finds behind it is plain. -/
def ServerSpecPlain (spec : Octets) : Prop :=
  (splitFirst 0x40 spec = none → HostPartPlain spec) ∧
    ∀ creds hostpart, splitFirst 0x40 spec = some (creds, hostpart) →
      (0x40 ∉ hostpart → CredsFit creds → HostPartPlain hostpart) ∧
      (0x40 ∈ hostpart → ¬ (CredsFit creds ∧ HostPartTaken hostpart) ∧
        ¬ ∃ parts, ServerSpec spec parts)

theorem serverSpec_of_noAt {spec : Octets} (h_at : 0x40 ∉ spec) (parts : MailParts) :
    ServerSpec spec parts ↔ ∃ p : Octets × Option Int, parts = ⟨p.1, p.2, none, none⟩ ∧
      HostPort (HostText mailMaxHost) spec p.1 p.2 := by
  constructor
  · rintro (⟨-, h_host⟩ | _)
    · exact ⟨(_, _), rfl, h_host⟩
    · exact absurd (List.mem_append_right _ List.mem_cons_self) h_at
  · rintro ⟨p, rfl, h_host⟩
    exact .bare h_at h_host

theorem serverSpec_of_at {creds hostpart : Octets} (h_at : 0x40 ∉ hostpart) (parts : MailParts) :
    ServerSpec (creds ++ 0x40 :: hostpart) parts ↔
      ∃ user pass, Creds creds user pass ∧ ∃ p : Octets × Option Int,
        parts = ⟨p.1, p.2, some user, pass⟩ ∧
          HostPort (HostText mailMaxHost) hostpart p.1 p.2 := by
  constructor
  · intro h
    generalize h_text : creds ++ 0x40 :: hostpart = text at h
    cases h with
    | bare h_none h_host =>
      rw [← h_text] at h_none
      exact absurd (List.mem_append_right _ List.mem_cons_self) h_none
    | @creds creds' hostpart' host user port pass h_at' h_creds h_host =>
      have h_last : splitLast 0x40 (creds ++ 0x40 :: hostpart) = some (creds', hostpart') :=
        splitLast_eq_some_iff.mpr ⟨h_at', h_text⟩
      rw [splitLast_eq_some_iff.mpr ⟨h_at, rfl⟩] at h_last
      obtain ⟨rfl, rfl⟩ := Prod.mk.inj (Option.some.inj h_last)
      exact ⟨user, pass, h_creds, (host, port), rfl, h_host⟩
  · rintro ⟨user, pass, h_creds, p, rfl, h_host⟩
    exact .creds h_at h_creds h_host

section

variable {creds hostpart : Octets} (h_creds : 0x40 ∉ creds)
include h_creds

/-- Splitting at the at sign that is both the first and the last. -/
theorem mailExact_of_one (h_at : 0x40 ∉ hostpart) (out : MailOut) :
    MailExact (creds ++ 0x40 :: hostpart) out ↔ (CredsFit creds → HostPartPlain hostpart) := by
  have h_split := splitFirst_eq_some_iff.mpr ⟨h_creds, (rfl : _ = creds ++ 0x40 :: hostpart)⟩
  rcases readCreds_cases creds out with ⟨user, pass, h_fit, h_read⟩ | ⟨h_long, out', h_read⟩
  · have h_fits : CredsFit creds := ⟨user, pass, h_fit⟩
    rw [forall_prop_of_true h_fits,
      ← readHostPart_exact_iff hostpart { out with user := user, pass := pass.getD out.pass }]
    refine exact_congr (fun p => ⟨p.1, p.2, some user, pass⟩) (fun p => ?_) (fun p => rfl) ?_
    · rw [serverSpec_of_at h_at]
      constructor
      · rintro ⟨user', pass', h_fit', p', rfl, h_host⟩
        obtain ⟨rfl, rfl⟩ := h_fit.inj h_fit'
        exact ⟨p', rfl, h_host⟩
      · rintro ⟨p', rfl, h_host⟩
        exact ⟨user, pass, h_fit, p', rfl, h_host⟩
    · rw [mailParseServerSpec, h_split]
      dsimp only
      rw [h_read]
      rfl
  · refine iff_of_true (exact_of_refused ?_ ?_) fun h_fits => absurd h_fits h_long
    · rintro ⟨p, h_p⟩
      obtain ⟨user, pass, h_fit, -⟩ := (serverSpec_of_at h_at p).mp h_p
      exact h_long ⟨user, pass, h_fit⟩
    · rw [mailParseServerSpec, h_split]
      dsimp only
      rw [h_read]
      rfl

/-- Splitting at the first of several. -/
theorem mailExact_of_more (h_at : 0x40 ∈ hostpart) (out : MailOut) :
    MailExact (creds ++ 0x40 :: hostpart) out ↔
      ¬ (CredsFit creds ∧ HostPartTaken hostpart) ∧
        ¬ ∃ parts, ServerSpec (creds ++ 0x40 :: hostpart) parts := by
  have h_split := splitFirst_eq_some_iff.mpr ⟨h_creds, (rfl : _ = creds ++ 0x40 :: hostpart)⟩
  -- What is stored is not what is meant, so it is not exact to take it.
  have h_wrong : ∀ parts, ServerSpec (creds ++ 0x40 :: hostpart) parts →
      mailParseServerSpec (creds ++ 0x40 :: hostpart) out ≠ (parts.store out, 0) := by
    intro parts h_parts h_eq
    obtain ⟨more, host, h_rest, h_last⟩ : ∃ more host, hostpart = more ++ 0x40 :: host ∧
        0x40 ∉ host := by
      cases h_find : splitLast 0x40 hostpart with
      | none => exact absurd h_at (splitLast_eq_none_iff.mp h_find)
      | some found =>
        obtain ⟨more, host⟩ := found
        obtain ⟨h_last, h_eq⟩ := splitLast_eq_some_iff.mp h_find
        exact ⟨more, host, h_eq, h_last⟩
    have h_text : creds ++ 0x40 :: hostpart = (creds ++ 0x40 :: more) ++ 0x40 :: host := by
      rw [h_rest, List.append_assoc, List.cons_append]
    rw [h_text] at h_parts
    obtain ⟨user', pass', h_fit', p, rfl, -⟩ := (serverSpec_of_at h_last parts).mp h_parts
    rcases readCreds_cases creds out with ⟨user, pass, h_fit, h_read⟩ | ⟨h_long, out', h_read⟩
    · have h_parse : mailParseServerSpec (creds ++ 0x40 :: hostpart) out =
          readHostPart hostpart { out with user := user, pass := pass.getD out.pass } := by
        rw [mailParseServerSpec, h_split]
        dsimp only
        rw [h_read]
        rfl
      obtain ⟨h_user, h_pass⟩ := readHostPart_creds hostpart
        { out with user := user, pass := pass.getD out.pass }
      rw [← h_parse, h_eq] at h_user h_pass
      exact creds_ne h_creds h_fit h_fit' h_user h_pass
    · have h_parse : (mailParseServerSpec (creds ++ 0x40 :: hostpart) out).2 = -1 := by
        rw [mailParseServerSpec, h_split]
        dsimp only
        rw [h_read]
        rfl
      rw [h_eq] at h_parse
      cases h_parse
  have h_result : (mailParseServerSpec (creds ++ 0x40 :: hostpart) out).2 = -1 ↔
      ¬ (CredsFit creds ∧ HostPartTaken hostpart) := by
    rw [mailParseServerSpec, h_split]
    dsimp only
    rcases readCreds_cases creds out with ⟨user, pass, h_fit, h_read⟩ | ⟨h_long, out', h_read⟩
    · have h_fits : CredsFit creds := ⟨user, pass, h_fit⟩
      rw [h_read, and_iff_right h_fits]
      dsimp only
      rw [if_pos rfl]
      rcases readHostPart_result hostpart { out with user := user, pass := pass.getD out.pass } with
        ⟨h_taken, h_zero⟩ | ⟨h_taken, h_minus⟩
      · rw [h_zero]
        exact iff_of_false (by decide) (not_not.mpr h_taken)
      · exact iff_of_true h_minus h_taken
    · rw [h_read]
      exact iff_of_true rfl fun h => h_long h.1
  constructor
  · intro h_exact
    have h_none : ¬ ∃ parts, ServerSpec (creds ++ 0x40 :: hostpart) parts := by
      rintro ⟨parts, h_parts⟩
      exact h_wrong parts h_parts (h_exact.accepts parts h_parts)
    exact ⟨h_result.mp (h_exact.refuses h_none), h_none⟩
  · rintro ⟨h_refused, h_none⟩
    exact exact_of_refused h_none (h_result.mpr h_refused)

end

theorem mailParseServerSpec_exact_iff (spec : Octets) (out : MailOut) :
    MailExact spec out ↔ ServerSpecPlain spec := by
  unfold ServerSpecPlain
  cases h_split : splitFirst 0x40 spec with
  | none =>
    have h_at := splitFirst_eq_none_iff.mp h_split
    rw [and_iff_left (by simp), forall_prop_of_true rfl, ← readHostPart_exact_iff spec out]
    refine exact_congr (fun p => ⟨p.1, p.2, none, none⟩) (serverSpec_of_noAt h_at)
      (fun p => rfl) ?_
    rw [mailParseServerSpec, h_split]
  | some found =>
    obtain ⟨creds, hostpart⟩ := found
    obtain ⟨h_creds, rfl⟩ := splitFirst_eq_some_iff.mp h_split
    rw [and_iff_right (by simp)]
    by_cases h_at : 0x40 ∈ hostpart
    · rw [mailExact_of_more h_creds h_at]
      simp [h_at]
    · rw [mailExact_of_one h_creds h_at]
      simp [h_at]

/-! ## All four -/

/-- **Server specifications**: each of the four parsers does with a text what is meant exactly if
    the text is plain. -/
theorem ductNames_exact_iff (text : Octets) (server : MailOut) (peer : DuctOut)
    (broker : MqttOut) :
    (MailExact text server ↔ ServerSpecPlain text) ∧
      (HostPortExact mysqlMaxHostLen parseMysqlDuctName text peer ↔
        HostPortPlain mysqlMaxHostLen text) ∧
      (HostPortExact quicMaxHostLen parseQuicDuctName text peer ↔
        HostPortPlain quicMaxHostLen text) ∧
      (MqttExact text broker ↔ MqttPlain text) :=
  ⟨mailParseServerSpec_exact_iff text server, parseHostPort_exact_iff mysqlMaxHostLen text peer,
    parseHostPort_exact_iff quicMaxHostLen text peer, parseMqttDuctName_exact_iff text broker⟩

/-- A user that is an e-mail address, and a port with a letter behind it. -/
theorem ductNames_wrong :
    mailParseServerSpec (ascii "bob@x.org:pw@mx:25") ⟨⟨[], 0⟩, [], []⟩ =
        (⟨⟨ascii "x.org:pw@mx", 25⟩, ascii "bob", []⟩, 0) ∧
      ¬ MailExact (ascii "bob@x.org:pw@mx:25") ⟨⟨[], 0⟩, [], []⟩ ∧
      parseMysqlDuctName (ascii "db:3306x") ⟨[], 0⟩ = (⟨ascii "db", 3306⟩, 0) ∧
      ¬ HostPortExact mysqlMaxHostLen parseMysqlDuctName (ascii "db:3306x") ⟨[], 0⟩ := by
  have h_port : PortText (ascii "25") 25 := ⟨by decide, by decide, by decide, by decide, by decide⟩
  have h_host : HostPort (HostText mailMaxHost) (ascii "mx:25") (ascii "mx") (some 25) :=
    @HostPort.port _ (ascii "mx") (ascii "25") 25 ⟨by decide, by decide⟩ h_port
  have h_creds : Creds (ascii "bob@x.org:pw") (ascii "bob@x.org") (some (ascii "pw")) :=
    @Creds.pass (ascii "bob@x.org") (ascii "pw") (by decide) (by decide) (by decide)
  have h_spec : ServerSpec (ascii "bob@x.org:pw@mx:25")
      ⟨ascii "mx", some 25, some (ascii "bob@x.org"), some (ascii "pw")⟩ :=
    @ServerSpec.creds (ascii "bob@x.org:pw") (ascii "mx:25") _ _ _ _ (by decide) h_creds h_host
  refine ⟨by decide, fun h_exact => ?_, by decide, fun h_exact => ?_⟩
  · have h_parts := h_exact.accepts _ h_spec
    exact absurd h_parts (by decide)
  · have h_plain := (parseHostPort_exact_iff mysqlMaxHostLen _ _).mp h_exact
    have h_text := h_plain (ascii "db") (ascii "3306x") (by decide) ⟨by decide, by decide⟩ 3306
      ⟨by decide, by decide, by decide⟩
    exact absurd h_text.2.1 (by decide)

end IonContrib.DuctName
