/-
  IonContrib.Mail.Headers

  The header lines of what `mailBuildMessage` makes.

  Three of them hold a value of the caller, and `snprintf` has 255 octets for
  the name, the value and the line end together.  Of a longer line the end goes
  first, so the header behind it is on the same line: what stands behind the
  first line feed is then not the next header but a later one (`fits_of_block`).
-/
import IonContrib.Mail.RoundTrip

namespace IonContrib.Mail

open Octets

/-- A text with no line end in it. -/
structure OneLine (s : Octets) : Prop where
  cr : (0x0d : UInt8) ∉ s
  lf : (0x0a : UInt8) ∉ s

theorem OneLine.append {s t : Octets} (h_s : OneLine s) (h_t : OneLine t) : OneLine (s ++ t) where
  cr h := (List.mem_append.mp h).elim h_s.cr h_t.cr
  lf h := (List.mem_append.mp h).elim h_s.lf h_t.lf

theorem OneLine.sizeText (n : Nat) : OneLine (sizeText n) :=
  ⟨(FieldText.sizeText n).cr, (FieldText.sizeText n).lf⟩

theorem OneLine.replicate (n : Nat) : OneLine (List.replicate n 0x61) where
  cr h := absurd (List.eq_of_mem_replicate h) (by decide)
  lf h := absurd (List.eq_of_mem_replicate h) (by decide)

/-- The headers of a message, each with all of its value. -/
def headerFields (sender recipient : Octets) (subject : Option Octets) (encoding : MailEncoding)
    (count : Nat) : List Octets :=
  [ascii "From: " ++ sender, ascii "To: " ++ recipient,
    ascii "Subject: " ++ subject.getD defaultSubject, ascii "MIME-Version: 1.0",
    mailHdrEncoding ++ ascii ": " ++ mailEncodingName encoding,
    mailHdrCount ++ ascii ": " ++ sizeText count, contentType encoding]

/-- The headers of part `i` of a multipart message. -/
def partFields (i : Nat) : List Octets :=
  [ascii "Content-Type: application/octet-stream; name=\"bundle" ++ sizeText (i + 1) ++
      ascii ".bp\"",
    ascii "Content-Transfer-Encoding: base64"]

/-- One line for each field, and one empty line. -/
def headerBlock : List Octets → Octets
  | [] => crlf
  | field :: fields => field ++ crlf ++ headerBlock fields

/-- The parts of a multipart message, each under its header block. -/
def wholeParts : Nat → List Octets → Octets
  | _, [] => delimiter ++ (ascii "--" ++ crlf)
  | i, bundle :: bundles =>
    delimiter ++ crlf ++ headerBlock (partFields i) ++ b64Text bundle ++ wholeParts (i + 1) bundles

/-- The headers of `msg` are `fields`, a line each, and then comes the body; those of the parts
    are whole too. -/
structure WellFormed (fields : List Octets) (encoding : MailEncoding) (bundles : List Octets)
    (msg : Octets) : Prop where
  lines : ∀ field ∈ fields, field ≠ [] ∧ OneLine field
  block : ∃ body, msg = headerBlock fields ++ body ∧
    (encoding = .attach → body = wholeParts 0 bundles)
  parts : ∀ i < bundles.length, ∀ field ∈ partFields i, field ≠ [] ∧ OneLine field

/-! ## Lines that fit -/

/-- What fits: 253 octets and the line end. -/
theorem line_whole {field : Octets} (h : field.length ≤ 253) :
    line (field ++ crlf) = field ++ crlf :=
  List.take_of_length_le (by rw [List.length_append, show crlf.length = 2 from rfl]; omega)

/-- What does not fit has lost its line feed. -/
theorem line_cut {field : Octets} (h_field : OneLine field) (h : 253 < field.length) :
    (0x0a : UInt8) ∉ line (field ++ crlf) := by
  intro h_lf
  obtain ⟨i, h_i, h_get⟩ := List.mem_take_iff_getElem.mp h_lf
  rw [List.length_append, show crlf.length = 2 from rfl] at h_i
  by_cases h_in : i < field.length
  · rw [List.getElem_append_left h_in] at h_get
    exact h_field.lf (h_get ▸ List.getElem_mem h_in)
  · obtain rfl : i = field.length := by omega
    rw [List.getElem_append_right (Nat.le_refl _)] at h_get
    simp [crlf] at h_get

/-- What stands behind the first line feed. -/
def afterLine (text : Octets) : Octets := (text.dropWhile (· ≠ 0x0a)).drop 1

theorem afterLine_append {s : Octets} (rest : Octets) (h : (0x0a : UInt8) ∉ s) :
    afterLine (s ++ rest) = afterLine rest := by
  have h_pass : ∀ c ∈ s, decide (c ≠ 0x0a) = true := by
    intro c h_c
    simpa using ne_of_mem_of_not_mem h_c h
  rw [afterLine, List.dropWhile_append_of_pos h_pass, afterLine]

theorem afterLine_whole {field : Octets} (rest : Octets) (h : OneLine field) :
    afterLine (field ++ crlf ++ rest) = rest := by
  rw [List.append_assoc, afterLine_append _ h.lf]
  rfl

/-- Behind a header, whole or not, comes the next or what is behind the next. -/
theorem afterLine_line {field : Octets} (rest : Octets) (h : OneLine field) :
    afterLine (line (field ++ crlf) ++ rest) = rest ∨
      afterLine (line (field ++ crlf) ++ rest) = afterLine rest := by
  by_cases h_fits : field.length ≤ 253
  · rw [line_whole h_fits]
    exact .inl (afterLine_whole rest h)
  · exact .inr (afterLine_append rest (line_cut h (by omega)))

/-- A header that is found whole fits, if what comes next is told by its first octet from what
    would come next had it been cut. -/
theorem fits_of_block {field rest rest' : Octets} (h_field : OneLine field)
    (h_next : (afterLine rest).head? ≠ rest'.head?)
    (h : line (field ++ crlf) ++ rest = field ++ crlf ++ rest') :
    field.length ≤ 253 ∧ rest = rest' := by
  by_cases h_fits : field.length ≤ 253
  · rw [line_whole h_fits] at h
    exact ⟨h_fits, List.append_cancel_left h⟩
  · refine absurd ?_ h_next
    rw [← afterLine_append rest (line_cut h_field (by omega)), h, afterLine_whole rest' h_field]

theorem head?_line {field : Octets} {c : UInt8} (rest : Octets) (h : field.head? = some c) :
    (line (field ++ crlf) ++ rest).head? = some c := by
  cases field with
  | nil => cases h
  | cons d field => simpa [line] using h

/-! ## The block -/

section

variable {sender recipient : Octets} {subject : Option Octets}
  (h_sender : OneLine sender) (h_recipient : OneLine recipient)
  (h_subject : OneLine (subject.getD defaultSubject)) (encoding : MailEncoding)
include h_sender h_recipient h_subject

theorem headerFields_oneLine (count : Nat) :
    ∀ field ∈ headerFields sender recipient subject encoding count,
      field ≠ [] ∧ OneLine field := by
  have h_name : OneLine (mailHdrEncoding ++ ascii ": " ++ mailEncodingName encoding) := by
    cases encoding <;> exact ⟨by decide, by decide⟩
  have h_type : contentType encoding ≠ [] ∧ OneLine (contentType encoding) := by
    cases encoding <;> exact ⟨by decide, by decide, by decide⟩
  simp only [headerFields, List.forall_mem_cons, List.not_mem_nil, false_implies, implies_true,
    and_true]
  refine ⟨⟨by simp [ascii], ?_⟩, ⟨by simp [ascii], ?_⟩, ⟨by simp [ascii], ?_⟩,
    ⟨by decide, by decide, by decide⟩, ⟨by simp [ascii], h_name⟩, ⟨by simp [ascii], ?_⟩, h_type⟩
  · exact .append ⟨by decide, by decide⟩ h_sender
  · exact .append ⟨by decide, by decide⟩ h_recipient
  · exact .append ⟨by decide, by decide⟩ h_subject
  · exact .append ⟨by decide, by decide⟩ (.sizeText count)

end

theorem partFields_oneLine (i : Nat) : ∀ field ∈ partFields i, field ≠ [] ∧ OneLine field := by
  simp only [partFields, List.forall_mem_cons, List.not_mem_nil, false_implies, implies_true,
    and_true]
  refine ⟨⟨by simp [ascii], ?_⟩, by decide, by decide, by decide⟩
  exact .append (.append ⟨by decide, by decide⟩ (.sizeText (i + 1))) ⟨by decide, by decide⟩

/-- The headers of the parts always fit. -/
theorem partsText_whole (i : Nat) (bundles : List Octets) (h : i + bundles.length < 2 ^ 64) :
    partsText i bundles = wholeParts i bundles := by
  induction bundles generalizing i with
  | nil => rfl
  | cons bundle bundles ih =>
    rw [List.length_cons] at h
    have h_size := sizeText_length_le (n := i + 1) (by omega)
    have h_fits : (ascii "Content-Type: application/octet-stream; name=\"bundle" ++
        sizeText (i + 1) ++ ascii ".bp\"").length ≤ 253 := by
      rw [List.length_append, List.length_append,
        show (ascii "Content-Type: application/octet-stream; name=\"bundle").length = 52 from rfl,
        show (ascii ".bp\"").length = 4 from rfl]
      omega
    have h_line := line_whole h_fits
    rw [partsText, wholeParts, ih (i + 1) (by omega), partHead, partFields, h_line]
    simp only [headerBlock, List.flatten_cons, List.flatten_nil, List.append_assoc, List.nil_append]

/-- What is built: three lines that may have been cut, and whole ones. -/
theorem mailBuildMessage_lines {mem : Nat → Bool} {sender recipient : Octets}
    {subject : Option Octets} {encoding : MailEncoding} {bundles : List Octets} {msg : Octets}
    (h_count : bundles.length < 2 ^ 64)
    (h : mailBuildMessage mem sender recipient subject encoding bundles = some msg) :
    msg = line (ascii "From: " ++ sender ++ crlf) ++
      (line (ascii "To: " ++ recipient ++ crlf) ++
        (line (ascii "Subject: " ++ subject.getD defaultSubject ++ crlf) ++
          (headerBlock ((headerFields sender recipient subject encoding bundles.length).drop 3) ++
            bodyText encoding bundles))) := by
  have h_name : (mailHdrEncoding ++ ascii ": " ++ mailEncodingName encoding).length ≤ 253 := by
    cases encoding <;> decide
  have h_size := sizeText_length_le h_count
  have h_number : (mailHdrCount ++ ascii ": " ++ sizeText bundles.length).length ≤ 253 := by
    rw [List.length_append, show (mailHdrCount ++ ascii ": ").length = 20 from rfl]
    omega
  rw [mailBuildMessage_some h, headText, headLines, line_whole h_name, line_whole h_number]
  simp only [headerFields, headerBlock, List.drop_succ_cons, List.drop_zero, List.flatten_append,
    List.flatten_cons, List.flatten_nil, List.append_assoc, List.append_nil]

/-- The three lines in a row: each header begins with an octet that none of those behind the next
    one begins with, so each line that is found whole fits. -/
theorem fits_of_lines {sender recipient subject mime rest rest' : Octets}
    (h_sender : OneLine sender) (h_recipient : OneLine recipient) (h_subject : OneLine subject)
    (h_mime : OneLine mime) (h_t : recipient.head? = some 0x54) (h_s : subject.head? = some 0x53)
    (h_m : mime.head? = some 0x4d) (h_x : rest.head? = some 0x58)
    (h : line (sender ++ crlf) ++ (line (recipient ++ crlf) ++ (line (subject ++ crlf) ++
        (mime ++ crlf ++ rest))) =
      sender ++ crlf ++ (recipient ++ crlf ++ (subject ++ crlf ++ (mime ++ crlf ++ rest')))) :
    sender.length ≤ 253 ∧ recipient.length ≤ 253 ∧ subject.length ≤ 253 := by
  have h_first : ∀ (field tail : Octets) (c : UInt8), field.head? = some c →
      (field ++ crlf ++ tail).head? = some c := by
    intro field tail c h_c
    rw [List.append_assoc, List.head?_append, h_c]
    rfl
  have h_subject_next : (afterLine (line (subject ++ crlf) ++ (mime ++ crlf ++ rest))).head? =
      some 0x4d ∨ (afterLine (line (subject ++ crlf) ++ (mime ++ crlf ++ rest))).head? =
      some 0x58 := by
    rcases afterLine_line (mime ++ crlf ++ rest) h_subject with h_next | h_next
    · rw [h_next]
      exact .inl (h_first _ _ _ h_m)
    · rw [h_next, afterLine_whole rest h_mime]
      exact .inr h_x
  have h_recipient_next : (afterLine (line (recipient ++ crlf) ++ (line (subject ++ crlf) ++
      (mime ++ crlf ++ rest)))).head? ≠ some 0x54 := by
    rcases afterLine_line (line (subject ++ crlf) ++ (mime ++ crlf ++ rest)) h_recipient
      with h_next | h_next
    · rw [h_next, head?_line _ h_s]
      decide
    · rw [h_next]
      rcases h_subject_next with h_c | h_c <;> rw [h_c] <;> decide
  obtain ⟨h_len, h⟩ := fits_of_block h_sender (by rwa [h_first _ _ _ h_t]) h
  obtain ⟨h_len', h⟩ := fits_of_block h_recipient (by
    rw [h_first _ _ _ h_s]
    rcases h_subject_next with h_c | h_c <;> rw [h_c] <;> decide) h
  obtain ⟨h_len'', -⟩ := fits_of_block h_subject (by
    rw [h_first _ _ _ h_m, afterLine_whole rest h_mime, h_x]
    decide) h
  exact ⟨h_len, h_len', h_len''⟩

section

variable {mem : Nat → Bool} {sender recipient : Octets} {subject : Option Octets}
  {encoding : MailEncoding} {bundles : List Octets} {msg : Octets}
  (h_sender : OneLine sender) (h_recipient : OneLine recipient)
  (h_subject : OneLine (subject.getD defaultSubject)) (h_count : bundles.length < 2 ^ 64)
  (h : mailBuildMessage mem sender recipient subject encoding bundles = some msg)
include h_sender h_recipient h_subject h_count h

theorem WellFormed.fits
    (h_whole : WellFormed (headerFields sender recipient subject encoding bundles.length) encoding
      bundles msg) :
    sender.length ≤ 247 ∧ recipient.length ≤ 249 ∧ (subject.getD defaultSubject).length ≤ 244 := by
  have h_from : OneLine (ascii "From: " ++ sender) := .append ⟨by decide, by decide⟩ h_sender
  have h_to : OneLine (ascii "To: " ++ recipient) := .append ⟨by decide, by decide⟩ h_recipient
  have h_subj : OneLine (ascii "Subject: " ++ subject.getD defaultSubject) :=
    .append ⟨by decide, by decide⟩ h_subject
  have h_mime : OneLine (ascii "MIME-Version: 1.0") := ⟨by decide, by decide⟩
  have h_names : (ascii "From: ").length = 6 ∧ (ascii "To: ").length = 4 ∧
      (ascii "Subject: ").length = 9 := by decide
  have h_msg := mailBuildMessage_lines h_count h
  obtain ⟨body, h_block, -⟩ := h_whole.block
  rw [h_block] at h_msg
  simp only [headerFields, headerBlock, List.drop_succ_cons, List.drop_zero,
    List.append_assoc (_ ++ crlf)] at h_msg
  have h_fits := fits_of_lines h_from h_to h_subj h_mime rfl rfl rfl rfl h_msg.symm
  rw [List.length_append, List.length_append, List.length_append] at h_fits
  omega

/-- **Whole headers**: what is built has its headers a line each, those of the parts too, and one
    empty line behind them, exactly if the three values of the caller fit. -/
theorem mailBuildMessage_wellFormed_iff :
    WellFormed (headerFields sender recipient subject encoding bundles.length) encoding bundles
        msg ↔
      sender.length ≤ 247 ∧ recipient.length ≤ 249 ∧
        (subject.getD defaultSubject).length ≤ 244 := by
  refine ⟨WellFormed.fits h_sender h_recipient h_subject h_count h, ?_⟩
  rintro ⟨h_from, h_to, h_subj⟩
  have h_names : (ascii "From: ").length = 6 ∧ (ascii "To: ").length = 4 ∧
      (ascii "Subject: ").length = 9 := by decide
  have h_msg := mailBuildMessage_lines h_count h
  rw [line_whole (by rw [List.length_append]; omega),
    line_whole (by rw [List.length_append]; omega),
    line_whole (by rw [List.length_append]; omega)] at h_msg
  refine ⟨headerFields_oneLine h_sender h_recipient h_subject encoding _,
    ⟨bodyText encoding bundles, ?_, ?_⟩, fun i _ => partFields_oneLine i⟩
  · rw [h_msg]
    simp only [headerFields, headerBlock, List.drop_succ_cons, List.drop_zero, List.append_assoc]
  · rintro rfl
    exact partsText_whole 0 bundles (by omega)

end

/-- A sender of 247 octets. -/
theorem mailBuildMessage_wellFormed_iff_longest : ∃ msg,
    mailBuildMessage (fun _ => true) (List.replicate 247 0x61) (ascii "b@x") none .attach
      [[0x2a]] = some msg ∧
    WellFormed (headerFields (List.replicate 247 0x61) (ascii "b@x") none .attach 1) .attach
      [[0x2a]] msg := by
  obtain ⟨msg, h_msg⟩ := @mailBuildMessage_isSome (fun _ => true) (fun _ => rfl)
    (List.replicate 247 0x61) (ascii "b@x") none .attach [[0x2a]] (by decide)
  exact ⟨msg, h_msg, (mailBuildMessage_wellFormed_iff (.replicate 247) ⟨by decide, by decide⟩
    ⟨by decide, by decide⟩ (by decide) h_msg).mpr ⟨List.length_replicate.le, by decide, by decide⟩⟩

/-- One octet more, which is still an address that is admitted, and the line feed is gone. -/
theorem mailBuildMessage_cut : ∃ msg,
    mailBuildMessage (fun _ => true) (List.replicate 248 0x61) (ascii "b@x") none .attach
      [[0x2a]] = some msg ∧
    ¬ WellFormed (headerFields (List.replicate 248 0x61) (ascii "b@x") none .attach 1) .attach
      [[0x2a]] msg := by
  obtain ⟨msg, h_msg⟩ := @mailBuildMessage_isSome (fun _ => true) (fun _ => rfl)
    (List.replicate 248 0x61) (ascii "b@x") none .attach [[0x2a]] (by decide)
  refine ⟨msg, h_msg, fun h_whole => ?_⟩
  have h_fits := WellFormed.fits (.replicate 248) ⟨by decide, by decide⟩ ⟨by decide, by decide⟩
    (by decide) h_msg h_whole
  rw [List.length_replicate] at h_fits
  exact absurd h_fits.1 (by decide)

end IonContrib.Mail
