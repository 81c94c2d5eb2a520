/-
  IonContrib.Mail.RoundTrip

  What `mailBuildMessage` makes and `mailParseMessage` finds in it.

  * The headers are pieces that begin with a capital letter, so no blank line
    and no `boundary=` of their own comes before the last of them, even where
    `snprintf` has cut off the end of a line (`memfind_blank`,
    `findBoundary_headText`).
  * Base64 has no hyphen, and a separator has no line end, so each is found
    right behind the bundle in front of it.
  * The line ends that are trimmed are the ones that were added: a bundle is
    never next to the separator itself.
-/
import IonContrib.Mail.Msg

namespace IonContrib.Mail

open Octets Find

/-! ## What is built -/

theorem bufEnsure_some {mem : Nat → Bool} {b b' : Buf} {extra : Nat}
    (h : bufEnsure mem b extra = some b') : b'.p = b.p := by
  unfold bufEnsure at h
  dsimp only at h
  by_cases h_room : b.p.length + extra + 1 > b.cap
  · rw [if_pos h_room] at h
    obtain ⟨-, h_eq⟩ := Option.ite_none_right_eq_some.mp h
    rw [← Option.some.inj h_eq]
  · rw [if_neg h_room] at h
    rw [← Option.some.inj h]

theorem bufAppend_some {mem : Nat → Bool} {b b' : Buf} {data : Octets}
    (h : bufAppend mem b data = some b') : b'.p = b.p ++ data := by
  unfold bufAppend at h
  cases h_ensure : bufEnsure mem b data.length with
  | none =>
    rw [h_ensure] at h
    cases h
  | some b₁ =>
    rw [h_ensure] at h
    obtain rfl := Option.some.inj h
    exact congrArg (· ++ data) (bufEnsure_some h_ensure)

/-- Lines of 76 characters. -/
def wrap : Nat → Octets → Octets
  | 0, _ => []
  | rounds + 1, enc =>
    if enc = [] then [] else enc.take 76 ++ (crlf ++ wrap rounds (enc.drop 76))

theorem bufLines_some {mem : Nat → Bool} {rounds : Nat} {enc : Octets} {b b' : Buf}
    (h : bufLines mem rounds enc b = some b') : b'.p = b.p ++ wrap rounds enc := by
  induction rounds generalizing enc b with
  | zero =>
    obtain rfl := Option.some.inj h
    simp [wrap]
  | succ rounds ih =>
    unfold bufLines at h
    unfold wrap
    by_cases h_enc : enc = []
    · rw [if_pos h_enc] at h
      obtain rfl := Option.some.inj h
      rw [if_pos h_enc, List.append_nil]
    · rw [if_neg h_enc] at h
      obtain ⟨b₁, h_line, h⟩ := Option.bind_eq_some_iff.mp h
      obtain ⟨b₂, h_end, h⟩ := Option.bind_eq_some_iff.mp h
      rw [ih h, bufAppend_some h_end, bufAppend_some h_line, if_neg h_enc]
      simp only [List.append_assoc]

/-- A bundle in base64, as it stands in a message. -/
def b64Text (bundle : Octets) : Octets := wrap (b64Groups bundle).length (b64Groups bundle)

theorem bufB64_some {mem : Nat → Bool} {b b' : Buf} {bundle : Octets}
    (h : bufB64 mem b bundle = some b') : b'.p = b.p ++ b64Text bundle := by
  unfold bufB64 at h
  dsimp only at h
  split at h
  · cases h
  · obtain ⟨enc, h_enc, h⟩ := Option.bind_eq_some_iff.mp h
    rw [mailB64Encode, if_neg (Nat.lt_irrefl _)] at h_enc
    obtain rfl := Option.some.inj h_enc
    exact bufLines_some h

def delimiter : Octets := ascii "--" ++ mailBoundary

/-- The header lines of part `i`, with the line end of the delimiter in front. -/
def partHead (i : Nat) : List Octets :=
  [line (ascii "Content-Type: application/octet-stream; name=\"bundle" ++
      sizeText (i + 1) ++ ascii ".bp\"" ++ crlf),
    ascii "Content-Transfer-Encoding: base64"]

def partsText : Nat → List Octets → Octets
  | _, [] => delimiter ++ (ascii "--" ++ crlf)
  | i, bundle :: bundles =>
    delimiter ++ (crlf ++ ((partHead i).flatten ++ (crlf ++ crlf ++
      (b64Text bundle ++ partsText (i + 1) bundles))))

theorem buildParts_some {mem : Nat → Bool} {i : Nat} {bundles : List Octets} {b b' b'' : Buf}
    (h : buildParts mem i bundles b = some b')
    (h_close : bufAppend mem b' (ascii "--" ++ mailBoundary ++ ascii "--" ++ crlf) = some b'') :
    b''.p = b.p ++ partsText i bundles := by
  induction bundles generalizing i b with
  | nil =>
    obtain rfl := Option.some.inj h
    rw [bufAppend_some h_close]
    simp only [partsText, delimiter, List.append_assoc]
  | cons bundle bundles ih =>
    unfold buildParts at h
    obtain ⟨b₁, h₁, h⟩ := Option.bind_eq_some_iff.mp h
    obtain ⟨b₂, h₂, h⟩ := Option.bind_eq_some_iff.mp h
    obtain ⟨b₃, h₃, h⟩ := Option.bind_eq_some_iff.mp h
    obtain ⟨b₄, h₄, h⟩ := Option.bind_eq_some_iff.mp h
    rw [ih h, bufB64_some h₄, bufAppend_some h₃, bufAppend_some h₂, bufAppend_some h₁]
    simp only [partsText, partHead, delimiter, List.flatten_cons, List.flatten_nil,
      List.append_assoc, List.nil_append]

/-- A bundle as it stands in a text body. -/
def itemText (encoding : MailEncoding) (bundle : Octets) : Octets :=
  if encoding = .b64 then b64Text bundle else bundle

/-- The bundles behind the first. -/
def laterText (encoding : MailEncoding) : List Octets → Octets
  | [] => []
  | bundle :: bundles =>
    crlf ++ (mailSeparator ++ (crlf ++ (itemText encoding bundle ++ laterText encoding bundles)))

theorem bufItem_some {mem : Nat → Bool} {encoding : MailEncoding} {b b' : Buf} {bundle : Octets}
    (h : bufItem mem encoding b bundle = some b') : b'.p = b.p ++ itemText encoding bundle := by
  unfold bufItem at h
  unfold itemText
  by_cases h_b64 : encoding = .b64
  · rw [if_pos h_b64] at h ⊢
    exact bufB64_some h
  · rw [if_neg h_b64] at h ⊢
    exact bufAppend_some h

theorem buildBody_some {mem : Nat → Bool} {encoding : MailEncoding} {bundles : List Octets}
    {b b' : Buf} (h : buildBody mem encoding false bundles b = some b') :
    b'.p = b.p ++ laterText encoding bundles := by
  induction bundles generalizing b with
  | nil =>
    obtain rfl := Option.some.inj h
    simp [laterText]
  | cons bundle bundles ih =>
    unfold buildBody at h
    obtain ⟨b₁, h₁, h⟩ := Option.bind_eq_some_iff.mp h
    obtain ⟨b₂, h₂, h⟩ := Option.bind_eq_some_iff.mp h
    rw [ih h, bufItem_some h₂, bufAppend_some h₁]
    simp only [laterText, List.append_assoc]

/-! ## The whole message -/

/-- The header lines in front of the content type. -/
def headLines (recipient : Octets) (subject : Option Octets) (encoding : MailEncoding)
    (count : Nat) : List Octets :=
  [line (ascii "To: " ++ recipient ++ crlf),
    line (ascii "Subject: " ++ subject.getD defaultSubject ++ crlf),
    ascii "MIME-Version: 1.0" ++ crlf,
    line (mailHdrEncoding ++ ascii ": " ++ mailEncodingName encoding ++ crlf),
    line (mailHdrCount ++ ascii ": " ++ sizeText count ++ crlf)]

def contentType (encoding : MailEncoding) : Octets :=
  if encoding = .attach then
    ascii "Content-Type: multipart/mixed; boundary=\"" ++ (mailBoundary ++ ascii "\"")
  else ascii "Content-Type: text/plain"

def bodyText (encoding : MailEncoding) (bundles : List Octets) : Octets :=
  if encoding = .attach then partsText 0 bundles
  else
    match bundles with
    | [] => []
    | bundle :: bundles => itemText encoding bundle ++ laterText encoding bundles

/-- The header of a message, up to the blank line. -/
def headText (sender recipient : Octets) (subject : Option Octets) (encoding : MailEncoding)
    (count : Nat) : Octets :=
  line (ascii "From: " ++ sender ++ crlf) ++
    (headLines recipient subject encoding count ++ [contentType encoding]).flatten

theorem buildContent_some {mem : Nat → Bool} {encoding : MailEncoding} {bundles : List Octets}
    {b b' : Buf} (h_some : bundles ≠ []) (h : buildContent mem encoding bundles b = some b') :
    b'.p = b.p ++ (contentType encoding ++ (crlf ++ crlf ++ bodyText encoding bundles)) := by
  unfold buildContent at h
  unfold contentType bodyText
  by_cases h_attach : encoding = .attach
  · rw [if_pos h_attach] at h ⊢
    obtain ⟨b₁, h₁, h⟩ := Option.bind_eq_some_iff.mp h
    obtain ⟨b₂, h₂, h⟩ := Option.bind_eq_some_iff.mp h
    rw [if_pos h_attach, buildParts_some h₂ h, bufAppend_some h₁]
    simp only [List.append_assoc]
  · rw [if_neg h_attach] at h ⊢
    obtain ⟨b₁, h₁, h_body⟩ := Option.bind_eq_some_iff.mp h
    obtain ⟨bundle, bundles, rfl⟩ := List.exists_cons_of_ne_nil h_some
    unfold buildBody at h_body
    obtain ⟨b₂, h₂, h_first⟩ := Option.bind_eq_some_iff.mp h_body
    obtain ⟨b₃, h₃, h_later⟩ := Option.bind_eq_some_iff.mp h_first
    obtain rfl := Option.some.inj h₂
    rw [if_neg h_attach, buildBody_some h_later, bufItem_some h₃, bufAppend_some h₁]
    simp only [List.append_assoc]

theorem mailBuildMessage_some {mem : Nat → Bool} {sender recipient : Octets}
    {subject : Option Octets} {encoding : MailEncoding} {bundles : List Octets} {msg : Octets}
    (h : mailBuildMessage mem sender recipient subject encoding bundles = some msg) :
    msg = headText sender recipient subject encoding bundles.length ++
      (crlf ++ crlf ++ bodyText encoding bundles) := by
  unfold mailBuildMessage at h
  split at h
  · cases h
  · rename_i h_some
    obtain ⟨b₁, h₁, h⟩ := Option.bind_eq_some_iff.mp h
    obtain ⟨b₂, h₂, h⟩ := Option.bind_eq_some_iff.mp h
    obtain ⟨b₃, h₃, h⟩ := Option.bind_eq_some_iff.mp h
    obtain ⟨b₄, h₄, h⟩ := Option.bind_eq_some_iff.mp h
    obtain ⟨b₅, h₅, h⟩ := Option.bind_eq_some_iff.mp h
    obtain ⟨b₆, h₆, h⟩ := Option.bind_eq_some_iff.mp h
    obtain ⟨b₇, h₇, h⟩ := Option.bind_eq_some_iff.mp h
    obtain rfl := Option.some.inj h
    rw [buildContent_some h_some h₇, bufAppend_some h₆, bufAppend_some h₅, bufAppend_some h₄,
      bufAppend_some h₃, bufAppend_some h₂, bufAppend_some h₁]
    simp only [headText, headLines, List.flatten_append, List.flatten_cons, List.flatten_nil,
      List.append_assoc, List.nil_append]

/-! ## Headers -/

/-- A text that a header field may hold. -/
structure FieldText (s : Octets) : Prop where
  cr : (0x0d : UInt8) ∉ s
  lf : (0x0a : UInt8) ∉ s
  boundary : ¬ ascii "boundary=" <:+: s

theorem FieldText.sizeText (n : Nat) : FieldText (sizeText n) where
  cr h := absurd (mem_sizeText h) (by decide)
  lf h := absurd (mem_sizeText h) (by decide)
  boundary h := by
    have h_b : (0x62 : UInt8) ∈ Mail.sizeText n := h.subset (by decide)
    exact absurd (mem_sizeText h_b) (by decide)

/-- A piece of the headers that has neither a blank line nor a boundary in it, and no part of
    one that the piece in front could begin. -/
structure HeadPiece (l : Octets) : Prop where
  blank : ¬ crlf ++ crlf <:+: l
  boundary : ¬ ascii "boundary=" <:+: l
  first : ∃ c, (c ∉ crlf ++ crlf ∧ c ∉ ascii "boundary=") ∧ l.head? = some c

/-- A header line, of which `snprintf` may have cut off the end. -/
theorem headPiece_line {s : Octets} (c : UInt8) (label : Octets)
    (h_lf : (0x0a : UInt8) ∉ c :: label) (h_eq : (0x3d : UInt8) ∉ c :: label)
    (h_c : c ∉ crlf ++ crlf ∧ c ∉ ascii "boundary=") (h_s : FieldText s) :
    HeadPiece (line (c :: label ++ 0x20 :: s ++ crlf)) := by
  have h_part : line (c :: label ++ 0x20 :: s ++ crlf) <+: c :: label ++ 0x20 :: s ++ crlf :=
    List.take_prefix _ _
  refine ⟨fun h => ?_, fun h => ?_, ⟨c, h_c, rfl⟩⟩
  · -- There is no more than one line end in it.
    have h_in := h.trans h_part.isInfix
    refine not_infix_of_count (c := 0x0a) ?_ h_in
    rw [List.count_append, List.count_append, List.count_eq_zero.mpr h_lf,
      List.count_cons_of_ne (by decide), List.count_eq_zero.mpr h_s.lf]
    decide
  · have h_in := h.trans h_part.isInfix
    rw [infix_append_cut (c := 0x0d) (by decide) rfl] at h_in
    rcases h_in with h_in | h_in
    · rcases (infix_cut (by decide)).mp h_in with h_in | h_in
      · exact h_eq (h_in.subset (by decide))
      · exact h_s.boundary h_in
    · exact absurd (h_in.subset (show (0x3d : UInt8) ∈ _ by decide)) (by decide)

theorem headPiece_headLines {recipient : Octets} {subject : Option Octets}
    (h_recipient : FieldText recipient) (h_subject : FieldText (subject.getD defaultSubject))
    (encoding : MailEncoding) (count : Nat) :
    ∀ l ∈ headLines recipient subject encoding count, HeadPiece l := by
  have h_name : FieldText (mailEncodingName encoding) := by
    cases encoding <;> exact ⟨by decide, by decide, fun h => absurd h.length_le (by decide)⟩
  have h_mime : HeadPiece (ascii "MIME-Version: 1.0" ++ crlf) :=
    ⟨not_infix_of_count (c := 0x0a) (by decide), not_infix_of_count (c := 0x3d) (by decide),
      ⟨0x4d, by decide, rfl⟩⟩
  simp only [headLines, List.forall_mem_cons, List.not_mem_nil, false_implies, implies_true,
    and_true]
  refine ⟨?_, ?_, h_mime, ?_, ?_⟩
  · exact headPiece_line 0x54 (ascii "o:") (by decide) (by decide) (by decide) h_recipient
  · exact headPiece_line 0x53 (ascii "ubject:") (by decide) (by decide) (by decide) h_subject
  · exact headPiece_line 0x58 (ascii "-ION-Bundle-Encoding:") (by decide) (by decide) (by decide)
      h_name
  · exact headPiece_line 0x58 (ascii "-ION-Bundle-Count:") (by decide) (by decide) (by decide)
      (FieldText.sizeText count)

theorem headPiece_from {sender : Octets} (h : FieldText sender) :
    HeadPiece (line (ascii "From: " ++ sender ++ crlf)) :=
  headPiece_line 0x46 (ascii "rom:") (by decide) (by decide) (by decide) h

section

variable {sender recipient : Octets} {subject : Option Octets}
  (h_sender : FieldText sender) (h_recipient : FieldText recipient)
  (h_subject : FieldText (subject.getD defaultSubject)) (encoding : MailEncoding) (count : Nat)
include h_sender h_recipient h_subject

/-- The blank line behind the headers is the first. -/
theorem memfind_blank (body : Octets) :
    memfind (headText sender recipient subject encoding count ++ (crlf ++ crlf ++ body))
      (crlf ++ crlf) = some (headText sender recipient subject encoding count).length := by
  have h_last : ¬ crlf ++ crlf <:+: contentType encoding ++ (crlf ++ crlf).dropLast := by
    refine not_infix_of_count (c := 0x0a) ?_
    cases encoding <;> decide
  have h_head : ∃ c ∉ crlf ++ crlf,
      (contentType encoding ++ (crlf ++ crlf).dropLast).head? = some c := by
    refine ⟨0x43, by decide, ?_⟩
    cases encoding <;> rfl
  rw [memfind, if_neg (by decide)]
  refine find_append ?_
  have h_flat : headText sender recipient subject encoding count ++ (crlf ++ crlf).dropLast =
      line (ascii "From: " ++ sender ++ crlf) ++ (headLines recipient subject encoding count ++
        [contentType encoding ++ (crlf ++ crlf).dropLast]).flatten := by
    simp only [headText, List.flatten_append, List.flatten_cons, List.flatten_nil,
      List.append_nil, List.append_assoc]
  rw [h_flat]
  refine not_infix_flatten (headPiece_from h_sender).blank fun l h_l => ?_
  rcases List.mem_append.mp h_l with h_l | h_l
  · obtain ⟨h_blank, -, c, ⟨h_c, -⟩, h_first⟩ :=
      headPiece_headLines h_recipient h_subject encoding count l h_l
    exact ⟨h_blank, c, h_c, h_first⟩
  · rw [List.mem_singleton.mp h_l]
    exact ⟨h_last, h_head⟩

/-- The boundary of the content type is the first, and is read as it was written. -/
theorem findBoundary_headText :
    findBoundary (headText sender recipient subject .attach count) 128 = some mailBoundary := by
  have h_text : headText sender recipient subject .attach count =
      (line (ascii "From: " ++ sender ++ crlf) ++ (headLines recipient subject .attach count ++
        [ascii "Content-Type: multipart/mixed; "]).flatten) ++
          (ascii "boundary=" ++ (0x22 :: (mailBoundary ++ [0x22]))) := by
    simp only [headText, List.flatten_append, List.flatten_cons, List.flatten_nil,
      List.append_nil, List.append_assoc]
    rfl
  rw [h_text]
  generalize h_pre : line (ascii "From: " ++ sender ++ crlf) ++ (headLines recipient subject .attach
    count ++ [ascii "Content-Type: multipart/mixed; "]).flatten = pre
  have h_none : ¬ ascii "boundary=" <:+: pre ++ (ascii "boundary=").dropLast := by
    have h_flat : pre ++ (ascii "boundary=").dropLast = line (ascii "From: " ++ sender ++ crlf) ++
        (headLines recipient subject .attach count ++
          [ascii "Content-Type: multipart/mixed; " ++ (ascii "boundary=").dropLast]).flatten := by
      simp only [← h_pre, List.flatten_append, List.flatten_cons, List.flatten_nil,
        List.append_nil, List.append_assoc]
    rw [h_flat]
    refine not_infix_flatten (headPiece_from h_sender).boundary fun l h_l => ?_
    rcases List.mem_append.mp h_l with h_l | h_l
    · obtain ⟨-, h_boundary, c, ⟨-, h_c⟩, h_first⟩ :=
        headPiece_headLines h_recipient h_subject .attach count l h_l
      exact ⟨h_boundary, c, h_c, h_first⟩
    · -- The equals sign of this one is the last of the needle.
      rw [List.mem_singleton.mp h_l]
      exact ⟨not_infix_of_count (c := 0x3d) (by decide), 0x43, by decide, rfl⟩
  have h_find : memfind (pre ++ (ascii "boundary=" ++ (0x22 :: (mailBoundary ++ [0x22]))))
      (ascii "boundary=") = some pre.length := by
    rw [memfind, if_neg (by decide)]
    exact find_append h_none
  have h_drop : (pre ++ (ascii "boundary=" ++ (0x22 :: (mailBoundary ++ [0x22])))).drop
      (pre.length + 9) = 0x22 :: (mailBoundary ++ [0x22]) := by
    rw [List.drop_append, List.drop_eq_nil_of_le (by omega), Nat.add_sub_cancel_left]
    rfl
  rw [findBoundary, h_find]
  simp only [h_drop]
  decide

/-- The body begins behind the blank line. -/
theorem bodyStart_headText (body : Octets) :
    bodyStart (headText sender recipient subject encoding count ++ (crlf ++ crlf ++ body)) =
      body := by
  rw [bodyStart, memfind_blank h_sender h_recipient h_subject encoding count]
  dsimp only
  rw [List.drop_append, List.drop_eq_nil_of_le (by omega), Nat.add_sub_cancel_left]
  rfl

end

/-! ## One bundle -/

theorem trimEnd_crlf (chunk : Octets) : trimEnd (chunk ++ crlf) = chunk := by
  have h_len : (chunk ++ crlf).length - 2 = chunk.length := by simp [crlf]
  rw [trimEnd, h_len, List.drop_left, List.take_left, if_pos ⟨by simp [crlf], rfl⟩]

theorem trimFront_crlf (chunk : Octets) : trimFront (crlf ++ chunk) = chunk := if_pos rfl

/-- A text of base64: nothing but `enc` and blanks, and no hyphen. -/
structure Encodes (enc text : Octets) : Prop where
  filter : (text.filter fun c => !isBlank c) = enc
  hyphen : (0x2d : UInt8) ∉ text

theorem Encodes.crlf_iff {enc text : Octets} : Encodes enc (text ++ crlf) ↔ Encodes enc text := by
  have h_filter : (text ++ crlf).filter (fun c => !isBlank c) = text.filter fun c => !isBlank c := by
    rw [List.filter_append]
    exact List.append_nil _
  have h_hyphen : (0x2d : UInt8) ∉ text ++ crlf ↔ (0x2d : UInt8) ∉ text := by simp [crlf]
  refine ⟨fun h => ⟨?_, h_hyphen.mp h.hyphen⟩, fun h => ⟨?_, h_hyphen.mpr h.hyphen⟩⟩
  · rw [← h_filter, h.filter]
  · rw [h_filter, h.filter]

/-- A text that is not empty ends with a line end. -/
theorem wrap_encodes {rounds : Nat} {enc : Octets} (h_rounds : enc.length ≤ rounds)
    (h_plain : ∀ c ∈ enc, isBlank c = false ∧ c ≠ 0x2d) :
    Encodes enc (wrap rounds enc) ∧ (enc ≠ [] → ∃ text, wrap rounds enc = text ++ crlf) := by
  induction rounds generalizing enc with
  | zero =>
    obtain rfl := List.eq_nil_of_length_eq_zero (Nat.le_zero.mp h_rounds)
    exact ⟨⟨rfl, List.not_mem_nil⟩, fun h => absurd rfl h⟩
  | succ rounds ih =>
    by_cases h_enc : enc = []
    · subst h_enc
      exact ⟨⟨rfl, List.not_mem_nil⟩, fun h => absurd rfl h⟩
    have h_pos := List.length_pos_of_ne_nil h_enc
    have h_drop : (enc.drop 76).length ≤ rounds := by
      rw [List.length_drop]
      omega
    obtain ⟨⟨h_filter, h_hyphen⟩, h_end⟩ := ih h_drop fun c h_c => h_plain c (List.mem_of_mem_drop h_c)
    have h_take : (enc.take 76).filter (fun c => !isBlank c) = enc.take 76 := by
      refine List.filter_eq_self.mpr fun c h_c => ?_
      rw [(h_plain c (List.mem_of_mem_take h_c)).1]
      rfl
    have h_take_hyphen : (0x2d : UInt8) ∉ enc.take 76 :=
      fun h => (h_plain _ (List.mem_of_mem_take h)).2 rfl
    rw [wrap, if_neg h_enc]
    refine ⟨⟨?_, ?_⟩, fun _ => ?_⟩
    · rw [List.filter_append, List.filter_append, h_take, h_filter]
      exact List.take_append_drop 76 enc
    · simp only [List.mem_append, not_or]
      exact ⟨h_take_hyphen, by decide, h_hyphen⟩
    · by_cases h_rest : enc.drop 76 = []
      · refine ⟨enc.take 76, ?_⟩
        cases rounds with
        | zero => rw [wrap, List.append_nil]
        | succ rounds => rw [wrap, if_pos h_rest, List.append_nil]
      · obtain ⟨text, h_text⟩ := h_end h_rest
        refine ⟨enc.take 76 ++ (crlf ++ text), ?_⟩
        rw [h_text]
        simp only [List.append_assoc]

theorem b64Groups_ne_nil {bundle : Octets} (h : bundle ≠ []) : b64Groups bundle ≠ [] := by
  have h_pos := List.length_pos_of_ne_nil h
  have h_len := length_b64Groups bundle
  intro h_nil
  rw [h_nil, List.length_nil] at h_len
  omega

theorem b64Text_encodes (bundle : Octets) : Encodes (b64Groups bundle) (b64Text bundle) :=
  (wrap_encodes (Nat.le_refl _) (b64Groups_plain bundle)).1

theorem b64Text_crlf {bundle : Octets} (h : bundle ≠ []) : ∃ text, b64Text bundle = text ++ crlf :=
  (wrap_encodes (Nat.le_refl _) (b64Groups_plain bundle)).2 (b64Groups_ne_nil h)

section

variable {σ : Type} (k : Sink σ)

/-- What was encoded is handed over, if there is memory for it. -/
theorem deliverB64_encodes {ctx : σ} {bundle chunk : Octets} (h_bundle : bundle ≠ [])
    (h : Encodes (b64Groups bundle) chunk) : deliverB64 k ctx chunk =
      if k.mem chunk.length then deliver k ctx bundle else (ctx, -1) := by
  have h_len : (b64Groups bundle).length ≤ chunk.length := by
    rw [← h.filter]
    exact List.length_filter_le _ _
  have h_chunk : chunk ≠ [] := by
    rintro rfl
    exact b64Groups_ne_nil h_bundle (List.eq_nil_of_length_eq_zero (Nat.le_zero.mp h_len))
  have h_decode : mailB64Decode chunk chunk.length = some bundle := by
    have h_room : ([] : Octets).length + bundle.length ≤ chunk.length := by
      rw [length_b64Groups] at h_len
      rw [List.length_nil]
      omega
    rw [mailB64Decode, decodeFrom_blanks, h.filter, decodeFrom_groups bundle [] h_room,
      List.nil_append]
  rw [deliverB64, if_neg h_chunk, h_decode]
  dsimp only
  rw [if_neg h_bundle]
  cases k.mem chunk.length <;> rfl

/-- `bundles` have been handed to the callback one after the other, until it refused one or there
    was no memory; `r` is what the parser returns, with `count` of the bundles before. -/
inductive HandedOver : σ → List Octets → Int → σ × Int → Prop
  | all {ctx : σ} {count : Int} : HandedOver ctx [] count (ctx, count)
  | noMemory {ctx : σ} {bundles : List Octets} {count : Int} {n : Nat} (h : k.mem n = false) :
    HandedOver ctx bundles count (ctx, -1)
  | refused {ctx : σ} {bundle : Octets} {bundles : List Octets} {count : Int}
    (h : (k.cb ctx bundle).2 = false) :
    HandedOver ctx (bundle :: bundles) count ((k.cb ctx bundle).1, -1)
  | next {ctx : σ} {bundle : Octets} {bundles : List Octets} {count : Int} {r : σ × Int}
    (h : (k.cb ctx bundle).2 = true)
    (h_rest : HandedOver (k.cb ctx bundle).1 bundles (count + 1) r) :
    HandedOver ctx (bundle :: bundles) count r

variable {k}

/-- A callback that takes everything gets everything. -/
theorem HandedOver.eq_of_accepts {ctx : σ} {bundles : List Octets} {count : Int} {r : σ × Int}
    (h : HandedOver k ctx bundles count r) (h_mem : ∀ n, k.mem n = true)
    (h_cb : ∀ ctx, ∀ bundle ∈ bundles, (k.cb ctx bundle).2 = true) :
    r = (bundles.foldl (fun ctx bundle => (k.cb ctx bundle).1) ctx, count + bundles.length) := by
  induction h with
  | all => simp
  | noMemory h => rw [h_mem] at h; cases h
  | refused h => rw [h_cb _ _ List.mem_cons_self] at h; cases h
  | next h h_rest ih =>
    rw [ih fun ctx bundle h_in => h_cb ctx bundle (List.mem_cons_of_mem _ h_in)]
    simp only [List.foldl_cons, List.length_cons, Nat.cast_add, Nat.cast_one]
    rw [Int.add_assoc, Int.add_comm 1]

/-- One round of a parser that hands over `bundle` and goes on with `rest`. -/
theorem HandedOver.round {ctx : σ} {bundle : Octets} {bundles : List Octets} {count : Int}
    {given : σ × Int} (rest : σ × Int → σ × Int)
    (h_given : given = deliver k ctx bundle ∨ given = (ctx, -1) ∧ ∃ n, k.mem n = false)
    (h_stop : ∀ r, r.2 < 0 → rest r = (r.1, -1))
    (h_rest : HandedOver k (k.cb ctx bundle).1 bundles (count + 1) (rest ((k.cb ctx bundle).1, 1))) :
    HandedOver k ctx (bundle :: bundles) count (rest given) := by
  rcases h_given with rfl | ⟨rfl, n, h_none⟩
  · cases h_taken : (k.cb ctx bundle).2 with
    | true =>
      simp only [deliver, h_taken, if_true]
      exact HandedOver.next h_taken h_rest
    | false =>
      simp only [deliver, h_taken, Bool.false_eq_true, if_false]
      rw [h_stop _ (show (-1 : Int) < 0 by decide)]
      exact HandedOver.refused h_taken
  · rw [h_stop _ (show (-1 : Int) < 0 by decide)]
    exact HandedOver.noMemory h_none

/-! ## Parts -/

theorem partsText_delimiter (i : Nat) (bundles : List Octets) :
    ∃ rest, partsText i bundles = delimiter ++ rest := by
  cases bundles with
  | nil => exact ⟨_, rfl⟩
  | cons bundle bundles => exact ⟨_, rfl⟩

theorem length_partsText (i : Nat) (bundles : List Octets) :
    bundles.length < (partsText i bundles).length := by
  have h_delimiter : 0 < delimiter.length := by decide
  induction bundles generalizing i with
  | nil =>
    rw [partsText, List.length_append, List.length_nil]
    omega
  | cons bundle bundles ih =>
    have h_rest := ih (i + 1)
    simp only [partsText, List.length_append, List.length_cons]
    omega

/-- The blank line behind the headers of a part is the first. -/
theorem memfind_partHead (i : Nat) (body : Octets) :
    memfind (crlf ++ ((partHead i).flatten ++ (crlf ++ crlf ++ body))) (crlf ++ crlf) =
      some (crlf ++ (partHead i).flatten).length := by
  rw [memfind, if_neg (by decide), ← List.append_assoc]
  refine find_append ?_
  have h_flat : crlf ++ (partHead i).flatten ++ (crlf ++ crlf).dropLast = crlf ++
      [line (ascii "Content-Type: application/octet-stream; name=\"bundle" ++
          sizeText (i + 1) ++ ascii ".bp\"" ++ crlf),
        ascii "Content-Transfer-Encoding: base64" ++ (crlf ++ crlf).dropLast].flatten := by
    simp only [partHead, List.flatten_cons, List.flatten_nil, List.append_nil, List.append_assoc]
  rw [h_flat]
  refine not_infix_flatten (by decide) ?_
  simp only [List.forall_mem_cons, List.not_mem_nil, false_implies, implies_true, and_true]
  refine ⟨⟨fun h => ?_, 0x43, by decide, rfl⟩,
    not_infix_of_count (c := 0x0a) (by decide), 0x43, by decide, rfl⟩
  refine not_infix_of_count (c := 0x0a) ?_ (h.trans (List.take_prefix _ _).isInfix)
  rw [List.count_append, List.count_append, List.count_append,
    List.count_eq_zero.mpr (FieldText.sizeText (i + 1)).lf]
  decide

theorem attachLoop_partsText {rounds i : Nat} {bundles : List Octets} {ctx : σ} {count : Int}
    (h_rounds : bundles.length < rounds) (h_bundles : ∀ bundle ∈ bundles, bundle ≠ []) :
    HandedOver k ctx bundles count
      (attachLoop k delimiter rounds (partsText i bundles) ctx count) := by
  induction bundles generalizing rounds i ctx count with
  | nil =>
    obtain ⟨rounds, rfl⟩ := Nat.exists_eq_succ_of_ne_zero (Nat.ne_of_gt h_rounds)
    have h_close : (delimiter ++ (ascii "--" ++ crlf)).drop delimiter.length =
        ascii "--" ++ crlf := List.drop_left
    rw [partsText, attachLoop, h_close]
    exact HandedOver.all
  | cons bundle bundles ih =>
    rw [List.length_cons] at h_rounds
    obtain ⟨rounds, rfl⟩ := Nat.exists_eq_succ_of_ne_zero (Nat.ne_of_gt (Nat.zero_lt_of_lt h_rounds))
    obtain ⟨h_bundle, h_bundles⟩ := List.forall_mem_cons.mp h_bundles
    obtain ⟨rest, h_next⟩ := partsText_delimiter (i + 1) bundles
    obtain ⟨text, h_text⟩ := b64Text_crlf h_bundle
    have h_encodes := b64Text_encodes bundle
    have h_first : ∀ body, (crlf ++ body : Octets).take 2 = crlf := fun _ => rfl
    have h_body : (crlf ++ ((partHead i).flatten ++ (crlf ++ crlf ++ (b64Text bundle ++
        partsText (i + 1) bundles)))).drop ((crlf ++ (partHead i).flatten).length + 4) =
          b64Text bundle ++ partsText (i + 1) bundles := by
      rw [← List.append_assoc crlf, List.drop_append, List.drop_eq_nil_of_le (by omega),
        Nat.add_sub_cancel_left]
      rfl
    -- Base64 has no hyphen, so the next delimiter is right behind it.
    have h_find : memfind (b64Text bundle ++ partsText (i + 1) bundles) delimiter =
        some (b64Text bundle).length := by
      rw [memfind, if_neg (by decide), h_next]
      exact find_append_of_notMem h_encodes.hyphen
    rw [partsText, attachLoop, List.drop_left]
    dsimp only
    rw [h_first, if_neg (by decide), memfind_partHead]
    dsimp only
    rw [h_body, h_find]
    dsimp only
    rw [List.take_left, List.drop_left, h_text, trimEnd_crlf]
    rw [h_text, Encodes.crlf_iff] at h_encodes
    refine HandedOver.round (fun r => if r.2 < 0 then (r.1, -1) else
      attachLoop k delimiter rounds (partsText (i + 1) bundles) r.1
        (if r.2 > 0 then count + 1 else count)) ?_ (fun r h => if_pos h) ?_
    · rw [deliverB64_encodes k h_bundle h_encodes]
      by_cases h_mem : k.mem text.length = true
      · exact Or.inl (if_pos h_mem)
      · exact Or.inr ⟨if_neg h_mem, text.length, Bool.eq_false_iff.mpr h_mem⟩
    · exact ih (by omega) h_bundles

/-! ## Text bodies -/

/-- A bundle that a text body can hold. -/
def FitsText (encoding : MailEncoding) (bundle : Octets) : Prop :=
  encoding = .raw → ¬ mailSeparator <:+: bundle

theorem mailSeparator_notMem_itemText {encoding : MailEncoding} {bundle : Octets}
    (h_text : encoding ≠ .attach) (h : FitsText encoding bundle) :
    ¬ mailSeparator <:+: itemText encoding bundle := by
  unfold itemText
  by_cases h_b64 : encoding = .b64
  · rw [if_pos h_b64]
    exact fun h_in => (b64Text_encodes bundle).hyphen (h_in.subset (by decide))
  · rw [if_neg h_b64]
    refine h ?_
    cases encoding with
    | attach => exact absurd rfl h_text
    | b64 => exact absurd rfl h_b64
    | raw => rfl

/-- What is in front of a bundle in a text body. -/
def lead (first : Bool) : Octets := if first then [] else crlf

theorem trimFront_lead (first : Bool) (chunk : Octets) :
    (if first then lead first ++ chunk else trimFront (lead first ++ chunk)) = chunk := by
  cases first with
  | true => rfl
  | false => exact trimFront_crlf chunk

theorem separator_notMem_lead {first : Bool} {item : Octets} (h : ¬ mailSeparator <:+: item) :
    ¬ mailSeparator <:+: lead first ++ item := by
  cases first with
  | true => exact h
  | false =>
    intro h_in
    have h_cut : lead false ++ item = [0x0d] ++ 0x0a :: item := rfl
    rw [h_cut] at h_in
    rcases (infix_cut (by decide)).mp h_in with h_in | h_in
    · exact absurd h_in.length_le (by decide)
    · exact h h_in

theorem itemText_ne_nil {encoding : MailEncoding} {bundle : Octets} (h : bundle ≠ []) :
    itemText encoding bundle ≠ [] := by
  unfold itemText
  by_cases h_b64 : encoding = .b64
  · obtain ⟨text, h_text⟩ := b64Text_crlf h
    rw [if_pos h_b64, h_text]
    simp [crlf]
  · rwa [if_neg h_b64]

theorem deliver_itemText {encoding : MailEncoding} {ctx : σ} {bundle : Octets}
    (h : bundle ≠ []) {given : σ × Int}
    (h_given : given = if encoding = .b64 then deliverB64 k ctx (itemText encoding bundle)
      else if itemText encoding bundle = [] then (ctx, 0)
      else deliver k ctx (itemText encoding bundle)) :
    given = deliver k ctx bundle ∨ given = (ctx, -1) ∧ ∃ n, k.mem n = false := by
  rw [if_neg (itemText_ne_nil h)] at h_given
  unfold itemText at h_given
  by_cases h_b64 : encoding = .b64
  · simp only [if_pos h_b64, deliverB64_encodes k h (b64Text_encodes bundle)] at h_given
    by_cases h_mem : k.mem (b64Text bundle).length = true
    · exact Or.inl (h_given.trans (if_pos h_mem))
    · exact Or.inr ⟨h_given.trans (if_neg h_mem), _, Bool.eq_false_iff.mpr h_mem⟩
  · simp only [if_neg h_b64] at h_given
    exact Or.inl h_given

theorem bodyLoop_laterText {encoding : MailEncoding} (h_text : encoding ≠ .attach) {rounds : Nat}
    {bundle : Octets} {bundles : List Octets} (first : Bool) {ctx : σ} {count : Int}
    (h_rounds : bundles.length < rounds)
    (h_bundles : ∀ b ∈ bundle :: bundles, b ≠ [] ∧ FitsText encoding b) :
    HandedOver k ctx (bundle :: bundles) count (bodyLoop k encoding rounds
      (lead first ++ (itemText encoding bundle ++ laterText encoding bundles)) first ctx count) := by
  induction bundles generalizing rounds bundle first ctx count with
  | nil =>
    obtain ⟨rounds, rfl⟩ := Nat.exists_eq_succ_of_ne_zero (Nat.ne_of_gt h_rounds)
    obtain ⟨⟨h_bundle, h_fits⟩, -⟩ := List.forall_mem_cons.mp h_bundles
    have h_item := mailSeparator_notMem_itemText h_text h_fits
    have h_ne : lead first ++ itemText encoding bundle ≠ [] :=
      List.append_ne_nil_of_right_ne_nil _ (itemText_ne_nil h_bundle)
    have h_find : memfind (lead first ++ itemText encoding bundle) mailSeparator = none := by
      rw [memfind, if_neg (by decide)]
      exact find_eq_none_iff.mpr (separator_notMem_lead h_item)
    rw [laterText, List.append_nil, bodyLoop, if_neg h_ne]
    simp only [h_find, Option.getD_none, List.take_length, Option.isSome_none, Bool.false_eq_true,
      if_false, trimFront_lead]
    exact HandedOver.round (fun r => if r.2 < 0 then (r.1, -1) else
      (r.1, if r.2 > 0 then count + 1 else count)) (deliver_itemText h_bundle rfl)
      (fun r h => if_pos h) HandedOver.all
  | cons bundle' bundles ih =>
    rw [List.length_cons] at h_rounds
    obtain ⟨rounds, rfl⟩ := Nat.exists_eq_succ_of_ne_zero (Nat.ne_of_gt (Nat.zero_lt_of_lt h_rounds))
    obtain ⟨⟨h_bundle, h_fits⟩, h_bundles⟩ := List.forall_mem_cons.mp h_bundles
    have h_item := mailSeparator_notMem_itemText h_text h_fits
    generalize h_rest : lead false ++ (itemText encoding bundle' ++ laterText encoding bundles) = rest
    have h_split : lead first ++ (itemText encoding bundle ++ laterText encoding (bundle' :: bundles)) =
        lead first ++ (itemText encoding bundle ++ crlf) ++ (mailSeparator ++ rest) := by
      rw [← h_rest]
      simp only [laterText, List.append_assoc]
      rfl
    have h_ne : lead first ++ (itemText encoding bundle ++ crlf) ++ (mailSeparator ++ rest) ≠ [] :=
      List.append_ne_nil_of_right_ne_nil _ (by simp [mailSeparator, ascii])
    -- A line end comes before the separator, and there is none in it.
    have h_find : memfind (lead first ++ (itemText encoding bundle ++ crlf) ++
        (mailSeparator ++ rest)) mailSeparator =
          some (lead first ++ (itemText encoding bundle ++ crlf)).length := by
      rw [memfind, if_neg (by decide)]
      refine find_append fun h_in => ?_
      rw [← List.append_assoc, List.append_assoc, infix_append_cut (c := 0x0d) (by decide) rfl] at h_in
      rcases h_in with h_in | h_in
      · exact separator_notMem_lead h_item h_in
      · exact not_infix_of_count (c := 0x2d) (by decide) h_in
    rw [h_split, bodyLoop, if_neg h_ne]
    simp only [h_find, Option.getD_some, List.take_left, Option.isSome_some, if_true,
      trimFront_lead, trimEnd_crlf, ← List.drop_drop, List.drop_left]
    refine HandedOver.round (fun r => if r.2 < 0 then (r.1, -1) else
      bodyLoop k encoding rounds rest false r.1 (if r.2 > 0 then count + 1 else count))
      (deliver_itemText h_bundle rfl) (fun r h => if_pos h) ?_
    rw [← h_rest]
    exact ih false (by omega) h_bundles

theorem length_laterText (encoding : MailEncoding) (bundles : List Octets) :
    bundles.length ≤ (laterText encoding bundles).length := by
  induction bundles with
  | nil => exact Nat.zero_le _
  | cons bundle bundles ih =>
    simp only [laterText, List.length_append, List.length_cons]
    have h_crlf : crlf.length = 2 := rfl
    omega

/-! ## The whole -/

theorem bufAppend_isSome {mem : Nat → Bool} (h_mem : ∀ n, mem n = true) (b : Buf) (data : Octets) :
    ∃ b', bufAppend mem b data = some b' := by
  unfold bufAppend bufEnsure
  simp only [h_mem, if_true]
  by_cases h_room : b.p.length + data.length + 1 > b.cap
  · rw [if_pos h_room]
    exact ⟨_, rfl⟩
  · rw [if_neg h_room]
    exact ⟨_, rfl⟩

theorem bind_isSome {α β : Type} {x : Option α} {f : α → Option β} (h : ∃ a, x = some a)
    (h_f : ∀ a, ∃ b, f a = some b) : ∃ b, x >>= f = some b := by
  obtain ⟨a, rfl⟩ := h
  exact h_f a

theorem bufLines_isSome {mem : Nat → Bool} (h_mem : ∀ n, mem n = true) (rounds : Nat)
    (enc : Octets) (b : Buf) : ∃ b', bufLines mem rounds enc b = some b' := by
  induction rounds generalizing enc b with
  | zero => exact ⟨b, rfl⟩
  | succ rounds ih =>
    unfold bufLines
    by_cases h_enc : enc = []
    · rw [if_pos h_enc]
      exact ⟨b, rfl⟩
    · rw [if_neg h_enc]
      exact bind_isSome (bufAppend_isSome h_mem b _) fun b =>
        bind_isSome (bufAppend_isSome h_mem b _) fun b => ih _ b

theorem bufB64_isSome {mem : Nat → Bool} (h_mem : ∀ n, mem n = true) (b : Buf)
    (bundle : Octets) : ∃ b', bufB64 mem b bundle = some b' := by
  obtain ⟨b', h_lines⟩ := bufLines_isSome h_mem (b64Groups bundle).length (b64Groups bundle) b
  refine ⟨b', ?_⟩
  rw [bufB64, h_mem, mailB64Encode, if_neg (Nat.lt_irrefl _)]
  exact h_lines

theorem buildParts_isSome {mem : Nat → Bool} (h_mem : ∀ n, mem n = true) (i : Nat)
    (bundles : List Octets) (b : Buf) : ∃ b', buildParts mem i bundles b = some b' := by
  induction bundles generalizing i b with
  | nil => exact ⟨b, rfl⟩
  | cons bundle bundles ih =>
    unfold buildParts
    exact bind_isSome (bufAppend_isSome h_mem b _) fun b =>
      bind_isSome (bufAppend_isSome h_mem b _) fun b =>
        bind_isSome (bufAppend_isSome h_mem b _) fun b =>
          bind_isSome (bufB64_isSome h_mem b bundle) fun b => ih _ b

theorem buildBody_isSome {mem : Nat → Bool} (h_mem : ∀ n, mem n = true) (encoding : MailEncoding)
    (first : Bool) (bundles : List Octets) (b : Buf) :
    ∃ b', buildBody mem encoding first bundles b = some b' := by
  induction bundles generalizing first b with
  | nil => exact ⟨b, rfl⟩
  | cons bundle bundles ih =>
    unfold buildBody
    refine bind_isSome ?_ fun b => bind_isSome ?_ fun b => ih false b
    · unfold bufSeparator
      cases first with
      | true => exact ⟨b, rfl⟩
      | false => exact bufAppend_isSome h_mem b _
    · unfold bufItem
      by_cases h_b64 : encoding = .b64
      · rw [if_pos h_b64]
        exact bufB64_isSome h_mem b bundle
      · rw [if_neg h_b64]
        exact bufAppend_isSome h_mem b bundle

/-- Where there is memory a message is made. -/
theorem mailBuildMessage_isSome {mem : Nat → Bool} (h_mem : ∀ n, mem n = true)
    (sender recipient : Octets) (subject : Option Octets) (encoding : MailEncoding)
    {bundles : List Octets} (h_some : bundles ≠ []) :
    ∃ msg, mailBuildMessage mem sender recipient subject encoding bundles = some msg := by
  have h_content : ∀ b, ∃ b', buildContent mem encoding bundles b = some b' := by
    intro b
    unfold buildContent
    by_cases h_attach : encoding = .attach
    · rw [if_pos h_attach]
      exact bind_isSome (bufAppend_isSome h_mem b _) fun b =>
        bind_isSome (buildParts_isSome h_mem 0 bundles b) fun b => bufAppend_isSome h_mem b _
    · rw [if_neg h_attach]
      exact bind_isSome (bufAppend_isSome h_mem b _) fun b =>
        buildBody_isSome h_mem encoding true bundles b
  rw [mailBuildMessage, if_neg h_some]
  exact bind_isSome (bufAppend_isSome h_mem _ _) fun b =>
    bind_isSome (bufAppend_isSome h_mem b _) fun b =>
      bind_isSome (bufAppend_isSome h_mem b _) fun b =>
        bind_isSome (bufAppend_isSome h_mem b _) fun b =>
          bind_isSome (bufAppend_isSome h_mem b _) fun b =>
            bind_isSome (bufAppend_isSome h_mem b _) fun b =>
              bind_isSome (h_content b) fun b => ⟨b.p, rfl⟩

/-- **A message that was built is parsed into its bundles**: each is handed over as it was, in
    order, and nothing else; they are counted unless the callback refuses one or there is no
    memory. -/
theorem mailParseMessage_mailBuildMessage {mem : Nat → Bool} {sender recipient : Octets}
    {subject : Option Octets} {encoding : MailEncoding} {bundles : List Octets} {msg : Octets}
    (h_sender : FieldText sender) (h_recipient : FieldText recipient)
    (h_subject : FieldText (subject.getD defaultSubject))
    (h_bundles : ∀ bundle ∈ bundles, bundle ≠ [] ∧ FitsText encoding bundle)
    (h : mailBuildMessage mem sender recipient subject encoding bundles = some msg) (ctx : σ) :
    HandedOver k ctx bundles 0 (mailParseMessage k msg encoding ctx) := by
  have h_some : bundles ≠ [] := by
    rintro rfl
    cases h
  rw [mailBuildMessage_some h, mailParseMessage]
  by_cases h_attach : encoding = .attach
  · subst h_attach
    have h_body : bodyText .attach bundles = partsText 0 bundles := if_pos rfl
    have h_blank := memfind_blank h_sender h_recipient h_subject .attach bundles.length
      (partsText 0 bundles)
    have h_start := bodyStart_headText h_sender h_recipient h_subject .attach bundles.length
      (partsText 0 bundles)
    have h_boundary := findBoundary_headText h_sender h_recipient h_subject bundles.length
    have h_delim : (ascii "--" ++ mailBoundary.takeWhile (· ≠ 0)).take 131 = delimiter := by decide
    obtain ⟨rest, h_first⟩ := partsText_delimiter 0 bundles
    have h_find : memfind (partsText 0 bundles) delimiter = some 0 := by
      rw [memfind, if_neg (by decide), h_first, ← List.nil_append (delimiter ++ rest)]
      exact find_append fun h_in => absurd h_in.length_le (by decide)
    rw [if_pos rfl, h_body, parseAttach, h_blank, h_start]
    dsimp only [Option.getD_some]
    rw [List.take_left, h_boundary]
    dsimp only
    rw [h_delim, h_find]
    exact attachLoop_partsText (length_partsText 0 bundles) fun b h_b => (h_bundles b h_b).1
  · have h_start := bodyStart_headText h_sender h_recipient h_subject encoding bundles.length
      (bodyText encoding bundles)
    rw [if_neg h_attach, parseBody, h_start]
    obtain ⟨bundle, bundles, rfl⟩ := List.exists_cons_of_ne_nil h_some
    have h_len := length_laterText encoding bundles
    have h_body : bodyText encoding (bundle :: bundles) =
        lead true ++ (itemText encoding bundle ++ laterText encoding bundles) := if_neg h_attach
    rw [h_body]
    refine bodyLoop_laterText h_attach true ?_ h_bundles
    rw [List.length_append, List.length_append]
    omega

end

/-- **The round trip**: where there is memory a message is made of the bundles, and a callback that
    takes what it is given is given exactly these, in order.  One that refuses a bundle has been
    given those in front of it and no other. -/
theorem mail_round_trip {sender recipient : Octets} {subject : Option Octets}
    {encoding : MailEncoding} {bundles : List Octets} (h_some : bundles ≠ [])
    (h_sender : FieldText sender) (h_recipient : FieldText recipient)
    (h_subject : FieldText (subject.getD defaultSubject))
    (h_bundles : ∀ bundle ∈ bundles, bundle ≠ [] ∧ FitsText encoding bundle) (mem : Nat → Bool) :
    ((∀ n, mem n = true) →
      ∃ msg, mailBuildMessage mem sender recipient subject encoding bundles = some msg) ∧
    ∀ msg, mailBuildMessage mem sender recipient subject encoding bundles = some msg →
      ∀ {σ : Type} (k : Sink σ) (ctx : σ),
        HandedOver k ctx bundles 0 (mailParseMessage k msg encoding ctx) ∧
        ((∀ n, k.mem n = true) → (∀ ctx, ∀ bundle ∈ bundles, (k.cb ctx bundle).2 = true) →
          mailParseMessage k msg encoding ctx =
            (bundles.foldl (fun ctx bundle => (k.cb ctx bundle).1) ctx, (bundles.length : Int))) := by
  refine ⟨fun h_mem => mailBuildMessage_isSome h_mem sender recipient subject encoding h_some, ?_⟩
  intro msg h_build σ k ctx
  have h_over := mailParseMessage_mailBuildMessage (k := k) h_sender h_recipient h_subject
    h_bundles h_build ctx
  refine ⟨h_over, fun h_mem h_cb => ?_⟩
  rw [h_over.eq_of_accepts h_mem h_cb, Int.zero_add]

/-- Two raw bundles that are all line ends. -/
theorem mail_round_trip_lineEnds : ∃ msg,
    mailBuildMessage (fun _ => true) (ascii "a@x") (ascii "b@x") none .raw
      [crlf ++ crlf, [0x0a]] = some msg ∧
    mailParseMessage ⟨fun (got : List Octets) bundle => (got ++ [bundle], true), fun _ => true⟩
      msg .raw [] = ([crlf ++ crlf, [0x0a]], 2) := by
  have h_field : ∀ s, s.length < 9 → (0x0d : UInt8) ∉ s → (0x0a : UInt8) ∉ s → FieldText s :=
    fun s h_len h_cr h_lf => ⟨h_cr, h_lf, fun h => absurd (Nat.le_trans h.length_le
      (Nat.le_of_lt_succ h_len)) (by decide)⟩
  have h_subject : FieldText ((none : Option Octets).getD defaultSubject) :=
    ⟨by decide, by decide, not_infix_of_count (c := 0x3d) (by decide)⟩
  have h_bundles : ∀ bundle ∈ [crlf ++ crlf, [0x0a]],
      bundle ≠ [] ∧ FitsText .raw bundle := by
    refine List.forall_mem_cons.mpr ⟨⟨by decide, fun _ h => ?_⟩, List.forall_mem_cons.mpr
      ⟨⟨by decide, fun _ h => ?_⟩, fun _ h => absurd h List.not_mem_nil⟩⟩
    · exact absurd h.length_le (by decide)
    · exact absurd h.length_le (by decide)
  obtain ⟨h_made, h_parsed⟩ := mail_round_trip (by decide)
    (h_field (ascii "a@x") (by decide) (by decide) (by decide))
    (h_field (ascii "b@x") (by decide) (by decide) (by decide)) h_subject h_bundles fun _ => true
  obtain ⟨msg, h_msg⟩ := h_made fun _ => rfl
  obtain ⟨-, h_all⟩ := h_parsed msg h_msg
    ⟨fun (got : List Octets) bundle => (got ++ [bundle], true), fun _ => true⟩ []
  exact ⟨msg, h_msg, h_all (fun _ => rfl) fun _ _ _ => rfl⟩

end IonContrib.Mail
