/-
  IonContrib.Mail.Base64

  Base64 as `mailmsg.c` writes and reads it.

  The encoder takes three octets at a time.  The decoder has no groups: it
  shifts the value of each character into 32 bits and takes an octet off as
  soon as there are eight, so behind a whole group no bit is pending, and what
  is left in the accumulator from before does not reach the octets to come
  (`decodeFrom_group`).  Line ends are passed over wherever they are
  (`decodeFrom_blanks`).
-/
import IonContrib.Lib.Octets

namespace IonContrib.Mail

open Octets

/-- The octets of a text in ASCII. -/
def ascii (s : String) : Octets := s.toList.map fun c => UInt8.ofNat c.toNat

def b64tab : Octets :=
  ascii "ABCDEFGHIJKLMNOPQRSTUVWXYZabcdefghijklmnopqrstuvwxyz0123456789+/"

def b64char (v : Nat) : UInt8 := b64tab.getD (v &&& 0x3f) 0

def padChar : UInt8 := 0x3d

/-- What `mailB64Encode` needs room for, the NUL included. -/
def mailB64EncodedLen (rawLen : Nat) : Nat := (rawLen + 2) / 3 * 4 + 1

/-- The loop of `mailB64Encode` and what is left behind it. -/
def b64Groups : Octets → Octets
  | a :: b :: c :: rest =>
    let v := (a.toNat <<< 16) ||| (b.toNat <<< 8) ||| c.toNat
    b64char (v >>> 18) :: b64char (v >>> 12) :: b64char (v >>> 6) :: b64char v :: b64Groups rest
  | [a, b] =>
    let v := (a.toNat <<< 16) ||| (b.toNat <<< 8)
    [b64char (v >>> 18), b64char (v >>> 12), b64char (v >>> 6), padChar]
  | [a] =>
    let v := a.toNat <<< 16
    [b64char (v >>> 18), b64char (v >>> 12), padChar, padChar]
  | [] => []

def mailB64Encode (raw : Octets) (outCap : Nat) : Option Octets :=
  if outCap < mailB64EncodedLen raw.length then none else some (b64Groups raw)

/-- The value of a character; `none` for -1. -/
def b64val (c : UInt8) : Option Nat :=
  if c ≥ 0x41 ∧ c ≤ 0x5a then some (c.toNat - 0x41)
  else if c ≥ 0x61 ∧ c ≤ 0x7a then some (c.toNat - 0x61 + 26)
  else if c ≥ 0x30 ∧ c ≤ 0x39 then some (c.toNat - 0x30 + 52)
  else if c = 0x2b then some 62
  else if c = 0x2f then some 63
  else none

def isBlank (c : UInt8) : Bool := c = 0x20 ∨ c = 0x0d ∨ c = 0x0a ∨ c = 0x09

/-- The loop of `mailB64Decode`, with what has been put out. -/
def decodeFrom (outCap : Nat) : Octets → Nat → Nat → Octets → Option Octets
  | [], _, _, out => some out
  | c :: cs, acc, bits, out =>
    if c = padChar then some out
    else if isBlank c then decodeFrom outCap cs acc bits out
    else
      match b64val c with
      | none => none
      | some v =>
        let acc := ((acc <<< 6) ||| v) % 2 ^ 32
        if bits + 6 ≥ 8 then
          if out.length ≥ outCap then none
          else decodeFrom outCap cs acc (bits - 2) (out ++ [UInt8.ofNat (acc >>> (bits - 2))])
        else decodeFrom outCap cs acc (bits + 6) out

def mailB64Decode (text : Octets) (outCap : Nat) : Option Octets := decodeFrom outCap text 0 0 []

/-! ## Characters -/

theorem b64char_and (v : Nat) : b64char v = b64char (v % 64) := by
  have h_mask : ∀ n, n &&& 0x3f = n % 64 := fun n => Nat.and_two_pow_sub_one_eq_mod n 6
  rw [b64char, b64char, h_mask, h_mask, Nat.mod_mod]

/-- Each of the 64 characters has its value, and none is padding or a blank. -/
theorem b64char_table : ∀ v < 64, b64val (b64char v) = some v ∧ b64char v ≠ padChar ∧
    isBlank (b64char v) = false ∧ b64char v ≠ 0x2d := by
  decide +kernel

theorem shift_or {a v k : Nat} (h : v < 2 ^ k) : (a <<< k) ||| v = a * 2 ^ k + v := by
  rw [← Nat.shiftLeft_add_eq_or_of_lt h, Nat.shiftLeft_eq]

/-- A character behind less than two pending bits. -/
theorem decodeFrom_wait {outCap acc bits v : Nat} {cs out : Octets} (h_v : v < 64)
    (h_bits : bits < 2) : decodeFrom outCap (b64char v :: cs) acc bits out =
      decodeFrom outCap cs ((acc * 64 + v) % 2 ^ 32) (bits + 6) out := by
  obtain ⟨h_val, h_pad, h_blank, -⟩ := b64char_table v h_v
  rw [decodeFrom, if_neg h_pad, if_neg (by simp [h_blank]), h_val]
  simp only [shift_or (k := 6) h_v, if_neg (show ¬ bits + 6 ≥ 8 by omega)]
  rfl

/-- A character that completes an octet. -/
theorem decodeFrom_octet {outCap acc bits v : Nat} {cs out : Octets} (h_v : v < 64)
    (h_bits : 2 ≤ bits) (h_room : out.length < outCap) :
    decodeFrom outCap (b64char v :: cs) acc bits out =
      decodeFrom outCap cs ((acc * 64 + v) % 2 ^ 32) (bits - 2)
        (out ++ [UInt8.ofNat ((acc * 64 + v) % 2 ^ 32 / 2 ^ (bits - 2))]) := by
  obtain ⟨h_val, h_pad, h_blank, -⟩ := b64char_table v h_v
  rw [decodeFrom, if_neg h_pad, if_neg (by simp [h_blank]), h_val]
  simp only [shift_or (k := 6) h_v, if_pos (show bits + 6 ≥ 8 by omega),
    if_neg (Nat.not_le_of_lt h_room), Nat.shiftRight_eq_div_pow]
  rfl

/-! ## Round trip -/

theorem ofNat_eq (n : Nat) (x : UInt8) (h : n % 256 = x.toNat) : UInt8.ofNat n = x := by
  apply UInt8.toNat_inj.mp
  rw [UInt8.toNat_ofNat', ← h]

theorem decodeFrom_pad {outCap acc bits : Nat} {cs out : Octets} :
    decodeFrom outCap (padChar :: cs) acc bits out = some out := by
  rw [decodeFrom, if_pos rfl]

/-- A whole group gives its octets and leaves nothing pending. -/
theorem decodeFrom_group {outCap acc : Nat} {a b c : UInt8} {cs out : Octets}
    (h_room : out.length + 3 ≤ outCap) : ∃ acc',
      decodeFrom outCap (b64Groups [a, b, c] ++ cs) acc 0 out =
        decodeFrom outCap cs acc' 0 (out ++ [a, b, c]) := by
  have h_a := a.toNat_lt
  have h_b := b.toNat_lt
  have h_c := c.toNat_lt
  have h_word : (a.toNat <<< 16) ||| (b.toNat <<< 8) ||| c.toNat =
      a.toNat * 2 ^ 16 + b.toNat * 2 ^ 8 + c.toNat := by
    have h_low : (b.toNat <<< 8) ||| c.toNat < 2 ^ 16 := by
      rw [shift_or h_c]
      omega
    rw [Nat.or_assoc, shift_or h_low, shift_or h_c, Nat.add_assoc]
  simp only [b64Groups, h_word, Nat.shiftRight_eq_div_pow, List.cons_append, List.nil_append]
  generalize h_v : a.toNat * 2 ^ 16 + b.toNat * 2 ^ 8 + c.toNat = v
  rw [b64char_and (v / 2 ^ 18), b64char_and (v / 2 ^ 12), b64char_and (v / 2 ^ 6), b64char_and v]
  rw [decodeFrom_wait (Nat.mod_lt _ (by decide)) (by decide)]
  rw [decodeFrom_octet (Nat.mod_lt _ (by decide)) (by decide) (by omega)]
  rw [decodeFrom_octet (Nat.mod_lt _ (by decide)) (by decide) (by simp; omega)]
  rw [decodeFrom_octet (Nat.mod_lt _ (by decide)) (by decide) (by simp; omega)]
  refine ⟨_, congrArg (decodeFrom outCap cs _ 0) ?_⟩
  simp only [List.append_assoc, List.cons_append, List.nil_append, List.append_cancel_left_eq,
    List.cons.injEq, and_true]
  exact ⟨ofNat_eq _ a (by omega), ofNat_eq _ b (by omega), ofNat_eq _ c (by omega)⟩

/-- **What was encoded is decoded**, into any buffer that has the room. -/
theorem decodeFrom_groups {outCap acc : Nat} (raw out : Octets)
    (h_room : out.length + raw.length ≤ outCap) :
    decodeFrom outCap (b64Groups raw) acc 0 out = some (out ++ raw) := by
  induction raw using b64Groups.induct generalizing acc out with
  | case1 a b c rest ih =>
    rw [List.length_cons, List.length_cons, List.length_cons] at h_room
    obtain ⟨acc', h_group⟩ := @decodeFrom_group outCap acc a b c (b64Groups rest) out (by omega)
    have h_cons : b64Groups (a :: b :: c :: rest) = b64Groups [a, b, c] ++ b64Groups rest := rfl
    rw [h_cons, h_group, ih _ (by simp; omega)]
    simp
  | case2 a b =>
    -- Two octets are three characters and some bits that are never taken off.
    rw [List.length_cons, List.length_cons, List.length_nil] at h_room
    have h_a := a.toNat_lt
    have h_b := b.toNat_lt
    have h_word : (a.toNat <<< 16) ||| (b.toNat <<< 8) = a.toNat * 2 ^ 16 + b.toNat * 2 ^ 8 := by
      have h_low : b.toNat <<< 8 < 2 ^ 16 := by
        rw [Nat.shiftLeft_eq]
        omega
      rw [shift_or h_low, Nat.shiftLeft_eq]
    simp only [b64Groups, h_word, Nat.shiftRight_eq_div_pow]
    generalize h_v : a.toNat * 2 ^ 16 + b.toNat * 2 ^ 8 = v
    rw [b64char_and (v / 2 ^ 18), b64char_and (v / 2 ^ 12), b64char_and (v / 2 ^ 6)]
    rw [decodeFrom_wait (Nat.mod_lt _ (by decide)) (by decide)]
    rw [decodeFrom_octet (Nat.mod_lt _ (by decide)) (by decide) (by omega)]
    rw [decodeFrom_octet (Nat.mod_lt _ (by decide)) (by decide) (by simp; omega)]
    rw [decodeFrom_pad]
    simp only [List.append_assoc, List.cons_append, List.nil_append, Option.some.injEq,
      List.append_cancel_left_eq, List.cons.injEq, and_true]
    exact ⟨ofNat_eq _ a (by omega), ofNat_eq _ b (by omega)⟩
  | case3 a =>
    rw [List.length_cons, List.length_nil] at h_room
    have h_a := a.toNat_lt
    simp only [b64Groups, Nat.shiftLeft_eq, Nat.shiftRight_eq_div_pow]
    generalize h_v : a.toNat * 2 ^ 16 = v
    rw [b64char_and (v / 2 ^ 18), b64char_and (v / 2 ^ 12)]
    rw [decodeFrom_wait (Nat.mod_lt _ (by decide)) (by decide)]
    rw [decodeFrom_octet (Nat.mod_lt _ (by decide)) (by decide) (by omega)]
    rw [decodeFrom_pad]
    simp only [Option.some.injEq, List.append_cancel_left_eq, List.cons.injEq, and_true]
    exact ofNat_eq _ a (by omega)
  | case4 => simp [b64Groups, decodeFrom]

/-- Blanks make no difference. -/
theorem decodeFrom_blanks {outCap acc bits : Nat} (text out : Octets) :
    decodeFrom outCap text acc bits out =
      decodeFrom outCap (text.filter fun c => !isBlank c) acc bits out := by
  induction text generalizing acc bits out with
  | nil => rfl
  | cons c cs ih =>
    by_cases h_blank : isBlank c = true
    · have h_pad : c ≠ padChar := by
        rintro rfl
        cases h_blank
      rw [decodeFrom, if_neg h_pad, if_pos h_blank, List.filter_cons_of_neg (by simp [h_blank]), ih]
    · rw [List.filter_cons_of_pos (by simp [h_blank]), decodeFrom, decodeFrom]
      by_cases h_pad : c = padChar
      · rw [if_pos h_pad, if_pos h_pad]
      · rw [if_neg h_pad, if_neg h_pad, if_neg h_blank, if_neg h_blank]
        cases b64val c with
        | none => rfl
        | some v =>
          dsimp only
          rw [ih, ih]

/-- What is encoded has neither blanks nor hyphens. -/
theorem b64Groups_plain (raw : Octets) :
    ∀ c ∈ b64Groups raw, isBlank c = false ∧ c ≠ 0x2d := by
  have h_char : ∀ v, isBlank (b64char v) = false ∧ b64char v ≠ 0x2d := by
    intro v
    rw [b64char_and]
    exact (b64char_table (v % 64) (Nat.mod_lt _ (by decide))).2.2
  have h_pad : isBlank padChar = false ∧ padChar ≠ 0x2d := by decide
  induction raw using b64Groups.induct with
  | case1 a b c rest ih =>
    simp only [b64Groups, List.forall_mem_cons]
    exact ⟨h_char _, h_char _, h_char _, h_char _, ih⟩
  | case2 a b =>
    simp only [b64Groups, List.forall_mem_cons]
    exact ⟨h_char _, h_char _, h_char _, h_pad, by simp⟩
  | case3 a =>
    simp only [b64Groups, List.forall_mem_cons]
    exact ⟨h_char _, h_char _, h_pad, h_pad, by simp⟩
  | case4 => simp [b64Groups]

theorem length_b64Groups (raw : Octets) : (b64Groups raw).length = (raw.length + 2) / 3 * 4 := by
  induction raw using b64Groups.induct with
  | case1 a b c rest ih =>
    simp only [b64Groups, List.length_cons, ih]
    omega
  | case2 a b => simp [b64Groups]
  | case3 a => simp [b64Groups]
  | case4 => rfl

/-! ## Any text -/

/-- `text` is `enc` with blanks put in, in any places and any number of them. -/
inductive Spread : Octets → Octets → Prop
  | nil : Spread [] []
  | keep (c : UInt8) {enc text : Octets} : Spread enc text → Spread (c :: enc) (c :: text)
  | blank {c : UInt8} {enc text : Octets} : isBlank c = true → Spread enc text →
      Spread enc (c :: text)

theorem Spread.filter_eq {enc text : Octets} (h : Spread enc text) :
    text.filter (fun c => !isBlank c) = enc.filter fun c => !isBlank c := by
  induction h with
  | nil => rfl
  | keep c _ ih => rw [List.filter_cons, List.filter_cons, ih]
  | blank h_blank _ ih => rw [List.filter_cons_of_neg (by simp [h_blank]), ih]

/-- The encoding of `raw` with blanks in it is decoded. -/
theorem decode_of_spread {raw text : Octets} {outCap : Nat}
    (h_spread : Spread (b64Groups raw) text) (h_room : raw.length ≤ outCap) :
    mailB64Decode text outCap = some raw := by
  have h_plain : (b64Groups raw).filter (fun c => !isBlank c) = b64Groups raw :=
    List.filter_eq_self.mpr fun c h_c => by simp [(b64Groups_plain raw c h_c).1]
  rw [mailB64Decode, decodeFrom_blanks, h_spread.filter_eq, h_plain]
  simpa using @decodeFrom_groups outCap 0 raw [] (by simpa using h_room)

/-- Eight bits go into an octet and no character brings more than six. -/
theorem decodeFrom_length {outCap : Nat} (text : Octets) (acc bits : Nat) (out : Octets)
    {all : Octets} (h_all : decodeFrom outCap text acc bits out = some all) :
    8 * all.length ≤ 8 * out.length + bits + 6 * text.length := by
  induction text generalizing acc bits out with
  | nil =>
    obtain rfl : out = all := by simpa [decodeFrom] using h_all
    omega
  | cons c cs ih =>
    rw [List.length_cons]
    rw [decodeFrom] at h_all
    by_cases h_pad : c = padChar
    · obtain rfl : out = all := by simpa [h_pad] using h_all
      omega
    rw [if_neg h_pad] at h_all
    by_cases h_blank : isBlank c = true
    · rw [if_pos h_blank] at h_all
      have h_rest := ih acc bits out h_all
      omega
    rw [if_neg h_blank] at h_all
    cases h_val : b64val c with
    | none => simp [h_val] at h_all
    | some v =>
      simp only [h_val] at h_all
      by_cases h_eight : bits + 6 ≥ 8
      · rw [if_pos h_eight] at h_all
        by_cases h_full : out.length ≥ outCap
        · simp [h_full] at h_all
        rw [if_neg h_full] at h_all
        have h_rest := ih _ _ _ h_all
        rw [List.length_append, List.length_singleton] at h_rest
        omega
      · rw [if_neg h_eight] at h_all
        have h_rest := ih _ _ _ h_all
        omega

/-- A character that stands for nothing. -/
def badChar (c : UInt8) : Prop := isBlank c = false ∧ b64val c = none

/-- **There is always room**: with room for what the bits can make up, a text is refused
for a character before the padding and for nothing else. -/
theorem decodeFrom_eq_none_iff {outCap : Nat} (text : Octets) (acc bits : Nat) (out : Octets)
    (h_room : 8 * out.length + bits + 6 * text.length < 8 * outCap + 8) :
    decodeFrom outCap text acc bits out = none ↔ ∃ c ∈ text.takeWhile (· ≠ padChar), badChar c := by
  induction text generalizing acc bits out with
  | nil => simp [decodeFrom]
  | cons c cs ih =>
    rw [List.length_cons] at h_room
    rw [decodeFrom]
    by_cases h_pad : c = padChar
    · simp [h_pad]
    rw [if_neg h_pad, List.takeWhile_cons_of_pos (by simpa using h_pad), List.exists_mem_cons_iff]
    by_cases h_blank : isBlank c = true
    · have h_good : ¬ badChar c := by simp [badChar, h_blank]
      rw [if_pos h_blank, ih acc bits out (by omega), or_iff_right h_good]
    rw [if_neg h_blank]
    cases h_val : b64val c with
    | none =>
      have h_bad : badChar c := ⟨by simpa using h_blank, h_val⟩
      simp only [h_bad, true_or]
    | some v =>
      have h_good : ¬ badChar c := by simp [badChar, h_val]
      dsimp only
      rw [or_iff_right h_good]
      by_cases h_eight : bits + 6 ≥ 8
      · rw [if_pos h_eight, if_neg (by omega)]
        apply ih
        rw [List.length_append, List.length_singleton]
        omega
      · rw [if_neg h_eight]
        exact ih _ _ _ (by omega)

/-- Encoding and decoding: the encoder writes the length announced, NUL included; what it
wrote is read back whatever blanks are put in; no text gives more than three octets for four
characters, and with room for these none is refused but for its characters. -/
theorem mailB64_laws (x : Octets) :
    (∀ outCap, (mailB64Encode x outCap).isSome ↔ mailB64EncodedLen x.length ≤ outCap) ∧
    (∀ outCap enc, mailB64Encode x outCap = some enc →
      enc.length + 1 = mailB64EncodedLen x.length ∧
      ∀ text, Spread enc text → x.length ≤ text.length ∧
        ∀ room ≥ x.length, mailB64Decode text room = some x) ∧
    (∀ text outCap out, mailB64Decode text outCap = some out → 4 * out.length ≤ 3 * text.length) ∧
    ∀ text outCap, 3 * text.length / 4 ≤ outCap → (mailB64Decode text outCap = none ↔
      ∃ c ∈ text.takeWhile (· ≠ padChar), badChar c) := by
  have h_length : ∀ text outCap out, mailB64Decode text outCap = some out →
      4 * out.length ≤ 3 * text.length := by
    intro text outCap out h_out
    have h_bits := decodeFrom_length text 0 0 [] h_out
    rw [List.length_nil] at h_bits
    omega
  refine ⟨?_, ?_, h_length, ?_⟩
  · intro outCap
    rw [mailB64Encode]
    by_cases h_cap : outCap < mailB64EncodedLen x.length
    · simp [h_cap]
    · simp [h_cap, Nat.le_of_not_lt h_cap]
  · intro outCap enc h_enc
    obtain ⟨-, rfl⟩ : ¬ outCap < mailB64EncodedLen x.length ∧ b64Groups x = enc := by
      simpa [mailB64Encode] using h_enc
    refine ⟨by rw [length_b64Groups, mailB64EncodedLen], fun text h_spread => ⟨?_, ?_⟩⟩
    · have h_quarters := h_length text x.length x (decode_of_spread h_spread (Nat.le_refl _))
      omega
    · exact fun room h_room => decode_of_spread h_spread h_room
  · intro text outCap h_room
    apply decodeFrom_eq_none_iff
    rw [List.length_nil]
    omega

example : mailB64Decode (ascii "TW\r\nF u\tIQ=\r\n=") 4 = some (ascii "Man!") := by decide

end IonContrib.Mail
