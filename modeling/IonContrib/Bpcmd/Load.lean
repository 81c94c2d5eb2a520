/-
  IonContrib.Bpcmd.Load

  How `bpcmdd` reads its whitelist (`loadWhitelist`).

  A line of the file is what stands between two newlines; what the loop sees is
  what `fgets` puts into a buffer of 4096 octets, as a C string.  The two are the
  same for a line of at most 4095 octets without a NUL.  `rulesOfLine` is what the
  loop makes of one line, piece by piece, and `ruleOfLine` what the line says.  A
  rule carries where its pattern begins in the line, so that a rule read from the
  middle of a line is told apart from one that merely has the same text.
-/
import IonContrib.Bpcmd.Daemon
import Mathlib.Data.List.DropRight

namespace IonContrib.Bpcmd

/-! ## One piece of a line -/

def isspace (c : UInt8) : Bool := c = 0x20 || (0x09 ≤ c && c ≤ 0x0d)

/-- The blanks that are skipped in front of a rule and of its pattern. -/
def isBlank (c : UInt8) : Bool := c = 0x20 || c = 0x09

def rstrip (s : Octets) : Octets := s.rdropWhile isspace

/-- A rule as it is read: `start` is where its pattern begins. -/
structure Found where
  mode : MatchMode
  start : Nat
  pattern : Octets
  deriving DecidableEq, Repr

/-- "exact" -/
def kwExact : Octets := [0x65, 0x78, 0x61, 0x63, 0x74]
/-- "glob" -/
def kwGlob : Octets := [0x67, 0x6c, 0x6f, 0x62]
/-- "regex" -/
def kwRegex : Octets := [0x72, 0x65, 0x67, 0x65, 0x78]

/-- `strncmp (p, kw, len) == 0 && isspace (p[len])`. -/
def hasKeyword (kw p : Octets) : Bool :=
  p.take kw.length = kw && (p.drop kw.length).head?.any isspace

/-- The mode of a rule, and what stands behind its keyword. -/
def splitMode (p : Octets) : MatchMode × Octets :=
  let (mode, pattern) :=
    if hasKeyword kwExact p then (MatchMode.matchExact, p.drop 5)
    else if hasKeyword kwGlob p then (MatchMode.matchGlob, p.drop 4)
    else if hasKeyword kwRegex p then (MatchMode.matchRegex, p.drop 5)
    else (MatchMode.matchRegex, p)
  (mode, pattern.dropWhile isBlank)

/-- What the loop makes of the contents of its buffer. -/
def loadLine (buf : Octets) : Option Found :=
  let line := rstrip (cString buf)
  let p := line.dropWhile isBlank
  if p = [] ∨ p.head? = some 0x23 then none
  else
    let (mode, pattern) := splitMode p
    if pattern = [] then none
    else some ⟨mode, line.length - pattern.length, pattern⟩

/-! ## The file -/

def newline : UInt8 := 0x0a

/-- `char line[4096]` -/
def lineSize : Nat := 4096

/-- At most so many octets, up to and with the next newline. -/
def fgetsFrom : Nat → Octets → Octets × Octets
  | 0, s => ([], s)
  | _ + 1, [] => ([], [])
  | room + 1, c :: s =>
    if c = newline then ([c], s)
    else
      let (line, s) := fgetsFrom room s
      (c :: line, s)

/-- `none` at the end of the file. -/
def fgets (size : Nat) (s : Octets) : Option (Octets × Octets) :=
  if s = [] then none else some (fgetsFrom (size - 1) s)

/-- The loop of `loadWhitelist`.  `mem n` is whether there is memory for rule `n`; each round
    takes an octet, so the length of the file is fuel enough. -/
def loadWhitelistFrom (mem : Nat → Bool) : Nat → Octets → List Rule → Option (List Rule)
  | 0, _, rules => some rules
  | fuel + 1, s, rules =>
    match fgets lineSize s with
    | none => some rules
    | some (line, s) =>
      match loadLine line with
      | none => loadWhitelistFrom mem fuel s rules
      | some f =>
        match addRule rules f.mode f.pattern (mem rules.length) with
        | none => none
        | some rules => loadWhitelistFrom mem fuel s rules

/-- `none` for a file that cannot be opened. -/
def loadWhitelist (mem : Nat → Bool) (file : Option Octets) : Option (List Rule) :=
  match file with
  | none => none
  | some s => loadWhitelistFrom mem (s.length + 1) s []

/-! ## What the file says -/

/-- The lines of a file. -/
def fileLines (file : Octets) : List Octets := file.splitOn newline

/-- Trailing white space and leading blanks are no part of what a line says. -/
def lineText (line : Octets) : Octets := (rstrip line).dropWhile isBlank

def Comment (line : Octets) : Prop := (lineText line).head? = some 0x23

def BareKeyword (line : Octets) : Prop :=
  lineText line = kwExact ∨ lineText line = kwGlob ∨ lineText line = kwRegex

instance (line : Octets) : Decidable (Comment line) :=
  inferInstanceAs (Decidable ((lineText line).head? = some 0x23))

instance (line : Octets) : Decidable (BareKeyword line) :=
  inferInstanceAs (Decidable (lineText line = kwExact ∨ lineText line = kwGlob ∨
    lineText line = kwRegex))

/-- The rule that a line spells, unless it is blank, a comment or a bare mode keyword. -/
def ruleOfLine (line : Octets) : Option Found :=
  if lineText line = [] ∨ Comment line ∨ BareKeyword line then none
  else
    let (mode, pattern) := splitMode (lineText line)
    some ⟨mode, (rstrip line).length - pattern.length, pattern⟩

def Found.shift (n : Nat) (f : Found) : Found := { f with start := f.start + n }

/-- What the loop makes of one line, in pieces of what the buffer holds. -/
def rulesOfLineFrom : Nat → Nat → Octets → List Found
  | 0, _, _ => []
  | fuel + 1, base, line =>
    if line.length ≤ lineSize - 1 then ((loadLine line).map (Found.shift base)).toList
    else
      ((loadLine (line.take (lineSize - 1))).map (Found.shift base)).toList ++
        rulesOfLineFrom fuel (base + (lineSize - 1)) (line.drop (lineSize - 1))

def rulesOfLine (line : Octets) : List Found := rulesOfLineFrom (line.length + 1) 0 line

/-! ## Trimming -/

theorem isspace_of_isBlank {c : UInt8} (h : isBlank c = true) : isspace c = true := by
  simp only [isBlank, Bool.or_eq_true, decide_eq_true_eq] at h
  rcases h with rfl | rfl <;> rfl

theorem ne_zero_of_isspace {c : UInt8} (h : isspace c = true) : c ≠ 0 := by
  rintro rfl
  exact absurd h (by decide)

theorem rstrip_append_space {c r : Octets} (h : r.all isspace = true) :
    rstrip (c ++ r) = rstrip c := by
  induction r using List.reverseRecOn with
  | nil => rw [List.append_nil]
  | append_singleton r x ih =>
    rw [List.all_append, Bool.and_eq_true] at h
    have h_x : isspace x = true := by simpa using h.2
    rw [← List.append_assoc, rstrip, List.rdropWhile_concat_pos _ _ _ h_x]
    exact ih h.1

theorem rstrip_append {c r : Octets} (h : ¬ r.all isspace = true) :
    rstrip (c ++ r) = c ++ rstrip r := by
  induction r using List.reverseRecOn with
  | nil => exact absurd rfl h
  | append_singleton r x ih =>
    by_cases h_x : isspace x = true
    · have h_r : ¬ r.all isspace = true := by
        intro h_all
        exact h (by simp [h_all, h_x])
      rw [← List.append_assoc, rstrip, List.rdropWhile_concat_pos _ _ _ h_x, rstrip,
        List.rdropWhile_concat_pos _ _ _ h_x]
      exact ih h_r
    · rw [← List.append_assoc, rstrip, List.rdropWhile_concat_neg _ _ _ h_x, rstrip,
        List.rdropWhile_concat_neg _ _ _ h_x, List.append_assoc]

theorem rstrip_space {s : Octets} (h : s.all isspace = true) : rstrip s = [] := by
  have h_strip := rstrip_append_space (c := []) h
  simpa [rstrip] using h_strip

theorem rstrip_length_le (s : Octets) : (rstrip s).length ≤ s.length :=
  (List.rdropWhile_prefix isspace s).length_le

theorem lineText_append_blank {c : Octets} (h : c.all isBlank = true) (r : Octets) :
    lineText (c ++ r) = lineText r := by
  have h_drop : ∀ t, (c ++ t).dropWhile isBlank = t.dropWhile isBlank := by
    intro t
    have h_c : c.dropWhile isBlank = [] := by
      simpa [List.dropWhile_eq_nil_iff] using h
    rw [List.dropWhile_append, h_c]
    rfl
  by_cases h_r : r.all isspace = true
  · have h_c : c.all isspace = true := by
      rw [List.all_eq_true] at h ⊢
      exact fun x h_x => isspace_of_isBlank (h x h_x)
    rw [lineText, lineText, rstrip_append_space h_r, rstrip_space h_c, rstrip_space h_r]
  · rw [lineText, lineText, rstrip_append h_r, h_drop]

/-- A line that has an octet other than white space says something. -/
theorem lineText_eq_nil {line : Octets} : lineText line = [] ↔ line.all isspace = true := by
  constructor
  · intro h
    by_contra h_some
    have h_strip : rstrip line ≠ [] := by
      intro h_nil
      rw [rstrip, List.rdropWhile_eq_nil_iff] at h_nil
      exact h_some (List.all_eq_true.mpr h_nil)
    have h_last := List.rdropWhile_last_not isspace line h_strip
    rw [lineText, List.dropWhile_eq_nil_iff] at h
    exact h_last (isspace_of_isBlank (h _ (List.getLast_mem h_strip)))
  · intro h
    rw [lineText, rstrip_space h]
    rfl

/-- What is left of a line is a part of it that ends with no white space. -/
theorem lineText_last {line : Octets} (h : lineText line ≠ []) :
    isspace ((lineText line).getLast h) = false := by
  have h_strip : rstrip line ≠ [] := by
    intro h_nil
    exact h (by rw [lineText, h_nil]; rfl)
  have h_last : (lineText line).getLast h = (rstrip line).getLast h_strip :=
    List.IsSuffix.getLast (List.dropWhile_suffix isBlank) h
  rw [h_last]
  exact Bool.eq_false_of_not_eq_true (List.rdropWhile_last_not isspace line h_strip)

/-! ## The mode keyword -/

theorem hasKeyword_iff {kw p : Octets} :
    hasKeyword kw p = true ↔ ∃ c more, p = kw ++ c :: more ∧ isspace c = true := by
  rw [hasKeyword, Bool.and_eq_true, decide_eq_true_eq]
  constructor
  · rintro ⟨h_kw, h_space⟩
    obtain ⟨c, h_c, h_is⟩ := (Option.any_eq_true isspace _).mp h_space
    obtain ⟨more, h_more⟩ := List.head?_eq_some_iff.mp h_c
    refine ⟨c, more, ?_, h_is⟩
    have h_cut := List.take_append_drop kw.length p
    rw [h_kw, h_more] at h_cut
    exact h_cut.symm
  · rintro ⟨c, more, rfl, h_is⟩
    simp [h_is]

/-- What `splitMode` takes away in front of the pattern: a keyword or nothing, and blanks. -/
theorem splitMode_eq (p : Octets) :
    ∃ mode kw q, p = kw ++ q ∧ splitMode p = (mode, q.dropWhile isBlank) ∧ (0 : UInt8) ∉ kw ∧
      (kw = [] ∨ ∃ c more, q = c :: more ∧ isspace c = true) ∧
      (kw = [] ∨ kw = kwExact ∨ kw = kwGlob ∨ kw = kwRegex) := by
  rw [splitMode]
  by_cases h_exact : hasKeyword kwExact p = true
  · obtain ⟨c, more, rfl, h_c⟩ := hasKeyword_iff.mp h_exact
    rw [if_pos h_exact]
    exact ⟨_, kwExact, c :: more, rfl, rfl, by decide, .inr ⟨c, more, rfl, h_c⟩, .inr (.inl rfl)⟩
  rw [if_neg h_exact]
  by_cases h_glob : hasKeyword kwGlob p = true
  · obtain ⟨c, more, rfl, h_c⟩ := hasKeyword_iff.mp h_glob
    rw [if_pos h_glob]
    exact ⟨_, kwGlob, c :: more, rfl, rfl, by decide, .inr ⟨c, more, rfl, h_c⟩,
      .inr (.inr (.inl rfl))⟩
  rw [if_neg h_glob]
  by_cases h_regex : hasKeyword kwRegex p = true
  · obtain ⟨c, more, rfl, h_c⟩ := hasKeyword_iff.mp h_regex
    rw [if_pos h_regex]
    exact ⟨_, kwRegex, c :: more, rfl, rfl, by decide, .inr ⟨c, more, rfl, h_c⟩,
      .inr (.inr (.inr rfl))⟩
  rw [if_neg h_regex]
  exact ⟨_, [], p, rfl, rfl, by simp, .inl rfl, .inl rfl⟩

/-- The pattern ends where the text ends, and there is one. -/
theorem splitMode_pattern {p : Octets} (h_some : p ≠ []) (h_last : isspace (p.getLast h_some) = false) :
    ∃ pre, p = pre ++ (splitMode p).2 ∧ (splitMode p).2 ≠ [] ∧ (0 : UInt8) ∉ pre := by
  obtain ⟨mode, kw, q, h_p, h_split, h_kw, h_q, -⟩ := splitMode_eq p
  have h_qsome : q ≠ [] := by
    rintro rfl
    rcases h_q with rfl | ⟨c, more, h, -⟩
    · exact h_some h_p
    · cases h
  have h_qlast : q.getLast h_qsome = p.getLast h_some :=
    List.IsSuffix.getLast ⟨kw, h_p.symm⟩ h_qsome
  refine ⟨kw ++ q.takeWhile isBlank, ?_, ?_, ?_⟩
  · rw [h_split, List.append_assoc, List.takeWhile_append_dropWhile]
    exact h_p
  · rw [h_split]
    intro h_nil
    have h_blank := List.dropWhile_eq_nil_iff.mp h_nil _ (List.getLast_mem h_qsome)
    rw [h_qlast] at h_blank
    rw [isspace_of_isBlank h_blank] at h_last
    cases h_last
  · intro h_mem
    rcases List.mem_append.mp h_mem with h_mem | h_mem
    · exact h_kw h_mem
    · exact absurd (List.mem_takeWhile_imp h_mem) (by decide)

/-! ## What is found -/

/-- What is found in a text that says something. -/
def foundIn (line : Octets) : Found :=
  ⟨(splitMode (lineText line)).1, (rstrip line).length - (splitMode (lineText line)).2.length,
    (splitMode (lineText line)).2⟩

theorem loadLine_eq (buf : Octets) :
    loadLine buf =
      if lineText (cString buf) = [] ∨ Comment (cString buf) then none
      else some (foundIn (cString buf)) := by
  by_cases h_none : lineText (cString buf) = [] ∨ Comment (cString buf)
  · rw [if_pos h_none]
    exact if_pos h_none
  · rw [if_neg h_none]
    refine (if_neg h_none).trans (if_neg ?_)
    have h_some : lineText (cString buf) ≠ [] := fun h => h_none (.inl h)
    obtain ⟨-, -, h_pattern, -⟩ := splitMode_pattern h_some (lineText_last h_some)
    exact h_pattern

theorem ruleOfLine_eq (line : Octets) :
    ruleOfLine line =
      if lineText line = [] ∨ Comment line ∨ BareKeyword line then none
      else some (foundIn line) := rfl

/-- Where the pattern of what is found lies, and what was passed over in front of it. -/
theorem foundIn_pattern {line : Octets} (h : lineText line ≠ []) :
    (foundIn line).start + (foundIn line).pattern.length = (rstrip line).length ∧
      ((0 : UInt8) ∈ line → (0 : UInt8) ∈ (foundIn line).pattern) ∧
      ((foundIn line).pattern <:+ rstrip line) := by
  obtain ⟨pre, h_text, -, h_pre⟩ := splitMode_pattern h (lineText_last h)
  have h_strip : rstrip line = (rstrip line).takeWhile isBlank ++ lineText line :=
    List.takeWhile_append_dropWhile.symm
  have h_suffix : (splitMode (lineText line)).2 <:+ rstrip line := by
    refine ⟨(rstrip line).takeWhile isBlank ++ pre, ?_⟩
    rw [List.append_assoc, ← h_text, ← h_strip]
  refine ⟨Nat.sub_add_cancel h_suffix.length_le, fun h_zero => ?_, h_suffix⟩
  have h_line : line = rstrip line ++ line.rtakeWhile isspace :=
    List.rdropWhile_append_rtakeWhile.symm
  rw [h_line] at h_zero
  rcases List.mem_append.mp h_zero with h_mem | h_mem
  · rw [h_strip] at h_mem
    rcases List.mem_append.mp h_mem with h_mem | h_mem
    · exact absurd (List.mem_takeWhile_imp h_mem) (by decide)
    · rw [h_text] at h_mem
      exact (List.mem_append.mp h_mem).resolve_left h_pre
  · exact absurd (List.mem_rtakeWhile_imp h_mem) (by decide)

/-! ## Lines that are read as they are written -/

/-- A piece that the loop passes over. -/
def PassedOver (piece : Octets) : Prop :=
  lineText (cString piece) = [] ∨ Comment (cString piece)

/-- No piece of what the buffer holds reads as a rule. -/
inductive Quiet : Octets → Prop where
  | last {r : Octets} : r.length ≤ lineSize - 1 → PassedOver r → Quiet r
  | more {c r : Octets} : c.length = lineSize - 1 → r ≠ [] → PassedOver c → Quiet r →
      Quiet (c ++ r)

/-- A line that is read as it is written.  It fits the buffer, but for blanks in front of it
    that fill the buffer, white space behind it, or what stands behind the first piece of a
    comment; it has no NUL, but for comments; and it is not a bare mode keyword. -/
inductive Sound : Octets → Prop where
  | short {line : Octets} : line.length ≤ lineSize - 1 → (0 : UInt8) ∉ line →
      ¬ BareKeyword line → Sound line
  | comment {line : Octets} : line.length ≤ lineSize - 1 → Comment line → Sound line
  | blank {c r : Octets} : c.length = lineSize - 1 → r ≠ [] → c.all isBlank = true → Sound r →
      Sound (c ++ r)
  | longComment {c r : Octets} : c.length = lineSize - 1 → r ≠ [] → Comment c → Quiet r →
      Sound (c ++ r)
  | trailing {c r : Octets} : c.length = lineSize - 1 → r ≠ [] → r.all isspace = true →
      (0 : UInt8) ∉ c → ¬ BareKeyword c → Sound (c ++ r)

theorem loadLine_none {buf : Octets} : loadLine buf = none ↔ PassedOver buf := by
  rw [loadLine_eq, PassedOver]
  by_cases h : lineText (cString buf) = [] ∨ Comment (cString buf)
  · rw [if_pos h]
    exact ⟨fun _ => h, fun _ => rfl⟩
  · rw [if_neg h]
    exact ⟨nofun, fun h' => absurd h' h⟩

theorem loadLine_some {buf : Octets} {f : Found} (h : loadLine buf = some f) :
    lineText (cString buf) ≠ [] ∧ f = foundIn (cString buf) := by
  rw [loadLine_eq] at h
  split at h
  · cases h
  · rename_i h_some
    exact ⟨fun h_nil => h_some (.inl h_nil), (Option.some.inj h).symm⟩

theorem cString_of_not_mem {s : Octets} (h : (0 : UInt8) ∉ s) : cString s = s := by
  rw [cString, List.takeWhile_eq_self_iff]
  intro c h_c
  rw [decide_eq_true_eq]
  rintro rfl
  exact h h_c

theorem zero_not_mem_cString (s : Octets) : (0 : UInt8) ∉ cString s := by
  intro h
  exact absurd (List.mem_takeWhile_imp h) (by decide)

theorem cString_length_le (s : Octets) : (cString s).length ≤ s.length :=
  (List.takeWhile_prefix _).length_le

/-- What is found in the buffer is inside of it and has no NUL. -/
theorem loadLine_bounds {buf : Octets} {f : Found} (h : loadLine buf = some f) :
    f.start + f.pattern.length ≤ buf.length ∧ (0 : UInt8) ∉ f.pattern := by
  obtain ⟨h_some, rfl⟩ := loadLine_some h
  obtain ⟨h_end, -, h_suffix⟩ := foundIn_pattern h_some
  refine ⟨?_, fun h_zero => ?_⟩
  · rw [h_end]
    exact Nat.le_trans (rstrip_length_le _) (cString_length_le _)
  · have h_strip := h_suffix.subset h_zero
    exact zero_not_mem_cString buf ((List.rdropWhile_prefix isspace _).subset h_strip)

/-- Without a NUL, a piece says what the line says, unless it is a bare mode keyword. -/
theorem loadLine_of_not_mem {line : Octets} (h_zero : (0 : UInt8) ∉ line)
    (h_bare : ¬ BareKeyword line) : loadLine line = ruleOfLine line := by
  rw [loadLine_eq, ruleOfLine_eq, cString_of_not_mem h_zero]
  simp only [h_bare, or_false]

theorem rulesOfLineFrom_short {fuel base : Nat} {line : Octets} (h_fuel : line.length < fuel)
    (h : line.length ≤ lineSize - 1) :
    rulesOfLineFrom fuel base line = ((loadLine line).map (Found.shift base)).toList := by
  cases fuel with
  | zero => omega
  | succ fuel => exact if_pos h

theorem rulesOfLineFrom_long {fuel base : Nat} {c r : Octets} (h_c : c.length = lineSize - 1)
    (h_r : r ≠ []) :
    rulesOfLineFrom (fuel + 1) base (c ++ r) =
      ((loadLine c).map (Found.shift base)).toList ++
        rulesOfLineFrom fuel (base + (lineSize - 1)) r := by
  have h_pos : 0 < r.length := List.length_pos_of_ne_nil h_r
  rw [rulesOfLineFrom, if_neg, List.take_left' h_c, List.drop_left' h_c]
  rw [List.length_append]
  omega

/-- Everything that is found lies behind `base`, and has no NUL. -/
theorem rulesOfLineFrom_bounds {fuel base : Nat} {line : Octets} :
    ∀ f ∈ rulesOfLineFrom fuel base line, base ≤ f.start ∧ (0 : UInt8) ∉ f.pattern := by
  induction fuel generalizing base line with
  | zero => simp [rulesOfLineFrom]
  | succ fuel ih =>
    have h_piece : ∀ piece f, f ∈ ((loadLine piece).map (Found.shift base)).toList →
        base ≤ f.start ∧ (0 : UInt8) ∉ f.pattern := by
      intro piece f h_f
      rw [Option.mem_toList] at h_f
      obtain ⟨g, h_g, rfl⟩ := Option.map_eq_some_iff.mp h_f
      exact ⟨Nat.le_add_left _ _, (loadLine_bounds h_g).2⟩
    intro f h_f
    rw [rulesOfLineFrom] at h_f
    split at h_f
    · exact h_piece _ f h_f
    · rcases List.mem_append.mp h_f with h_f | h_f
      · exact h_piece _ f h_f
      · obtain ⟨h_start, h_zero⟩ := ih f h_f
        exact ⟨by omega, h_zero⟩

/-- Nothing is found in a line exactly if no piece of it reads as a rule. -/
theorem rulesOfLineFrom_nil {fuel base : Nat} {line : Octets} (h_fuel : line.length < fuel) :
    rulesOfLineFrom fuel base line = [] ↔ Quiet line := by
  constructor
  · intro h
    induction fuel generalizing base line with
    | zero => omega
    | succ fuel ih =>
      by_cases h_len : line.length ≤ lineSize - 1
      · rw [rulesOfLineFrom_short h_fuel h_len] at h
        refine .last h_len (loadLine_none.mp ?_)
        simpa using h
      · have h_size : lineSize - 1 = 4095 := rfl
        have h_c : (line.take (lineSize - 1)).length = lineSize - 1 :=
          List.length_take_of_le (by omega)
        have h_r : line.drop (lineSize - 1) ≠ [] := by
          intro h_nil
          rw [List.drop_eq_nil_iff] at h_nil
          omega
        rw [← List.take_append_drop (lineSize - 1) line, rulesOfLineFrom_long h_c h_r] at h
        obtain ⟨h_piece, h_rest⟩ := List.append_eq_nil_iff.mp h
        have h_quiet := ih (by rw [List.length_drop]; omega) h_rest
        rw [← List.take_append_drop (lineSize - 1) line]
        exact .more h_c h_r (loadLine_none.mp (by simpa using h_piece)) h_quiet
  · intro h
    induction h generalizing fuel base with
    | last h_len h_piece =>
      rw [rulesOfLineFrom_short h_fuel h_len, loadLine_none.mpr h_piece]
      rfl
    | more h_c h_r h_piece _ ih =>
      cases fuel with
      | zero => omega
      | succ fuel =>
        rw [List.length_append] at h_fuel
        have h_size : lineSize - 1 = 4095 := rfl
        rw [rulesOfLineFrom_long h_c h_r, loadLine_none.mpr h_piece, ih (by omega)]
        rfl

/-! ## Which lines are sound -/

/-- The first octet of what a line says is the first that is no blank. -/
theorem lineText_head {s : Octets} (h : ¬ s.all isspace = true) :
    (lineText s).head? = (s.dropWhile isBlank).head? := by
  cases h_drop : s.dropWhile isBlank with
  | nil =>
    refine absurd (List.all_eq_true.mpr fun c h_c => ?_) h
    exact isspace_of_isBlank (List.dropWhile_eq_nil_iff.mp h_drop c h_c)
  | cons x t =>
    have h_x : isBlank x = false := dropWhile_head h_drop
    have h_blanks : (s.takeWhile isBlank).all isBlank = true :=
      List.all_eq_true.mpr fun c h_c => List.mem_takeWhile_imp h_c
    have h_s : s = s.takeWhile isBlank ++ x :: t := by
      rw [← h_drop, List.takeWhile_append_dropWhile]
    -- White space alone would leave nothing.
    have h_strip : ∃ t', rstrip (x :: t) = x :: t' := by
      by_cases h_t : t.all isspace = true
      · have h_not : ¬ isspace x = true := by
          intro h_space
          refine h ?_
          rw [h_s, List.all_append, List.all_cons, h_space, h_t, Bool.true_and, Bool.and_true]
          exact List.all_eq_true.mpr fun c h_c => isspace_of_isBlank (List.mem_takeWhile_imp h_c)
        have h_one := rstrip_append_space (c := [x]) h_t
        refine ⟨[], ?_⟩
        rw [List.singleton_append] at h_one
        rw [h_one, rstrip, List.rdropWhile_singleton, if_neg h_not]
      · exact ⟨rstrip t, rstrip_append (c := [x]) h_t⟩
    obtain ⟨t', h_t'⟩ := h_strip
    rw [h_s, lineText_append_blank h_blanks, lineText, h_t', List.dropWhile_cons_of_neg (by simp [h_x])]
    rfl

theorem comment_iff {s : Octets} : Comment s ↔ (s.dropWhile isBlank).head? = some 0x23 := by
  by_cases h : s.all isspace = true
  · have h_text : lineText s = [] := lineText_eq_nil.mpr h
    constructor
    · intro h_comment
      rw [Comment, h_text] at h_comment
      cases h_comment
    · intro h_head
      obtain ⟨t, h_t⟩ := List.head?_eq_some_iff.mp h_head
      have h_mem : (0x23 : UInt8) ∈ s :=
        (List.dropWhile_suffix isBlank).subset (by rw [h_t]; exact List.mem_cons_self)
      exact absurd (List.all_eq_true.mp h _ h_mem) (by decide)
  · rw [Comment, lineText_head h]

/-- Where a piece in front has an octet that is no blank, the line begins as it does. -/
theorem dropWhile_append_head {c : Octets} (h : ¬ c.all isBlank = true) (r : Octets) :
    ∃ x t, c.dropWhile isBlank = x :: t ∧ (c ++ r).dropWhile isBlank = x :: (t ++ r) := by
  cases h_drop : c.dropWhile isBlank with
  | nil => exact absurd (List.all_eq_true.mpr (List.dropWhile_eq_nil_iff.mp h_drop)) h
  | cons x t =>
    refine ⟨x, t, rfl, ?_⟩
    rw [List.dropWhile_append, h_drop]
    rfl

theorem comment_append {c : Octets} (h : ¬ c.all isBlank = true) (r : Octets) :
    Comment (c ++ r) ↔ Comment c := by
  obtain ⟨x, t, h_c, h_cr⟩ := dropWhile_append_head h r
  rw [comment_iff, comment_iff, h_c, h_cr, List.head?_cons, List.head?_cons]

theorem not_blank_of_comment {c : Octets} (h : Comment c) : ¬ c.all isBlank = true := by
  intro h_all
  rw [comment_iff, List.dropWhile_eq_nil_iff.mpr (List.all_eq_true.mp h_all)] at h
  cases h

/-- A comment is one up to its first NUL. -/
theorem comment_cString {s : Octets} (h : Comment s) : Comment (cString s) := by
  obtain ⟨more, h_more⟩ := List.head?_eq_some_iff.mp (comment_iff.mp h)
  have h_s : s = s.takeWhile isBlank ++ 0x23 :: more := by
    rw [← h_more, List.takeWhile_append_dropWhile]
  have h_blanks : ∀ c ∈ s.takeWhile isBlank, decide (c ≠ 0) = true := by
    intro c h_c
    exact decide_eq_true (ne_zero_of_isspace (isspace_of_isBlank (List.mem_takeWhile_imp h_c)))
  have h_cut : cString s = s.takeWhile isBlank ++ 0x23 :: cString more := by
    conv_lhs => rw [h_s]
    rw [cString, List.takeWhile_append_of_pos h_blanks, List.takeWhile_cons_of_pos (by decide)]
    rfl
  rw [comment_iff, h_cut, List.dropWhile_append_of_pos fun c h_c => List.mem_takeWhile_imp h_c]
  rfl

theorem passedOver_of_comment {s : Octets} (h : Comment s) : PassedOver s :=
  .inr (comment_cString h)

theorem passedOver_of_space {s : Octets} (h : s.all isspace = true) : PassedOver s := by
  have h_zero : (0 : UInt8) ∉ s := by
    intro h_mem
    exact absurd (List.all_eq_true.mp h _ h_mem) (by decide)
  rw [PassedOver, cString_of_not_mem h_zero]
  exact .inl (lineText_eq_nil.mpr h)

theorem ruleOfLine_of_comment {s : Octets} (h : Comment s) : ruleOfLine s = none :=
  if_pos (.inr (.inl h))

/-- A line of white space is quiet however long it is. -/
theorem rulesOfLineFrom_space {fuel base : Nat} {r : Octets} (h : r.all isspace = true) :
    rulesOfLineFrom fuel base r = [] := by
  induction fuel generalizing base r with
  | zero => rfl
  | succ fuel ih =>
    have h_sub : ∀ t : Octets, (∀ x ∈ t, x ∈ r) → t.all isspace = true := by
      intro t h_t
      exact List.all_eq_true.mpr fun c h_c => List.all_eq_true.mp h c (h_t c h_c)
    rw [rulesOfLineFrom, loadLine_none.mpr (passedOver_of_space h)]
    split
    · rfl
    · rw [loadLine_none.mpr (passedOver_of_space (h_sub _ fun x => List.mem_of_mem_take)),
        ih (h_sub _ fun x => List.mem_of_mem_drop)]
      rfl

/-- Whether a line is a rule depends on its text only. -/
theorem ruleOfLine_of_text {s t : Octets} (h : lineText s = lineText t) :
    ruleOfLine s =
      if lineText t = [] ∨ Comment t ∨ BareKeyword t then none else some (foundIn s) := by
  rw [ruleOfLine_eq]
  refine if_congr ?_ rfl rfl
  unfold Comment BareKeyword
  rw [h]

/-- Blanks in front of a line only move what it says. -/
theorem ruleOfLine_blank {c : Octets} (h : c.all isBlank = true) (r : Octets) :
    ruleOfLine (c ++ r) = (ruleOfLine r).map (Found.shift c.length) := by
  have h_text := lineText_append_blank h r
  rw [ruleOfLine_of_text h_text, ruleOfLine_eq r]
  by_cases h_none : lineText r = [] ∨ Comment r ∨ BareKeyword r
  · rw [if_pos h_none, if_pos h_none]
    rfl
  · have h_some : lineText r ≠ [] := fun h_nil => h_none (.inl h_nil)
    have h_space : ¬ r.all isspace = true := fun h_all => h_some (lineText_eq_nil.mpr h_all)
    rw [if_neg h_none, if_neg h_none, Option.map_some, Option.some_inj]
    have h_len := (foundIn_pattern h_some).1
    simp only [foundIn, Found.shift, h_text, rstrip_append h_space, List.length_append,
      Found.mk.injEq, true_and, and_true] at h_len ⊢
    omega

/-- White space behind a line does not change what it says. -/
theorem ruleOfLine_trailing (c : Octets) {r : Octets} (h : r.all isspace = true) :
    ruleOfLine (c ++ r) = ruleOfLine c := by
  have h_strip := rstrip_append_space (c := c) h
  have h_text : lineText (c ++ r) = lineText c := by rw [lineText, h_strip, lineText]
  rw [ruleOfLine_of_text h_text, ruleOfLine_eq c, foundIn, foundIn, h_text, h_strip]

theorem shift_shift (m n : Nat) (f : Found) : (f.shift m).shift n = f.shift (n + m) := by
  rw [Found.shift, Found.shift, Found.shift, Nat.add_comm n m, Nat.add_assoc]

/-- **A sound line gives its rule and nothing else**, by induction on why it is sound. -/
theorem rulesOfLineFrom_of_sound {fuel base : Nat} {line : Octets} (h : Sound line)
    (h_fuel : line.length < fuel) :
    rulesOfLineFrom fuel base line = ((ruleOfLine line).map (Found.shift base)).toList := by
  have h_size : lineSize - 1 = 4095 := rfl
  induction h generalizing fuel base with
  | short h_len h_zero h_bare =>
    rw [rulesOfLineFrom_short h_fuel h_len, loadLine_of_not_mem h_zero h_bare]
  | comment h_len h_comment =>
    rw [rulesOfLineFrom_short h_fuel h_len, loadLine_none.mpr (passedOver_of_comment h_comment),
      ruleOfLine_of_comment h_comment]
  | @blank c r h_c h_r h_blank _ ih =>
    cases fuel with
    | zero => omega
    | succ fuel =>
      rw [List.length_append] at h_fuel
      have h_space : c.all isspace = true :=
        List.all_eq_true.mpr fun x h_x => isspace_of_isBlank (List.all_eq_true.mp h_blank x h_x)
      rw [rulesOfLineFrom_long h_c h_r, loadLine_none.mpr (passedOver_of_space h_space),
        ih (by omega), ruleOfLine_blank h_blank, h_c]
      cases ruleOfLine r with
      | none => rfl
      | some f => simp [shift_shift]
  | @longComment c r h_c h_r h_comment h_quiet =>
    cases fuel with
    | zero => omega
    | succ fuel =>
      rw [List.length_append] at h_fuel
      rw [rulesOfLineFrom_long h_c h_r, loadLine_none.mpr (passedOver_of_comment h_comment),
        (rulesOfLineFrom_nil (by omega)).mpr h_quiet, ruleOfLine_of_comment]
      · rfl
      · exact (comment_append (not_blank_of_comment h_comment) r).mpr h_comment
  | @trailing c r h_c h_r h_space h_zero h_bare =>
    cases fuel with
    | zero => omega
    | succ fuel =>
      rw [rulesOfLineFrom_long h_c h_r, loadLine_of_not_mem h_zero h_bare,
        rulesOfLineFrom_space h_space, ruleOfLine_trailing c h_space, List.append_nil]

/-- A bare mode keyword has no NUL in its line. -/
theorem zero_not_mem_of_bare {line : Octets} (h : BareKeyword line) : (0 : UInt8) ∉ line := by
  intro h_zero
  have h_some : lineText line ≠ [] := by
    intro h_nil
    rw [BareKeyword, h_nil] at h
    exact absurd h (by decide)
  obtain ⟨-, h_pattern, -⟩ := foundIn_pattern h_some
  obtain ⟨pre, h_text, -, -⟩ := splitMode_pattern h_some (lineText_last h_some)
  have h_mem : (0 : UInt8) ∈ lineText line := by
    rw [h_text]
    exact List.mem_append_right _ (h_pattern h_zero)
  rcases h with h_kw | h_kw | h_kw <;> rw [h_kw] at h_mem <;> exact absurd h_mem (by decide)

/-- It is not passed over. -/
theorem not_passedOver_of_bare {line : Octets} (h : BareKeyword line) : ¬ PassedOver line := by
  have h_cString := cString_of_not_mem (zero_not_mem_of_bare h)
  rw [PassedOver, h_cString, Comment]
  rcases h with h_kw | h_kw | h_kw <;> rw [h_kw] <;> decide

/-- A line that fits the buffer. -/
theorem sound_of_short {line : Octets} (h_len : line.length ≤ lineSize - 1)
    (h : loadLine line = ruleOfLine line) : Sound line := by
  by_cases h_comment : Comment line
  · exact .comment h_len h_comment
  by_cases h_bare : BareKeyword line
  · have h_none : ruleOfLine line = none := if_pos (.inr (.inr h_bare))
    rw [h_none] at h
    exact absurd (loadLine_none.mp h) (not_passedOver_of_bare h_bare)
  refine .short h_len (fun h_zero => ?_) h_bare
  -- What the line says has the NUL in it, what is found has not.
  have h_some : lineText line ≠ [] := by
    intro h_nil
    exact absurd (List.all_eq_true.mp (lineText_eq_nil.mp h_nil) _ h_zero) (by decide)
  have h_rule : ruleOfLine line = some (foundIn line) :=
    if_neg (by rintro (h | h | h) <;> contradiction)
  rw [h_rule] at h
  exact (loadLine_bounds h).2 ((foundIn_pattern h_some).2.1 h_zero)

/-- Where the pattern of a line begins that has white space other than blanks in front. -/
theorem foundIn_start_lt {c r : Octets} (h_blank : ¬ c.all isBlank = true)
    (h_space : c.all isspace = true) (h_r : ¬ r.all isspace = true) :
    (foundIn (c ++ r)).start < c.length := by
  obtain ⟨x, t, h_c, -⟩ := dropWhile_append_head h_blank r
  have h_x : isBlank x = false := dropWhile_head h_c
  have h_mem : x ∈ c := (List.dropWhile_suffix isBlank).subset (by rw [h_c]; exact List.mem_cons_self)
  have h_text : lineText (c ++ r) = x :: (t ++ rstrip r) := by
    rw [lineText, rstrip_append h_r, List.dropWhile_append, h_c]
    rfl
  -- No keyword begins with white space.
  have h_split : (splitMode (lineText (c ++ r))).2 = lineText (c ++ r) := by
    obtain ⟨mode, kw, q, h_p, h_split, -, -, h_kw⟩ := splitMode_eq (lineText (c ++ r))
    have h_nil : kw = [] := by
      by_contra h_kw'
      have h_first : kw.head? = some x := by
        have h_head := congrArg List.head? (h_text.symm.trans h_p)
        rw [List.head?_append_of_ne_nil _ h_kw'] at h_head
        exact h_head.symm
      have h_not : isspace x = true := List.all_eq_true.mp h_space x h_mem
      rcases h_kw with rfl | rfl | rfl | rfl
      · exact h_kw' rfl
      all_goals
        cases h_first
        exact absurd h_not (by decide)
    rw [h_nil, List.nil_append] at h_p
    rw [h_split, ← h_p, h_text, List.dropWhile_cons_of_neg (by simp [h_x])]
  have h_len : c.length = (c.takeWhile isBlank).length + (x :: t).length := by
    rw [← h_c, ← List.length_append, List.takeWhile_append_dropWhile]
  rw [foundIn, h_split, h_text, rstrip_append h_r]
  simp only [List.length_append, List.length_cons] at h_len ⊢
  omega

theorem shift_injective (base : Nat) : Function.Injective (Found.shift base) := by
  intro f g h
  obtain ⟨mode, start, pattern⟩ := f
  obtain ⟨mode', start', pattern'⟩ := g
  simp only [Found.shift, Found.mk.injEq] at h ⊢
  exact ⟨h.1, by omega, h.2.2⟩

/-- A line that does not fit the buffer, and begins with a piece that is neither blank nor a
    comment. -/
theorem sound_of_long {fuel base : Nat} {c r : Octets} (h_c : c.length = lineSize - 1)
    (h_r : r ≠ []) (h_blank : ¬ c.all isBlank = true) (h_comment : ¬ Comment c)
    (h : rulesOfLineFrom (fuel + 1) base (c ++ r) =
      ((ruleOfLine (c ++ r)).map (Found.shift base)).toList) : Sound (c ++ r) := by
  have h_size : lineSize - 1 = 4095 := rfl
  by_cases h_all : (c ++ r).all isspace = true
  · -- Nothing but white space.
    rw [List.all_append, Bool.and_eq_true] at h_all
    have h_zero : (0 : UInt8) ∉ c := fun h_mem =>
      absurd (List.all_eq_true.mp h_all.1 _ h_mem) (by decide)
    refine .trailing h_c h_r h_all.2 h_zero ?_
    rw [BareKeyword, lineText_eq_nil.mpr h_all.1]
    decide
  have h_some : lineText (c ++ r) ≠ [] := fun h_nil => h_all (lineText_eq_nil.mp h_nil)
  have h_line : ¬ Comment (c ++ r) := fun h' => h_comment ((comment_append h_blank r).mp h')
  rw [rulesOfLineFrom_long h_c h_r] at h
  by_cases h_bare : BareKeyword (c ++ r)
  · -- The keyword begins in the first piece, which is then not passed over.
    have h_none : ruleOfLine (c ++ r) = none := if_pos (.inr (.inr h_bare))
    rw [h_none] at h
    have h_piece : loadLine c = none := by simpa using (List.append_eq_nil_iff.mp h).1
    have h_zero : (0 : UInt8) ∉ c := fun h_mem =>
      zero_not_mem_of_bare h_bare (List.mem_append_left _ h_mem)
    rcases loadLine_none.mp h_piece with h_nil | h_hash
    · rw [cString_of_not_mem h_zero, lineText_eq_nil] at h_nil
      obtain ⟨x, t, h_drop, h_drop'⟩ := dropWhile_append_head h_blank r
      have h_x : isspace x = true := List.all_eq_true.mp h_nil x
        ((List.dropWhile_suffix isBlank).subset (by rw [h_drop]; exact List.mem_cons_self))
      have h_head := lineText_head h_all
      rw [h_drop'] at h_head
      rcases h_bare with h_kw | h_kw | h_kw <;> rw [h_kw] at h_head <;> cases h_head <;>
        exact absurd h_x (by decide)
    · rw [cString_of_not_mem h_zero] at h_hash
      exact absurd h_hash h_comment
  have h_rule : ruleOfLine (c ++ r) = some (foundIn (c ++ r)) :=
    if_neg (by rintro (h | h | h) <;> contradiction)
  rw [h_rule, Option.map_some, Option.toList_some] at h
  -- What is found has no NUL, so there is none in the line.
  have h_zero : (0 : UInt8) ∉ c ++ r := by
    intro h_mem
    have h_in : (foundIn (c ++ r)).shift base ∈ rulesOfLineFrom (fuel + 1) base (c ++ r) := by
      rw [rulesOfLineFrom_long h_c h_r, h]
      exact List.mem_singleton_self _
    exact (rulesOfLineFrom_bounds _ h_in).2 ((foundIn_pattern h_some).2.1 h_mem)
  have h_zero_c : (0 : UInt8) ∉ c := fun h_mem => h_zero (List.mem_append_left _ h_mem)
  by_cases h_space : c.all isspace = true
  · -- Then the pattern begins in the first piece, and what is found begins behind it.
    have h_r_space : ¬ r.all isspace = true := fun h' => h_all (by simp [h_space, h'])
    rw [loadLine_none.mpr (passedOver_of_space h_space)] at h
    have h_in : (foundIn (c ++ r)).shift base ∈
        rulesOfLineFrom fuel (base + (lineSize - 1)) r := by
      have h' : rulesOfLineFrom fuel (base + (lineSize - 1)) r = [_] := h
      rw [h']
      exact List.mem_singleton_self _
    have h_start := (rulesOfLineFrom_bounds _ h_in).1
    have h_lt := foundIn_start_lt h_blank h_space h_r_space
    simp only [Found.shift] at h_start
    omega
  · -- The first piece gives the rule, so the pattern of the line ends in it.
    have h_piece : loadLine c = some (foundIn c) := by
      rw [loadLine_eq, cString_of_not_mem h_zero_c]
      exact if_neg (by rintro (h | h) <;> [exact h_space (lineText_eq_nil.mp h); exact h_comment h])
    rw [h_piece] at h
    have h_eq : foundIn c = foundIn (c ++ r) :=
      shift_injective base (List.cons.inj h).1
    have h_end := (foundIn_pattern (fun h_nil => h_space (lineText_eq_nil.mp h_nil))).1
    have h_end' := (foundIn_pattern h_some).1
    rw [h_eq, h_end'] at h_end
    have h_le := rstrip_length_le c
    by_cases h_r_space : r.all isspace = true
    · refine .trailing h_c h_r h_r_space h_zero_c fun h_kw => h_bare ?_
      rwa [BareKeyword, lineText, rstrip_append_space h_r_space, ← lineText]
    · rw [rstrip_append h_r_space, List.length_append] at h_end
      have h_strip : rstrip r ≠ [] := by
        rw [rstrip, Ne, List.rdropWhile_eq_nil_iff]
        exact fun h' => h_r_space (List.all_eq_true.mpr h')
      have h_pos := List.length_pos_of_ne_nil h_strip
      omega

/-- **A line that gives its rule and nothing else is sound.** -/
theorem sound_of_rulesOfLineFrom {fuel base : Nat} {line : Octets} (h_fuel : line.length < fuel)
    (h : rulesOfLineFrom fuel base line = ((ruleOfLine line).map (Found.shift base)).toList) :
    Sound line := by
  induction fuel generalizing base line with
  | zero => omega
  | succ fuel ih =>
    have h_size : lineSize - 1 = 4095 := rfl
    by_cases h_len : line.length ≤ lineSize - 1
    · rw [rulesOfLineFrom_short h_fuel h_len] at h
      have h_found := congrArg List.head? h
      rw [Option.head?_toList, Option.head?_toList] at h_found
      exact sound_of_short h_len (Option.map_injective (shift_injective base) h_found)
    obtain ⟨c, r, rfl, h_c, h_r⟩ : ∃ c r, line = c ++ r ∧ c.length = lineSize - 1 ∧ r ≠ [] := by
      refine ⟨line.take (lineSize - 1), line.drop (lineSize - 1),
        (List.take_append_drop _ _).symm, List.length_take_of_le (by omega), ?_⟩
      rw [Ne, List.drop_eq_nil_iff]
      omega
    rw [List.length_append] at h_fuel
    by_cases h_blank : c.all isBlank = true
    · have h_space : c.all isspace = true :=
        List.all_eq_true.mpr fun x h_x => isspace_of_isBlank (List.all_eq_true.mp h_blank x h_x)
      rw [rulesOfLineFrom_long h_c h_r, loadLine_none.mpr (passedOver_of_space h_space),
        ruleOfLine_blank h_blank, h_c, Option.map_map] at h
      have h_shift : Found.shift base ∘ Found.shift (lineSize - 1) =
          Found.shift (base + (lineSize - 1)) := funext fun f => shift_shift _ _ f
      rw [h_shift] at h
      exact .blank h_c h_r h_blank (ih (by omega) h)
    by_cases h_comment : Comment c
    · rw [rulesOfLineFrom_long h_c h_r, loadLine_none.mpr (passedOver_of_comment h_comment),
        ruleOfLine_of_comment ((comment_append h_blank r).mpr h_comment)] at h
      exact .longComment h_c h_r h_comment ((rulesOfLineFrom_nil (by omega)).mp h)
    · exact sound_of_long h_c h_r h_blank h_comment h

/-! ## From the lines to the file -/

/-- What a rule says, wherever it was found. -/
def Found.key (f : Found) : MatchMode × Octets := (f.mode, f.pattern)

def Rule.key (r : Rule) : MatchMode × Octets := (r.mode, r.pattern)

theorem addRule_key {rules rules' : List Rule} {mode : MatchMode} {pattern : Octets} {mem : Bool}
    (h : addRule rules mode pattern mem = some rules') :
    rules'.map Rule.key = rules.map Rule.key ++ [(mode, pattern)] := by
  unfold addRule at h
  split at h
  · cases h
  · split at h
    · split at h
      · cases h
      · cases h
        rw [List.map_append]
        rfl
    · cases h
      rw [List.map_append]
      rfl

/-! One round: at the end of the file, over a line that gives nothing, and over one that gives
    a rule. -/

theorem loadWhitelistFrom_end {mem : Nat → Bool} {fuel : Nat} {s : Octets} {rules : List Rule}
    (h : fgets lineSize s = none) : loadWhitelistFrom mem (fuel + 1) s rules = some rules := by
  rw [loadWhitelistFrom, h]

theorem loadWhitelistFrom_skip {mem : Nat → Bool} {fuel : Nat} {s line s' : Octets}
    {rules : List Rule} (h : fgets lineSize s = some (line, s')) (h_line : loadLine line = none) :
    loadWhitelistFrom mem (fuel + 1) s rules = loadWhitelistFrom mem fuel s' rules := by
  rw [loadWhitelistFrom, h]
  simp only [h_line]

theorem loadWhitelistFrom_rule {mem : Nat → Bool} {fuel : Nat} {s line s' : Octets}
    {rules : List Rule} {f : Found} (h : fgets lineSize s = some (line, s'))
    (h_line : loadLine line = some f) :
    loadWhitelistFrom mem (fuel + 1) s rules =
      (addRule rules f.mode f.pattern (mem rules.length)).bind (loadWhitelistFrom mem fuel s') := by
  rw [loadWhitelistFrom, h]
  simp only [h_line]
  cases addRule rules f.mode f.pattern (mem rules.length) <;> rfl

/-- What the loop finds in the whole of a file. -/
def readRulesFrom : Nat → Octets → List Found
  | 0, _ => []
  | fuel + 1, s =>
    match fgets lineSize s with
    | none => []
    | some (line, s) => (loadLine line).toList ++ readRulesFrom fuel s

/-- The table is what was in it and what the loop finds. -/
theorem loadWhitelistFrom_key {mem : Nat → Bool} {fuel : Nat} {s : Octets}
    {rules rules' : List Rule} (h : loadWhitelistFrom mem fuel s rules = some rules') :
    rules'.map Rule.key = rules.map Rule.key ++ (readRulesFrom fuel s).map Found.key := by
  induction fuel generalizing s rules with
  | zero =>
    cases h
    rw [readRulesFrom, List.map_nil, List.append_nil]
  | succ fuel ih =>
    rw [readRulesFrom]
    cases h_get : fgets lineSize s with
    | none =>
      rw [loadWhitelistFrom_end h_get] at h
      cases h
      rw [List.map_nil, List.append_nil]
    | some p =>
      obtain ⟨line, s'⟩ := p
      simp only
      cases h_line : loadLine line with
      | none =>
        rw [loadWhitelistFrom_skip h_get h_line] at h
        exact ih h
      | some f =>
        rw [loadWhitelistFrom_rule h_get h_line] at h
        obtain ⟨rules₁, h_add, h_rest⟩ := Option.bind_eq_some_iff.mp h
        rw [ih h_rest, addRule_key h_add, List.append_assoc]
        rfl

/-- A line that fills the buffer is cut. -/
theorem fgetsFrom_cut {n : Nat} {line : Octets} (t : Octets) (h_line : newline ∉ line)
    (h_len : n ≤ line.length) :
    fgetsFrom n (line ++ t) = (line.take n, line.drop n ++ t) := by
  induction n generalizing line with
  | zero => simp [fgetsFrom]
  | succ n ih =>
    cases line with
    | nil => simp at h_len
    | cons c line =>
      obtain ⟨h_c, h_rest⟩ := not_or.mp (fun h => h_line (List.mem_cons.mpr h))
      rw [List.length_cons] at h_len
      rw [List.cons_append, fgetsFrom, if_neg (Ne.symm h_c), ih h_rest (by omega)]
      rfl

/-- One that does not is read to its newline, -/
theorem fgetsFrom_newline {n : Nat} {line : Octets} (rest : Octets) (h_line : newline ∉ line)
    (h_len : line.length < n) :
    fgetsFrom n (line ++ newline :: rest) = (line ++ [newline], rest) := by
  induction n generalizing line with
  | zero => omega
  | succ n ih =>
    cases line with
    | nil => exact if_pos rfl
    | cons c line =>
      obtain ⟨h_c, h_rest⟩ := not_or.mp (fun h => h_line (List.mem_cons.mpr h))
      rw [List.length_cons] at h_len
      rw [List.cons_append, fgetsFrom, if_neg (Ne.symm h_c), ih h_rest (by omega)]
      rfl

/-- ... or to the end of the file. -/
theorem fgetsFrom_end {n : Nat} {line : Octets} (h_line : newline ∉ line) (h_len : line.length ≤ n) :
    fgetsFrom n line = (line, []) := by
  induction n generalizing line with
  | zero =>
    rw [List.eq_nil_of_length_eq_zero (Nat.le_zero.mp h_len)]
    rfl
  | succ n ih =>
    cases line with
    | nil => rfl
    | cons c line =>
      obtain ⟨h_c, h_rest⟩ := not_or.mp (fun h => h_line (List.mem_cons.mpr h))
      rw [List.length_cons] at h_len
      rw [fgetsFrom, if_neg (Ne.symm h_c), ih h_rest (by omega)]

/-- The newline of a line is white space behind it. -/
theorem loadLine_newline (line : Octets) : loadLine (line ++ [newline]) = loadLine line := by
  have h_strip : rstrip (cString (line ++ [newline])) = rstrip (cString line) := by
    by_cases h_zero : (0 : UInt8) ∈ line
    · -- The buffer is a C string that ends before the newline.
      have h_short : (line.takeWhile fun c => decide (c ≠ 0)).length ≠ line.length := by
        intro h_len
        have h_self := (List.takeWhile_prefix (fun c => decide (c ≠ 0))).eq_of_length h_len
        exact zero_not_mem_cString line (by rw [cString, h_self]; exact h_zero)
      rw [cString, List.takeWhile_append, if_neg h_short, cString]
    · have h_all : (0 : UInt8) ∉ line ++ [newline] := by
        rw [List.mem_append, not_or]
        exact ⟨h_zero, by decide⟩
      rw [cString_of_not_mem h_all, cString_of_not_mem h_zero]
      exact rstrip_append_space (by decide)
  rw [loadLine, loadLine, h_strip]

/-- What is found in a line does not depend on where the line stands. -/
theorem rulesOfLineFrom_key {fuel fuel' base base' : Nat} {line : Octets}
    (h_fuel : line.length < fuel) (h_fuel' : line.length < fuel') :
    (rulesOfLineFrom fuel base line).map Found.key =
      (rulesOfLineFrom fuel' base' line).map Found.key := by
  have h_piece : ∀ base base' piece,
      ((loadLine piece).map (Found.shift base)).toList.map Found.key =
        ((loadLine piece).map (Found.shift base')).toList.map Found.key := by
    intro base base' piece
    cases loadLine piece <;> rfl
  induction fuel generalizing fuel' base base' line with
  | zero => omega
  | succ fuel ih =>
    cases fuel' with
    | zero => omega
    | succ fuel' =>
      have h_size : lineSize - 1 = 4095 := rfl
      rw [rulesOfLineFrom, rulesOfLineFrom]
      by_cases h_len : line.length ≤ lineSize - 1
      · rw [if_pos h_len, if_pos h_len, h_piece base base']
      · rw [if_neg h_len, if_neg h_len, List.map_append, List.map_append, h_piece base base']
        congr 1
        exact ih (by rw [List.length_drop]; omega) (by rw [List.length_drop]; omega)

theorem rulesOfLine_short {line : Octets} (h : line.length ≤ lineSize - 1) :
    (rulesOfLine line).map Found.key = (loadLine line).toList.map Found.key := by
  rw [rulesOfLine, rulesOfLineFrom_short (Nat.lt_succ_self _) h]
  cases loadLine line <;> rfl

/-- A line is what fills the buffer first, and what lies behind. -/
theorem rulesOfLine_cut (line : Octets) :
    (rulesOfLine line).map Found.key =
      (loadLine (line.take (lineSize - 1))).toList.map Found.key ++
        (rulesOfLine (line.drop (lineSize - 1))).map Found.key := by
  by_cases h_len : line.length ≤ lineSize - 1
  · have h_drop : line.drop (lineSize - 1) = [] := List.drop_eq_nil_of_le h_len
    rw [rulesOfLine_short h_len, List.take_of_length_le h_len, h_drop]
    exact (List.append_nil _).symm
  · rw [rulesOfLine, rulesOfLineFrom, if_neg h_len, List.map_append]
    congr 1
    · cases loadLine (line.take (lineSize - 1)) <;> rfl
    · have h_size : lineSize - 1 = 4095 := rfl
      exact rulesOfLineFrom_key (by rw [List.length_drop]; omega) (Nat.lt_succ_self _)

/-- The lines behind the first one. -/
def linesBehind : Octets → List Octets
  | [] => []
  | _ :: rest => fileLines rest

theorem fileLines_append {line t : Octets} (h_line : newline ∉ line)
    (h_t : t = [] ∨ ∃ rest, t = newline :: rest) : fileLines (line ++ t) = line :: linesBehind t := by
  rcases h_t with rfl | ⟨rest, rfl⟩
  · rw [List.append_nil]
    exact List.splitOn_eq_singleton h_line
  · exact List.splitOn_append_cons_self_of_not_mem h_line rest

/-- A file is its first line, and its end or a newline and the lines behind it. -/
theorem exists_line (s : Octets) : ∃ line t, s = line ++ t ∧ newline ∉ line ∧
    (t = [] ∨ ∃ rest, t = newline :: rest) := by
  refine ⟨s.takeWhile (fun c => c ≠ newline), s.dropWhile (fun c => c ≠ newline),
    List.takeWhile_append_dropWhile.symm, fun h => ?_, ?_⟩
  · exact absurd (List.mem_takeWhile_imp h) (by decide)
  · cases h_drop : s.dropWhile fun c => c ≠ newline with
    | nil => exact .inl rfl
    | cons c rest =>
      have h_c := dropWhile_head h_drop
      obtain rfl : c = newline := by simpa using h_c
      exact .inr ⟨rest, rfl⟩

/-- **The loop finds in a file what it finds in its lines**, by induction on its rounds. -/
theorem readRulesFrom_lines {fuel : Nat} {s : Octets} (h_fuel : s.length < fuel) :
    (readRulesFrom fuel s).map Found.key =
      (fileLines s).flatMap fun line => (rulesOfLine line).map Found.key := by
  induction fuel generalizing s with
  | zero => omega
  | succ fuel ih =>
    have h_size : lineSize - 1 = 4095 := rfl
    by_cases h_nil : s = []
    · subst h_nil
      rfl
    have h_pos : 0 < s.length := List.length_pos_of_ne_nil h_nil
    obtain ⟨line, t, rfl, h_line, h_t⟩ := exists_line s
    rw [readRulesFrom, fgets, if_neg h_nil, fileLines_append h_line h_t, List.flatMap_cons]
    rw [List.length_append] at h_fuel h_pos
    by_cases h_full : lineSize - 1 ≤ line.length
    · -- The rest of the line is what the next round begins with.
      have h_drop : newline ∉ line.drop (lineSize - 1) := fun h => h_line (List.mem_of_mem_drop h)
      rw [fgetsFrom_cut t h_line h_full, rulesOfLine_cut line]
      simp only
      rw [List.map_append, List.append_assoc, ih, fileLines_append h_drop h_t, List.flatMap_cons]
      rw [List.length_append, List.length_drop]
      omega
    · rw [rulesOfLine_short (by omega)]
      rcases h_t with rfl | ⟨rest, rfl⟩
      · rw [List.append_nil, fgetsFrom_end h_line (by omega)]
        simp only
        rw [List.map_append, ih (by rw [List.length_nil]; rw [List.length_nil] at h_pos; omega)]
        rfl
      · rw [fgetsFrom_newline rest h_line (by omega)]
        simp only
        rw [List.length_cons] at h_fuel
        rw [loadLine_newline, List.map_append, ih (by omega)]
        rfl

/-! ## The table -/

/-- Each line of the file gives the rule that it spells, from where it spells it, and nothing
    else. -/
def OneRulePerLine (file : Octets) : Prop :=
  ∀ line ∈ fileLines file, rulesOfLine line = (ruleOfLine line).toList

theorem rulesOfLine_iff (line : Octets) :
    rulesOfLine line = (ruleOfLine line).toList ↔ Sound line := by
  have h_shift : (ruleOfLine line).map (Found.shift 0) = ruleOfLine line := by
    cases ruleOfLine line <;> rfl
  rw [rulesOfLine, ← h_shift]
  exact ⟨sound_of_rulesOfLineFrom (Nat.lt_succ_self _),
    fun h => rulesOfLineFrom_of_sound h (Nat.lt_succ_self _)⟩

/-- **The rules of a whitelist.**  A table that is loaded holds what the loop makes of each line,
    in file order.  That is one rule for each line that is neither blank nor a comment nor a
    bare mode keyword, exactly if every line is sound. -/
theorem loadWhitelist_rules {mem : Nat → Bool} {file : Octets} {rules : List Rule}
    (h : loadWhitelist mem (some file) = some rules) :
    (rules.map Rule.key =
        (fileLines file).flatMap fun line => (rulesOfLine line).map Found.key) ∧
      (OneRulePerLine file ↔ ∀ line ∈ fileLines file, Sound line) ∧
      ((∀ line ∈ fileLines file, Sound line) →
        rules.map Rule.key = (fileLines file).filterMap fun line => (ruleOfLine line).map Found.key) := by
  have h_rules : rules.map Rule.key =
      (fileLines file).flatMap fun line => (rulesOfLine line).map Found.key := by
    have h_key := loadWhitelistFrom_key h
    rw [List.map_nil, List.nil_append, readRulesFrom_lines (Nat.lt_succ_self _)] at h_key
    exact h_key
  refine ⟨h_rules, forall₂_congr fun line _ => rulesOfLine_iff line, fun h_sound => ?_⟩
  rw [h_rules, List.filterMap_eq_flatMap_toList]
  refine List.flatMap_congr fun line h_line => ?_
  rw [(rulesOfLine_iff line).mpr (h_sound line h_line)]
  cases ruleOfLine line <;> rfl

/-- "exact w\n# x\n" -/
def smallFile : Octets := [0x65, 0x78, 0x61, 0x63, 0x74, 0x20, 0x77, 0x0a, 0x23, 0x20, 0x78, 0x0a]

theorem loadWhitelist_rules_small :
    ∃ rules, loadWhitelist (fun _ => true) (some smallFile) = some rules ∧
      rules.map Rule.key =
        (fileLines smallFile).filterMap fun line => (ruleOfLine line).map Found.key := by
  have h_load : loadWhitelist (fun _ => true) (some smallFile) =
      some [⟨.matchExact, [0x77], none, rfl, nofun⟩] := rfl
  refine ⟨_, h_load, (loadWhitelist_rules h_load).2.2 fun line h_line => ?_⟩
  have h_lines : fileLines smallFile =
      [[0x65, 0x78, 0x61, 0x63, 0x74, 0x20, 0x77], [0x23, 0x20, 0x78], []] := by decide
  rw [h_lines] at h_line
  simp only [List.mem_cons, List.not_mem_nil, or_false] at h_line
  rcases h_line with rfl | rfl | rfl <;> exact .short (by decide) (by decide) (by decide)

/-- A comment of `n` octets. -/
def hashes (n : Nat) : Octets := List.replicate n 0x23

@[simp] theorem hashes_length (n : Nat) : (hashes n).length = n := List.length_replicate

theorem hashes_no_newline (n : Nat) : newline ∉ hashes n :=
  fun h => absurd (List.eq_of_mem_replicate h) (by decide)

theorem comment_hashes (n : Nat) : Comment (hashes (n + 1)) := by
  have h_strip : rstrip (hashes (n + 1)) = hashes (n + 1) := by
    rw [hashes, List.replicate_succ']
    exact List.rdropWhile_concat_neg _ _ _ (by decide)
  rw [Comment, lineText, h_strip, hashes, List.replicate_succ,
    List.dropWhile_cons_of_neg (by decide)]
  rfl

/-- A comment that fills the buffer and two more octets, which are ".*". -/
def longComment : Octets := hashes (lineSize - 1) ++ [0x2e, 0x2a]

theorem fgets_longComment : fgets lineSize longComment = some (hashes (lineSize - 1), [0x2e, 0x2a]) := by
  have h_len : (hashes (lineSize - 1)).length = lineSize - 1 := hashes_length _
  have h_some : hashes (lineSize - 1) ++ [0x2e, 0x2a] ≠ [] :=
    List.append_ne_nil_of_right_ne_nil _ (List.cons_ne_nil _ _)
  have h_cut := fgetsFrom_cut [0x2e, 0x2a] (hashes_no_newline (lineSize - 1)) (Nat.le_of_eq h_len.symm)
  rw [List.take_of_length_le (Nat.le_of_eq h_len), List.drop_of_length_le (Nat.le_of_eq h_len),
    List.nil_append] at h_cut
  rw [fgets, longComment, if_neg h_some, h_cut]

theorem addRule_regex {rules : List Rule} {pattern : Octets}
    (h : (Posix.regcomp (anchored pattern)).isSome = true) :
    ∃ rules', addRule rules .matchRegex pattern true = some rules' := by
  rw [addRule, if_neg (by decide), dif_pos rfl]
  split
  · rename_i h_none
    rw [h_none] at h
    cases h
  · exact ⟨_, rfl⟩

/-- The comment leaves a rule that permits every command. -/
theorem longComment_permits :
    fileLines longComment = [longComment] ∧ Comment longComment ∧
      ruleOfLine longComment = none ∧ ¬ OneRulePerLine longComment ∧
      ∃ rules, loadWhitelist (fun _ => true) (some longComment) = some rules ∧
        rules.map Rule.key = [(.matchRegex, [0x2e, 0x2a])] := by
  have h_line : newline ∉ longComment := by
    rw [longComment, List.mem_append, not_or]
    exact ⟨hashes_no_newline _, by decide⟩
  have h_lines : fileLines longComment = [longComment] := List.splitOn_eq_singleton h_line
  have h_first : Comment (hashes (lineSize - 1)) := comment_hashes 4094
  have h_comment : Comment longComment :=
    (comment_append (not_blank_of_comment h_first) _).mpr h_first
  obtain ⟨rules, h_add⟩ : ∃ rules, addRule [] .matchRegex [0x2e, 0x2a] true = some rules :=
    addRule_regex (by decide +kernel)
  have h_load : loadWhitelist (fun _ => true) (some longComment) = some rules := by
    obtain ⟨n, h_len⟩ : ∃ n, longComment.length = n + 2 := by
      obtain ⟨n, h_n⟩ : ∃ n, (hashes (lineSize - 1)).length = n := ⟨_, rfl⟩
      exact ⟨n, by rw [longComment, List.length_append, h_n]; rfl⟩
    have h_tail : fgets lineSize [0x2e, 0x2a] = some ([0x2e, 0x2a], []) := rfl
    have h_rule : loadLine [0x2e, 0x2a] = some ⟨.matchRegex, 0, [0x2e, 0x2a]⟩ := by decide
    have h_none := loadLine_none.mpr (passedOver_of_comment h_first)
    -- The comment gives nothing, and what `fgets` left of it is the next line.
    rw [loadWhitelist, h_len, loadWhitelistFrom_skip fgets_longComment h_none,
      loadWhitelistFrom_rule h_tail h_rule, h_add, Option.bind_some, loadWhitelistFrom_end rfl]
  have h_key := addRule_key h_add
  refine ⟨h_lines, h_comment, ruleOfLine_of_comment h_comment, fun h_one => ?_, rules, h_load,
    h_key⟩
  -- The line says nothing, and the table holds a rule.
  have h_rules := (loadWhitelist_rules h_load).1
  have h_none := h_one longComment (by rw [h_lines]; exact List.mem_singleton_self _)
  rw [ruleOfLine_of_comment h_comment] at h_none
  rw [h_lines, List.flatMap_cons, h_none, h_key] at h_rules
  cases h_rules

end IonContrib.Bpcmd
