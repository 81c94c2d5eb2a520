/-
  IonContrib.Lib.Ere

  POSIX extended regular expressions over octets (the C locale): how a pattern
  is read (`regcomp`), what it matches (`Spans`), and a matcher (`regexec`).

  A pattern is read octet by octet by one automaton, whose state is where the
  lexer is and the stack of the groups that are open.  So what a pattern means
  in the middle of a longer one is a matter of the stack it starts with: as
  long as no `)` of it closes a group it has not opened, it is read as it
  would be alone (`run_inside`), and `^(` in front and `)$` behind anchor it
  (`regcomp_anchored`).

  A `)` that closes nothing stands for itself, and a backslash makes any octet
  stand for itself.  An alternative may be empty.
-/
import Mathlib.Data.List.Dedup
import IonContrib.Lib.Octets

namespace IonContrib.Posix

/-! ## Expressions -/

inductive CharClass where
  | alnum | alpha | blank | cntrl | digit | graph | lower | print | punct | space | upper | xdigit
  deriving DecidableEq, Repr

/-- An element of a bracket expression; a single octet is a range of one. -/
inductive BracketItem where
  | range (lo hi : UInt8)
  | cls (k : CharClass)
  deriving DecidableEq, Repr

/-- What one octet of the subject can be. -/
inductive CharSet where
  | one (c : UInt8)
  | any
  | bracket (neg : Bool) (items : List BracketItem)
  deriving DecidableEq, Repr

inductive Ere where
  | eps
  | set (p : CharSet)
  | bol
  | eol
  | cat (a b : Ere)
  | alt (a b : Ere)
  | group (a : Ere)
  | rep (a : Ere) (lo : Nat) (hi : Option Nat)
  deriving DecidableEq, Repr

def CharClass.has (c : UInt8) : CharClass → Bool
  | .upper => 0x41 ≤ c && c ≤ 0x5a
  | .lower => 0x61 ≤ c && c ≤ 0x7a
  | .alpha => (0x41 ≤ c && c ≤ 0x5a) || (0x61 ≤ c && c ≤ 0x7a)
  | .digit => 0x30 ≤ c && c ≤ 0x39
  | .alnum => (0x41 ≤ c && c ≤ 0x5a) || (0x61 ≤ c && c ≤ 0x7a) || (0x30 ≤ c && c ≤ 0x39)
  | .xdigit => (0x41 ≤ c && c ≤ 0x46) || (0x61 ≤ c && c ≤ 0x66) || (0x30 ≤ c && c ≤ 0x39)
  | .space => c = 0x20 || (0x09 ≤ c && c ≤ 0x0d)
  | .blank => c = 0x20 || c = 0x09
  | .cntrl => c < 0x20 || c = 0x7f
  | .graph => 0x21 ≤ c && c ≤ 0x7e
  | .print => 0x20 ≤ c && c ≤ 0x7e
  | .punct => (0x21 ≤ c && c ≤ 0x2f) || (0x3a ≤ c && c ≤ 0x40) || (0x5b ≤ c && c ≤ 0x60) ||
      (0x7b ≤ c && c ≤ 0x7e)

def BracketItem.has (c : UInt8) : BracketItem → Bool
  | .range lo hi => lo ≤ c && c ≤ hi
  | .cls k => k.has c

def CharSet.has (c : UInt8) : CharSet → Bool
  | .one d => c = d
  | .any => true
  | .bracket neg items => (items.any fun it => it.has c) != neg

/-! ## Bracket expressions -/

def octetsOf (s : String) : Octets := s.toUTF8.data.toList

def classNames : List (Octets × CharClass) :=
  [(octetsOf "alnum", .alnum), (octetsOf "alpha", .alpha), (octetsOf "blank", .blank),
    (octetsOf "cntrl", .cntrl), (octetsOf "digit", .digit), (octetsOf "graph", .graph),
    (octetsOf "lower", .lower), (octetsOf "print", .print), (octetsOf "punct", .punct),
    (octetsOf "space", .space), (octetsOf "upper", .upper), (octetsOf "xdigit", .xdigit)]

/-- The octets up to `k` and `]`, and what follows them. -/
def upToClose (k : UInt8) : Octets → Option (Octets × Octets)
  | [] => none
  | c :: rest =>
    if c = k ∧ rest.head? = some 0x5d then some ([], rest.tail)
    else (upToClose k rest).map fun p => (c :: p.1, p.2)

/-- The first element of the inside of a bracket expression, and what follows it. -/
def bracketElem : Octets → Option (BracketItem × Octets)
  | [] => none
  | c :: rest =>
    if c = 0x5b ∧ (rest.head? = some 0x2e ∨ rest.head? = some 0x3a ∨ rest.head? = some 0x3d) then
      match upToClose (rest.headD 0) rest.tail with
      | none => none
      | some (name, rest') =>
        if rest.head? = some 0x3a then
          (classNames.lookup name).map fun k => (.cls k, rest')
        else
          -- In the C locale a collating element is one octet, equivalent to itself only.
          match name with
          | [d] => some (.range d d, rest')
          | _ => none
    else some (.range c c, rest)

/-- The elements of the inside of a bracket expression.  A hyphen between two elements makes
    them a range. -/
def bracketItems : Nat → Octets → Option (List BracketItem)
  | _, [] => some []
  | 0, _ => none
  | fuel + 1, raw =>
    match bracketElem raw with
    | none => none
    | some (.cls k, rest) => (bracketItems fuel rest).map (.cls k :: ·)
    | some (.range lo _, rest) =>
      if rest.head? = some 0x2d ∧ rest.tail ≠ [] then
        match bracketElem rest.tail with
        | some (.range hi _, rest') =>
          if hi < lo then none else (bracketItems fuel rest').map (.range lo hi :: ·)
        | _ => none
      else (bracketItems fuel rest).map (.range lo lo :: ·)

/-- A bracket expression, from what stands between its brackets. -/
def bracketSet (raw : Octets) : Option CharSet :=
  if raw.head? = some 0x5e then (bracketItems raw.length raw.tail).map (.bracket true)
  else (bracketItems raw.length raw).map (.bracket false)

/-! ## Intervals -/

def number (ds : Octets) : Option Nat :=
  if ds = [] then none
  else some (ds.foldl (fun n d => 10 * n + (d.toNat - 0x30)) 0)

/-- `m`, `m,` or `m,n` between braces. -/
def intervalOf (raw : Octets) : Option (Nat × Option Nat) :=
  let lo := raw.takeWhile fun d => d ≠ 0x2c
  match raw.drop lo.length with
  | [] => (number lo).map fun m => (m, some m)
  | [_] => (number lo).map fun m => (m, none)
  | _ :: hi =>
    match number lo, number hi with
    | some m, some n => if n < m ∨ 0x2c ∈ hi then none else some (m, some n)
    | _, _ => none

/-! ## Reading a pattern -/

/-- What an octet outside of brackets and braces stands for. -/
inductive Tok where
  | chr (c : UInt8)
  | escape
  | openBracket
  | openBrace
  | openGroup
  | closeGroup
  | bar
  | dup (lo : Nat) (hi : Option Nat)
  | any
  | bol
  | eol
  deriving DecidableEq, Repr

def tokOf (c : UInt8) : Tok :=
  if c = 0x5c then .escape
  else if c = 0x5b then .openBracket
  else if c = 0x7b then .openBrace
  else if c = 0x28 then .openGroup
  else if c = 0x29 then .closeGroup
  else if c = 0x7c then .bar
  else if c = 0x2a then .dup 0 none
  else if c = 0x2b then .dup 1 none
  else if c = 0x3f then .dup 0 (some 1)
  else if c = 0x2e then .any
  else if c = 0x5e then .bol
  else if c = 0x24 then .eol
  else .chr c

theorem else_of_ite {p : Prop} [Decidable p] {x y z : Tok} (h : (if p then x else y) = z)
    (h_x : x ≠ z) : y = z := by
  by_cases h_p : p
  · rw [if_pos h_p] at h
    exact absurd h h_x
  · rwa [if_neg h_p] at h

theorem tokOf_closeGroup {c : UInt8} (h : tokOf c = .closeGroup) : c = 0x29 := by
  unfold tokOf at h
  -- The four tests before that of the `)` have failed ...
  have h₁ := else_of_ite (else_of_ite (else_of_ite (else_of_ite h nofun) nofun) nofun) nofun
  by_contra h_c
  rw [if_neg h_c] at h₁
  -- ... and none behind it gives a `closeGroup`.
  have h₂ := else_of_ite (else_of_ite (else_of_ite (else_of_ite h₁ nofun) nofun) nofun) nofun
  have h₃ := else_of_ite (else_of_ite (else_of_ite h₂ nofun) nofun) nofun
  cases h₃

/-- Where the lexer is: outside of everything, behind a backslash, inside a bracket expression
    or inside braces.  Inside a bracket expression, `sub` is the octet of the `[.`, `[:` or
    `[=` that is open and how much of its name there is. -/
inductive Lex where
  | normal
  | escaped
  | bracket (raw : Octets) (sub : Option (UInt8 × Nat))
  | brace (raw : Octets)
  deriving DecidableEq, Repr

/-- A group that is being read: its alternatives, and the pieces of the last one, latest
    first. -/
structure Frame where
  alts : List Ere
  branch : List Ere
  deriving DecidableEq, Repr

def branchEre (pieces : List Ere) : Ere := pieces.foldl (fun e a => .cat a e) .eps

/-- What the frame has read. -/
def Frame.ere (f : Frame) : Ere := f.alts.foldl (fun e a => .alt a e) (branchEre f.branch)

def Frame.empty : Frame := ⟨[], []⟩

def Frame.piece (f : Frame) (e : Ere) : Frame := { f with branch := e :: f.branch }

/-- A duplication applies to the latest piece. -/
def Frame.dup (f : Frame) (lo : Nat) (hi : Option Nat) : Option Frame :=
  match f.branch with
  | [] => none
  | e :: rest => some { f with branch := .rep e lo hi :: rest }

structure Reader where
  lex : Lex
  frame : Frame
  outer : List Frame
  deriving DecidableEq, Repr

namespace Reader

def start : Reader := ⟨.normal, Frame.empty, []⟩

def piece (s : Reader) (e : Ere) : Reader := { s with lex := .normal, frame := s.frame.piece e }

def dup (s : Reader) (lo : Nat) (hi : Option Nat) : Option Reader :=
  (s.frame.dup lo hi).map fun f => { s with lex := .normal, frame := f }

def token (s : Reader) : Tok → Option Reader
  | .chr c => some (s.piece (.set (.one c)))
  | .escape => some { s with lex := .escaped }
  | .openBracket => some { s with lex := .bracket [] none }
  | .openBrace => some { s with lex := .brace [] }
  | .openGroup => some { s with frame := Frame.empty, outer := s.frame :: s.outer }
  | .closeGroup =>
    match s.outer with
    | [] => some (s.piece (.set (.one 0x29)))
    | f :: outer => some { s with frame := f.piece (.group s.frame.ere), outer := outer }
  | .bar => some { s with frame := ⟨branchEre s.frame.branch :: s.frame.alts, []⟩ }
  | .dup lo hi => s.dup lo hi
  | .any => some (s.piece (.set .any))
  | .bol => some (s.piece .bol)
  | .eol => some (s.piece .eol)

/-- One more octet inside a bracket expression. -/
def bracketOctet (s : Reader) (raw : Octets) (sub : Option (UInt8 × Nat)) (c : UInt8) :
    Option Reader :=
  match sub with
  | some (k, n) =>
    -- A name ends with its own octet and a bracket.
    if c = 0x5d ∧ 0 < n ∧ raw.getLast? = some k then some { s with lex := .bracket (raw ++ [c]) none }
    else some { s with lex := .bracket (raw ++ [c]) (some (k, n + 1)) }
  | none =>
    if c = 0x5d ∧ raw ≠ [] ∧ raw ≠ [0x5e] then
      (bracketSet raw).map fun p => s.piece (.set p)
    else if raw.getLast? = some 0x5b ∧ (c = 0x2e ∨ c = 0x3a ∨ c = 0x3d) then
      some { s with lex := .bracket (raw ++ [c]) (some (c, 0)) }
    else some { s with lex := .bracket (raw ++ [c]) none }

def step (s : Reader) (c : UInt8) : Option Reader :=
  match s.lex with
  | .normal => s.token (tokOf c)
  | .escaped => some (s.piece (.set (.one c)))
  | .bracket raw sub => s.bracketOctet raw sub c
  | .brace raw =>
    if c = 0x7d then
      match intervalOf raw with
      | none => none
      | some (lo, hi) => s.dup lo hi
    else if c = 0x2c ∨ (0x30 ≤ c ∧ c ≤ 0x39) then some { s with lex := .brace (raw ++ [c]) }
    else none

def run (s : Reader) (p : Octets) : Option Reader := p.foldlM step s

/-- At the end of the pattern nothing may be open. -/
def finish (s : Reader) : Option Ere :=
  if s.lex = .normal ∧ s.outer = [] then some s.frame.ere else none

end Reader

/-- `regcomp` with `REG_EXTENDED`. -/
def regcomp (p : Octets) : Option Ere := (Reader.start.run p).bind Reader.finish

/-! ## What an expression matches -/

/-- `k` steps of a relation. -/
def Iter (R : Nat → Nat → Prop) : Nat → Nat → Nat → Prop
  | 0, i, j => i = j
  | k + 1, i, j => ∃ m, R i m ∧ Iter R k m j

/-- The expression matches the octets of `s` from `i` up to `j`. -/
def Spans (s : Octets) : Ere → Nat → Nat → Prop
  | .eps => fun i j => i = j
  | .set p => fun i j => (∃ c, s[i]? = some c ∧ p.has c = true) ∧ j = i + 1
  | .bol => fun i j => i = 0 ∧ i = j
  | .eol => fun i j => i = s.length ∧ i = j
  | .cat a b => fun i j => ∃ m, Spans s a i m ∧ Spans s b m j
  | .alt a b => fun i j => Spans s a i j ∨ Spans s b i j
  | .group a => Spans s a
  | .rep a lo hi => fun i j =>
    ∃ k, lo ≤ k ∧ (∀ h ∈ hi, k ≤ h) ∧ Iter (Spans s a) k i j

/-! ## A matcher -/

/-- Where `k` steps lead. -/
def times (f : Nat → List Nat) : Nat → List Nat → List Nat
  | 0, at_ => at_
  | k + 1, at_ => times f k (at_.flatMap f).dedup

/-- Where up to `k` steps lead. -/
def upTo (f : Nat → List Nat) : Nat → List Nat → List Nat
  | 0, at_ => at_
  | k + 1, at_ => at_ ++ upTo f k (at_.flatMap f).dedup

/-- The ends of the matches that start at `i`.  A repetition without an upper bound needs no
    more steps than the subject has octets, as an empty one leads nowhere. -/
def reach (s : Octets) : Ere → Nat → List Nat
  | .eps => fun i => [i]
  | .set p => fun i => match s[i]? with
    | some c => if p.has c then [i + 1] else []
    | none => []
  | .bol => fun i => if i = 0 then [i] else []
  | .eol => fun i => if i = s.length then [i] else []
  | .cat a b => fun i => (reach s a i).flatMap (reach s b)
  | .alt a b => fun i => reach s a i ++ reach s b i
  | .group a => reach s a
  | .rep a lo hi => fun i => match hi with
    | none => upTo (reach s a) s.length (times (reach s a) lo [i])
    | some h => if h < lo then [] else upTo (reach s a) (h - lo) (times (reach s a) lo [i])

/-- `regexec` with `REG_NOSUB`: some stretch of the subject matches. -/
def regexec (e : Ere) (s : Octets) : Bool :=
  (List.range (s.length + 1)).any fun i => !(reach s e i).isEmpty

/-- A match spans the subject from its first to its last octet. -/
def spansAll (e : Ere) (s : Octets) : Bool := (reach s e 0).contains s.length

/-! ## The matcher finds what there is -/

theorem Iter.congr {R R' : Nat → Nat → Prop} {P : Nat → Prop}
    (h : ∀ i j, P i → (R i j ↔ R' i j)) (h_keep : ∀ i j, P i → R i j → P j) {k i j : Nat}
    (h_i : P i) : Iter R k i j ↔ Iter R' k i j := by
  induction k generalizing i with
  | zero => exact Iff.rfl
  | succ k ih =>
    constructor
    · rintro ⟨m, h_step, h_rest⟩
      exact ⟨m, (h i m h_i).mp h_step, (ih (h_keep i m h_i h_step)).mp h_rest⟩
    · rintro ⟨m, h_step, h_rest⟩
      have h_step' := (h i m h_i).mpr h_step
      exact ⟨m, h_step', (ih (h_keep i m h_i h_step')).mpr h_rest⟩

theorem Iter.invariant {R : Nat → Nat → Prop} {P : Nat → Nat → Prop} (h_refl : ∀ i, P i i)
    (h_trans : ∀ i m j, P i m → P m j → P i j) (h : ∀ i j, R i j → P i j) {k i j : Nat}
    (h_iter : Iter R k i j) : P i j := by
  induction k generalizing i with
  | zero =>
    obtain rfl : i = j := h_iter
    exact h_refl i
  | succ k ih =>
    obtain ⟨m, h_step, h_rest⟩ := h_iter
    exact h_trans i m j (h i m h_step) (ih h_rest)

theorem Iter.append {R : Nat → Nat → Prop} {k l i m j : Nat} (h₁ : Iter R k i m)
    (h₂ : Iter R l m j) : Iter R (k + l) i j := by
  induction k generalizing i with
  | zero =>
    obtain rfl : i = m := h₁
    rwa [Nat.zero_add]
  | succ k ih =>
    obtain ⟨n, h_step, h_rest⟩ := h₁
    rw [Nat.succ_add]
    exact ⟨n, h_step, ih h_rest⟩

theorem Iter.split {R : Nat → Nat → Prop} {k l i j : Nat} (h : Iter R (k + l) i j) :
    ∃ m, Iter R k i m ∧ Iter R l m j := by
  induction k generalizing i with
  | zero =>
    rw [Nat.zero_add] at h
    exact ⟨i, rfl, h⟩
  | succ k ih =>
    rw [Nat.succ_add] at h
    obtain ⟨n, h_step, h_rest⟩ := h
    obtain ⟨m, h_k, h_l⟩ := ih h_rest
    exact ⟨m, ⟨n, h_step, h_k⟩, h_l⟩

/-- Steps that stay where they are can be left out, so no more are needed than there is way
    to go. -/
theorem Iter.shorten {R : Nat → Nat → Prop} (h_up : ∀ i j, R i j → i ≤ j) {k i j : Nat}
    (h : Iter R k i j) : ∃ l, l ≤ k ∧ l ≤ j - i ∧ Iter R l i j := by
  induction k generalizing i with
  | zero => exact ⟨0, Nat.le_refl _, Nat.zero_le _, h⟩
  | succ k ih =>
    obtain ⟨m, h_step, h_rest⟩ := h
    obtain ⟨l, h_l, h_way, h_iter⟩ := ih h_rest
    have h_im := h_up i m h_step
    have h_mj : m ≤ j := h_iter.invariant (P := (· ≤ ·)) Nat.le_refl
      (fun _ _ _ => Nat.le_trans) h_up
    by_cases h_stay : i = m
    · subst h_stay
      exact ⟨l, by omega, h_way, h_iter⟩
    · exact ⟨l + 1, by omega, by omega, m, h_step, h_iter⟩

theorem mem_times {f : Nat → List Nat} {k j : Nat} {at_ : List Nat} :
    j ∈ times f k at_ ↔ ∃ i ∈ at_, Iter (fun a b => b ∈ f a) k i j := by
  induction k generalizing at_ with
  | zero => simp [times, Iter]
  | succ k ih =>
    simp only [times, ih, List.mem_dedup, List.mem_flatMap, Iter]
    constructor
    · rintro ⟨m, ⟨i, h_i, h_m⟩, h_rest⟩
      exact ⟨i, h_i, m, h_m, h_rest⟩
    · rintro ⟨i, h_i, m, h_m, h_rest⟩
      exact ⟨m, ⟨i, h_i, h_m⟩, h_rest⟩

theorem mem_upTo {f : Nat → List Nat} {n j : Nat} {at_ : List Nat} :
    j ∈ upTo f n at_ ↔ ∃ i ∈ at_, ∃ k, k ≤ n ∧ Iter (fun a b => b ∈ f a) k i j := by
  induction n generalizing at_ with
  | zero => simp [upTo, Iter]
  | succ n ih =>
    simp only [upTo, List.mem_append, ih, List.mem_dedup, List.mem_flatMap]
    constructor
    · rintro (h_j | ⟨m, ⟨i, h_i, h_m⟩, k, h_k, h_rest⟩)
      · exact ⟨j, h_j, 0, Nat.zero_le _, rfl⟩
      · exact ⟨i, h_i, k + 1, by omega, m, h_m, h_rest⟩
    · rintro ⟨i, h_i, k, h_k, h_iter⟩
      cases k with
      | zero =>
        obtain rfl : i = j := h_iter
        exact Or.inl h_i
      | succ k =>
        obtain ⟨m, h_m, h_rest⟩ := h_iter
        exact Or.inr ⟨m, ⟨i, h_i, h_m⟩, k, by omega, h_rest⟩

/-- A match does not end before it starts, nor behind the subject. -/
theorem Spans.bounds {s : Octets} {e : Ere} {i j : Nat} (h : Spans s e i j) :
    i ≤ j ∧ (i ≤ s.length → j ≤ s.length) := by
  induction e generalizing i j with
  | eps =>
    obtain rfl : i = j := h
    exact ⟨Nat.le_refl _, id⟩
  | set p =>
    obtain ⟨⟨c, h_c, -⟩, rfl⟩ := h
    have h_lt : i < s.length := (List.getElem?_eq_some_iff.mp h_c).1
    exact ⟨by omega, fun _ => by omega⟩
  | bol =>
    obtain ⟨-, rfl⟩ := h
    exact ⟨Nat.le_refl _, id⟩
  | eol =>
    obtain ⟨-, rfl⟩ := h
    exact ⟨Nat.le_refl _, id⟩
  | cat a b ih_a ih_b =>
    obtain ⟨m, h_a, h_b⟩ := h
    obtain ⟨h_im, h_m⟩ := ih_a h_a
    obtain ⟨h_mj, h_j⟩ := ih_b h_b
    exact ⟨Nat.le_trans h_im h_mj, fun h_i => h_j (h_m h_i)⟩
  | alt a b ih_a ih_b =>
    rcases h with h | h
    · exact ih_a h
    · exact ih_b h
  | group a ih => exact ih h
  | rep a lo hi ih =>
    obtain ⟨k, -, -, h_iter⟩ := h
    refine h_iter.invariant (P := fun i j => i ≤ j ∧ (i ≤ s.length → j ≤ s.length)) ?_ ?_ ?_
    · exact fun i => ⟨Nat.le_refl _, id⟩
    · exact fun i m j h₁ h₂ => ⟨Nat.le_trans h₁.1 h₂.1, fun h_i => h₂.2 (h₁.2 h_i)⟩
    · exact fun i j h_step => ih h_step

/-- **The matcher is right** about every match that starts within the subject. -/
theorem mem_reach {s : Octets} {e : Ere} {i j : Nat} (h_i : i ≤ s.length) :
    j ∈ reach s e i ↔ Spans s e i j := by
  induction e generalizing i j with
  | eps =>
    rw [reach, List.mem_singleton]
    exact eq_comm
  | set p =>
    rw [reach, Spans]
    cases h_c : s[i]? with
    | none => simp [h_c]
    | some c =>
      by_cases h_has : p.has c = true
      · simp [h_c, h_has]
      · simp [h_c, h_has]
  | bol =>
    rw [reach, Spans]
    by_cases h : i = 0
    · simp [h, eq_comm]
    · simp [h]
  | eol =>
    rw [reach, Spans]
    by_cases h : i = s.length
    · simp [h, eq_comm]
    · simp [h]
  | cat a b ih_a ih_b =>
    rw [reach, Spans, List.mem_flatMap]
    constructor
    · rintro ⟨m, h_a, h_b⟩
      have h_span := (ih_a h_i).mp h_a
      exact ⟨m, h_span, (ih_b (h_span.bounds.2 h_i)).mp h_b⟩
    · rintro ⟨m, h_a, h_b⟩
      exact ⟨m, (ih_a h_i).mpr h_a, (ih_b (h_a.bounds.2 h_i)).mpr h_b⟩
  | alt a b ih_a ih_b => rw [reach, Spans, List.mem_append, ih_a h_i, ih_b h_i]
  | group a ih => exact ih h_i
  | rep a lo hi ih =>
    -- The steps of the matcher are the matches of `a`, as none leads out of the subject.
    have h_iter : ∀ {k i j : Nat}, i ≤ s.length →
        (Iter (fun x y => y ∈ reach s a x) k i j ↔ Iter (Spans s a) k i j) := by
      intro k i j h
      exact Iter.congr (P := (· ≤ s.length)) (fun x y h_x => ih h_x)
        (fun x y h_x h_y => ((ih h_x).mp h_y).bounds.2 h_x) h
    have h_up : ∀ x y, Spans s a x y → x ≤ y := fun x y h => h.bounds.1
    have h_in : ∀ {k i j : Nat}, Iter (Spans s a) k i j → i ≤ s.length → j ≤ s.length := by
      intro k i j h
      exact h.invariant (P := fun i j => i ≤ s.length → j ≤ s.length) (fun _ => id)
        (fun _ _ _ h₁ h₂ h => h₂ (h₁ h)) (fun x y h => h.bounds.2)
    rw [reach, Spans]
    cases hi with
    | none =>
      simp only [mem_upTo, mem_times, List.mem_singleton, exists_eq_left, Option.mem_def,
        reduceCtorEq, false_implies, implies_true, true_and]
      constructor
      · rintro ⟨m, h_lo, k, -, h_rest⟩
        have h_lo' := (h_iter h_i).mp h_lo
        exact ⟨lo + k, by omega, h_lo'.append ((h_iter (h_in h_lo' h_i)).mp h_rest)⟩
      · rintro ⟨k, h_k, h_all⟩
        obtain ⟨l, rfl⟩ : ∃ l, k = lo + l := ⟨k - lo, by omega⟩
        obtain ⟨m, h_lo, h_rest⟩ := h_all.split
        have h_m := h_in h_lo h_i
        obtain ⟨l', -, h_way, h_short⟩ := h_rest.shorten h_up
        have h_j := h_in h_rest h_m
        exact ⟨m, (h_iter h_i).mpr h_lo, l', by omega, (h_iter h_m).mpr h_short⟩
    | some h =>
      by_cases h_none : h < lo
      · simp only [h_none, if_true, List.not_mem_nil, Option.mem_def, Option.some.injEq,
          forall_eq', false_iff, not_exists, not_and]
        intro k h_k h_le
        omega
      · simp only [h_none, if_false, mem_upTo, mem_times, List.mem_singleton, exists_eq_left,
          Option.mem_def, Option.some.injEq, forall_eq']
        constructor
        · rintro ⟨m, h_lo, k, h_k, h_rest⟩
          have h_lo' := (h_iter h_i).mp h_lo
          exact ⟨lo + k, by omega, by omega,
            h_lo'.append ((h_iter (h_in h_lo' h_i)).mp h_rest)⟩
        · rintro ⟨k, h_k, h_le, h_all⟩
          obtain ⟨l, rfl⟩ : ∃ l, k = lo + l := ⟨k - lo, by omega⟩
          obtain ⟨m, h_lo, h_rest⟩ := h_all.split
          exact ⟨m, (h_iter h_i).mpr h_lo, l, by omega, (h_iter (h_in h_lo h_i)).mpr h_rest⟩

theorem regexec_iff {e : Ere} {s : Octets} :
    regexec e s = true ↔ ∃ i j, i ≤ s.length ∧ Spans s e i j := by
  simp only [regexec, List.any_eq_true, List.mem_range, Nat.lt_succ_iff, Bool.not_eq_true']
  constructor
  · rintro ⟨i, h_i, h_some⟩
    obtain ⟨j, h_j⟩ := List.exists_mem_of_ne_nil _ (List.isEmpty_eq_false_iff.mp h_some)
    exact ⟨i, j, h_i, (mem_reach h_i).mp h_j⟩
  · rintro ⟨i, j, h_i, h_span⟩
    exact ⟨i, h_i, List.isEmpty_eq_false_iff.mpr (List.ne_nil_of_mem ((mem_reach h_i).mpr h_span))⟩

theorem spansAll_iff {e : Ere} {s : Octets} : spansAll e s = true ↔ Spans s e 0 s.length := by
  rw [spansAll, List.contains_iff_mem, mem_reach (Nat.zero_le _)]

/-! ## A pattern inside a longer one -/

/-- The expression, between the two ends of the subject. -/
def anchor (e : Ere) : Ere := .cat .bol (.cat (.group e) (.cat .eol .eps))

namespace Reader

/-- The reader inside of groups that were opened before. -/
def inside (s : Reader) (fs : List Frame) : Reader := { s with outer := s.outer ++ fs }

/-- The octet closes a group that is not open. -/
def strays (s : Reader) (c : UInt8) : Bool := c = 0x29 && s.lex = .normal && s.outer.isEmpty

/-- No `)` of the pattern closes a group that the pattern has not opened. -/
def enclosed : Reader → Octets → Bool
  | _, [] => true
  | s, c :: p =>
    !s.strays c && match s.step c with
      | none => true
      | some s' => s'.enclosed p

theorem step_inside {s : Reader} {c : UInt8} (fs : List Frame) (h : s.strays c = false) :
    (s.inside fs).step c = (s.step c).map (·.inside fs) := by
  have h_dup : ∀ lo hi, (s.inside fs).dup lo hi = (s.dup lo hi).map (·.inside fs) := by
    intro lo hi
    simp only [dup, inside]
    cases s.frame.dup lo hi <;> rfl
  obtain ⟨lex, frame, outer⟩ := s
  unfold step
  cases lex with
  | normal =>
    simp only [inside]
    cases h_tok : tokOf c with
    | dup lo hi => exact h_dup lo hi
    | closeGroup =>
      cases outer with
      | cons f outer => rfl
      | nil =>
        have h_c : c = 0x29 := tokOf_closeGroup h_tok
        simp [strays, h_c] at h
    | _ => rfl
  | escaped => rfl
  | bracket raw sub =>
    simp only [inside, bracketOctet]
    cases sub with
    | some kn =>
      simp only
      split <;> rfl
    | none =>
      simp only
      split
      · cases bracketSet raw <;> rfl
      · split <;> rfl
  | brace raw =>
    simp only [inside]
    split
    · cases intervalOf raw with
      | none => rfl
      | some p => exact h_dup p.1 p.2
    · split <;> rfl

theorem run_inside {s : Reader} {p : Octets} (fs : List Frame) (h : s.enclosed p = true) :
    (s.inside fs).run p = (s.run p).map (·.inside fs) := by
  induction p generalizing s with
  | nil => rfl
  | cons c p ih =>
    simp only [enclosed, Bool.and_eq_true, Bool.not_eq_true'] at h
    simp only [run, List.foldlM_cons, step_inside fs h.1]
    cases h_step : s.step c with
    | none => rfl
    | some s' =>
      rw [h_step] at h
      exact ih h.2

/-- A bracket expression goes on until a closing bracket. -/
theorem bracketOctet_open {s : Reader} {raw : Octets} {sub : Option (UInt8 × Nat)} {c : UInt8}
    (h_c : c ≠ 0x5d) :
    ∃ raw' sub', s.bracketOctet raw sub c = some { s with lex := .bracket raw' sub' } := by
  unfold bracketOctet
  cases sub with
  | some kn =>
    simp only [h_c, false_and, if_false]
    exact ⟨_, _, rfl⟩
  | none =>
    simp only [h_c, false_and, if_false]
    split
    · exact ⟨_, _, rfl⟩
    · exact ⟨_, _, rfl⟩

/-- The frame that `^(` opens on top of. -/
def anchorFrame : Frame := ⟨[], [.bol]⟩

theorem finish_cons_outer {s : Reader} (h : s.outer ≠ []) : s.finish = none := by
  unfold finish
  rw [if_neg]
  exact fun h_end => h h_end.2

/-- `)$` behind a pattern ends it in an anchored group, exactly if it may end there. -/
theorem finish_anchored (s : Reader) :
    ((s.inside [anchorFrame]).run [0x29, 0x24]).bind finish = s.finish.map anchor := by
  have h_open : ∀ t : Reader, t.lex ≠ .normal → t.finish = none := by
    intro t h_lex
    unfold finish
    rw [if_neg]
    exact fun h_end => h_lex h_end.1
  obtain ⟨lex, frame, outer⟩ := s
  cases lex with
  | normal =>
    cases outer with
    | nil => rfl
    | cons f outer =>
      -- The `)` closes a group of the pattern, so the one before it stays open.
      rw [finish_cons_outer (s := ⟨.normal, frame, f :: outer⟩) (by simp)]
      show finish ⟨.normal, (f.piece (.group frame.ere)).piece .eol, outer ++ [anchorFrame]⟩ = none
      exact finish_cons_outer (by simp)
  | escaped =>
    rw [h_open ⟨.escaped, frame, outer⟩ (by simp)]
    show finish ⟨.normal, (frame.piece (.set (.one 0x29))).piece .eol,
      outer ++ [anchorFrame]⟩ = none
    exact finish_cons_outer (by simp)
  | bracket raw sub =>
    rw [h_open ⟨.bracket raw sub, frame, outer⟩ (by simp)]
    obtain ⟨raw₁, sub₁, h₁⟩ := @bracketOctet_open ⟨.bracket raw sub, frame,
      outer ++ [anchorFrame]⟩ raw sub 0x29 (by decide)
    obtain ⟨raw₂, sub₂, h₂⟩ := @bracketOctet_open ⟨.bracket raw₁ sub₁, frame,
      outer ++ [anchorFrame]⟩ raw₁ sub₁ 0x24 (by decide)
    have h_run : ((⟨.bracket raw sub, frame, outer⟩ : Reader).inside [anchorFrame]).run [0x29, 0x24] =
        some ⟨.bracket raw₂ sub₂, frame, outer ++ [anchorFrame]⟩ := by
      simp only [run, inside, List.foldlM_cons, List.foldlM_nil, step, h₁, Option.bind_eq_bind,
        Option.bind_some, h₂, Option.pure_def]
    rw [h_run]
    exact finish_cons_outer (by simp)
  | brace raw =>
    rw [h_open ⟨.brace raw, frame, outer⟩ (by simp)]
    rfl

end Reader

/-- A pattern none of whose `)` closes a group that it has not opened. -/
def Enclosed (p : Octets) : Prop := Reader.start.enclosed p = true

instance : DecidablePred Enclosed := fun _ => inferInstanceAs (Decidable (_ = true))

/-- **Such a pattern is anchored by what stands around it.** -/
theorem regcomp_anchored {p : Octets} (h : Enclosed p) :
    regcomp (0x5e :: 0x28 :: p ++ [0x29, 0x24]) = (regcomp p).map anchor := by
  have h_run : Reader.start.run (0x5e :: 0x28 :: p ++ [0x29, 0x24]) =
      ((Reader.start.inside [Reader.anchorFrame]).run p).bind fun s => s.run [0x29, 0x24] := by
    show (Reader.start.inside [Reader.anchorFrame]).run (p ++ [0x29, 0x24]) = _
    rw [Reader.run, List.foldlM_append]
    rfl
  rw [regcomp, h_run, Reader.run_inside _ h, regcomp]
  cases Reader.start.run p with
  | none => rfl
  | some s => exact Reader.finish_anchored s

/-- An anchored expression matches only the subject as a whole. -/
theorem regexec_anchor {e : Ere} {s : Octets} : regexec (anchor e) s = spansAll e s := by
  rw [Bool.eq_iff_iff, regexec_iff, spansAll_iff]
  constructor
  · rintro ⟨i, j, -, _, ⟨rfl, rfl⟩, m, h_e, _, ⟨rfl, rfl⟩, rfl⟩
    exact h_e
  · intro h
    exact ⟨0, s.length, Nat.zero_le _, 0, ⟨rfl, rfl⟩, s.length, h, s.length, ⟨rfl, rfl⟩, rfl⟩

end IonContrib.Posix
