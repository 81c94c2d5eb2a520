/-
  IonContrib.Lib.FrontParser

  Parsers that take one piece after the other off the front of what they have.

  Such a parser looks at the front: not all of a piece may be there yet, the
  piece may be one it does not take, or it takes some symbols and goes on behind
  them.  More input never changes what it has made of a front, so it goes on from
  what it has left as if it had had all of the input at once (`parse_append`).

  `whileOk` is the loop of a program that hands over chunks and stops at the first
  failure.  A program that keeps step with a parser chunk by chunk comes to what
  the parser makes of all the input (`whileOk_parse`), in whichever chunks that is
  handed over (`whileOk_chunks`).
-/
import Mathlib.Data.List.Basic

namespace IonContrib

/-- What a look at the front comes to. -/
inductive Look (σ : Type*) where
  | more
  | bad (s : σ)
  | next (s : σ) (n : Nat)

def Look.map {σ τ : Type*} (f : σ → τ) : Look σ → Look τ
  | .more => .more
  | .bad s => .bad (f s)
  | .next s n => .next (f s) n

/-- What more input does not change is fixed from the first time it is not `more`. -/
structure FrontParser (σ α : Type*) where
  look : σ → List α → Look σ
  takes : ∀ {s s' l n}, look s l = .next s' n → 0 < n ∧ n ≤ l.length
  next_append : ∀ {s s' l n}, look s l = .next s' n → ∀ x, look s (l ++ x) = .next s' n
  bad_append : ∀ {s s' l}, look s l = .bad s' → ∀ x, look s (l ++ x) = .bad s'

/-- The state a parser comes to, and the unfinished rest unless it failed. -/
structure Parsed (σ α : Type*) where
  state : σ
  rest : Option (List α)

/-- Goes on with the rest, if the parser did not fail. -/
def Parsed.andThen {σ α : Type*} (out : Parsed σ α) (f : σ → List α → Parsed σ α) :
    Parsed σ α :=
  match out.rest with
  | none => out
  | some rest => f out.state rest

namespace FrontParser

variable {σ α : Type*} (P : FrontParser σ α)

/-- At most `fuel` looks. -/
def parseFrom : Nat → σ → List α → Parsed σ α
  | 0, s, l => ⟨s, some l⟩
  | fuel + 1, s, l =>
    match P.look s l with
    | .more => ⟨s, some l⟩
    | .bad s => ⟨s, none⟩
    | .next s n => parseFrom fuel s (l.drop n)

/-- Every piece takes a symbol, so there are looks enough. -/
def parse (s : σ) (l : List α) : Parsed σ α := P.parseFrom (l.length + 1) s l

variable {P}

theorem parseFrom_more {s : σ} {l : List α} (h : P.look s l = .more) (fuel : Nat) :
    P.parseFrom fuel s l = ⟨s, some l⟩ := by
  cases fuel with
  | zero => rfl
  | succ fuel => rw [parseFrom, h]

theorem parseFrom_bad {s s' : σ} {l : List α} (h : P.look s l = .bad s') (fuel : Nat) :
    P.parseFrom (fuel + 1) s l = ⟨s', none⟩ := by
  rw [parseFrom, h]

theorem parseFrom_next {s s' : σ} {l : List α} {n : Nat} (h : P.look s l = .next s' n)
    (fuel : Nat) : P.parseFrom (fuel + 1) s l = P.parseFrom fuel s' (l.drop n) := by
  rw [parseFrom, h]

theorem length_drop_lt {s s' : σ} {l : List α} {n : Nat} (h : P.look s l = .next s' n) :
    (l.drop n).length < l.length := by
  have h_takes := P.takes h
  rw [List.length_drop]
  omega

/-- Induction along the pieces at the front. -/
theorem induct {motive : σ → List α → Prop}
    (more : ∀ s l, P.look s l = .more → motive s l)
    (bad : ∀ s l s', P.look s l = .bad s' → motive s l)
    (next : ∀ s l s' n, P.look s l = .next s' n → motive s' (l.drop n) → motive s l)
    (s : σ) (l : List α) : motive s l := by
  induction h_len : l.length using Nat.strongRecOn generalizing s l with
  | ind len ih =>
    subst h_len
    cases h_look : P.look s l with
    | more => exact more s l h_look
    | bad s' => exact bad s l s' h_look
    | next s' n =>
      apply next s l s' n h_look
      exact ih (l.drop n).length (length_drop_lt h_look) s' (l.drop n) rfl

/-- Looks beyond those needed change nothing. -/
theorem parseFrom_eq_parse {s : σ} {l : List α} {fuel : Nat} (h_fuel : l.length < fuel) :
    P.parseFrom fuel s l = P.parse s l := by
  induction s, l using induct (P := P) generalizing fuel with
  | more s l h_look => exact (parseFrom_more h_look fuel).trans (parseFrom_more h_look _).symm
  | bad s l s' h_look =>
    obtain ⟨fuel, rfl⟩ : ∃ k, fuel = k + 1 := ⟨fuel - 1, by omega⟩
    exact (parseFrom_bad h_look fuel).trans (parseFrom_bad h_look _).symm
  | next s l s' n h_look ih =>
    have h_lt := length_drop_lt h_look
    obtain ⟨fuel, rfl⟩ : ∃ k, fuel = k + 1 := ⟨fuel - 1, by omega⟩
    unfold parse
    rw [parseFrom_next h_look, parseFrom_next h_look, ih (by omega), ih h_lt]

theorem parse_more {s : σ} {l : List α} (h : P.look s l = .more) : P.parse s l = ⟨s, some l⟩ :=
  parseFrom_more h _

theorem parse_bad {s s' : σ} {l : List α} (h : P.look s l = .bad s') :
    P.parse s l = ⟨s', none⟩ := parseFrom_bad h _

theorem parse_next {s s' : σ} {l : List α} {n : Nat} (h : P.look s l = .next s' n) :
    P.parse s l = P.parse s' (l.drop n) :=
  (parseFrom_next h _).trans (parseFrom_eq_parse (length_drop_lt h))

/-- What a parser leaves is the front of a piece. -/
theorem look_rest {s : σ} {l rest : List α} (h : (P.parse s l).rest = some rest) :
    P.look (P.parse s l).state rest = .more := by
  induction s, l using induct (P := P) with
  | more s l h_look =>
    rw [parse_more h_look] at h ⊢
    obtain rfl := Option.some.inj h
    exact h_look
  | bad s l s' h_look =>
    rw [parse_bad h_look] at h
    cases h
  | next s l s' n h_look ih =>
    rw [parse_next h_look] at h ⊢
    exact ih h

/-- Parsers that look alike read alike. -/
theorem parse_map {τ : Type*} {Q : FrontParser τ α} {f : σ → τ}
    (h : ∀ s l, Q.look (f s) l = (P.look s l).map f) (s : σ) (l : List α) :
    Q.parse (f s) l = ⟨f (P.parse s l).state, (P.parse s l).rest⟩ := by
  induction s, l using induct (P := P) with
  | more s l h_look =>
    have h_map : Q.look (f s) l = .more := by rw [h, h_look, Look.map]
    rw [parse_more h_look, parse_more h_map]
  | bad s l s' h_look =>
    have h_map : Q.look (f s) l = .bad (f s') := by rw [h, h_look, Look.map]
    rw [parse_bad h_look, parse_bad h_map]
  | next s l s' n h_look ih =>
    have h_map : Q.look (f s) l = .next (f s') n := by rw [h, h_look, Look.map]
    rw [parse_next h_look, parse_next h_map, ih]

/-! ## Chunks -/

theorem parse_append (s : σ) (l x : List α) :
    P.parse s (l ++ x) = (P.parse s l).andThen fun s rest => P.parse s (rest ++ x) := by
  induction s, l using induct (P := P) with
  | more s l h_look =>
    rw [parse_more h_look]
    rfl
  | bad s l s' h_look =>
    rw [parse_bad h_look, parse_bad (P.bad_append h_look x)]
    rfl
  | next s l s' n h_look ih =>
    have h_le := (P.takes h_look).2
    rw [parse_next h_look, parse_next (P.next_append h_look x), List.drop_append_of_le_length h_le,
      ih]

end FrontParser

/-! ## A program that takes chunks -/

section WhileOk

variable {ω σ α : Type*}

/-- Hands over the chunks until one fails. -/
def whileOk (recv : ω → List α → ω × Bool) : ω → List (List α) → ω × Bool
  | w, [] => (w, true)
  | w, x :: chunks => if (recv w x).2 then whileOk recv (recv w x).1 chunks else recv w x

/-- The program keeps step with the parser: it does with a chunk what the parser does with what is
    left and the chunk. -/
def KeepsStep (recv : ω → List α → ω × Bool) (P : FrontParser σ α) (view : ω → σ)
    (left : ω → List α) : Prop :=
  ∀ w x, P.look (view w) (left w) = .more →
    P.parse (view w) (left w ++ x) =
      ⟨view (recv w x).1, if (recv w x).2 then some (left (recv w x).1) else none⟩

variable {recv : ω → List α → ω × Bool} {P : FrontParser σ α} {view : ω → σ} {left : ω → List α}

/-- Chunk by chunk the program comes to what the parser makes of all the input. -/
theorem whileOk_parse (h_step : KeepsStep recv P view left) {w : ω}
    (h_wait : P.look (view w) (left w) = .more) (chunks : List (List α)) :
    P.parse (view w) (left w ++ chunks.flatten) =
      ⟨view (whileOk recv w chunks).1,
        if (whileOk recv w chunks).2 then some (left (whileOk recv w chunks).1) else none⟩ := by
  induction chunks generalizing w with
  | nil =>
    rw [List.flatten_nil, List.append_nil, FrontParser.parse_more h_wait]
    rfl
  | cons x chunks ih =>
    have h_chunk := h_step w x h_wait
    rw [List.flatten_cons, ← List.append_assoc, FrontParser.parse_append, whileOk]
    cases h_ok : (recv w x).2 with
    | true =>
      rw [h_ok, if_pos rfl] at h_chunk
      have h_rest := congrArg Parsed.rest h_chunk
      have h_next := FrontParser.look_rest h_rest
      rw [h_chunk] at h_next
      rw [h_chunk, if_pos rfl]
      exact ih h_next
    | false =>
      rw [h_ok, if_neg Bool.false_ne_true] at h_chunk
      rw [h_chunk, if_neg Bool.false_ne_true, h_ok]
      rfl

/-- So it does not matter how the input is cut. -/
theorem whileOk_chunks (h_step : KeepsStep recv P view left) {w : ω}
    (h_wait : P.look (view w) (left w) = .more) {chunks chunks' : List (List α)}
    (h_same : chunks.flatten = chunks'.flatten) :
    (whileOk recv w chunks).2 = (whileOk recv w chunks').2 ∧
      view (whileOk recv w chunks).1 = view (whileOk recv w chunks').1 ∧
      ((whileOk recv w chunks).2 = true →
        left (whileOk recv w chunks).1 = left (whileOk recv w chunks').1) := by
  have h_parse := whileOk_parse h_step h_wait chunks
  rw [h_same, whileOk_parse h_step h_wait chunks'] at h_parse
  obtain ⟨h_view, h_rest⟩ := Parsed.mk.inj h_parse
  have h_isSome : ∀ (b : Bool) (l : List α), (if b then some l else none).isSome = b := by
    intro b l
    cases b with
    | true => rfl
    | false => rfl
  have h_ok := congrArg Option.isSome h_rest
  rw [h_isSome, h_isSome] at h_ok
  refine ⟨h_ok.symm, h_view.symm, fun h_true => ?_⟩
  rw [h_ok, h_true, if_pos rfl, if_pos rfl] at h_rest
  exact (Option.some.inj h_rest).symm

end WhileOk

end IonContrib
