/-
  IonContrib.Lib.Lts

  Runs of a deterministic labelled step function.  All nondeterminism of a
  system (the scheduler, the network, outcomes of calls into other code) is
  in the labels, so a run is a list of labels and `run` is a plain fold.

  * `run_append`, `run_snoc` cut and extend runs;
  * `run_invariant` is the usual induction over a run;
  * `run_invariant_history` is the same where the labels so far matter;
  * `Meets` / `run_invariant_of_meets` is the same for runs each of whose
    steps meets a condition on the state it is taken in (`meets_iff`), with
    or without the labels so far;
  * `run_simulation` carries a relation to a second system along.
-/
import Mathlib.Data.List.Induction

namespace IonContrib.Lts

variable {σ α : Type*}

/-- The state after the labels `as`, or `none` when one of them is not enabled
    in the state it meets. -/
def run (step : σ → α → Option σ) : σ → List α → Option σ
  | s, [] => some s
  | s, a :: as =>
    match step s a with
    | none => none
    | some s' => run step s' as

/-- States some run reaches. -/
def Reachable (step : σ → α → Option σ) (s₀ s : σ) : Prop :=
  ∃ as, run step s₀ as = some s

variable {step : σ → α → Option σ}

@[simp] theorem run_nil (s : σ) : run step s [] = some s := rfl

theorem run_cons (s : σ) (a : α) (as : List α) :
    run step s (a :: as) = (step s a).bind fun s' => run step s' as := by
  change (match step s a with | none => none | some s' => run step s' as) = _
  cases step s a <;> rfl

theorem run_cons_eq_some {s t : σ} {a : α} {as : List α} :
    run step s (a :: as) = some t ↔ ∃ s', step s a = some s' ∧ run step s' as = some t := by
  rw [run_cons, Option.bind_eq_some_iff]

/-- A run of `as ++ bs` stops over in the state `as` leads to. -/
theorem run_append {s t : σ} {as bs : List α} :
    run step s (as ++ bs) = some t ↔
      ∃ m, run step s as = some m ∧ run step m bs = some t := by
  induction as generalizing s with
  | nil => simp
  | cons a as ih =>
    simp only [List.cons_append, run_cons_eq_some, ih]
    constructor
    · rintro ⟨s', h_step, m, h_as, h_bs⟩
      exact ⟨m, ⟨s', h_step, h_as⟩, h_bs⟩
    · rintro ⟨m, ⟨s', h_step, h_as⟩, h_bs⟩
      exact ⟨s', h_step, m, h_as, h_bs⟩

theorem run_snoc {s t : σ} {a : α} {as : List α} :
    run step s (as ++ [a]) = some t ↔
      ∃ m, run step s as = some m ∧ step m a = some t := by
  rw [run_append]
  constructor
  · rintro ⟨m, h_as, h_a⟩
    obtain ⟨t', h_step, h_nil⟩ := run_cons_eq_some.mp h_a
    obtain rfl : t' = t := by simpa using h_nil
    exact ⟨m, h_as, h_step⟩
  · rintro ⟨m, h_as, h_step⟩
    exact ⟨m, h_as, run_cons_eq_some.mpr ⟨t, h_step, rfl⟩⟩

/-! ## Invariants -/

/-- What holds at the start and is kept by every step holds after every run. -/
theorem run_invariant {Inv : σ → Prop}
    (h_step : ∀ s a s', Inv s → step s a = some s' → Inv s')
    {s t : σ} {as : List α} (h_init : Inv s) (h_run : run step s as = some t) : Inv t := by
  induction as generalizing s with
  | nil =>
    obtain rfl : s = t := by simpa using h_run
    exact h_init
  | cons a as ih =>
    obtain ⟨s', h_a, h_as⟩ := run_cons_eq_some.mp h_run
    exact ih (h_step s a s' h_init h_a) h_as

/-- The same for an invariant that also speaks of the labels so far. -/
theorem run_invariant_history {Inv : List α → σ → Prop}
    (h_step : ∀ as s a s', Inv as s → step s a = some s' → Inv (as ++ [a]) s')
    {s t : σ} {as : List α} (h_init : Inv [] s) (h_run : run step s as = some t) : Inv as t := by
  have h_from : ∀ (bs pre : List α) (s : σ), Inv pre s → run step s bs = some t →
      Inv (pre ++ bs) t := by
    intro bs
    induction bs with
    | nil =>
      intro pre s h_inv h_bs
      obtain rfl : s = t := by simpa using h_bs
      rw [List.append_nil]
      exact h_inv
    | cons b bs ih =>
      intro pre s h_inv h_bs
      obtain ⟨s', h_b, h_bs⟩ := run_cons_eq_some.mp h_bs
      have h := ih (pre ++ [b]) s' (h_step pre s b s' h_inv h_b) h_bs
      rwa [List.append_assoc] at h
  exact h_from as [] s h_init h_run

/-- Every step of the run meets `P` in the state it is taken in. -/
def Meets (step : σ → α → Option σ) (P : σ → α → Prop) : σ → List α → Prop
  | _, [] => True
  | s, a :: as => P s a ∧ ∀ s', step s a = some s' → Meets step P s' as

instance Meets.decidable {P : σ → α → Prop} [∀ s a, Decidable (P s a)] :
    ∀ (s : σ) (as : List α), Decidable (Meets step P s as)
  | _, [] => .isTrue trivial
  | s, a :: as =>
    match h_step : step s a with
    | none => decidable_of_iff (P s a) ⟨fun h => ⟨h, by simp [h_step]⟩, And.left⟩
    | some s' =>
      have := Meets.decidable (P := P) s' as
      decidable_of_iff (P s a ∧ Meets step P s' as)
        ⟨fun h => ⟨h.1, fun t h_t => by rw [h_step] at h_t; cases h_t; exact h.2⟩,
          fun h => ⟨h.1, h.2 s' h_step⟩⟩

/-- The invariant rule for runs whose steps all meet a condition. -/
theorem run_invariant_of_meets {Inv : σ → Prop} {P : σ → α → Prop}
    (h_step : ∀ s a s', Inv s → P s a → step s a = some s' → Inv s')
    {s t : σ} {as : List α} (h_init : Inv s) (h_meets : Meets step P s as)
    (h_run : run step s as = some t) : Inv t := by
  induction as generalizing s with
  | nil =>
    obtain rfl : s = t := by simpa using h_run
    exact h_init
  | cons a as ih =>
    obtain ⟨s', h_a, h_as⟩ := run_cons_eq_some.mp h_run
    exact ih (h_step s a s' h_init h_meets.1 h_a) (h_meets.2 s' h_a) h_as

theorem Meets.cons {P : σ → α → Prop} {s s' : σ} {a : α} {as : List α} (h : P s a)
    (h_step : step s a = some s') (h_as : Meets step P s' as) : Meets step P s (a :: as) := by
  refine ⟨h, fun t h_t => ?_⟩
  obtain rfl : s' = t := Option.some.inj (h_step.symm.trans h_t)
  exact h_as

/-- A run whose steps all meet the condition does so up to every point of it. -/
theorem Meets.of_append {P : σ → α → Prop} {s : σ} {as bs : List α}
    (h : Meets step P s (as ++ bs)) : Meets step P s as := by
  induction as generalizing s with
  | nil => trivial
  | cons a as ih => exact ⟨h.1, fun s' h_a => ih (h.2 s' h_a)⟩

theorem Meets.append {P : σ → α → Prop} {s : σ} {as bs : List α} (h : Meets step P s as)
    (h_bs : ∀ m, run step s as = some m → Meets step P m bs) : Meets step P s (as ++ bs) := by
  induction as generalizing s with
  | nil => exact h_bs s rfl
  | cons a as ih =>
    refine ⟨h.1, fun s' h_a => ih (h.2 s' h_a) fun m h_run => h_bs m ?_⟩
    exact run_cons_eq_some.mpr ⟨s', h_a, h_run⟩

/-- The condition also holds of the step that is taken after `as`. -/
theorem Meets.at_step {P : σ → α → Prop} {s m : σ} {a : α} {as bs : List α}
    (h : Meets step P s (as ++ a :: bs)) (h_run : run step s as = some m) : P m a := by
  induction as generalizing s with
  | nil =>
    obtain rfl : s = m := by simpa using h_run
    exact h.1
  | cons b as ih =>
    obtain ⟨s', h_b, h_as⟩ := run_cons_eq_some.mp h_run
    exact ih (h.2 s' h_b) h_as

theorem meets_iff {P : σ → α → Prop} {s : σ} {as : List α} : Meets step P s as ↔
    ∀ pre a rest m, as = pre ++ a :: rest → run step s pre = some m → P m a := by
  constructor
  · rintro h pre a rest m rfl h_run
    exact h.at_step h_run
  · intro h
    induction as generalizing s with
    | nil => trivial
    | cons a as ih =>
      refine ⟨h [] a as s rfl rfl, fun s' h_a => ih fun pre b rest m h_eq h_run => ?_⟩
      exact h (a :: pre) b rest m (by rw [h_eq, List.cons_append])
        (run_cons_eq_some.mpr ⟨s', h_a, h_run⟩)

/-- The invariant rule for such runs, with an invariant that speaks of the labels so far. -/
theorem run_invariant_history_of_meets {Inv : List α → σ → Prop} {P : σ → α → Prop}
    (h_step : ∀ as s a s', Inv as s → P s a → step s a = some s' → Inv (as ++ [a]) s')
    {s t : σ} {as : List α} (h_init : Inv [] s) (h_meets : Meets step P s as)
    (h_run : run step s as = some t) : Inv as t := by
  induction as using List.reverseRecOn generalizing t with
  | nil =>
    obtain rfl : s = t := by simpa using h_run
    exact h_init
  | append_singleton as a ih =>
    obtain ⟨m, h_as, h_a⟩ := run_snoc.mp h_run
    exact h_step as m a t (ih h_meets.of_append h_as) (h_meets.at_step h_as) h_a

/-- Steps that meet `P` keep `Inv`, and where both hold so does `Q`: then every step of a
    run that meets `P` all along meets `Q`. -/
theorem Meets.of_invariant {Inv : σ → Prop} {P Q : σ → α → Prop}
    (h_step : ∀ s a s', Inv s → P s a → step s a = some s' → Inv s')
    (h_meets : ∀ s a, Inv s → P s a → Q s a)
    {s : σ} {as : List α} (h_init : Inv s) (h : Meets step P s as) : Meets step Q s as := by
  induction as generalizing s with
  | nil => trivial
  | cons a as ih =>
    refine ⟨h_meets s a h_init h.1, fun s' h_a => ?_⟩
    exact ih (h_step s a s' h_init h.1 h_a) (h.2 s' h_a)

/-! ## Simulation -/

/-- `R` relates each step of the concrete system to a run of the abstract one,
    so every concrete run is matched by an abstract run. -/
theorem run_simulation {τ β : Type*} {astep : τ → β → Option τ} {R : σ → τ → Prop}
    (h_step : ∀ s a s' t, R s t → step s a = some s' →
      ∃ bs t', run astep t bs = some t' ∧ R s' t')
    {s s' : σ} {t : τ} {as : List α} (h_rel : R s t) (h_run : run step s as = some s') :
    ∃ bs t', run astep t bs = some t' ∧ R s' t' := by
  induction as generalizing s t with
  | nil =>
    obtain rfl : s = s' := by simpa using h_run
    exact ⟨[], t, rfl, h_rel⟩
  | cons a as ih =>
    obtain ⟨m, h_a, h_as⟩ := run_cons_eq_some.mp h_run
    obtain ⟨bs₁, t₁, h_bs₁, h_rel₁⟩ := h_step s a m t h_rel h_a
    obtain ⟨bs₂, t₂, h_bs₂, h_rel₂⟩ := ih h_rel₁ h_as
    exact ⟨bs₁ ++ bs₂, t₂, run_append.mpr ⟨t₁, h_bs₁, h_bs₂⟩, h_rel₂⟩

end IonContrib.Lts
