/-
  IonContrib.Lib.Stages

  Items that go out through two stages, in the order in which they came in.

  A stage can be shut: nothing comes out of it any more, and what is in it is
  lost, as is what is behind it.  `Relayed` says where all items are: they are
  out, in the second stage and in the first, or those that are missing are
  behind a stage that is shut.  In any case what is out is the front of what
  came in (`Relayed.out_prefix`).
-/
import Mathlib.Data.List.Basic

namespace IonContrib

variable {α : Type*}

inductive Relayed (shut₁ shut₂ : Prop) (out second first all : List α) : Prop where
  | whole (h : out ++ second ++ first = all)
  | behind (h_shut : shut₁) (h : out ++ second <+: all)
  | lost (h_shut : shut₂) (h : out <+: all)

namespace Relayed

variable {shut₁ shut₂ shut₁' shut₂' : Prop} {out second first all : List α}

theorem out_prefix (h : Relayed shut₁ shut₂ out second first all) : out <+: all := by
  cases h with
  | whole h => exact ⟨second ++ first, by rw [← List.append_assoc, h]⟩
  | behind _ h => exact (List.prefix_append _ _).trans h
  | lost _ h => exact h

/-- While neither stage is shut nothing is missing. -/
theorem out_all (h : Relayed shut₁ shut₂ out second first all) (h₁ : ¬ shut₁) (h₂ : ¬ shut₂) :
    out ++ second ++ first = all := by
  cases h with
  | whole h => exact h
  | behind h_shut _ => exact absurd h_shut h₁
  | lost h_shut _ => exact absurd h_shut h₂

theorem mono (h : Relayed shut₁ shut₂ out second first all) (h₁ : shut₁ → shut₁')
    (h₂ : shut₂ → shut₂') : Relayed shut₁' shut₂' out second first all := by
  cases h with
  | whole h => exact whole h
  | behind h_shut h => exact behind (h₁ h_shut) h
  | lost h_shut h => exact lost (h₂ h_shut) h

/-- More items come in. -/
theorem enter (h : Relayed shut₁ shut₂ out second first all) (items : List α) :
    Relayed shut₁ shut₂ out second (first ++ items) (all ++ items) := by
  cases h with
  | whole h => exact whole (by rw [← h]; simp)
  | behind h_shut h => exact behind h_shut (h.trans (List.prefix_append _ _))
  | lost h_shut h => exact lost h_shut (h.trans (List.prefix_append _ _))

/-- The first stage, which is open, passes on what it has to the second, which is empty. -/
theorem pass (h : Relayed shut₁ shut₂ out [] first all) (h_open : ¬ shut₁) :
    Relayed shut₁ shut₂ out first [] all := by
  cases h with
  | whole h => exact whole (by rw [← h]; simp)
  | behind h_shut _ => exact absurd h_shut h_open
  | lost h_shut h => exact lost h_shut h

/-- The second stage, which is open, lets out what it has. -/
theorem leave (h : Relayed shut₁ shut₂ out second first all) (h_open : ¬ shut₂) :
    Relayed shut₁ shut₂ (out ++ second) [] first all := by
  cases h with
  | whole h => exact whole (by rw [← h]; simp)
  | behind h_shut h => exact behind h_shut (by rwa [List.append_nil])
  | lost h_shut _ => exact absurd h_shut h_open

/-- What is in the first stage is lost when it is shut. -/
theorem shutFirst (h : Relayed shut₁ shut₂ out second first all) (h_shut : shut₁) :
    Relayed shut₁ shut₂ out second [] all := by
  cases h with
  | whole h => exact behind h_shut ⟨first, h⟩
  | behind h_shut h => exact behind h_shut h
  | lost h_shut h => exact lost h_shut h

/-- ... and all that is not out, when the second is. -/
theorem shutSecond (h : Relayed shut₁ shut₂ out second first all) (h_shut : shut₂)
    (second' first' : List α) : Relayed shut₁ shut₂ out second' first' all :=
  lost h_shut h.out_prefix

end Relayed

end IonContrib
