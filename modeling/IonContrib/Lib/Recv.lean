/-
  IonContrib.Lib.Recv

  Taking fixed-size pieces off an octet stream of which only a front part has
  arrived.  A reader answers `wait` (not enough yet), `fail` (what is there is
  not acceptable) or `got a rest`.

  `Stable` says that more octets arriving changes neither a `got` nor a `fail`.
  It is closed under `bind`, and with it a reader that takes exactly one
  message off a stream cannot do so before the whole message is there
  (`Stable.wait_of_short`).
-/
import IonContrib.Lib.Octets

namespace IonContrib

inductive Recv (α : Type) where
  | wait
  | fail
  | got (a : α) (rest : Octets)
  deriving DecidableEq, Repr

namespace Recv

variable {α β : Type}

/-- Take `len` octets. -/
def take (len : Nat) (s : Octets) : Recv Octets :=
  if s.length < len then .wait else .got (s.take len) (s.drop len)

def bind (r : Recv α) (f : α → Octets → Recv β) : Recv β :=
  match r with
  | .wait => .wait
  | .fail => .fail
  | .got a rest => f a rest

@[simp] theorem bind_got (a : α) (rest : Octets) (f : α → Octets → Recv β) :
    (Recv.got a rest).bind f = f a rest := rfl

theorem bind_eq_got {r : Recv α} {f : α → Octets → Recv β} {b : β} {rest : Octets} :
    r.bind f = .got b rest ↔ ∃ a mid, r = .got a mid ∧ f a mid = .got b rest := by
  cases r with
  | wait => simp [bind]
  | fail => simp [bind]
  | got a mid => simp

@[simp] theorem take_append {bs : Octets} {len : Nat} (t : Octets) (h : bs.length = len) :
    take len (bs ++ t) = .got bs t := by
  subst h
  simp [take]

/-- Octets that arrive later do not change an answer that is not `wait`. -/
structure Stable (f : Octets → Recv α) : Prop where
  got : ∀ {s a rest}, f s = .got a rest → ∀ u, f (s ++ u) = .got a (rest ++ u)
  fail : ∀ {s}, f s = .fail → ∀ u, f (s ++ u) = .fail

theorem stable_take (len : Nat) : Stable (take len) where
  got := by
    intro s a rest h u
    by_cases h_len : s.length < len
    · simp [take, h_len] at h
    · simp only [take, h_len, if_false, Recv.got.injEq] at h
      obtain ⟨rfl, rfl⟩ := h
      have h_le : len ≤ s.length := Nat.not_lt.mp h_len
      simp [take, List.take_append_of_le_length h_le, List.drop_append_of_le_length h_le]
      omega
  fail := by
    intro s h u
    by_cases h_len : s.length < len <;> simp [take, h_len] at h

theorem Stable.bind {f : Octets → Recv α} {g : α → Octets → Recv β}
    (hf : Stable f) (hg : ∀ a, Stable (g a)) : Stable fun s => (f s).bind g where
  got := by
    intro s b rest h u
    cases h_f : f s with
    | wait => simp [h_f, Recv.bind] at h
    | fail => simp [h_f, Recv.bind] at h
    | got a mid =>
      rw [h_f, bind_got] at h
      rw [hf.got h_f, bind_got, (hg a).got h]
  fail := by
    intro s h u
    cases h_f : f s with
    | wait => simp [h_f, Recv.bind] at h
    | fail => rw [hf.fail h_f]; rfl
    | got a mid =>
      rw [h_f, bind_got] at h
      rw [hf.got h_f, bind_got, (hg a).fail h]

theorem stable_fail : Stable fun _ : Octets => (Recv.fail : Recv α) where
  got := by simp
  fail := by simp

theorem stable_got (a : α) : Stable fun s => Recv.got a s where
  got := by simp
  fail := by simp

/-- A reader that takes exactly `body` waits while only a front part of it is there. -/
theorem Stable.wait_of_short {f : Octets → Recv α} (hf : Stable f) {body p q : Octets} {a : α}
    (h_body : f body = .got a []) (h_split : body = p ++ q) (h_q : q ≠ []) : f p = .wait := by
  cases h_p : f p with
  | wait => rfl
  | fail => simp [h_split, hf.fail h_p] at h_body
  | got b rest =>
    have h_ext : f body = .got b (rest ++ q) := by rw [h_split, hf.got h_p]
    simp_all

end Recv

end IonContrib
