/-
  IonContrib.Cursor

  The big-endian `Writer` and `Reader` both message codecs of the repository
  carry a copy of (`tcpv4msg.c`, `quicmsg.c`), and what a decoder answers.

  Integers wider than an octet are `Nat` here; a writer keeps the low-order
  octets of what it is given, as the casts of the source do.
-/
import IonContrib.Lib.Octets

namespace IonContrib

open Octets

/-- `flags & mask`. -/
def hasFlag (flags mask : UInt8) : Bool := flags &&& mask != 0

/-- A decoder's return value: 0 (more octets are needed), -1 (malformed), or the
    message and the number of octets it took. -/
inductive Decoded (μ : Type) where
  | need
  | bad
  | ok (m : μ) (used : Nat)
  deriving DecidableEq, Repr

/-- The octets that a message took. -/
def Decoded.used {μ : Type} : Decoded μ → Option Nat
  | .ok _ n => some n
  | _ => none

/-! ## Writer -/

/-- `buf` is what has been written so far (`len` is its length). -/
structure Writer where
  cap : Nat
  buf : Octets
  ok : Bool
  deriving DecidableEq, Repr

def wInit (cap : Nat) : Writer := ⟨cap, [], true⟩

def wU8 (w : Writer) (v : UInt8) : Writer :=
  if !w.ok || w.buf.length + 1 > w.cap then { w with ok := false }
  else { w with buf := w.buf ++ [v] }

def wU16 (w : Writer) (v : Nat) : Writer :=
  wU8 (wU8 w (UInt8.ofNat (v / 2 ^ 8))) (UInt8.ofNat v)

def wU32 (w : Writer) (v : Nat) : Writer := wU16 (wU16 w (v / 2 ^ 16)) v

def wU64 (w : Writer) (v : Nat) : Writer := wU32 (wU32 w (v / 2 ^ 32)) v

def wBytes (w : Writer) (p : Octets) : Writer :=
  if !w.ok || w.buf.length + p.length > w.cap then { w with ok := false }
  else { w with buf := w.buf ++ p }

/-- `return w.ok ? (int) w.len : -1;`, with the octets written. -/
def Writer.result (w : Writer) : Option Octets := if w.ok then some w.buf else none

theorem wU8_fits {cap : Nat} {bs : Octets} {v : UInt8} (h : bs.length + 1 ≤ cap) :
    wU8 ⟨cap, bs, true⟩ v = ⟨cap, bs ++ [v], true⟩ := by
  simp [wU8, Nat.not_lt.mpr h]

theorem wU16_fits {cap v : Nat} {bs : Octets} (h : bs.length + 2 ≤ cap) :
    wU16 ⟨cap, bs, true⟩ v = ⟨cap, bs ++ beBytes 2 v, true⟩ := by
  rw [wU16, wU8_fits (by omega), wU8_fits (by simp; omega)]
  simp [beBytes]

theorem wU32_fits {cap v : Nat} {bs : Octets} (h : bs.length + 4 ≤ cap) :
    wU32 ⟨cap, bs, true⟩ v = ⟨cap, bs ++ beBytes 4 v, true⟩ := by
  rw [wU32, wU16_fits (by omega), wU16_fits (by simp; omega), List.append_assoc]
  exact congrArg (fun x => (⟨cap, bs ++ x, true⟩ : Writer)) (beBytes_split 2 2 v)

theorem wU64_fits {cap v : Nat} {bs : Octets} (h : bs.length + 8 ≤ cap) :
    wU64 ⟨cap, bs, true⟩ v = ⟨cap, bs ++ beBytes 8 v, true⟩ := by
  rw [wU64, wU32_fits (by omega), wU32_fits (by simp; omega), List.append_assoc]
  exact congrArg (fun x => (⟨cap, bs ++ x, true⟩ : Writer)) (beBytes_split 4 4 v)

theorem wBytes_fits {cap : Nat} {bs p : Octets} (h : bs.length + p.length ≤ cap) :
    wBytes ⟨cap, bs, true⟩ p = ⟨cap, bs ++ p, true⟩ := by
  simp [wBytes, Nat.not_lt.mpr h]

/-! ## Reader -/

/-- `rest` is what is left of the buffer, `off` how much of it was taken. -/
structure Reader where
  rest : Octets
  off : Nat
  ok : Bool
  deriving DecidableEq, Repr

def rInit (buf : Octets) : Reader := ⟨buf, 0, true⟩

def rU8 (r : Reader) : UInt8 × Reader :=
  match r.ok, r.rest with
  | true, b :: bs => (b, ⟨bs, r.off + 1, true⟩)
  | _, _ => (0, { r with ok := false })

def rU16 (r : Reader) : Nat × Reader :=
  let (hi, r) := rU8 r
  let (lo, r) := rU8 r
  (hi.toNat * 2 ^ 8 + lo.toNat, r)

def rU32 (r : Reader) : Nat × Reader :=
  let (hi, r) := rU16 r
  let (lo, r) := rU16 r
  (hi * 2 ^ 16 + lo, r)

def rU64 (r : Reader) : Nat × Reader :=
  let (hi, r) := rU32 r
  let (lo, r) := rU32 r
  (hi * 2 ^ 32 + lo, r)

/-- `none` stands for the NULL of an underflow. -/
def rBytes (r : Reader) (len : Nat) : Option Octets × Reader :=
  if !r.ok || len > r.rest.length then (none, { r with ok := false })
  else (some (r.rest.take len), ⟨r.rest.drop len, r.off + len, true⟩)

@[simp] theorem rU8_cons (b : UInt8) (bs : Octets) (off : Nat) :
    rU8 ⟨b :: bs, off, true⟩ = (b, ⟨bs, off + 1, true⟩) := rfl

@[simp] theorem rU16_append {bs : Octets} (t : Octets) (off : Nat) (h : bs.length = 2) :
    rU16 ⟨bs ++ t, off, true⟩ = (beNat bs, ⟨t, off + 2, true⟩) := by
  obtain ⟨a, b, rfl⟩ : ∃ a b, bs = [a, b] := List.length_eq_two.mp h
  simp [rU16, beNat]

private theorem halves {bs : Octets} {k : Nat} (h : bs.length = 2 * k) :
    ∃ hi lo, bs = hi ++ lo ∧ hi.length = k ∧ lo.length = k :=
  ⟨bs.take k, bs.drop k, (List.take_append_drop k bs).symm, by simp [h]; omega, by
    simp [h]; omega⟩

@[simp] theorem rU32_append {bs : Octets} (t : Octets) (off : Nat) (h : bs.length = 4) :
    rU32 ⟨bs ++ t, off, true⟩ = (beNat bs, ⟨t, off + 4, true⟩) := by
  obtain ⟨hi, lo, rfl, h_hi, h_lo⟩ := halves (k := 2) h
  simp [rU32, List.append_assoc, h_hi, h_lo, beNat_append]

@[simp] theorem rU64_append {bs : Octets} (t : Octets) (off : Nat) (h : bs.length = 8) :
    rU64 ⟨bs ++ t, off, true⟩ = (beNat bs, ⟨t, off + 8, true⟩) := by
  obtain ⟨hi, lo, rfl, h_hi, h_lo⟩ := halves (k := 4) h
  simp [rU64, List.append_assoc, h_hi, h_lo, beNat_append]

/-- The last field of a message: nothing follows it. -/
theorem rU64_exact {bs : Octets} (off : Nat) (h : bs.length = 8) :
    rU64 ⟨bs, off, true⟩ = (beNat bs, ⟨[], off + 8, true⟩) := by
  simpa using rU64_append [] off h

@[simp] theorem rBytes_append (bs t : Octets) (off : Nat) :
    rBytes ⟨bs ++ t, off, true⟩ bs.length = (some bs, ⟨t, off + bs.length, true⟩) := by
  simp [rBytes]

/-! ## Readers that have enough -/

theorem rU8_of_le {rest : Octets} (off : Nat) (h : 1 ≤ rest.length) :
    rU8 ⟨rest, off, true⟩ = (rest.headD 0, ⟨rest.drop 1, off + 1, true⟩) := by
  cases rest with
  | nil => cases h
  | cons b bs => rfl

theorem rU16_of_le {rest : Octets} (off : Nat) (h : 2 ≤ rest.length) :
    rU16 ⟨rest, off, true⟩ = (beNat (rest.take 2), ⟨rest.drop 2, off + 2, true⟩) := by
  conv_lhs => rw [← List.take_append_drop 2 rest]
  exact rU16_append _ off (by rw [List.length_take]; omega)

theorem rU32_of_le {rest : Octets} (off : Nat) (h : 4 ≤ rest.length) :
    rU32 ⟨rest, off, true⟩ = (beNat (rest.take 4), ⟨rest.drop 4, off + 4, true⟩) := by
  conv_lhs => rw [← List.take_append_drop 4 rest]
  exact rU32_append _ off (by rw [List.length_take]; omega)

theorem rU64_of_le {rest : Octets} (off : Nat) (h : 8 ≤ rest.length) :
    rU64 ⟨rest, off, true⟩ = (beNat (rest.take 8), ⟨rest.drop 8, off + 8, true⟩) := by
  conv_lhs => rw [← List.take_append_drop 8 rest]
  exact rU64_append _ off (by rw [List.length_take]; omega)

theorem rBytes_of_le {rest : Octets} {len : Nat} (off : Nat) (h : len ≤ rest.length) :
    rBytes ⟨rest, off, true⟩ len = (some (rest.take len), ⟨rest.drop len, off + len, true⟩) := by
  simp [rBytes, h]

/-! ## Readers and octets that arrive later -/

/-- The same reader with more octets behind what it has. -/
def Reader.more (r : Reader) (t : Octets) : Reader := { r with rest := r.rest ++ t }

/-- As long as a reader does not run out of octets, the ones that arrive later make no
    difference to it, and it accounts for each octet it takes. -/
structure Reader.Stable {α : Type} (f : Reader → α × Reader) : Prop where
  ok : ∀ {r}, (f r).2.ok = true → r.ok = true
  more : ∀ {r}, (f r).2.ok = true → ∀ t, f (r.more t) = ((f r).1, (f r).2.more t)
  moves : ∀ {r}, (f r).2.ok = true → (f r).2.off + (f r).2.rest.length = r.off + r.rest.length

namespace Reader

variable {α β : Type}

theorem stable_pure (a : α) : Stable fun r => (a, r) where
  ok h := h
  more _ _ := rfl
  moves _ := rfl

/-- Read with `f`, then with what `g` makes of it. -/
def andThen (f : Reader → α × Reader) (g : α → Reader → β × Reader) (r : Reader) : β × Reader :=
  g (f r).1 (f r).2

theorem Stable.andThen {f : Reader → α × Reader} {g : α → Reader → β × Reader} (hf : Stable f)
    (hg : ∀ a, Stable (g a)) : Stable (andThen f g) where
  ok h := hf.ok ((hg _).ok h)
  more := by
    intro r h t
    have h_f : (f r).2.ok = true := (hg _).ok h
    rw [Reader.andThen, hf.more h_f t]
    exact (hg _).more h t
  moves := by
    intro r h
    have h_f : (f r).2.ok = true := (hg _).ok h
    rw [Reader.andThen, (hg _).moves h, hf.moves h_f]

theorem stable_rU8 : Stable rU8 where
  ok := by
    intro r h
    unfold rU8 at h
    split at h
    · assumption
    · cases h
  more := by
    intro r h t
    obtain ⟨rest, off, ok⟩ := r
    cases ok with
    | false => cases h
    | true =>
      cases rest with
      | nil => cases h
      | cons b bs => rfl
  moves := by
    intro r h
    obtain ⟨rest, off, ok⟩ := r
    cases ok with
    | false => cases h
    | true =>
      cases rest with
      | nil => cases h
      | cons b bs =>
        simp only [rU8, List.length_cons]
        omega

/-- Two halves of an integer, or two fields. -/
theorem Stable.pair {γ : Type} {f : Reader → α × Reader} {g : Reader → β × Reader}
    (hf : Stable f) (hg : Stable g) (k : α → β → γ) :
    Stable fun r => (k (f r).1 (g (f r).2).1, (g (f r).2).2) :=
  hf.andThen fun a => hg.andThen fun b => stable_pure (k a b)

theorem stable_rU16 : Stable rU16 :=
  stable_rU8.pair stable_rU8 fun hi lo => hi.toNat * 2 ^ 8 + lo.toNat

theorem stable_rU32 : Stable rU32 := stable_rU16.pair stable_rU16 fun hi lo => hi * 2 ^ 16 + lo

theorem stable_rU64 : Stable rU64 := stable_rU32.pair stable_rU32 fun hi lo => hi * 2 ^ 32 + lo

theorem stable_rBytes (len : Nat) : Stable fun r => rBytes r len where
  ok := by
    intro r h
    unfold rBytes at h
    split at h
    · cases h
    · rename_i h_fits
      simp only [Bool.or_eq_true, Bool.not_eq_true', not_or, Bool.not_eq_false] at h_fits
      exact h_fits.1
  more := by
    intro r h t
    by_cases h_out : (!r.ok || decide (len > r.rest.length)) = true
    · rw [rBytes, if_pos h_out] at h
      cases h
    · have h_len : len ≤ r.rest.length := by
        simp only [Bool.or_eq_true, decide_eq_true_eq, not_or, Nat.not_lt] at h_out
        exact h_out.2
      have h_more : ¬ (!(r.more t).ok || decide (len > (r.more t).rest.length)) = true := by
        simp only [Bool.or_eq_true, decide_eq_true_eq, not_or, Nat.not_lt] at h_out ⊢
        refine ⟨h_out.1, ?_⟩
        simp only [Reader.more, List.length_append]
        omega
      rw [rBytes, if_neg h_more, rBytes, if_neg h_out]
      simp only [Reader.more, List.take_append_of_le_length h_len,
        List.drop_append_of_le_length h_len]
  moves := by
    intro r h
    by_cases h_out : (!r.ok || decide (len > r.rest.length)) = true
    · rw [rBytes, if_pos h_out] at h
      cases h
    · rw [rBytes, if_neg h_out]
      simp only [Bool.or_eq_true, decide_eq_true_eq, not_or, Nat.not_lt] at h_out
      simp only [List.length_drop]
      omega

/-! ## Readers do not go back -/

def Advances (f : Reader → α × Reader) : Prop := ∀ r, r.off ≤ (f r).2.off

theorem advances_pure (a : α) : Advances fun r => (a, r) := fun _ => Nat.le_refl _

theorem Advances.andThen {f : Reader → α × Reader} {g : α → Reader → β × Reader}
    (hf : Advances f) (hg : ∀ a, Advances (g a)) : Advances (andThen f g) :=
  fun r => Nat.le_trans (hf r) (hg _ _)

theorem Advances.pair {γ : Type} {f : Reader → α × Reader} {g : Reader → β × Reader}
    (hf : Advances f) (hg : Advances g) (k : α → β → γ) :
    Advances fun r => (k (f r).1 (g (f r).2).1, (g (f r).2).2) :=
  hf.andThen fun a => hg.andThen fun b => advances_pure (k a b)

theorem advances_rU8 : Advances rU8 := by
  intro r
  unfold rU8
  split
  · exact Nat.le_succ _
  · exact Nat.le_refl _

theorem advances_rU16 : Advances rU16 :=
  advances_rU8.pair advances_rU8 fun hi lo => hi.toNat * 2 ^ 8 + lo.toNat

theorem advances_rU32 : Advances rU32 :=
  advances_rU16.pair advances_rU16 fun hi lo => hi * 2 ^ 16 + lo

theorem advances_rU64 : Advances rU64 :=
  advances_rU32.pair advances_rU32 fun hi lo => hi * 2 ^ 32 + lo

theorem advances_rBytes (len : Nat) : Advances fun r => rBytes r len := by
  intro r
  show r.off ≤ (rBytes r len).2.off
  unfold rBytes
  split
  · exact Nat.le_refl _
  · exact Nat.le_add_right _ _

end Reader

end IonContrib
