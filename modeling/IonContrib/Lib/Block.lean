/-
  IonContrib.Lib.Block

  Blocks of memory of a fixed size, read and written with bounds: `none` is an
  access beyond the block.  `memmove` reads all it moves before it writes.

  A block that holds a C string is the string, a NUL, and whatever is left.  The
  lemmas say what the usual steps of editing such a string in place make of it:
  `store_text`, `openGap` and `closeGap`.
-/
import IonContrib.Lib.Octets

namespace IonContrib.Block

open Octets

/-- `memcpy` out of a block. -/
def load (mem : Octets) (off n : Nat) : Option Octets :=
  if off + n ≤ mem.length then some ((mem.drop off).take n) else none

/-- `memcpy` into a block. -/
def store (mem : Octets) (off : Nat) (data : Octets) : Option Octets :=
  if off + data.length ≤ mem.length then some (splice mem off data) else none

/-- `memmove` within a block. -/
def move (mem : Octets) (dst src n : Nat) : Option Octets := (load mem src n).bind (store mem dst)

/-- The C string at the front of a block; `none` when it has no end in it. -/
def cText (mem : Octets) : Option Octets :=
  if 0 ∈ mem then some (mem.takeWhile (· ≠ 0)) else none

theorem load_eq (pre mid post : Octets) :
    load (pre ++ (mid ++ post)) pre.length mid.length = some mid := by
  rw [load, if_pos (by simp), List.drop_left, List.take_left]

theorem store_eq {pre old data : Octets} (post : Octets) (h : old.length = data.length) :
    store (pre ++ (old ++ post)) pre.length data = some (pre ++ (data ++ post)) := by
  rw [store, if_pos (by simp; omega), splice, List.take_left, ← h, ← List.append_assoc pre old,
    ← List.length_append, List.drop_left, List.append_assoc]

/-- One octet is written. -/
theorem store_octet (pre : Octets) (old new : UInt8) (post : Octets) :
    store (pre ++ old :: post) pre.length [new] = some (pre ++ new :: post) :=
  @store_eq pre [old] [new] post rfl

theorem length_store {mem mem' data : Octets} {off : Nat} (h : store mem off data = some mem') :
    mem'.length = mem.length := by
  unfold store at h
  split at h
  · rename_i h_fits
    obtain rfl := Option.some.inj h
    exact length_splice h_fits
  · cases h

theorem length_move {mem mem' : Octets} {dst src n : Nat} (h : move mem dst src n = some mem') :
    mem'.length = mem.length := by
  rw [move, Option.bind_eq_some_iff] at h
  obtain ⟨data, -, h_store⟩ := h
  exact length_store h_store

theorem cText_eq {line : Octets} (h : 0 ∉ line) (junk : Octets) :
    cText (line ++ 0 :: junk) = some line := by
  have h_all : ∀ c ∈ line, decide (c ≠ 0) = true := by
    intro c h_c
    rw [decide_eq_true_eq]
    rintro rfl
    exact h h_c
  rw [cText, if_pos (by simp), List.takeWhile_append_of_pos h_all,
    List.takeWhile_cons_of_neg (by simp), List.append_nil]

/-- A text and its NUL are written to the front of a block. -/
theorem store_text {mem line : Octets} (h : line.length < mem.length) :
    ∃ mem' junk, store mem 0 line = some mem' ∧
      store mem' line.length [0] = some (line ++ 0 :: junk) ∧
      (line ++ 0 :: junk).length = mem.length := by
  have h_fits : 0 + line.length ≤ mem.length := by omega
  obtain ⟨old, junk, h_old⟩ : ∃ old junk, mem.drop line.length = old :: junk := by
    cases h_drop : mem.drop line.length with
    | nil =>
      rw [List.drop_eq_nil_iff] at h_drop
      omega
    | cons old junk => exact ⟨old, junk, rfl⟩
  have h_store : store mem 0 line = some (line ++ old :: junk) := by
    rw [store, if_pos h_fits, splice, List.take_zero, List.nil_append, Nat.zero_add, h_old]
  refine ⟨line ++ old :: junk, junk, h_store, store_octet line old 0 junk, ?_⟩
  have h_length := length_store h_store
  rw [← h_length]
  simp

/-- An octet is put between two parts of a text. -/
theorem openGap (l r : Octets) (c : UInt8) {junk : Octets} (h : junk ≠ []) :
    ∃ mem mem' junk', move (l ++ (r ++ 0 :: junk)) (l.length + 1) l.length r.length = some mem ∧
      store mem l.length [c] = some mem' ∧
      store mem' (l.length + 1 + r.length) [0] = some ((l ++ [c]) ++ (r ++ 0 :: junk')) := by
  obtain ⟨j, junk', rfl⟩ := List.exists_cons_of_ne_nil h
  -- The octets that are written over: the first of them is where the new one goes.
  obtain ⟨x, old, h_old, h_length⟩ : ∃ x old, r ++ [0] = x :: old ∧ old.length = r.length := by
    cases r with
    | nil => exact ⟨0, [], rfl, rfl⟩
    | cons x r => exact ⟨x, r ++ [0], rfl, by simp⟩
  have h_mem : l ++ (r ++ 0 :: j :: junk') = (l ++ [x]) ++ (old ++ j :: junk') := by
    rw [List.append_cons r 0, h_old]
    simp
  have h_move : move (l ++ (r ++ 0 :: j :: junk')) (l.length + 1) l.length r.length =
      some ((l ++ [x]) ++ (r ++ j :: junk')) := by
    have h_dst : l.length + 1 = (l ++ [x]).length := by simp
    rw [move, load_eq, Option.bind_some, h_mem, h_dst]
    exact store_eq _ h_length
  refine ⟨_, (l ++ [c]) ++ (r ++ j :: junk'), junk', h_move, ?_, ?_⟩
  · rw [List.append_assoc, List.append_assoc]
    exact store_octet l x c _
  · have h_end : l.length + 1 + r.length = (l ++ [c] ++ r).length := by
      rw [List.length_append, List.length_append, List.length_singleton]
    rw [h_end, ← List.append_assoc, ← List.append_assoc]
    exact store_octet (l ++ [c] ++ r) j 0 junk'

/-- An octet is taken from between two parts of a text. -/
theorem closeGap (l r : Octets) (c : UInt8) (junk : Octets) :
    ∃ mem junk', move (l ++ c :: (r ++ 0 :: junk)) l.length (l.length + 1) r.length = some mem ∧
      store mem (l.length + r.length) [0] = some (l ++ (r ++ 0 :: junk')) := by
  obtain ⟨old, y, h_old, h_length⟩ : ∃ old y, c :: r = old ++ [y] ∧ old.length = r.length := by
    refine ⟨(c :: r).dropLast, (c :: r).getLast (by simp), ?_, by simp⟩
    exact (List.dropLast_append_getLast _).symm
  have h_src : l ++ c :: (r ++ 0 :: junk) = (l ++ [c]) ++ (r ++ 0 :: junk) := by simp
  have h_dst : l ++ c :: (r ++ 0 :: junk) = l ++ (old ++ y :: 0 :: junk) := by
    rw [← List.cons_append, h_old]
    simp
  have h_load : load (l ++ c :: (r ++ 0 :: junk)) (l.length + 1) r.length = some r := by
    have h_off : l.length + 1 = (l ++ [c]).length := by simp
    rw [h_src, h_off]
    exact load_eq _ r _
  have h_move : move (l ++ c :: (r ++ 0 :: junk)) l.length (l.length + 1) r.length =
      some (l ++ (r ++ y :: 0 :: junk)) := by
    rw [move, h_load, Option.bind_some, h_dst]
    exact store_eq _ h_length
  refine ⟨_, 0 :: junk, h_move, ?_⟩
  rw [← List.length_append, ← List.append_assoc, ← List.append_assoc]
  exact store_octet (l ++ r) y 0 (0 :: junk)

end IonContrib.Block
