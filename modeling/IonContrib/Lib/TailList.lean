/-
  IonContrib.Lib.TailList

  A singly linked list with a tail pointer, as C code keeps a queue: appending
  goes through the tail, unlinking walks from the head and corrects the tail
  when it takes the last element.

  `items` are the elements on the chain from the head, `tail` the address the
  tail pointer holds; `addr` is the address of an element.  `Wf` says that the
  tail is the last element and no address is on the chain twice.  On a
  well-formed list `append` is `++ [x]`, `appendChain` is `++ xs`, `unlink` is
  `eraseP` and `cutThrough` takes the head off, and all keep it well formed.
-/
import Mathlib.Data.List.Basic
import Mathlib.Data.List.Nodup

namespace IonContrib

structure TailList (α : Type) where
  items : List α
  tail : Option Nat
  deriving DecidableEq, Repr

namespace TailList

variable {α : Type} (addr : α → Nat)

def empty : TailList α := ⟨[], none⟩

/-- `t->next = x` with `x->next = NULL`, seen from the head of the chain: what
    followed `t` is cut off, and a `t` that is not on the chain leaves it alone. -/
def linkAfter (t : Nat) (x : α) : List α → List α
  | [] => []
  | y :: ys => if addr y = t then [y, x] else y :: linkAfter t x ys

def append (l : TailList α) (x : α) : TailList α where
  items :=
    match l.tail with
    | none => [x]
    | some t => linkAfter addr t x l.items
  tail := some (addr x)

/-- `t->next = xs` for a chain of new elements, seen from the head. -/
def linkChainAfter (t : Nat) (xs : List α) : List α → List α
  | [] => []
  | y :: ys => if addr y = t then y :: xs else y :: linkChainAfter t xs ys

/-- A chain of new elements, linked in through the tail.  Where it is empty the tail stays. -/
def appendChain (l : TailList α) (xs : List α) : TailList α where
  items :=
    match l.tail with
    | none => xs
    | some t => linkChainAfter addr t xs l.items
  tail :=
    match xs.getLast? with
    | none => l.tail
    | some x => some (addr x)

/-- What follows `r` on the chain. -/
def after (r : Nat) : List α → List α
  | [] => []
  | y :: ys => if addr y = r then ys else after r ys

/-- `head = r->next`, and no tail when nothing is left. -/
def cutThrough (l : TailList α) (r : Nat) : TailList α where
  items := after addr r l.items
  tail :=
    match after addr r l.items with
    | [] => none
    | _ :: _ => l.tail

/-- The chain without `r`, and the element the walk passed before it. -/
def unlinkFrom (r : Nat) : Option Nat → List α → Option (List α × Option Nat)
  | _, [] => none
  | prev, y :: ys =>
    if addr y = r then some (ys, prev)
    else (unlinkFrom r (some (addr y)) ys).map fun p => (y :: p.1, p.2)

/-- `none` when `r` is not on the list. -/
def unlink (l : TailList α) (r : Nat) : Option (TailList α) :=
  (unlinkFrom addr r none l.items).map fun p => ⟨p.1, if l.tail = some r then p.2 else l.tail⟩

/-- Write through a pointer to an element. -/
def modify (l : TailList α) (r : Nat) (f : α → α) : TailList α where
  items := l.items.map fun y => if addr y = r then f y else y
  tail := l.tail

/-- The tail pointer holds the last element, and no element is on the chain twice. -/
structure Wf (l : TailList α) : Prop where
  tail_eq : l.tail = l.items.getLast?.map addr
  nodup : (l.items.map addr).Nodup

variable {addr}

theorem wf_empty : Wf addr (empty : TailList α) := ⟨rfl, List.nodup_nil⟩

/-! ## Appending -/

theorem linkAfter_last {t : Nat} {x : α} {ys : List α} (h_nodup : (ys.map addr).Nodup)
    (h_last : some t = ys.getLast?.map addr) : linkAfter addr t x ys = ys ++ [x] := by
  induction ys with
  | nil => simp at h_last
  | cons y ys ih =>
    obtain ⟨h_notin, h_nodup⟩ := List.nodup_cons.mp h_nodup
    cases ys with
    | nil =>
      obtain rfl : t = addr y := by simpa using h_last
      simp [linkAfter]
    | cons z zs =>
      have h_last' : some t = (z :: zs).getLast?.map addr := by
        simpa [List.getLast?_cons_cons] using h_last
      have h_mem : t ∈ (z :: zs).map addr := by
        obtain ⟨w, h_w, rfl⟩ := Option.map_eq_some_iff.mp h_last'.symm
        exact List.mem_map_of_mem (List.mem_of_getLast? h_w)
      have h_ne : addr y ≠ t := fun h => h_notin (h ▸ h_mem)
      rw [linkAfter, if_neg h_ne, ih h_nodup h_last']
      rfl

theorem append_items {l : TailList α} (hl : l.Wf addr) (x : α) :
    (l.append addr x).items = l.items ++ [x] := by
  cases h_tail : l.tail with
  | none =>
    have h_nil : l.items = [] := by
      have := hl.tail_eq
      rw [h_tail] at this
      simpa using this.symm
    simp [append, h_tail, h_nil]
  | some t =>
    have h_last := hl.tail_eq
    rw [h_tail] at h_last
    simpa [append, h_tail] using linkAfter_last hl.nodup h_last

theorem wf_append {l : TailList α} (hl : l.Wf addr) {x : α}
    (h_new : addr x ∉ l.items.map addr) : (l.append addr x).Wf addr where
  tail_eq := by rw [append_items hl]; simp [append]
  nodup := by
    rw [append_items hl, List.map_append, List.nodup_append]
    refine ⟨hl.nodup, List.nodup_singleton _, ?_⟩
    intro a h_a b h_b h_eq
    obtain rfl : b = addr x := by simpa using h_b
    exact h_new (h_eq ▸ h_a)

/-! ## Appending a chain -/

theorem linkChainAfter_last {t : Nat} {xs ys : List α} (h_nodup : (ys.map addr).Nodup)
    (h_last : some t = ys.getLast?.map addr) : linkChainAfter addr t xs ys = ys ++ xs := by
  induction ys with
  | nil => simp at h_last
  | cons y ys ih =>
    obtain ⟨h_notin, h_nodup⟩ := List.nodup_cons.mp h_nodup
    cases ys with
    | nil =>
      obtain rfl : t = addr y := by simpa using h_last
      simp [linkChainAfter]
    | cons z zs =>
      have h_last' : some t = (z :: zs).getLast?.map addr := by
        simpa [List.getLast?_cons_cons] using h_last
      have h_mem : t ∈ (z :: zs).map addr := by
        obtain ⟨w, h_w, rfl⟩ := Option.map_eq_some_iff.mp h_last'.symm
        exact List.mem_map_of_mem (List.mem_of_getLast? h_w)
      have h_ne : addr y ≠ t := fun h => h_notin (h ▸ h_mem)
      rw [linkChainAfter, if_neg h_ne, ih h_nodup h_last']
      rfl

theorem appendChain_items {l : TailList α} (hl : l.Wf addr) (xs : List α) :
    (l.appendChain addr xs).items = l.items ++ xs := by
  cases h_tail : l.tail with
  | none =>
    have h_nil : l.items = [] := by
      have h_last := hl.tail_eq
      rw [h_tail] at h_last
      simpa using h_last.symm
    simp [appendChain, h_tail, h_nil]
  | some t =>
    have h_last := hl.tail_eq
    rw [h_tail] at h_last
    simpa [appendChain, h_tail] using linkChainAfter_last hl.nodup h_last

theorem wf_appendChain {l : TailList α} (hl : l.Wf addr) {xs : List α}
    (h_nodup : (xs.map addr).Nodup) (h_new : ∀ x ∈ xs, addr x ∉ l.items.map addr) :
    (l.appendChain addr xs).Wf addr where
  tail_eq := by
    rw [appendChain_items hl, List.getLast?_append]
    unfold appendChain
    dsimp only
    cases xs.getLast? with
    | none => exact hl.tail_eq
    | some x => rfl
  nodup := by
    rw [appendChain_items hl, List.map_append, List.nodup_append]
    refine ⟨hl.nodup, h_nodup, ?_⟩
    intro a h_a b h_b h_eq
    obtain ⟨x, h_x, rfl⟩ := List.mem_map.mp h_b
    exact h_new x h_x (h_eq ▸ h_a)

/-! ## Taking the head off -/

theorem cutThrough_items {l : TailList α} {x : α} {ys : List α} (h : l.items = x :: ys) :
    (l.cutThrough addr (addr x)).items = ys := by
  unfold cutThrough
  rw [h]
  exact if_pos rfl

theorem wf_cutThrough {l : TailList α} (hl : l.Wf addr) {x : α} {ys : List α}
    (h : l.items = x :: ys) : (l.cutThrough addr (addr x)).Wf addr := by
  have h_after : after addr (addr x) l.items = ys := by
    rw [h]
    exact if_pos rfl
  have h_nodup := hl.nodup
  rw [h, List.map_cons, List.nodup_cons] at h_nodup
  refine ⟨?_, ?_⟩
  · unfold cutThrough
    rw [h_after]
    cases ys with
    | nil => rfl
    | cons y ys =>
      have h_tail := hl.tail_eq
      rw [h, List.getLast?_cons_cons] at h_tail
      exact h_tail
  · rw [cutThrough_items h]
    exact h_nodup.2

/-! ## Unlinking -/

variable (addr) in
theorem unlinkFrom_items (r : Nat) (prev : Option Nat) (ys : List α) :
    (unlinkFrom addr r prev ys).map Prod.fst =
      if r ∈ ys.map addr then some (ys.eraseP fun y => addr y = r) else none := by
  induction ys generalizing prev with
  | nil => simp [unlinkFrom]
  | cons y ys ih =>
    by_cases h : addr y = r
    · simp [unlinkFrom, h]
    · have h' : ¬ r = addr y := fun e => h e.symm
      have h_ih := ih (some (addr y))
      by_cases h_mem : r ∈ ys.map addr
      · rw [if_pos h_mem] at h_ih
        obtain ⟨p, h_p, h_fst⟩ := Option.map_eq_some_iff.mp h_ih
        simp only [unlinkFrom, h, if_false, h_p, Option.map_some, List.map_cons, List.mem_cons,
          h_mem, or_true, if_true, h_fst]
        simp [h]
      · rw [if_neg h_mem, Option.map_eq_none_iff] at h_ih
        simp only [unlinkFrom, h, if_false, h_ih, Option.map_none, List.map_cons, List.mem_cons,
          h_mem, h', or_false]

/-- When the walk takes the last element off, what it passed before is the new last. -/
theorem unlinkFrom_prev {r : Nat} {prev : Option Nat} {ys : List α} {p : List α × Option Nat}
    (h_nodup : (ys.map addr).Nodup) (h : unlinkFrom addr r prev ys = some p)
    (h_last : ys.getLast?.map addr = some r) :
    p.2 = if p.1 = [] then prev else p.1.getLast?.map addr := by
  induction ys generalizing prev p with
  | nil => simp [unlinkFrom] at h
  | cons y ys ih =>
    obtain ⟨h_notin, h_nodup⟩ := List.nodup_cons.mp h_nodup
    by_cases h_y : addr y = r
    · obtain rfl : (ys, prev) = p := by simpa [unlinkFrom, h_y] using h
      cases ys with
      | nil => simp
      | cons z zs =>
        have h_mem : r ∈ (z :: zs).map addr := by
          rw [List.getLast?_cons_cons] at h_last
          obtain ⟨w, h_w, rfl⟩ := Option.map_eq_some_iff.mp h_last
          exact List.mem_map_of_mem (List.mem_of_getLast? h_w)
        exact absurd (h_y ▸ h_mem) h_notin
    · simp only [unlinkFrom, h_y, if_false] at h
      obtain ⟨q, h_q, rfl⟩ := Option.map_eq_some_iff.mp h
      cases ys with
      | nil => simp [unlinkFrom] at h_q
      | cons z zs =>
        rw [List.getLast?_cons_cons] at h_last
        have h_ih := ih h_nodup h_q h_last
        cases h_zs : q.1 with
        | nil => simp [h_ih, h_zs]
        | cons w ws => simp [h_ih, h_zs, List.getLast?_cons_cons]

theorem unlink_eq_none {l : TailList α} {r : Nat} :
    l.unlink addr r = none ↔ r ∉ l.items.map addr := by
  have h := unlinkFrom_items addr r none l.items
  by_cases h_mem : r ∈ l.items.map addr
  · rw [if_pos h_mem] at h
    obtain ⟨p, h_p, -⟩ := Option.map_eq_some_iff.mp h
    simpa [unlink, h_p] using h_mem
  · rw [if_neg h_mem, Option.map_eq_none_iff] at h
    simpa [unlink, h] using h_mem

theorem unlink_items {l l' : TailList α} {r : Nat} (h : l.unlink addr r = some l') :
    l'.items = l.items.eraseP fun y => addr y = r := by
  have h_walk := unlinkFrom_items addr r none l.items
  obtain ⟨p, h_p, rfl⟩ := Option.map_eq_some_iff.mp h
  by_cases h_mem : r ∈ l.items.map addr
  · rw [if_pos h_mem, h_p] at h_walk
    simpa using h_walk
  · rw [if_neg h_mem, h_p] at h_walk
    simp at h_walk

theorem getLast?_eraseP_of_stays {q : α → Bool} {ys : List α}
    (h : ∀ w, ys.getLast? = some w → q w = false) : (ys.eraseP q).getLast? = ys.getLast? := by
  induction ys with
  | nil => rfl
  | cons y ys ih =>
    cases h_q : q y with
    | true =>
      cases ys with
      | nil => simp [h y rfl] at h_q
      | cons z zs => rw [List.eraseP_cons_of_pos h_q, List.getLast?_cons_cons]
    | false =>
      cases ys with
      | nil => simp [h_q]
      | cons z zs =>
        rw [List.getLast?_cons_cons] at h
        rw [List.eraseP_cons_of_neg (by simp [h_q]), List.getLast?_cons, ih h,
          List.getLast?_cons_cons, List.getLast?_cons, Option.getD_some]

theorem wf_unlink {l l' : TailList α} (hl : l.Wf addr) {r : Nat}
    (h : l.unlink addr r = some l') : l'.Wf addr := by
  have h_items := unlink_items h
  have h_sub : l'.items.Sublist l.items := h_items ▸ List.eraseP_sublist
  refine ⟨?_, (h_sub.map addr).nodup hl.nodup⟩
  obtain ⟨p, h_p, rfl⟩ := Option.map_eq_some_iff.mp h
  simp only at h_items ⊢
  by_cases h_tail : l.tail = some r
  · have h_prev := unlinkFrom_prev hl.nodup h_p (hl.tail_eq ▸ h_tail)
    rw [if_pos h_tail, h_prev]
    cases p.1 <;> simp
  · -- The last element stays, so it is still the last one.
    rw [if_neg h_tail, hl.tail_eq, h_items, getLast?_eraseP_of_stays]
    intro w h_w
    have h_last : l.tail = some (addr w) := by rw [hl.tail_eq, h_w]; rfl
    simpa [h_last] using h_tail

/-- Taking an element off by its address takes that element and no other. -/
theorem perm_cons_eraseP {ys : List α} {x : α} (h_mem : x ∈ ys)
    (h_nodup : (ys.map addr).Nodup) :
    ys.Perm (x :: ys.eraseP fun y => addr y = addr x) := by
  induction ys with
  | nil => simp at h_mem
  | cons y ys ih =>
    obtain ⟨h_notin, h_nodup⟩ := List.nodup_cons.mp h_nodup
    rcases List.mem_cons.mp h_mem with rfl | h_mem
    · simp
    · have h_ne : addr y ≠ addr x := fun h => h_notin (h ▸ List.mem_map_of_mem h_mem)
      rw [List.eraseP_cons_of_neg (by simpa using h_ne)]
      exact ((ih h_mem h_nodup).cons y).trans (List.Perm.swap x y _)

/-! ## Writing to an element -/

theorem map_addr_modify (l : TailList α) (r : Nat) {f : α → α} (hf : ∀ y, addr (f y) = addr y) :
    (l.modify addr r f).items.map addr = l.items.map addr := by
  simp only [modify, List.map_map]
  refine List.map_congr_left fun y _ => ?_
  by_cases h : addr y = r <;> simp [h, hf]

theorem wf_modify {l : TailList α} (hl : l.Wf addr) (r : Nat) {f : α → α}
    (hf : ∀ y, addr (f y) = addr y) : (l.modify addr r f).Wf addr := by
  have h_map := map_addr_modify l r hf
  refine ⟨?_, h_map ▸ hl.nodup⟩
  rw [← List.getLast?_map, h_map, List.getLast?_map]
  exact hl.tail_eq

end TailList

end IonContrib
