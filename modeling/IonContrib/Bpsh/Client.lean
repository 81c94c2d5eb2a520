/-
  IonContrib.Bpsh.Client

  How the `bpsh` client puts the frames of its session in order
  (`recvOnePending`, `recvOrderedFrame`).

  A run is a sequence of calls of `recvOrderedFrame`, one after the other: each
  step is one round of a loop of the two functions, and the flag `running` may
  be cleared between any two of them.  `returned` is what the calls have
  returned.  The calls have handed on the numbers below `nextRecvSeq`, each with
  the first frame of that number that was received; the early ones wait, sorted.
-/
import IonContrib.Bpsh.Session
import IonContrib.Lib.Lts
import Mathlib.Data.List.Induction

namespace IonContrib.Bpsh

/-! ## The receiver -/

/-- The loop of `recvOrderedFrame`, and that of `recvOnePending`. -/
inductive ClientPc
  | ordered
  | receiving
  deriving DecidableEq, Repr

structure Client where
  sessionId : Nat
  running : Bool
  pending : List BpshFrame
  nextRecvSeq : Nat
  pc : ClientPc
  returned : List (Option BpshFrame)
  deriving DecidableEq, Repr

def Client.start (sessionId : Nat) : Client where
  sessionId := sessionId
  running := true
  pending := []
  nextRecvSeq := 0
  pc := .ordered
  returned := []

/-- The call returns, and the next one begins. -/
def Client.ret (c : Client) (r : Option BpshFrame) : Client :=
  { c with pc := .ordered, returned := c.returned ++ [r] }

/-- What `bpsh_recv_frame` comes to; `mem` is whether there is memory for a `PendingFrame`. -/
inductive Received
  | fatal
  | none
  | skip
  | frame (f : BpshFrame) (mem : Bool)
  deriving DecidableEq, Repr

/-- The insertion into the sorted list of early frames. -/
def insertPending (p : BpshFrame) : List BpshFrame → List BpshFrame
  | [] => [p]
  | q :: rest =>
    if q.seqNum < p.seqNum then q :: insertPending p rest
    else if q.seqNum = p.seqNum then q :: rest
    else p :: q :: rest

/-- The head of the loop of `recvOrderedFrame`. -/
def recvOrderedFrame (c : Client) : Client :=
  if !c.running then c.ret none
  else
    match c.pending with
    | [] => { c with pc := .receiving }
    | p :: rest =>
      if p.seqNum = c.nextRecvSeq then
        { c with pending := rest, nextRecvSeq := nextSeq c.nextRecvSeq }.ret (some p)
      else { c with pc := .receiving }

/-- The rest of that loop, for a frame that was received. -/
def takeFrame (c : Client) (p : BpshFrame) : Client :=
  if p.sessionId ≠ c.sessionId then { c with pc := .ordered }
  else if p.msgType = .error then c.ret (some p)
  else if p.seqNum < c.nextRecvSeq then { c with pc := .ordered }
  else if p.seqNum = c.nextRecvSeq then
    { c with nextRecvSeq := nextSeq c.nextRecvSeq }.ret (some p)
  else { c with pending := insertPending p c.pending, pc := .ordered }

/-- One round of the loop of `recvOnePending`. -/
def recvOnePending (c : Client) : Received → Client
  | .fatal => c.ret none
  | .none => c
  | .skip => c
  | .frame _ false => c
  | .frame f true => takeFrame c f

inductive ClientStep
  /-- `BPSH_STOP`, by a signal or another thread. -/
  | stop
  | ordered
  /-- `recvOnePending` finds that the flag was cleared. -/
  | quit
  | recv (r : Received)
  deriving DecidableEq, Repr

def clientStep (c : Client) : ClientStep → Option Client
  | .stop => some { c with running := false }
  | .ordered => if c.pc = .ordered then some (recvOrderedFrame c) else none
  | .quit => if c.pc = .receiving ∧ c.running = false then some (c.ret none) else none
  | .recv r => if c.pc = .receiving ∧ c.running = true then some (recvOnePending c r) else none

/-! ## What has come and what was handed on -/

/-- The frames that have come, with and without memory for them. -/
def ClientStep.came : ClientStep → Option BpshFrame
  | .recv (.frame f _) => some f
  | _ => none

def ClientStep.arrived : ClientStep → Option BpshFrame
  | .recv (.frame f true) => some f
  | _ => none

def came (as : List ClientStep) : List BpshFrame := as.filterMap ClientStep.came

/-- The frames that there was memory for. -/
def arrived (as : List ClientStep) : List BpshFrame := as.filterMap ClientStep.arrived

/-- A numbered frame of the session. -/
def isNumbered (sid : Nat) (f : BpshFrame) : Bool := f.sessionId = sid ∧ f.msgType ≠ .error

def isError (sid : Nat) (f : BpshFrame) : Bool := f.sessionId = sid ∧ f.msgType = .error

/-- The first frame of a number. -/
def firstOf (sid : Nat) (fs : List BpshFrame) (k : Nat) : Option BpshFrame :=
  fs.find? fun f => isNumbered sid f && f.seqNum == k

/-- The frames that the calls have handed on. -/
def Client.handed (c : Client) : List BpshFrame := c.returned.filterMap id

/-- Strictly sorted by number. -/
def Sorted (l : List BpshFrame) : Prop := l.Pairwise fun p q => p.seqNum < q.seqNum

theorem mem_insertPending {p q : BpshFrame} {l : List BpshFrame} (h : Sorted l) :
    q ∈ insertPending p l ↔ q ∈ l ∨ (q = p ∧ ∀ x ∈ l, x.seqNum ≠ p.seqNum) := by
  induction l with
  | nil => simp [insertPending]
  | cons a l ih =>
    obtain ⟨h_a, h_l⟩ := List.pairwise_cons.mp h
    rw [insertPending]
    by_cases h_less : a.seqNum < p.seqNum
    · rw [if_pos h_less, List.mem_cons, ih h_l, List.forall_mem_cons, List.mem_cons, or_assoc]
      have h_ne : a.seqNum ≠ p.seqNum := Nat.ne_of_lt h_less
      simp [h_ne]
    rw [if_neg h_less]
    by_cases h_same : a.seqNum = p.seqNum
    · rw [if_pos h_same, List.forall_mem_cons]
      simp [h_same]
    · rw [if_neg h_same]
      have h_none : ∀ x ∈ a :: l, x.seqNum ≠ p.seqNum := by
        intro x h_x
        rcases List.mem_cons.mp h_x with rfl | h_x
        · exact h_same
        · have h_gt := h_a x h_x
          omega
      rw [List.mem_cons, or_comm]
      exact or_congr_right (and_iff_left h_none).symm

theorem sorted_insertPending (p : BpshFrame) {l : List BpshFrame} (h : Sorted l) :
    Sorted (insertPending p l) := by
  induction l with
  | nil => exact List.pairwise_singleton _ p
  | cons a l ih =>
    obtain ⟨h_a, h_l⟩ := List.pairwise_cons.mp h
    rw [insertPending]
    by_cases h_less : a.seqNum < p.seqNum
    · rw [if_pos h_less]
      refine List.pairwise_cons.mpr ⟨fun x h_x => ?_, ih h_l⟩
      rcases (mem_insertPending h_l).mp h_x with h_x | ⟨rfl, -⟩
      · exact h_a x h_x
      · exact h_less
    rw [if_neg h_less]
    by_cases h_same : a.seqNum = p.seqNum
    · rw [if_pos h_same]
      exact h
    · rw [if_neg h_same]
      refine List.pairwise_cons.mpr ⟨fun x h_x => ?_, h⟩
      rcases List.mem_cons.mp h_x with rfl | h_x
      · omega
      · have h_gt := h_a x h_x
        omega

/-! ## One more frame -/

section

variable {sid n k : Nat} {fs : List BpshFrame} {p : BpshFrame} {c : Client}

theorem firstOf_some {f : BpshFrame} (h : firstOf sid fs k = some f) :
    f ∈ fs ∧ isNumbered sid f = true ∧ f.seqNum = k := by
  have h_f := List.find?_some h
  rw [Bool.and_eq_true, beq_iff_eq] at h_f
  exact ⟨List.mem_of_find?_eq_some h, h_f⟩

theorem firstOf_snoc (sid k : Nat) (fs : List BpshFrame) (p : BpshFrame) :
    firstOf sid (fs ++ [p]) k =
      (firstOf sid fs k).or (if isNumbered sid p && p.seqNum == k then some p else none) := by
  rw [firstOf, List.find?_append, List.find?_singleton]
  rfl

/-- A frame that is not numbered is not the first of any number. -/
theorem firstOf_snoc_other (h : isNumbered sid p = false) :
    firstOf sid (fs ++ [p]) = firstOf sid fs := by
  funext k
  rw [firstOf_snoc, h, Bool.false_and, if_neg Bool.false_ne_true, Option.or_none]

/-- Nor is a second one. -/
theorem firstOf_snoc_known (h : (firstOf sid fs p.seqNum).isSome = true) :
    firstOf sid (fs ++ [p]) = firstOf sid fs := by
  funext k
  rw [firstOf_snoc]
  by_cases h_k : p.seqNum = k
  · rw [← h_k, Option.or_of_isSome h]
  · rw [if_neg (by simp [h_k]), Option.or_none]

theorem firstOf_snoc_new (h_p : isNumbered sid p = true) (h : firstOf sid fs p.seqNum = none) :
    firstOf sid (fs ++ [p]) k = if p.seqNum = k then some p else firstOf sid fs k := by
  rw [firstOf_snoc, h_p, Bool.true_and]
  by_cases h_k : p.seqNum = k
  · rw [if_pos h_k, ← h_k, h, Option.none_or, if_pos (by simp)]
  · rw [if_neg h_k, if_neg (by simp [h_k]), Option.or_none]

@[simp] theorem handed_ret_some (c : Client) (p : BpshFrame) :
    (c.ret (some p)).handed = c.handed ++ [p] := by
  simp [Client.ret, Client.handed]

@[simp] theorem handed_ret_none (c : Client) : (c.ret none).handed = c.handed := by
  simp [Client.ret, Client.handed]

/-! ## The invariant -/

/-- `fs` are the frames that there was memory for.  The numbers below `nextRecvSeq` have been
    handed on, and of the others the first frames are waiting. -/
structure Reordered (sid n : Nat) (fs : List BpshFrame) (c : Client) : Prop where
  own : c.sessionId = sid
  sorted : Sorted c.pending
  early : ∀ q ∈ c.pending, c.nextRecvSeq ≤ q.seqNum
  first : ∀ q ∈ c.pending, firstOf sid fs q.seqNum = some q
  kept : ∀ k f, firstOf sid fs k = some f → k < c.nextRecvSeq ∨ f ∈ c.pending
  numbered : (c.handed.filter (isNumbered sid)).map some =
    (List.range c.nextRecvSeq).map (firstOf sid fs)
  errors : c.handed.filter (isError sid) = fs.filter (isError sid)
  ours : ∀ f ∈ c.handed, f.sessionId = sid
  waits : c.pc = .receiving → ∀ q ∈ c.pending, q.seqNum ≠ c.nextRecvSeq
  below : c.nextRecvSeq ≤ n

theorem reordered_start (sid n : Nat) : Reordered sid n [] (Client.start sid) where
  own := rfl
  sorted := List.Pairwise.nil
  early := fun q h_q => absurd h_q List.not_mem_nil
  first := fun q h_q => absurd h_q List.not_mem_nil
  kept := fun k f h_f => by cases h_f
  numbered := rfl
  errors := rfl
  ours := fun f h_f => absurd h_f List.not_mem_nil
  waits := fun h => by cases h
  below := Nat.zero_le n

/-- What was handed on has come. -/
theorem Reordered.known (h : Reordered sid n fs c) (h_k : k < c.nextRecvSeq) :
    (firstOf sid fs k).isSome = true := by
  have h_mem : firstOf sid fs k ∈ (c.handed.filter (isNumbered sid)).map some := by
    rw [h.numbered]
    exact List.mem_map_of_mem (List.mem_range.mpr h_k)
  obtain ⟨f, -, h_f⟩ := List.mem_map.mp h_mem
  rw [← h_f]
  rfl

/-- The flag, the program counter and calls that return nothing change nothing of it. -/
theorem Reordered.of_same {c' : Client} (h : Reordered sid n fs c)
    (h_own : c'.sessionId = c.sessionId) (h_pending : c'.pending = c.pending)
    (h_next : c'.nextRecvSeq = c.nextRecvSeq) (h_handed : c'.handed = c.handed)
    (h_pc : c'.pc = .receiving → ∀ q ∈ c.pending, q.seqNum ≠ c.nextRecvSeq) :
    Reordered sid n fs c' where
  own := h_own.trans h.own
  sorted := by
    rw [h_pending]
    exact h.sorted
  early := by
    rw [h_pending, h_next]
    exact h.early
  first := by
    rw [h_pending]
    exact h.first
  kept := by
    rw [h_pending, h_next]
    exact h.kept
  numbered := by
    rw [h_handed, h_next]
    exact h.numbered
  errors := by
    rw [h_handed]
    exact h.errors
  ours := by
    rw [h_handed]
    exact h.ours
  waits := by
    rw [h_pending, h_next]
    exact h_pc
  below := by
    rw [h_next]
    exact h.below

theorem isError_of_isNumbered (h : isNumbered sid p = true) : isError sid p = false := by
  have h_p := of_decide_eq_true h
  exact decide_eq_false fun h_error => h_p.2 h_error.2

/-- A frame that changes the first of no number, and is no ERROR frame, may be dropped. -/
theorem Reordered.drop (h : Reordered sid n fs c)
    (h_first : firstOf sid (fs ++ [p]) = firstOf sid fs) (h_error : isError sid p = false) :
    Reordered sid n (fs ++ [p]) c where
  own := h.own
  sorted := h.sorted
  early := h.early
  first := by
    rw [h_first]
    exact h.first
  kept := by
    rw [h_first]
    exact h.kept
  numbered := by
    rw [h_first]
    exact h.numbered
  errors := by
    rw [h.errors, List.filter_append, List.filter_cons_of_neg (by rw [h_error]; decide)]
    exact (List.append_nil _).symm
  ours := h.ours
  waits := h.waits
  below := h.below

/-- The next number is handed on, and nothing of that number stays behind. -/
theorem Reordered.hand {pending : List BpshFrame} (h : Reordered sid n fs c) (h_n : n < 2 ^ 64)
    (h_below : p.seqNum < n) (h_next : p.seqNum = c.nextRecvSeq)
    (h_first : firstOf sid fs p.seqNum = some p) (h_sorted : Sorted pending)
    (h_pending : ∀ q, q ∈ pending ↔ q ∈ c.pending ∧ q ≠ p) :
    Reordered sid n fs
      (Client.ret { c with pending := pending, nextRecvSeq := nextSeq c.nextRecvSeq } (some p)) := by
  have h_seq : nextSeq c.nextRecvSeq = c.nextRecvSeq + 1 := Nat.mod_eq_of_lt (by omega)
  have h_p := (firstOf_some h_first).2.1
  have h_own := of_decide_eq_true h_p
  have h_early : ∀ q ∈ pending, c.nextRecvSeq + 1 ≤ q.seqNum := by
    intro q h_q
    obtain ⟨h_mem, h_ne⟩ := (h_pending q).mp h_q
    have h_le := h.early q h_mem
    have h_other : q.seqNum ≠ c.nextRecvSeq := by
      intro h_same
      have h_q_first := h.first q h_mem
      rw [h_same, ← h_next, h_first] at h_q_first
      exact h_ne (Option.some.inj h_q_first).symm
    omega
  refine ⟨h.own, h_sorted, ?_, ?_, ?_, ?_, ?_, ?_, ?_, ?_⟩
  · show ∀ q ∈ pending, nextSeq c.nextRecvSeq ≤ q.seqNum
    rw [h_seq]
    exact h_early
  · exact fun q h_q => h.first q ((h_pending q).mp h_q).1
  · intro k f h_f
    show k < nextSeq c.nextRecvSeq ∨ f ∈ pending
    rw [h_seq, h_pending]
    rcases h.kept k f h_f with h_k | h_mem
    · exact .inl (by omega)
    · by_cases h_ne : f = p
      · have h_k := (firstOf_some h_f).2.2
        rw [h_ne] at h_k
        exact .inl (by omega)
      · exact .inr ⟨h_mem, h_ne⟩
  · show (Client.handed _ |>.filter (isNumbered sid)).map some =
      (List.range (nextSeq c.nextRecvSeq)).map (firstOf sid fs)
    rw [h_seq, handed_ret_some, List.filter_append, List.map_append, List.range_succ,
      List.map_append, List.filter_cons_of_pos h_p]
    exact congr (congrArg _ h.numbered) (by rw [← h_next]; exact congrArg ([·]) h_first.symm)
  · rw [handed_ret_some, List.filter_append,
      List.filter_cons_of_neg (by rw [isError_of_isNumbered h_p]; decide)]
    exact (List.append_nil _).trans h.errors
  · intro f h_f
    rw [handed_ret_some, List.mem_append, List.mem_singleton] at h_f
    rcases h_f with h_f | rfl
    · exact h.ours f h_f
    · exact h_own.1
  · intro h_pc
    cases h_pc
  · show nextSeq c.nextRecvSeq ≤ n
    omega

/-- The head of the loop. -/
theorem Reordered.head (h : Reordered sid n fs c) (h_n : n < 2 ^ 64)
    (h_numbers : ∀ f ∈ fs, isNumbered sid f = true → f.seqNum < n) :
    Reordered sid n fs (recvOrderedFrame c) := by
  rw [recvOrderedFrame]
  by_cases h_running : (!c.running) = true
  · rw [if_pos h_running]
    exact h.of_same rfl rfl rfl (handed_ret_none c) fun h_pc => by cases h_pc
  rw [if_neg h_running]
  have h_sorted := h.sorted
  cases h_pending : c.pending with
  | nil =>
    refine h.of_same rfl h_pending.symm rfl rfl fun _ q h_q => ?_
    rw [h_pending] at h_q
    exact absurd h_q List.not_mem_nil
  | cons p rest =>
    rw [h_pending] at h_sorted
    obtain ⟨h_above, h_rest⟩ := List.pairwise_cons.mp h_sorted
    have h_mem : p ∈ c.pending := by
      rw [h_pending]
      exact List.mem_cons_self
    simp only
    by_cases h_next : p.seqNum = c.nextRecvSeq
    · rw [if_pos h_next]
      obtain ⟨h_come, h_p, -⟩ := firstOf_some (h.first p h_mem)
      refine h.hand h_n (h_numbers p h_come h_p) h_next (h.first p h_mem) h_rest fun q => ?_
      rw [h_pending, List.mem_cons]
      constructor
      · intro h_q
        refine ⟨.inr h_q, ?_⟩
        rintro rfl
        exact Nat.lt_irrefl _ (h_above q h_q)
      · rintro ⟨rfl | h_q, h_ne⟩
        · exact absurd rfl h_ne
        · exact h_q
    · rw [if_neg h_next]
      refine h.of_same rfl h_pending.symm rfl rfl fun _ q h_q => ?_
      have h_early := h.early p h_mem
      rw [h_pending] at h_q
      rcases List.mem_cons.mp h_q with rfl | h_q
      · exact h_next
      · have h_gt := h_above q h_q
        omega

/-- Back to the head of the loop. -/
theorem Reordered.again (h : Reordered sid n fs c) : Reordered sid n fs { c with pc := .ordered } :=
  h.of_same rfl rfl rfl rfl fun h_pc => by cases h_pc

/-- A frame that comes early waits, unless one of its number does. -/
theorem Reordered.wait (h : Reordered sid n fs c) (h_p : isNumbered sid p = true)
    (h_early : c.nextRecvSeq ≤ p.seqNum) :
    Reordered sid n (fs ++ [p]) { c with pending := insertPending p c.pending, pc := .ordered } := by
  have h_error := isError_of_isNumbered h_p
  cases h_known : firstOf sid fs p.seqNum with
  | some f =>
    -- It is a duplicate of one that waits, so the list stays as it is.
    have h_same : ∀ l, Sorted l → f ∈ l → f.seqNum = p.seqNum → insertPending p l = l := by
      intro l h_l h_f h_seq
      induction l with
      | nil => exact absurd h_f List.not_mem_nil
      | cons a l ih =>
        obtain ⟨h_a, h_l⟩ := List.pairwise_cons.mp h_l
        rw [insertPending]
        rcases List.mem_cons.mp h_f with rfl | h_f
        · rw [if_neg (by omega), if_pos h_seq]
        · have h_gt := h_a f h_f
          rw [if_pos (by omega), ih h_l h_f]
    have h_f : f ∈ c.pending := by
      rcases h.kept _ f h_known with h_k | h_f
      · omega
      · exact h_f
    rw [h_same c.pending h.sorted h_f (firstOf_some h_known).2.2]
    exact (h.drop (firstOf_snoc_known (by rw [h_known]; rfl)) h_error).again
  | none =>
    have h_new : ∀ x ∈ c.pending, x.seqNum ≠ p.seqNum := by
      intro x h_x h_seq
      have h_first := h.first x h_x
      rw [h_seq, h_known] at h_first
      cases h_first
    have h_mem : ∀ q, q ∈ insertPending p c.pending ↔ q ∈ c.pending ∨ q = p := by
      intro q
      rw [mem_insertPending h.sorted]
      exact or_congr_right (and_iff_left h_new)
    have h_first : ∀ k, firstOf sid (fs ++ [p]) k =
        if p.seqNum = k then some p else firstOf sid fs k :=
      fun k => firstOf_snoc_new h_p h_known
    refine ⟨h.own, sorted_insertPending p h.sorted, ?_, ?_, ?_, ?_, ?_, h.ours, ?_, h.below⟩
    · intro q h_q
      rcases (h_mem q).mp h_q with h_q | rfl
      · exact h.early q h_q
      · exact h_early
    · intro q h_q
      rw [h_first]
      rcases (h_mem q).mp h_q with h_q | rfl
      · rw [if_neg (Ne.symm (h_new q h_q))]
        exact h.first q h_q
      · rw [if_pos rfl]
    · intro k f h_f
      rw [h_first] at h_f
      by_cases h_k : p.seqNum = k
      · rw [if_pos h_k] at h_f
        exact .inr ((h_mem f).mpr (.inr (Option.some.inj h_f).symm))
      · rw [if_neg h_k] at h_f
        exact (h.kept k f h_f).imp_right fun h_q => (h_mem f).mpr (.inl h_q)
    · refine h.numbered.trans (List.map_congr_left fun k h_k => ?_)
      have h_lt := List.mem_range.mp h_k
      rw [h_first, if_neg (by omega)]
    · show c.handed.filter (isError sid) = _
      rw [h.errors, List.filter_append, List.filter_cons_of_neg (by rw [h_error]; decide)]
      exact (List.append_nil _).symm
    · intro h_pc
      cases h_pc

/-- One more frame that there is memory for. -/
theorem Reordered.take (h : Reordered sid n fs c) (h_n : n < 2 ^ 64) (h_pc : c.pc = .receiving)
    (h_numbers : isNumbered sid p = true → p.seqNum < n) :
    Reordered sid n (fs ++ [p]) (takeFrame c p) := by
  obtain rfl := h.own
  rw [takeFrame]
  by_cases h_own : p.sessionId = c.sessionId
  · rw [if_neg (not_not.mpr h_own)]
    by_cases h_error : p.msgType = .error
    · -- An ERROR frame goes past the list.
      rw [if_pos h_error]
      have h_p : isNumbered c.sessionId p = false := decide_eq_false fun h_num => h_num.2 h_error
      have h_is : isError c.sessionId p = true := decide_eq_true ⟨h_own, h_error⟩
      have h_first : firstOf c.sessionId (fs ++ [p]) = firstOf c.sessionId fs :=
        firstOf_snoc_other h_p
      refine ⟨rfl, h.sorted, h.early, ?_, ?_, ?_, ?_, ?_, ?_, h.below⟩
      · rw [h_first]
        exact h.first
      · rw [h_first]
        exact h.kept
      · rw [h_first, handed_ret_some, List.filter_append,
          List.filter_cons_of_neg (by rw [h_p]; decide)]
        exact (congrArg (List.map some) (List.append_nil _)).trans h.numbered
      · rw [handed_ret_some, List.filter_append, List.filter_append, h.errors]
      · intro f h_f
        rw [handed_ret_some, List.mem_append, List.mem_singleton] at h_f
        rcases h_f with h_f | rfl
        · exact h.ours f h_f
        · exact h_own
      · intro h_pc
        cases h_pc
    · rw [if_neg h_error]
      have h_p : isNumbered c.sessionId p = true := decide_eq_true ⟨h_own, h_error⟩
      have h_not := isError_of_isNumbered h_p
      by_cases h_stale : p.seqNum < c.nextRecvSeq
      · rw [if_pos h_stale]
        exact (h.drop (firstOf_snoc_known (h.known h_stale)) h_not).again
      rw [if_neg h_stale]
      by_cases h_next : p.seqNum = c.nextRecvSeq
      · rw [if_pos h_next]
        -- Nothing of this number waits, so it has not come before: it waits and is handed on.
        have h_none : firstOf c.sessionId fs p.seqNum = none := by
          cases h_known : firstOf c.sessionId fs p.seqNum with
          | none => rfl
          | some f =>
            obtain ⟨-, -, h_seq⟩ := firstOf_some h_known
            rcases h.kept _ f h_known with h_k | h_f
            · exact absurd h_k h_stale
            · exact absurd (h_seq.trans h_next) (h.waits h_pc f h_f)
        have h_wait := h.wait h_p (Nat.le_of_eq h_next.symm)
        refine h_wait.hand h_n (h_numbers h_p) h_next ?_ h.sorted fun q => ?_
        · rw [firstOf_snoc_new h_p h_none, if_pos rfl]
        · have h_free : ∀ x ∈ c.pending, x.seqNum ≠ p.seqNum := by
            rw [h_next]
            exact h.waits h_pc
          show q ∈ c.pending ↔ q ∈ insertPending p c.pending ∧ q ≠ p
          rw [mem_insertPending h.sorted, and_iff_left h_free]
          constructor
          · intro h_q
            refine ⟨.inl h_q, ?_⟩
            rintro rfl
            exact h_free q h_q rfl
          · rintro ⟨h_q | h_q, h_ne⟩
            · exact h_q
            · exact absurd h_q h_ne
      · rw [if_neg h_next]
        exact h.wait h_p (by omega)
  · rw [if_pos h_own]
    have h_p : isNumbered c.sessionId p = false := decide_eq_false fun h_num => h_own h_num.1
    have h_not : isError c.sessionId p = false := decide_eq_false fun h_err => h_own h_err.1
    exact (h.drop (firstOf_snoc_other h_p) h_not).again

/-! ## Runs -/

/-- One step.  `as` are the steps before it. -/
theorem Reordered.step {as : List ClientStep} {a : ClientStep} {c' : Client}
    (h : Reordered sid n (arrived as) c) (h_n : n < 2 ^ 64)
    (h_numbers : ∀ f ∈ arrived (as ++ [a]), isNumbered sid f = true → f.seqNum < n)
    (h_step : clientStep c a = some c') : Reordered sid n (arrived (as ++ [a])) c' := by
  have h_snoc : arrived (as ++ [a]) = arrived as ++ [a].filterMap ClientStep.arrived :=
    List.filterMap_append
  have h_before : ∀ f ∈ arrived as, isNumbered sid f = true → f.seqNum < n := by
    intro f h_f
    exact h_numbers f (by rw [h_snoc]; exact List.mem_append_left _ h_f)
  -- A step that brings no frame leaves the list of frames as it is.
  have h_none : a.arrived = none → arrived (as ++ [a]) = arrived as := by
    intro h_a
    rw [h_snoc, List.filterMap_cons_none h_a, List.filterMap_nil, List.append_nil]
  cases a with
  | stop =>
    cases h_step
    rw [h_none rfl]
    exact h.of_same rfl rfl rfl rfl h.waits
  | ordered =>
    obtain ⟨-, h_eq⟩ := Option.ite_none_right_eq_some.mp h_step
    cases h_eq
    rw [h_none rfl]
    exact h.head h_n h_before
  | quit =>
    obtain ⟨-, h_eq⟩ := Option.ite_none_right_eq_some.mp h_step
    cases h_eq
    rw [h_none rfl]
    exact h.of_same rfl rfl rfl (handed_ret_none c) fun h_pc => by cases h_pc
  | recv r =>
    obtain ⟨⟨h_pc, -⟩, h_eq⟩ := Option.ite_none_right_eq_some.mp h_step
    cases h_eq
    cases r with
    | fatal =>
      rw [h_none rfl]
      exact h.of_same rfl rfl rfl (handed_ret_none c) fun h_pc => by cases h_pc
    | none =>
      rw [h_none rfl]
      exact h
    | skip =>
      rw [h_none rfl]
      exact h
    | frame f mem =>
      cases mem with
      | false =>
        rw [h_none rfl]
        exact h
      | true =>
        have h_f := h_numbers f (by rw [h_snoc]; exact List.mem_append_right _ List.mem_cons_self)
        rw [h_snoc]
        exact h.take h_n h_pc h_f

theorem reordered_run {as : List ClientStep} (h_n : n < 2 ^ 64)
    (h_numbers : ∀ f ∈ arrived as, isNumbered sid f = true → f.seqNum < n)
    (h_run : Lts.run clientStep (Client.start sid) as = some c) :
    Reordered sid n (arrived as) c := by
  induction as using List.reverseRecOn generalizing c with
  | nil =>
    cases h_run
    exact reordered_start sid n
  | append_singleton as a ih =>
    obtain ⟨m, h_as, h_step⟩ := Lts.run_snoc.mp h_run
    have h_before : ∀ f ∈ arrived as, isNumbered sid f = true → f.seqNum < n := by
      intro f h_f
      refine h_numbers f ?_
      rw [arrived, List.filterMap_append]
      exact List.mem_append_left _ h_f
    exact (ih h_before h_as).step h_n h_numbers h_step

/-- Before it waits for another frame, it has handed on the numbers that have come without a
    gap. -/
theorem Reordered.gap (h : Reordered sid n fs c) (h_pc : c.pc = .receiving) {m : Nat}
    (h_come : ∀ k ≤ m, (firstOf sid fs k).isSome = true) : m < c.nextRecvSeq := by
  by_contra h_more
  obtain ⟨f, h_f⟩ := Option.isSome_iff_exists.mp (h_come c.nextRecvSeq (by omega))
  rcases h.kept _ f h_f with h_k | h_mem
  · exact Nat.lt_irrefl _ h_k
  · exact h.waits h_pc f h_mem (firstOf_some h_f).2.2

end

/-- **Reordering.**  Of the frames there was memory for, the calls have handed on each number
    once, in order and with its first frame; before they wait for another frame they have handed
    on all numbers that came without a gap.  ERROR frames of the session are handed on as they
    come, nothing else is, and the early frames are sorted and not below what is expected. -/
theorem recvOrderedFrame_reorders {sid n : Nat} {as : List ClientStep} {c : Client}
    (h_n : n < 2 ^ 64) (h_numbers : ∀ f ∈ arrived as, isNumbered sid f = true → f.seqNum < n)
    (h_run : Lts.run clientStep (Client.start sid) as = some c) :
    (c.handed.filter (isNumbered sid)).map some =
        (List.range c.nextRecvSeq).map (firstOf sid (arrived as)) ∧
      (c.pc = .receiving → ∀ m, (∀ k ≤ m, (firstOf sid (arrived as) k).isSome = true) →
        m < c.nextRecvSeq) ∧
      c.handed.filter (isError sid) = (arrived as).filter (isError sid) ∧
      (∀ f ∈ c.handed, f.sessionId = sid) ∧
      Sorted c.pending ∧ ∀ p ∈ c.pending, c.nextRecvSeq ≤ p.seqNum := by
  have h := reordered_run h_n h_numbers h_run
  exact ⟨h.numbered, fun h_pc m => h.gap h_pc, h.errors, h.ours, h.sorted, h.early⟩

/-- Frame 1, then frame 0, of session 7. -/
def twoSteps (mem : Bool) : List ClientStep :=
  [.ordered, .recv (.frame (bytesFrame .stdout 7 1 [0x62]) true), .ordered,
    .recv (.frame (bytesFrame .stdout 7 0 [0x61]) mem)]

theorem recvOrderedFrame_reorders_two :
    ∃ c, Lts.run clientStep (Client.start 7) (twoSteps true) = some c ∧
      (c.handed.filter (isNumbered 7)).map some =
        (List.range c.nextRecvSeq).map (firstOf 7 (arrived (twoSteps true))) := by
  obtain ⟨c, h_run⟩ : ∃ c, Lts.run clientStep (Client.start 7) (twoSteps true) = some c :=
    ⟨_, rfl⟩
  exact ⟨c, h_run, (recvOrderedFrame_reorders (n := 2) (by decide) (by decide) h_run).1⟩

/-- Without memory for it frame 0 is lost, and frame 1 waits for good. -/
theorem recvOrderedFrame_noMemory :
    (∃ c, Lts.run clientStep (Client.start 7) (twoSteps false) = some c ∧ c.handed = []) ∧
      ¬ ∀ sid n as c, n < 2 ^ 64 → (∀ f ∈ came as, isNumbered sid f = true → f.seqNum < n) →
        Lts.run clientStep (Client.start sid) as = some c → c.pc = .receiving →
        ∀ m, (∀ k ≤ m, (firstOf sid (came as) k).isSome = true) →
          m < (c.handed.filter (isNumbered sid)).length := by
  have h_run : Lts.run clientStep (Client.start 7) (twoSteps false) =
      some ⟨7, true, [bytesFrame .stdout 7 1 [0x62]], 0, .receiving, []⟩ := by decide
  refine ⟨⟨_, h_run, rfl⟩, fun h_all => ?_⟩
  have h_two := h_all 7 2 (twoSteps false) _ (by decide) (by decide) h_run rfl 0 fun k h_k => by
    obtain rfl : k = 0 := by omega
    decide
  exact Nat.not_lt_zero 0 h_two

end IonContrib.Bpsh
