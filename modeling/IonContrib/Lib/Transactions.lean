/-
  IonContrib.Lib.Transactions

  One connection to a store with transactions.  A statement that is executed
  outside a transaction takes effect at once, one inside it when the
  transaction is committed.  Starting a transaction commits the one that is
  open; closing the connection undoes it.

  A client that closes its connection after each transaction that failed
  leaves nothing behind but what it has committed (`execs_committed`,
  `rows_uncommitted`).

  `Cell` is the same for any updates of any value that others change as well:
  the open transaction is the function that its commit will apply.
-/
import Mathlib.Data.List.Basic

namespace IonContrib.Transactions

variable {ρ : Type*}

inductive Stmt (ρ : Type*)
  | start
  | insert (row : ρ)
  | commit
  | rollback
  /-- The connection is closed. -/
  | disconnect
  deriving DecidableEq, Repr

structure Store (ρ : Type*) where
  rows : List ρ
  /-- The rows of the open transaction. -/
  opened : Option (List ρ)
  deriving DecidableEq, Repr

/-- A store without rows. -/
def Store.empty : Store ρ := ⟨[], none⟩

/-- A statement that succeeds. -/
def Store.exec (s : Store ρ) : Stmt ρ → Store ρ
  | .start => ⟨s.rows ++ s.opened.getD [], some []⟩
  | .insert row =>
    match s.opened with
    | none => ⟨s.rows ++ [row], none⟩
    | some rows => ⟨s.rows, some (rows ++ [row])⟩
  | .commit => ⟨s.rows ++ s.opened.getD [], none⟩
  | .rollback => ⟨s.rows, none⟩
  | .disconnect => ⟨s.rows, none⟩

def Store.execs (s : Store ρ) (stmts : List (Stmt ρ)) : Store ρ := stmts.foldl Store.exec s

@[simp] theorem execs_nil (s : Store ρ) : s.execs [] = s := rfl

@[simp] theorem execs_cons (s : Store ρ) (stmt : Stmt ρ) (stmts : List (Stmt ρ)) :
    s.execs (stmt :: stmts) = (s.exec stmt).execs stmts := rfl

@[simp] theorem execs_append (s : Store ρ) (stmts stmts' : List (Stmt ρ)) :
    s.execs (stmts ++ stmts') = (s.execs stmts).execs stmts' := List.foldl_append

/-- Rows that are inserted into an open transaction wait in it. -/
theorem execs_inserts (rows waiting new : List ρ) :
    (⟨rows, some waiting⟩ : Store ρ).execs (new.map .insert) = ⟨rows, some (waiting ++ new)⟩ := by
  induction new generalizing waiting with
  | nil => rw [List.append_nil, List.map_nil, execs_nil]
  | cons row new ih =>
    show (⟨rows, some (waiting ++ [row])⟩ : Store ρ).execs (new.map .insert) = _
    rw [ih, List.append_assoc, List.singleton_append]

/-- A transaction that is committed. -/
theorem execs_committed (rows new : List ρ) :
    (⟨rows, none⟩ : Store ρ).execs (.start :: new.map .insert ++ [.commit]) =
      ⟨rows ++ new, none⟩ := by
  rw [List.cons_append, execs_cons, execs_append]
  show ((⟨rows ++ [], some []⟩ : Store ρ).execs (new.map .insert)).execs [.commit] = _
  rw [execs_inserts, List.append_nil]
  rfl

/-- A transaction that is not committed has left no row, whether it could be rolled back or not. -/
theorem rows_uncommitted (rows new : List ρ) {stmts : List (Stmt ρ)}
    (h : stmts = [] ∨ stmts = [.rollback]) :
    ((⟨rows, none⟩ : Store ρ).execs (.start :: new.map .insert ++ stmts)).rows = rows := by
  have h_open : (⟨rows, none⟩ : Store ρ).execs (.start :: new.map .insert) =
      ⟨rows, some new⟩ := by
    show (⟨rows ++ [], some []⟩ : Store ρ).execs (new.map .insert) = _
    rw [execs_inserts, List.append_nil, List.nil_append]
  rw [execs_append, h_open]
  rcases h with rfl | rfl
  · rfl
  · rfl

/-! ## Updates -/

inductive Op (σ : Type*)
  | start
  | update (f : σ → σ)
  | commit
  | rollback
  | disconnect

structure Cell (σ : Type*) where
  committed : σ
  /-- What the open transaction does. -/
  opened : Option (σ → σ)

namespace Cell

variable {σ : Type*}

def exec (c : Cell σ) : Op σ → Cell σ
  | .start => ⟨c.opened.getD id c.committed, some id⟩
  | .update f =>
    match c.opened with
    | none => ⟨f c.committed, none⟩
    | some g => ⟨c.committed, some (f ∘ g)⟩
  | .commit => ⟨c.opened.getD id c.committed, none⟩
  | .rollback => ⟨c.committed, none⟩
  | .disconnect => ⟨c.committed, none⟩

def execs (c : Cell σ) (ops : List (Op σ)) : Cell σ := ops.foldl exec c

/-- An update that someone else commits. -/
def other (c : Cell σ) (f : σ → σ) : Cell σ := ⟨f c.committed, c.opened⟩

@[simp] theorem execs_nil (c : Cell σ) : c.execs [] = c := rfl

@[simp] theorem execs_cons (c : Cell σ) (op : Op σ) (ops : List (Op σ)) :
    c.execs (op :: ops) = (c.exec op).execs ops := rfl

@[simp] theorem execs_append (c : Cell σ) (ops ops' : List (Op σ)) :
    c.execs (ops ++ ops') = (c.execs ops).execs ops' := List.foldl_append

/-- No open transaction has an update in it. -/
def Idle (c : Cell σ) : Prop := c.opened.getD id = id

/-- A new transaction does not depend on what an idle one has left behind. -/
theorem execs_start {c : Cell σ} (h : c.Idle) (ops : List (Op σ)) :
    c.execs (.start :: ops) = (⟨c.committed, none⟩ : Cell σ).execs (.start :: ops) := by
  show (⟨c.opened.getD id c.committed, some id⟩ : Cell σ).execs ops = _
  rw [h]
  rfl

/-- Updates in an open transaction wait in it. -/
theorem execs_updates (s : σ) (g : σ → σ) (fs : List (σ → σ)) :
    ∃ g', (⟨s, some g⟩ : Cell σ).execs (fs.map .update) = ⟨s, some g'⟩ := by
  induction fs generalizing g with
  | nil => exact ⟨g, rfl⟩
  | cons f fs ih => exact ih (f ∘ g)

/-- A transaction that is not committed before the connection is closed leaves no trace. -/
theorem execs_undone (s : σ) (fs : List (σ → σ)) {ops : List (Op σ)}
    (h : ops = [] ∨ ops = [.rollback]) :
    (⟨s, none⟩ : Cell σ).execs (.start :: fs.map .update ++ ops ++ [.disconnect]) = ⟨s, none⟩ := by
  obtain ⟨g, h_updates⟩ := execs_updates s id fs
  rw [execs_append, execs_append, execs_cons]
  show (((⟨s, some id⟩ : Cell σ).execs (fs.map .update)).execs ops).execs [.disconnect] = _
  rw [h_updates]
  rcases h with rfl | rfl
  · rfl
  · rfl

end Cell

end IonContrib.Transactions
