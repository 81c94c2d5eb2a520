/-
  IonContrib.Mysql.Cli

  The input daemon of the MySQL convergence layer (`mysqlcli.c`): the receiver
  thread locks the rows of a batch, hands their bundles to BP, deletes the rows
  by their ids and commits, pass after pass; after an error it drops the
  connection and opens another one.

  The failures of a pass (allocation, SQL, acquisition) are its environment.  A
  pass yields what it did, in order, and what it returns; the table is what the
  statements among that make of it.
-/
import IonContrib.Lib.Lts
import IonContrib.Lib.Transactions
import IonContrib.Mysql.CliStatement

namespace IonContrib.Mysql.Cli

open Transactions

inductive Sql
  | start
  | select (text : Octets)
  | delete (text : Octets)
  | commit
  | rollback
  /-- `mysql_close`. -/
  | disconnect
  deriving DecidableEq, Repr

inductive Effect
  | sql (stmt : Sql) (ok : Bool)
  /-- `idList[index]` is set. -/
  | listed (index id : Nat)
  /-- BP has taken a bundle. -/
  | handed (row : OutboundRow) (bundle : Octets)
  deriving DecidableEq, Repr

/-- What a pass returns; in the last case it has written behind the end of a buffer. -/
inductive Returned
  | failed
  | count (n : Nat)
  | overrun
  deriving DecidableEq, Repr

/-! ## Fetching -/

/-- What happens to a row that is fetched. -/
inductive Fetched
  | noLengths
  | beginFailed
  | continueFailed
  | endFailed
  | acquired
  deriving DecidableEq, Repr

/-- `bpBeginAcq`, `bpContinueAcq` and `bpEndAcq`; the length is passed on as an `int`, and BP
    refuses a negative one. -/
def acquire (f : Fetched) (payload : Octets) : Option Octets :=
  if f = .acquired ∧ 0 ≤ CText.toInt payload.length then
    some (payload.take (CText.toInt payload.length).toNat)
  else none

/-- The loop over the result from row `k` on, with `count` ids in the list; `none` when an
    acquisition has failed. -/
def fetchRows (fetched : Nat → Fetched) :
    Nat → Nat → List OutboundRow → List Effect × Option (List Nat)
  | _, _, [] => ([], some [])
  | k, count, row :: rows =>
    match row.payload with
    | none => fetchRows fetched (k + 1) count rows
    | some payload =>
      if fetched k = .noLengths then fetchRows fetched (k + 1) count rows
      else
        match acquire (fetched k) payload with
        | none => ([.listed count row.listed], none)
        | some bundle =>
          let (es, ids) := fetchRows fetched (k + 1) (count + 1) rows
          (.listed count row.listed :: .handed row bundle :: es, ids.map (row.listed :: ·))

/-! ## A pass -/

structure PassEnv where
  /-- Whether there is memory for `idList`. -/
  idMem : Bool
  start : Bool
  select : Bool
  store : Bool
  fetched : Nat → Fetched
  /-- Whether there is memory for the DELETE. -/
  deleteMem : Bool
  delete : Bool
  commit : Bool
  rollback : Bool

/-- The end of a pass that has `ids` in its list. -/
def deleteRows (cfg : MysqlCliConfig) (env : PassEnv) (ids : List Nat) : List Effect × Returned :=
  if ids = [] then ([.sql .commit env.commit], .count 0)
  else if env.deleteMem = false ∨ delLen cfg.table ids.length < 0 then
    ([.sql .rollback env.rollback], .failed)
  else
    match deleteQuery (delLen cfg.table ids.length).toNat cfg.table ids with
    | none => ([], .overrun)
    | some text =>
      if env.delete = false then
        ([.sql (.delete text) false, .sql .rollback env.rollback], .failed)
      else if env.commit = false then
        ([.sql (.delete text) true, .sql .commit false, .sql .rollback env.rollback], .failed)
      else ([.sql (.delete text) true, .sql .commit true], .count ids.length)

def processBatch (s : MysqlServer) (cfg : MysqlCliConfig) (ownFqnn : UInt64) (table : Outbound)
    (env : PassEnv) : List Effect × Returned :=
  let query := selectQuery s.toMysqlClient cfg ownFqnn
  if env.idMem = false then ([], .failed)
  else if env.start = false then ([.sql .start false], .failed)
  else if env.select = false then
    ([.sql .start true, .sql (.select query) false, .sql .rollback env.rollback], .failed)
  else if env.store = false then
    ([.sql .start true, .sql (.select query) true, .sql .rollback env.rollback], .failed)
  else
    let (es, ids) := fetchRows env.fetched 0 0 (table.select (s.selects query) (s.limit query))
    let locked := .sql .start true :: .sql (.select query) true :: es
    match ids with
    | none => (locked ++ [.sql .rollback env.rollback], .failed)
    | some ids =>
      let (es', returned) := deleteRows cfg env ids
      (locked ++ es', returned)

/-! ## What becomes of the table -/

/-- What a statement that succeeds does to the table. -/
def Effect.op (s : MysqlServer) : Effect → Option (Op Outbound)
  | .sql .start true => some .start
  | .sql (.delete text) true => some (.update fun table => table.remove (s.deletes text))
  | .sql .commit true => some .commit
  | .sql .rollback true => some .rollback
  | .sql .disconnect true => some .disconnect
  | _ => none

def Effect.handing : Effect → Option (OutboundRow × Octets)
  | .handed row bundle => some (row, bundle)
  | _ => none

/-- The rows whose bundles BP has, with the bundles. -/
def handed (es : List Effect) : List (OutboundRow × Octets) := es.filterMap Effect.handing

/-- The connection that a pass leaves behind: `receiveBundles` closes it after an error. -/
def closing : Returned → List Effect
  | .failed => [.sql .disconnect true]
  | _ => []

@[simp] theorem closing_count (n : Nat) : closing (.count n) = [] := rfl

@[simp] theorem closing_failed : closing .failed = [.sql .disconnect true] := rfl

/-- The table after a pass. -/
def tableAfter (s : MysqlServer) (table : Outbound) (p : List Effect × Returned) : Outbound :=
  ((Cell.mk table none).execs ((p.1 ++ closing p.2).filterMap (Effect.op s))).committed

/-! ## The receiver thread -/

structure CliState where
  table : Cell Outbound
  conn : Bool
  running : Bool
  ended : Bool
  /-- A pass has written behind the end of its buffer. -/
  stray : Bool
  log : List Effect

inductive Event
  /-- A round of the loop of `receiveBundles`. -/
  | round (pingOk connectOk : Bool) (env : PassEnv)
  /-- `shutDownCli`. -/
  | stop
  /-- Somebody else adds a row. -/
  | arrive (row : OutboundRow)

/-- The receiver thread at the head of its loop. -/
def CliState.start (table : Outbound) (conn : Bool) : CliState :=
  ⟨⟨table, none⟩, conn, true, false, false, []⟩

def emit (s : MysqlServer) (d : CliState) (es : List Effect) : CliState :=
  { d with
    table := d.table.execs (es.filterMap (Effect.op s))
    log := d.log ++ es }

/-- `mysql_close` where there is a connection. -/
def closeConn (s : MysqlServer) (d : CliState) : CliState :=
  if d.conn then { emit s d [.sql .disconnect true] with conn := false } else d

/-- The connection at the head of a round. -/
def ensureConn (s : MysqlServer) (d : CliState) (pingOk connectOk : Bool) : CliState :=
  if d.conn = true ∧ pingOk = true then d else { closeConn s d with conn := connectOk }

def pass (s : MysqlServer) (cfg : MysqlCliConfig) (ownFqnn : UInt64) (d : CliState)
    (env : PassEnv) : CliState :=
  let p := processBatch s cfg ownFqnn d.table.committed env
  match p.2 with
  | .failed => closeConn s (emit s d p.1)
  | .count _ => emit s d p.1
  | .overrun => { emit s d p.1 with stray := true }

def step (s : MysqlServer) (cfg : MysqlCliConfig) (ownFqnn : UInt64) (d : CliState) :
    Event → Option CliState
  | .round pingOk connectOk env =>
    if d.ended = true ∨ d.stray = true then none
    else if d.running = false then some { d with ended := true }
    else
      let d := ensureConn s d pingOk connectOk
      if d.conn = true then some (pass s cfg ownFqnn d env) else some d
  | .stop => some { d with running := false }
  | .arrive row =>
    match d.table.committed.insert row with
    | none => none
    | some table => some { d with table := d.table.other fun _ => table }

end IonContrib.Mysql.Cli
