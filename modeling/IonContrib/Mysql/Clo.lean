/-
  IonContrib.Mysql.Clo

  The output daemon of the MySQL convergence layer (`mysqlclo.c`): the main
  thread takes bundles from BP and puts them into a batch of fixed size, the
  flush thread takes the whole batch, inserts it in one transaction and reports
  each of its bundles.

  A step is one critical section, one wait, one round of the reconnect loop,
  one transaction or one report, so a run is an interleaving of the two threads
  at the granularity of their locks.  What BP, the memory, the connection and
  the server do is in the labels.
-/
import IonContrib.Lib.Lts
import IonContrib.Lib.Transactions
import IonContrib.Mysql.Statement

namespace IonContrib.Mysql

open Transactions

/-! ## State -/

inductive Effect
  /-- BP hands a bundle over. -/
  | taken (zco : Nat) (payload : Octets)
  /-- `main` reports a failure for a bundle that it does not put into the batch. -/
  | refused (zco : Nat) (payload : Octets)
  /-- An item is written into the array. -/
  | stored (index : Nat) (item : BatchItem)
  | sql (stmt : Stmt Octets) (ok : Bool)
  /-- The flush thread reports a bundle. -/
  | settled (item : BatchItem) (success : Bool)
  deriving DecidableEq, Repr

inductive MainPc
  | starting
  /-- At the head of the loop. -/
  | looping
  | dequeuing
  /-- About to take the mutex. -/
  | holding (item : BatchItem)
  /-- Waits for `notFull`. -/
  | fullWait (item : BatchItem) (signalled : Bool)
  | closing
  | joining
  | ended
  /-- `CHKZERO` has made `main` return, which ends the process. -/
  | exited
  deriving DecidableEq, Repr

inductive FlushPc
  | absent
  | starting
  /-- It did not get its buffers. -/
  | failed
  /-- About to take the mutex at the head of the loop. -/
  | looking
  /-- Waits for `notEmpty`. -/
  | emptyWait (signalled : Bool)
  /-- Waits for `notEmpty` or the end of the flush window. -/
  | fillWait (signalled : Bool)
  /-- About to take the mutex after that. -/
  | filling (expired : Bool)
  | connecting (batch : List BatchItem)
  | inserting (batch : List BatchItem)
  | settling (batch : List BatchItem) (ok : Bool)
  | ended
  deriving DecidableEq, Repr

structure CloState where
  main : MainPc
  flusher : FlushPc
  semEnded : Bool
  /-- The array. -/
  items : List BatchItem
  count : Nat
  running : Bool
  conn : Bool
  log : List Effect
  deriving DecidableEq, Repr

/-- `main` before it creates the flush thread. -/
def CloState.start (cfg : MysqlClaConfig) : CloState :=
  ⟨.starting, .absent, false, List.replicate cfg.batch ⟨0, [], 0, [], []⟩, 0, true, false, []⟩

/-! ## Operations of the main thread -/

/-- What becomes of a bundle on its way into the batch. -/
structure DequeueEnv where
  lengthXn : Bool
  transmitXn : Bool
  transmitOk : Bool
  payloadMem : Bool
  failureOk : Bool

/-- What `bpDequeue` yields. -/
inductive Dequeued
  | failed
  /-- Outduct closed. -/
  | closed
  | corrupt
  | bundle (zco : Nat) (payload : Octets) (env : DequeueEnv)

/-- The source and the destination that the primary block of a bundle names. -/
abbrev EidReader := Octets → Option (Option Octets × Option Octets)

def batchItem (eids : EidReader) (zco : Nat) (payload : Octets) : BatchItem :=
  ⟨zco, payload, payload.length, (mysqlExtractEids eids payload).1, (mysqlExtractEids eids payload).2⟩

/-- The part of the loop that handles a bundle, up to the mutex. -/
def takeBundle (cfg : MysqlClaConfig) (eids : EidReader) (d : CloState) (zco : Nat)
    (payload : Octets) (env : DequeueEnv) : CloState :=
  if env.lengthXn = false then
    { d with main := .exited, log := d.log ++ [.taken zco payload] }
  else if payload.length > cfg.bufSz then
    { d with
      main := if env.failureOk then .looping else .closing
      log := d.log ++ [.taken zco payload, .refused zco payload] }
  else if env.transmitXn = false then
    { d with main := .exited, log := d.log ++ [.taken zco payload] }
  else if env.transmitOk = false then
    { d with main := .closing, log := d.log ++ [.taken zco payload] }
  else if env.payloadMem = false then
    { d with main := .looping, log := d.log ++ [.taken zco payload, .refused zco payload] }
  else
    { d with main := .holding (batchItem eids zco payload), log := d.log ++ [.taken zco payload] }

def mainDequeue (cfg : MysqlClaConfig) (eids : EidReader) (d : CloState) : Dequeued → CloState
  | .failed => { d with main := .closing }
  | .closed => { d with main := .looping, semEnded := true }
  | .corrupt => { d with main := .looping }
  | .bundle zco payload env => takeBundle cfg eids d zco payload env

/-- `pthread_cond_signal` or `pthread_cond_broadcast` on `notEmpty`. -/
def FlushPc.signal : FlushPc → FlushPc
  | .emptyWait _ => .emptyWait true
  | .fillWait _ => .fillWait true
  | pc => pc

/-- `pthread_cond_broadcast` on `notFull`. -/
def MainPc.signal : MainPc → MainPc
  | .fullWait item _ => .fullWait item true
  | pc => pc

/-- The critical section of the main thread. -/
def mainPut (cfg : MysqlClaConfig) (d : CloState) (item : BatchItem) : CloState :=
  if d.count = cfg.batch ∧ d.running = true then { d with main := .fullWait item false }
  else
    { d with
      main := .looping
      items := d.items.set d.count item
      count := d.count + 1
      flusher := d.flusher.signal
      log := d.log ++ [.stored d.count item] }

/-! ## Operations of the flush thread -/

/-- The flush thread takes the batch. -/
def takeBatch (d : CloState) : CloState :=
  { d with
    flusher := .connecting (d.items.take d.count)
    count := 0
    main := d.main.signal }

/-- `mysql_close` if there is a connection. -/
def closeConn (d : CloState) : CloState :=
  if d.conn then { d with conn := false, log := d.log ++ [.sql .disconnect true] } else d

/-- The loop of `flushBundles` from its head. -/
def flushLook (cfg : MysqlClaConfig) (d : CloState) : CloState :=
  if d.running = false ∧ d.count = 0 then { closeConn d with flusher := .ended }
  else if d.count = 0 then { d with flusher := .emptyWait false }
  else if d.count < cfg.batch ∧ d.running = true ∧ cfg.flushMs > 0 then
    { d with flusher := .fillWait false }
  else takeBatch d

/-- The loop that lets a batch fill. -/
def flushFill (cfg : MysqlClaConfig) (d : CloState) (expired : Bool) : CloState :=
  if expired = false ∧ d.count < cfg.batch ∧ d.running = true then
    { d with flusher := .fillWait false }
  else takeBatch d

/-- A round of the reconnect loop. -/
def flushConnect (d : CloState) (batch : List BatchItem) (pingOk connectOk : Bool) : CloState :=
  if (d.conn = true ∧ pingOk = true) ∨ d.running = false then
    { d with flusher := .inserting batch }
  else { closeConn d with conn := connectOk }

/-- The loop of `insertBatch`; `sql k` is the outcome of its `k`-th statement. -/
def insertItems (m : MysqlClient) (cfg : MysqlClaConfig) (sql : Nat → Bool) (k : Nat) :
    List BatchItem → List Effect × Bool
  | [] => ([], true)
  | item :: items =>
    if sql k then
      let (es, ok) := insertItems m cfg sql (k + 1) items
      (.sql (.insert (query m cfg item)) true :: es, ok)
    else ([.sql (.insert (query m cfg item)) false, .sql .rollback (sql (k + 1))], false)

def insertBatch (m : MysqlClient) (cfg : MysqlClaConfig) (sql : Nat → Bool)
    (batch : List BatchItem) : List Effect × Bool :=
  if sql 0 = false then ([.sql .start false], false)
  else
    match insertItems m cfg sql 1 batch with
    | (es, false) => (.sql .start true :: es, false)
    | (es, true) =>
      if sql (batch.length + 1) then (.sql .start true :: es ++ [.sql .commit true], true)
      else
        (.sql .start true :: es ++ [.sql .commit false, .sql .rollback (sql (batch.length + 2))],
          false)

def flushInsert (m : MysqlClient) (cfg : MysqlClaConfig) (d : CloState) (batch : List BatchItem)
    (sql : Nat → Bool) : CloState :=
  if d.conn then
    let (es, ok) := insertBatch m cfg sql batch
    { d with flusher := .settling batch ok, log := d.log ++ es }
  else { d with flusher := .settling batch false }

/-- One report, or what follows the last one. -/
def flushSettle (d : CloState) (ok : Bool) : List BatchItem → CloState
  | [] => if ok then { d with flusher := .looking } else { closeConn d with flusher := .looking }
  | item :: batch => { d with flusher := .settling batch ok, log := d.log ++ [.settled item ok] }

/-! ## Steps -/

inductive Event
  | begin (itemsMem threadOk : Bool)
  /-- `shutDownClo`. -/
  | sigterm
  | top
  | dequeue (o : Dequeued)
  /-- The main thread gets the mutex. -/
  | put
  | fullWake (spurious : Bool)
  | close
  | join
  | buffers (ok : Bool)
  /-- The flush thread gets the mutex. -/
  | look
  | wake (spurious : Bool)
  | timeout
  | fill
  | connect (pingOk connectOk : Bool)
  | insert (sql : Nat → Bool)
  | settle

def act (m : MysqlClient) (cfg : MysqlClaConfig) (eids : EidReader) (d : CloState) :
    Event → Option CloState
  | .begin itemsMem threadOk =>
    if d.main = .starting then
      if itemsMem && threadOk then some { d with main := .looping, flusher := .starting }
      else some { d with main := .ended }
    else none
  | .sigterm => some { d with semEnded := true }
  | .top =>
    if d.main = .looping then
      some { d with main := if d.semEnded then .closing else .dequeuing }
    else none
  | .dequeue o => if d.main = .dequeuing then some (mainDequeue cfg eids d o) else none
  | .put =>
    match d.main with
    | .holding item => some (mainPut cfg d item)
    | _ => none
  | .fullWake spurious =>
    match d.main with
    | .fullWait item signalled =>
      if signalled || spurious then some { d with main := .holding item } else none
    | _ => none
  | .close =>
    if d.main = .closing then
      some { d with main := .joining, running := false, flusher := d.flusher.signal }
    else none
  | .join =>
    if d.main = .joining ∧ (d.flusher = .ended ∨ d.flusher = .failed) then
      some { d with main := .ended }
    else none
  | .buffers ok =>
    if d.flusher = .starting then
      if ok = true ∧ SizesOk cfg then some { d with flusher := .looking }
      -- `ionKillMainThread`.
      else some { d with flusher := .failed, semEnded := true }
    else none
  | .look => if d.flusher = .looking then some (flushLook cfg d) else none
  | .wake spurious =>
    match d.flusher with
    | .emptyWait signalled =>
      if signalled || spurious then some { d with flusher := .looking } else none
    | .fillWait signalled =>
      if signalled || spurious then some { d with flusher := .filling false } else none
    | _ => none
  | .timeout =>
    match d.flusher with
    | .fillWait _ => some { d with flusher := .filling true }
    | _ => none
  | .fill =>
    match d.flusher with
    | .filling expired => some (flushFill cfg d expired)
    | _ => none
  | .connect pingOk connectOk =>
    match d.flusher with
    | .connecting batch => some (flushConnect d batch pingOk connectOk)
    | _ => none
  | .insert sql =>
    match d.flusher with
    | .inserting batch => some (flushInsert m cfg d batch sql)
    | _ => none
  | .settle =>
    match d.flusher with
    | .settling batch ok => some (flushSettle d ok batch)
    | _ => none

/-- Nothing runs any more when the process has exited. -/
def step (m : MysqlClient) (cfg : MysqlClaConfig) (eids : EidReader) (d : CloState) (e : Event) :
    Option CloState :=
  if d.main = .exited then none else act m cfg eids d e

theorem step_eq_some {m : MysqlClient} {cfg : MysqlClaConfig} {eids : EidReader}
    {d d' : CloState} {e : Event} (h : step m cfg eids d e = some d') :
    act m cfg eids d e = some d' := by
  rw [step] at h
  split at h
  · cases h
  · exact h

/-! ## The two threads -/

/-- In the loop of `main`. -/
def MainPc.inLoop : MainPc → Bool
  | .starting => false
  | .joining => false
  | .ended => false
  | _ => true

/-- The flush thread has its buffers. -/
def FlushPc.hasBuffers : FlushPc → Bool
  | .absent => false
  | .starting => false
  | .failed => false
  | _ => true

/-- Neither waits nor has ended. -/
def FlushPc.busy : FlushPc → Bool
  | .absent => false
  | .emptyWait _ => false
  | .fillWait _ => false
  | .ended => false
  | _ => true

/-- What the two threads know of each other; a thread that waits has been signalled if there is
    something for it to do. -/
structure CloOk (cfg : MysqlClaConfig) (d : CloState) : Prop where
  length : d.items.length = cfg.batch
  count : d.count ≤ cfg.batch
  stopped : d.running = false → d.main = .joining ∨ d.main = .ended
  joining : d.main = .joining → d.running = false ∧ d.flusher ≠ .absent
  full : ∀ item, d.main = .fullWait item false → d.count = cfg.batch
  empty : d.flusher = .emptyWait false → d.count = 0 ∧ d.running = true
  fill : d.flusher = .fillWait false → d.count < cfg.batch ∧ d.running = true
  done : d.flusher = .ended → d.running = false ∧ d.count = 0
  absent : d.flusher = .absent → d.main.inLoop = false
  starting : d.main = .starting → d.flusher = .absent
  sizes : d.flusher.hasBuffers = true → SizesOk cfg

theorem cloOk_start (cfg : MysqlClaConfig) : CloOk cfg (.start cfg) where
  length := List.length_replicate
  count := Nat.zero_le _
  stopped := by intro h; cases h
  joining := by intro h; cases h
  full := by intro item h; cases h
  empty := by intro h; cases h
  fill := by intro h; cases h
  done := by intro h; cases h
  absent := fun _ => rfl
  starting := fun _ => rfl
  sizes := by intro h; cases h

section

variable {cfg : MysqlClaConfig} {d : CloState}

/-- A signal moves only a thread that waits. -/
theorem MainPc.of_signal_eq {pc pc' : MainPc} (h : ∀ item b, pc ≠ .fullWait item b)
    (h_eq : pc'.signal = pc) : pc' = pc := by
  cases pc' with
  | fullWait item b => exact absurd h_eq.symm (h item true)
  | _ => exact h_eq

theorem FlushPc.of_signal_eq {pc pc' : FlushPc} (h : ∀ b, pc ≠ .emptyWait b ∧ pc ≠ .fillWait b)
    (h_eq : pc'.signal = pc) : pc' = pc := by
  cases pc' with
  | emptyWait b => exact absurd h_eq.symm (h true).1
  | fillWait b => exact absurd h_eq.symm (h true).2
  | _ => exact h_eq

theorem FlushPc.signal_awake (pc : FlushPc) :
    pc.signal ≠ .emptyWait false ∧ pc.signal ≠ .fillWait false := by
  cases pc <;> simp [FlushPc.signal]

@[simp] theorem FlushPc.hasBuffers_signal (pc : FlushPc) :
    pc.signal.hasBuffers = pc.hasBuffers := by
  cases pc <;> rfl

theorem CloOk.running_of_loop (h : CloOk cfg d) (h_loop : d.main.inLoop = true) :
    d.running = true := by
  by_contra h_not
  rcases h.stopped (Bool.eq_false_iff.mpr h_not) with h_join | h_end
  · rw [h_join] at h_loop
    cases h_loop
  · rw [h_end] at h_loop
    cases h_loop

/-- The main thread stays in its loop and does not wait. -/
theorem CloOk.loop (h : CloOk cfg d) (h_loop : d.main.inLoop = true) {pc : MainPc}
    (h_pc : pc.inLoop = true) (h_wait : ∀ item, pc ≠ .fullWait item false) (sem : Bool)
    (log : List Effect) : CloOk cfg { d with main := pc, semEnded := sem, log := log } := by
  have h_run := h.running_of_loop h_loop
  refine ⟨h.length, h.count, ?_, ?_, ?_, h.empty, h.fill, h.done, ?_, ?_, h.sizes⟩
  · intro h_stop
    rw [h_run] at h_stop
    cases h_stop
  · intro h_join
    obtain rfl : pc = .joining := h_join
    cases h_pc
  · exact fun item h_full => absurd h_full (h_wait item)
  · intro h_none
    rw [h.absent h_none] at h_loop
    cases h_loop
  · intro h_start
    obtain rfl : pc = .starting := h_start
    cases h_pc

/-- The flush thread moves on, and neither waits nor ends. -/
theorem CloOk.flusher (h : CloOk cfg d) (h_there : d.flusher ≠ .absent) {pc : FlushPc}
    (h_pc : pc.busy = true)
    (h_sizes : pc.hasBuffers = true → SizesOk cfg) (sem conn : Bool) (log : List Effect) :
    CloOk cfg { d with flusher := pc, semEnded := sem, conn := conn, log := log } := by
  have h_not : ∀ pc', pc'.busy = false → pc ≠ pc' := by
    rintro pc' h_idle rfl
    rw [h_pc] at h_idle
    cases h_idle
  refine ⟨h.length, h.count, h.stopped, ?_, h.full, ?_, ?_, ?_, ?_, ?_, h_sizes⟩
  · exact fun h_join => ⟨(h.joining h_join).1, h_not _ rfl⟩
  · exact fun h_eq => absurd h_eq (h_not _ rfl)
  · exact fun h_eq => absurd h_eq (h_not _ rfl)
  · exact fun h_eq => absurd h_eq (h_not _ rfl)
  · exact fun h_eq => absurd h_eq (h_not _ rfl)
  · exact fun h_start => absurd (h.starting h_start) h_there

theorem CloOk.close (h : CloOk cfg d) : CloOk cfg (closeConn d) := by
  rw [closeConn]
  split
  · exact ⟨h.length, h.count, h.stopped, h.joining, h.full, h.empty, h.fill, h.done, h.absent,
      h.starting, h.sizes⟩
  · exact h

/-- The main thread is past its start. -/
theorem CloOk.begun (h : CloOk cfg d) (h_there : d.flusher ≠ .absent) : d.main ≠ .starting :=
  fun h_start => h_there (h.starting h_start)

theorem takeBatch_cloOk (h : CloOk cfg d) (h_there : d.flusher ≠ .absent)
    (h_sizes : SizesOk cfg) : CloOk cfg (takeBatch d) := by
  have h_back : d.main = .joining ∨ d.main = .ended →
      d.main.signal = .joining ∨ d.main.signal = .ended := by
    rintro (h_main | h_main)
    · exact .inl (by rw [h_main]; rfl)
    · exact .inr (by rw [h_main]; rfl)
  refine ⟨h.length, Nat.zero_le _, fun h_stop => h_back (h.stopped h_stop), ?_, ?_,
    by simp [takeBatch], by simp [takeBatch], by simp [takeBatch], by simp [takeBatch], ?_,
    fun _ => h_sizes⟩
  · intro h_join
    exact ⟨(h.joining (MainPc.of_signal_eq (by simp) h_join)).1, by simp [takeBatch]⟩
  · intro item h_full
    have h_full : d.main.signal = .fullWait item false := h_full
    cases h_main : d.main <;> rw [h_main] at h_full <;> cases h_full
  · exact fun h_start => absurd (MainPc.of_signal_eq (by simp) h_start) (h.begun h_there)

theorem flushLook_cloOk (h : CloOk cfg d) (h_look : d.flusher = .looking) :
    CloOk cfg (flushLook cfg d) := by
  have h_sizes : SizesOk cfg := h.sizes (by rw [h_look]; rfl)
  have h_there : d.flusher ≠ .absent := by simp [h_look]
  have h_begun := h.begun h_there
  rw [flushLook]
  by_cases h_stop : d.running = false ∧ d.count = 0
  · rw [if_pos h_stop]
    have h_close := h.close
    have h_same : (closeConn d).running = false ∧ (closeConn d).count = 0 ∧
        (closeConn d).main = d.main := by
      rw [closeConn]
      split <;> exact ⟨h_stop.1, h_stop.2, rfl⟩
    exact ⟨h_close.length, h_close.count, h_close.stopped,
      fun h_join => ⟨h_same.1, by simp⟩, h_close.full, by simp, by simp,
      fun _ => ⟨h_same.1, h_same.2.1⟩, by simp, fun h_start => absurd (h_same.2.2.symm.trans h_start)
        h_begun, fun _ => h_sizes⟩
  rw [if_neg h_stop]
  by_cases h_zero : d.count = 0
  · rw [if_pos h_zero]
    have h_run : d.running = true := by
      by_contra h_not
      exact h_stop ⟨Bool.eq_false_iff.mpr h_not, h_zero⟩
    exact ⟨h.length, h.count, h.stopped, fun h_join => ⟨(h.joining h_join).1, by simp⟩, h.full,
      fun _ => ⟨h_zero, h_run⟩, by simp, by simp, by simp,
      fun h_start => absurd h_start h_begun, fun _ => h_sizes⟩
  rw [if_neg h_zero]
  split
  · rename_i h_fill
    exact ⟨h.length, h.count, h.stopped, fun h_join => ⟨(h.joining h_join).1, by simp⟩, h.full,
      by simp, fun _ => ⟨h_fill.1, h_fill.2.1⟩, by simp, by simp,
      fun h_start => absurd h_start h_begun, fun _ => h_sizes⟩
  · exact takeBatch_cloOk h h_there h_sizes

theorem flushFill_cloOk (h : CloOk cfg d) {expired : Bool} (h_fl : d.flusher = .filling expired) :
    CloOk cfg (flushFill cfg d expired) := by
  have h_sizes : SizesOk cfg := h.sizes (by rw [h_fl]; rfl)
  have h_there : d.flusher ≠ .absent := by simp [h_fl]
  rw [flushFill]
  split
  · rename_i h_fill
    exact ⟨h.length, h.count, h.stopped, fun h_join => ⟨(h.joining h_join).1, by simp⟩, h.full,
      by simp, fun _ => h_fill.2, by simp, by simp,
      fun h_start => absurd h_start (h.begun h_there), fun _ => h_sizes⟩
  · exact takeBatch_cloOk h h_there h_sizes

theorem flushConnect_cloOk (h : CloOk cfg d) {batch : List BatchItem}
    (h_fl : d.flusher = .connecting batch) (pingOk connectOk : Bool) :
    CloOk cfg (flushConnect d batch pingOk connectOk) := by
  have h_sizes : SizesOk cfg := h.sizes (by rw [h_fl]; rfl)
  rw [flushConnect]
  split
  · exact h.flusher (by simp [h_fl]) rfl (fun _ => h_sizes) d.semEnded d.conn d.log
  · have h_close := h.close
    exact ⟨h_close.length, h_close.count, h_close.stopped, h_close.joining, h_close.full,
      h_close.empty, h_close.fill, h_close.done, h_close.absent, h_close.starting, h_close.sizes⟩

theorem flushInsert_cloOk (h : CloOk cfg d) (m : MysqlClient) {batch : List BatchItem}
    (h_fl : d.flusher = .inserting batch) (sql : Nat → Bool) :
    CloOk cfg (flushInsert m cfg d batch sql) := by
  have h_sizes : SizesOk cfg := h.sizes (by rw [h_fl]; rfl)
  rw [flushInsert]
  split
  · exact h.flusher (by simp [h_fl]) rfl (fun _ => h_sizes) d.semEnded d.conn _
  · exact h.flusher (by simp [h_fl]) rfl (fun _ => h_sizes) d.semEnded d.conn d.log

theorem flushSettle_cloOk (h : CloOk cfg d) {batch : List BatchItem} {ok : Bool}
    (h_fl : d.flusher = .settling batch ok) : CloOk cfg (flushSettle d ok batch) := by
  have h_sizes : SizesOk cfg := h.sizes (by rw [h_fl]; rfl)
  cases batch with
  | nil =>
    rw [flushSettle]
    split
    · exact h.flusher (by simp [h_fl]) rfl (fun _ => h_sizes) d.semEnded d.conn d.log
    · have h_there : (closeConn d).flusher ≠ .absent := by
        rw [closeConn]
        split <;> simp [h_fl]
      exact h.close.flusher h_there rfl (fun _ => h_sizes) (closeConn d).semEnded
        (closeConn d).conn (closeConn d).log
  | cons item batch =>
    exact h.flusher (by simp [h_fl]) rfl (fun _ => h_sizes) d.semEnded d.conn _

theorem takeBundle_cloOk (h : CloOk cfg d) (h_loop : d.main.inLoop = true) (eids : EidReader)
    (zco : Nat) (payload : Octets) (env : DequeueEnv) :
    CloOk cfg (takeBundle cfg eids d zco payload env) := by
  rw [takeBundle]
  split
  · exact h.loop h_loop rfl (by simp) d.semEnded _
  split
  · refine h.loop h_loop ?_ ?_ d.semEnded _
    · cases env.failureOk <;> rfl
    · cases env.failureOk <;> simp
  split
  · exact h.loop h_loop rfl (by simp) d.semEnded _
  split
  · exact h.loop h_loop rfl (by simp) d.semEnded _
  split
  · exact h.loop h_loop rfl (by simp) d.semEnded _
  · exact h.loop h_loop rfl (by simp) d.semEnded _

/-- The array has room for the item that is written. -/
theorem CloOk.room (h : CloOk cfg d) (h_loop : d.main.inLoop = true)
    (h_put : ¬ (d.count = cfg.batch ∧ d.running = true)) : d.count < cfg.batch := by
  have h_run := h.running_of_loop h_loop
  have h_count := h.count
  have h_ne : d.count ≠ cfg.batch := fun h_eq => h_put ⟨h_eq, h_run⟩
  omega

theorem mainPut_cloOk (h : CloOk cfg d) {item : BatchItem} (h_main : d.main = .holding item) :
    CloOk cfg (mainPut cfg d item) := by
  have h_loop : d.main.inLoop = true := by
    rw [h_main]
    rfl
  have h_run := h.running_of_loop h_loop
  have h_there : d.flusher ≠ .absent := by
    intro h_none
    rw [h.absent h_none] at h_loop
    cases h_loop
  rw [mainPut]
  split
  · rename_i h_full
    refine ⟨h.length, h.count, ?_, by simp, fun _ _ => h_full.1, h.empty, h.fill, h.done, ?_,
      by simp, h.sizes⟩
    · intro h_stop
      rw [h_run] at h_stop
      cases h_stop
    · exact fun h_none => absurd h_none h_there
  · rename_i h_put
    have h_room := h.room h_loop h_put
    refine ⟨?_, h_room, ?_, by simp, by simp, ?_, ?_, ?_, ?_, by simp, ?_⟩
    · rw [List.length_set, h.length]
    · intro h_stop
      rw [h_run] at h_stop
      cases h_stop
    · exact fun h_eq => absurd h_eq d.flusher.signal_awake.1
    · exact fun h_eq => absurd h_eq d.flusher.signal_awake.2
    · intro h_end
      have h_stop := (h.done (FlushPc.of_signal_eq (by simp) h_end)).1
      rw [h_run] at h_stop
      cases h_stop
    · exact fun h_none => absurd (FlushPc.of_signal_eq (by simp) h_none) h_there
    · exact fun h_has => h.sizes (d.flusher.hasBuffers_signal ▸ h_has)

end

theorem step_cloOk {m : MysqlClient} {cfg : MysqlClaConfig} {eids : EidReader} {d d' : CloState}
    {e : Event} (h : CloOk cfg d) (h_step : step m cfg eids d e = some d') : CloOk cfg d' := by
  have h_act := step_eq_some h_step
  cases e with
  | begin itemsMem threadOk =>
    simp only [act] at h_act
    split at h_act
    · rename_i h_main
      have h_run : d.running = true := by
        by_contra h_not
        rcases h.stopped (Bool.eq_false_iff.mpr h_not) with h_join | h_end
        · rw [h_main] at h_join
          cases h_join
        · rw [h_main] at h_end
          cases h_end
      split at h_act
      · obtain rfl := Option.some.inj h_act
        refine ⟨h.length, h.count, ?_, by simp, by simp, by simp, by simp, by simp, by simp,
          by simp, ?_⟩
        · intro h_stop
          rw [h_run] at h_stop
          cases h_stop
        · intro h_has
          cases h_has
      · obtain rfl := Option.some.inj h_act
        exact ⟨h.length, h.count, fun _ => .inr rfl, by simp, by simp, h.empty, h.fill, h.done,
          fun _ => rfl, by simp, h.sizes⟩
    · cases h_act
  | sigterm =>
    obtain rfl := Option.some.inj h_act
    exact ⟨h.length, h.count, h.stopped, h.joining, h.full, h.empty, h.fill, h.done, h.absent,
      h.starting, h.sizes⟩
  | top =>
    simp only [act] at h_act
    split at h_act
    · rename_i h_main
      obtain rfl := Option.some.inj h_act
      refine h.loop (by rw [h_main]; rfl) ?_ ?_ d.semEnded d.log
      · cases d.semEnded <;> rfl
      · cases d.semEnded <;> simp
    · cases h_act
  | dequeue o =>
    simp only [act] at h_act
    split at h_act
    · rename_i h_main
      obtain rfl := Option.some.inj h_act
      have h_loop : d.main.inLoop = true := by
        rw [h_main]
        rfl
      cases o with
      | failed => exact h.loop h_loop rfl (by simp) d.semEnded d.log
      | closed => exact h.loop h_loop rfl (by simp) true d.log
      | corrupt => exact h.loop h_loop rfl (by simp) d.semEnded d.log
      | bundle zco payload env => exact takeBundle_cloOk h h_loop eids zco payload env
    · cases h_act
  | put =>
    simp only [act] at h_act
    split at h_act
    · rename_i item h_main
      obtain rfl := Option.some.inj h_act
      exact mainPut_cloOk h h_main
    · cases h_act
  | fullWake spurious =>
    simp only [act] at h_act
    split at h_act
    · rename_i item signalled h_main
      split at h_act
      · obtain rfl := Option.some.inj h_act
        exact h.loop (by rw [h_main]; rfl) rfl (by simp) d.semEnded d.log
      · cases h_act
    · cases h_act
  | close =>
    simp only [act] at h_act
    split at h_act
    · rename_i h_main
      obtain rfl := Option.some.inj h_act
      have h_loop : d.main.inLoop = true := by
        rw [h_main]
        rfl
      have h_there : d.flusher.signal ≠ .absent := by
        intro h_none
        rw [h.absent (FlushPc.of_signal_eq (by simp) h_none)] at h_loop
        cases h_loop
      refine ⟨h.length, h.count, fun _ => .inl rfl, fun _ => ⟨rfl, h_there⟩, by simp, ?_, ?_, ?_,
        fun h_none => absurd h_none h_there, by simp, ?_⟩
      · exact fun h_eq => absurd h_eq d.flusher.signal_awake.1
      · exact fun h_eq => absurd h_eq d.flusher.signal_awake.2
      · exact fun h_end => ⟨rfl, (h.done (FlushPc.of_signal_eq (by simp) h_end)).2⟩
      · exact fun h_has => h.sizes (d.flusher.hasBuffers_signal ▸ h_has)
    · cases h_act
  | join =>
    simp only [act] at h_act
    split at h_act
    · obtain rfl := Option.some.inj h_act
      exact ⟨h.length, h.count, fun _ => .inr rfl, by simp, by simp, h.empty, h.fill, h.done,
        fun _ => rfl, by simp, h.sizes⟩
    · cases h_act
  | buffers ok =>
    simp only [act] at h_act
    split at h_act
    · rename_i h_fl
      split at h_act
      · rename_i h_ok
        obtain rfl := Option.some.inj h_act
        exact h.flusher (by simp [h_fl]) rfl (fun _ => h_ok.2) d.semEnded d.conn d.log
      · obtain rfl := Option.some.inj h_act
        refine h.flusher (by simp [h_fl]) rfl ?_ true d.conn d.log
        intro h_has
        cases h_has
    · cases h_act
  | look =>
    simp only [act] at h_act
    split at h_act
    · rename_i h_look
      obtain rfl := Option.some.inj h_act
      exact flushLook_cloOk h h_look
    · cases h_act
  | wake spurious =>
    simp only [act] at h_act
    split at h_act
    · rename_i h_wait
      split at h_act
      · obtain rfl := Option.some.inj h_act
        exact h.flusher (by simp [h_wait]) rfl (fun _ => h.sizes (by rw [h_wait]; rfl)) d.semEnded
          d.conn d.log
      · cases h_act
    · rename_i h_wait
      split at h_act
      · obtain rfl := Option.some.inj h_act
        exact h.flusher (by simp [h_wait]) rfl (fun _ => h.sizes (by rw [h_wait]; rfl)) d.semEnded
          d.conn d.log
      · cases h_act
    · cases h_act
  | timeout =>
    simp only [act] at h_act
    split at h_act
    · rename_i h_wait
      obtain rfl := Option.some.inj h_act
      exact h.flusher (by simp [h_wait]) rfl (fun _ => h.sizes (by rw [h_wait]; rfl)) d.semEnded
          d.conn d.log
    · cases h_act
  | fill =>
    simp only [act] at h_act
    split at h_act
    · rename_i expired h_fl
      obtain rfl := Option.some.inj h_act
      exact flushFill_cloOk h h_fl
    · cases h_act
  | connect pingOk connectOk =>
    simp only [act] at h_act
    split at h_act
    · rename_i batch h_fl
      obtain rfl := Option.some.inj h_act
      exact flushConnect_cloOk h h_fl pingOk connectOk
    · cases h_act
  | insert sql =>
    simp only [act] at h_act
    split at h_act
    · rename_i batch h_fl
      obtain rfl := Option.some.inj h_act
      exact flushInsert_cloOk h m h_fl sql
    · cases h_act
  | settle =>
    simp only [act] at h_act
    split at h_act
    · rename_i batch ok h_fl
      obtain rfl := Option.some.inj h_act
      exact flushSettle_cloOk h h_fl
    · cases h_act

end IonContrib.Mysql
