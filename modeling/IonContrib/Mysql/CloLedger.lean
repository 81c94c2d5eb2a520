/-
  IonContrib.Mysql.CloLedger

  What becomes of the bundles that are put into the batch.

  Seen from outside, the two threads are one queue: a bundle is in the main
  thread's hand, waits in the array, or is in flight with the flush thread.
  `Move` is what can happen to that queue, and every step of the daemon is a
  move or changes nothing (`step_moves`).  The queue is first in, first out, and
  behind its end the transactions of the connection and the reports keep pace
  (`Ledger`).
-/
import IonContrib.Mysql.Clo

namespace IonContrib.Mysql

open Transactions

/-! ## The log -/

def Effect.storedItem : Effect → Option BatchItem
  | .stored _ item => some item
  | _ => none

def Effect.settledItem : Effect → Option BatchItem
  | .settled item _ => some item
  | _ => none

def Effect.successItem : Effect → Option BatchItem
  | .settled item true => some item
  | _ => none

def Effect.takenBundle : Effect → Option (Nat × Octets)
  | .taken zco payload => some (zco, payload)
  | _ => none

def Effect.refusedBundle : Effect → Option (Nat × Octets)
  | .refused zco payload => some (zco, payload)
  | _ => none

/-- A statement that the server has executed. -/
def Effect.executed : Effect → Option (Stmt Octets)
  | .sql stmt true => some stmt
  | _ => none

def stored (log : List Effect) : List BatchItem := log.filterMap Effect.storedItem
def settled (log : List Effect) : List BatchItem := log.filterMap Effect.settledItem
def successes (log : List Effect) : List BatchItem := log.filterMap Effect.successItem
def taken (log : List Effect) : List (Nat × Octets) := log.filterMap Effect.takenBundle
def refused (log : List Effect) : List (Nat × Octets) := log.filterMap Effect.refusedBundle

/-- The store after the statements that were executed. -/
def store (log : List Effect) : Store Octets := Store.empty.execs (log.filterMap Effect.executed)

/-- The INSERT statements of transactions that were committed. -/
def committed (log : List Effect) : List Octets := (store log).rows

section

variable (log es : List Effect)

@[simp] theorem stored_append : stored (log ++ es) = stored log ++ stored es :=
  List.filterMap_append

@[simp] theorem settled_append : settled (log ++ es) = settled log ++ settled es :=
  List.filterMap_append

@[simp] theorem successes_append : successes (log ++ es) = successes log ++ successes es :=
  List.filterMap_append

@[simp] theorem taken_append : taken (log ++ es) = taken log ++ taken es :=
  List.filterMap_append

@[simp] theorem refused_append : refused (log ++ es) = refused log ++ refused es :=
  List.filterMap_append

theorem store_append : store (log ++ es) = (store log).execs (es.filterMap Effect.executed) := by
  rw [store, List.filterMap_append, execs_append]
  rfl

end

/-- Only statements. -/
def OnlySql (es : List Effect) : Prop := ∀ e ∈ es, ∃ stmt ok, e = .sql stmt ok

theorem OnlySql.quiet {es : List Effect} (h : OnlySql es) :
    stored es = [] ∧ settled es = [] ∧ successes es = [] ∧ taken es = [] ∧ refused es = [] := by
  refine ⟨?_, ?_, ?_, ?_, ?_⟩
  all_goals
    refine List.filterMap_eq_nil_iff.mpr fun e h_e => ?_
    obtain ⟨stmt, ok, rfl⟩ := h e h_e
    rfl

/-! ## The queue -/

@[ext] structure View where
  /-- The item of the main thread. -/
  hand : List BatchItem
  pending : List BatchItem
  /-- The items that the flush thread has taken and not yet reported. -/
  flight : List BatchItem
  /-- The successes that it has yet to report. -/
  owing : List BatchItem
  /-- A transaction has failed and its connection is still there. -/
  dirty : Bool
  conn : Bool
  log : List Effect

def MainPc.hand : MainPc → List BatchItem
  | .holding item => [item]
  | .fullWait item _ => [item]
  | _ => []

def FlushPc.flight : FlushPc → List BatchItem
  | .connecting batch => batch
  | .inserting batch => batch
  | .settling batch _ => batch
  | _ => []

def FlushPc.owing : FlushPc → List BatchItem
  | .settling batch true => batch
  | _ => []

def FlushPc.aborted : FlushPc → Bool
  | .settling _ false => true
  | _ => false

def CloState.view (d : CloState) : View where
  hand := d.main.hand
  pending := d.items.take d.count
  flight := d.flusher.flight
  owing := d.flusher.owing
  dirty := d.flusher.aborted && d.conn
  conn := d.conn
  log := d.log

/-- What can happen to the queue. -/
inductive Move (m : MysqlClient) (cfg : MysqlClaConfig) (eids : EidReader) : View → View → Prop
  | still (v : View) : Move m cfg eids v v
  | take (v : View) (zco : Nat) (payload : Octets) :
    Move m cfg eids v { v with log := v.log ++ [.taken zco payload] }
  | hold (v : View) (zco : Nat) {payload : Octets} (h_hand : v.hand = [])
    (h_fits : payload.length ≤ cfg.bufSz) :
    Move m cfg eids v
      { v with hand := [batchItem eids zco payload], log := v.log ++ [.taken zco payload] }
  | refuse (v : View) (zco : Nat) (payload : Octets) :
    Move m cfg eids v { v with log := v.log ++ [.taken zco payload, .refused zco payload] }
  | put (v : View) {item : BatchItem} {i : Nat} (h_hand : v.hand = [item]) (h_i : i < cfg.batch) :
    Move m cfg eids v
      { v with hand := [], pending := v.pending ++ [item], log := v.log ++ [.stored i item] }
  | grab (v : View) (h_flight : v.flight = []) :
    Move m cfg eids v { v with flight := v.pending, pending := [] }
  | disconnect (v : View) (conn : Bool) :
    Move m cfg eids v
      { v with dirty := false, conn := conn, log := v.log ++ [.sql .disconnect true] }
  | connect (v : View) (conn : Bool) : Move m cfg eids v { v with conn := conn }
  | transact (v : View) {sql : Nat → Bool} {es : List Effect} {ok : Bool} (h_dirty : v.dirty = false)
    (h_owing : v.owing = []) (h_insert : insertBatch m cfg sql v.flight = (es, ok)) :
    Move m cfg eids v
      { v with owing := if ok then v.flight else [], dirty := !ok, log := v.log ++ es }
  | settle (v : View) {item : BatchItem} {rest : List BatchItem} {ok : Bool}
    (h_flight : v.flight = item :: rest) (h_owing : v.owing = if ok then item :: rest else []) :
    Move m cfg eids v
      { v with
        flight := rest
        owing := if ok then rest else []
        log := v.log ++ [.settled item ok] }

@[simp] theorem MainPc.hand_signal (pc : MainPc) : pc.signal.hand = pc.hand := by
  cases pc <;> rfl

theorem FlushPc.view_signal (pc : FlushPc) :
    pc.signal.flight = pc.flight ∧ pc.signal.owing = pc.owing ∧ pc.signal.aborted = pc.aborted := by
  cases pc <;> exact ⟨rfl, rfl, rfl⟩

section

variable {m : MysqlClient} {cfg : MysqlClaConfig} {eids : EidReader} {d : CloState}

theorem Move.to {v v' v'' : View} (h : Move m cfg eids v v') (h_eq : v'' = v') :
    Move m cfg eids v v'' := h_eq ▸ h

theorem Move.of_eq {v v' : View} (h : v' = v) : Move m cfg eids v v' := (Move.still v).to h

theorem takeBundle_moves (h_main : d.main = .dequeuing) (zco : Nat) (payload : Octets)
    (env : DequeueEnv) : Move m cfg eids d.view (takeBundle cfg eids d zco payload env).view := by
  have h_hand : d.view.hand = [] := by
    show d.main.hand = []
    rw [h_main]
    rfl
  have h_taken : ∀ pc : MainPc, pc.hand = [] → Move m cfg eids d.view
      { d with main := pc, log := d.log ++ [.taken zco payload] : CloState }.view := by
    intro pc h_pc
    have h_eq : { d with main := pc, log := d.log ++ [.taken zco payload] : CloState }.view =
        { d.view with log := d.view.log ++ [.taken zco payload] } := by
      rw [CloState.view, CloState.view, h_pc, h_main]
      rfl
    rw [h_eq]
    exact .take d.view zco payload
  have h_refused : ∀ pc : MainPc, pc.hand = [] → Move m cfg eids d.view
      { d with main := pc, log := d.log ++ [.taken zco payload, .refused zco payload] :
        CloState }.view := by
    intro pc h_pc
    have h_eq : { d with
          main := pc, log := d.log ++ [.taken zco payload, .refused zco payload] : CloState }.view =
        { d.view with log := d.view.log ++ [.taken zco payload, .refused zco payload] } := by
      rw [CloState.view, CloState.view, h_pc, h_main]
      rfl
    rw [h_eq]
    exact .refuse d.view zco payload
  rw [takeBundle]
  split
  · exact h_taken _ rfl
  split
  · exact h_refused _ (by cases env.failureOk <;> rfl)
  rename_i h_fits
  split
  · exact h_taken _ rfl
  split
  · exact h_taken _ rfl
  split
  · exact h_refused _ rfl
  · exact .hold d.view zco h_hand (by omega)

theorem mainPut_moves (h : CloOk cfg d) {item : BatchItem} (h_main : d.main = .holding item) :
    Move m cfg eids d.view (mainPut cfg d item).view := by
  have h_hand : d.view.hand = [item] := by
    show d.main.hand = [item]
    rw [h_main]
    rfl
  rw [mainPut]
  split
  · refine .of_eq ?_
    rw [CloState.view, CloState.view, h_main]
    rfl
  · rename_i h_put
    have h_room := h.room (by rw [h_main]; rfl) h_put
    -- The array grows by the cell behind its items.
    have h_items : (d.items.set d.count item).take (d.count + 1) =
        d.items.take d.count ++ [item] := by
      rw [List.take_add_one, List.take_set_of_le (Nat.le_refl _), List.getElem?_set_self]
      · rfl
      · rw [h.length]
        exact h_room
    obtain ⟨h_flight, h_owing, h_aborted⟩ := d.flusher.view_signal
    exact (Move.put d.view h_hand h_room).to
      (View.ext rfl h_items h_flight h_owing (congrArg (· && d.conn) h_aborted) rfl rfl)

theorem takeBatch_moves (h_flight : d.flusher.flight = []) (h_owing : d.flusher.owing = [])
    (h_aborted : d.flusher.aborted = false) : Move m cfg eids d.view (takeBatch d).view := by
  refine (Move.grab d.view h_flight).to (View.ext d.main.hand_signal ?_ rfl ?_ ?_ rfl rfl)
  · exact List.take_zero (l := d.items)
  · exact h_owing.symm
  · show (false && d.conn) = (d.flusher.aborted && d.conn)
    rw [h_aborted]

/-- The connection is closed, or there is none. -/
theorem closeConn_moves (pc : FlushPc) (conn : Bool) (h_flight : pc.flight = d.flusher.flight)
    (h_owing : pc.owing = d.flusher.owing) (h_aborted : pc.aborted = false) :
    Move m cfg eids d.view { closeConn d with flusher := pc, conn := conn : CloState }.view := by
  rw [closeConn]
  by_cases h_conn : d.conn = true
  · rw [if_pos h_conn]
    refine (Move.disconnect d.view conn).to (View.ext rfl rfl h_flight h_owing ?_ rfl rfl)
    show (pc.aborted && conn) = false
    rw [h_aborted, Bool.false_and]
  · rw [if_neg h_conn]
    refine (Move.connect d.view conn).to (View.ext rfl rfl h_flight h_owing ?_ rfl rfl)
    show (pc.aborted && conn) = (d.flusher.aborted && d.conn)
    rw [h_aborted, Bool.eq_false_iff.mpr h_conn, Bool.false_and, Bool.and_false]

/-- The flush thread goes from one place to another and takes its items along. -/
theorem flusher_moves (pc : FlushPc) (sem : Bool) (h_flight : pc.flight = d.flusher.flight)
    (h_owing : pc.owing = d.flusher.owing)
    (h_aborted : (pc.aborted && d.conn) = (d.flusher.aborted && d.conn)) :
    Move m cfg eids d.view { d with flusher := pc, semEnded := sem : CloState }.view :=
  .of_eq (View.ext rfl rfl h_flight h_owing h_aborted rfl rfl)

theorem main_moves (pc : MainPc) (sem : Bool) (h_hand : pc.hand = d.main.hand) :
    Move m cfg eids d.view { d with main := pc, semEnded := sem : CloState }.view :=
  .of_eq (View.ext h_hand rfl rfl rfl rfl rfl rfl)

theorem flushLook_moves (h_look : d.flusher = .looking) :
    Move m cfg eids d.view (flushLook cfg d).view := by
  rw [flushLook]
  split
  · exact closeConn_moves .ended (closeConn d).conn (by rw [h_look]; rfl) (by rw [h_look]; rfl) rfl
  split
  · exact flusher_moves _ d.semEnded (by rw [h_look]; rfl) (by rw [h_look]; rfl)
      (by rw [h_look]; rfl)
  split
  · exact flusher_moves _ d.semEnded (by rw [h_look]; rfl) (by rw [h_look]; rfl)
      (by rw [h_look]; rfl)
  · exact takeBatch_moves (by rw [h_look]; rfl) (by rw [h_look]; rfl) (by rw [h_look]; rfl)

theorem flushFill_moves {expired : Bool} (h_fl : d.flusher = .filling expired) :
    Move m cfg eids d.view (flushFill cfg d expired).view := by
  rw [flushFill]
  split
  · exact flusher_moves _ d.semEnded (by rw [h_fl]; rfl) (by rw [h_fl]; rfl) (by rw [h_fl]; rfl)
  · exact takeBatch_moves (by rw [h_fl]; rfl) (by rw [h_fl]; rfl) (by rw [h_fl]; rfl)

theorem flushConnect_moves {batch : List BatchItem} (h_fl : d.flusher = .connecting batch)
    (pingOk connectOk : Bool) :
    Move m cfg eids d.view (flushConnect d batch pingOk connectOk).view := by
  rw [flushConnect]
  split
  · exact flusher_moves _ d.semEnded (by rw [h_fl]; rfl) (by rw [h_fl]; rfl) (by rw [h_fl]; rfl)
  · have h_same : (closeConn d).flusher = d.flusher := by
      rw [closeConn]
      split <;> rfl
    have h : Move m cfg eids d.view
        { closeConn d with flusher := d.flusher, conn := connectOk : CloState }.view :=
      closeConn_moves d.flusher connectOk rfl rfl (by rw [h_fl]; rfl)
    rw [← h_same] at h
    exact h

theorem flushInsert_moves {batch : List BatchItem} (h_fl : d.flusher = .inserting batch)
    (sql : Nat → Bool) : Move m cfg eids d.view (flushInsert m cfg d batch sql).view := by
  have h_flight : d.view.flight = batch := by
    show d.flusher.flight = batch
    rw [h_fl]
    rfl
  have h_owing : d.view.owing = [] := by
    show d.flusher.owing = []
    rw [h_fl]
    rfl
  have h_dirty : d.view.dirty = false := by
    show (d.flusher.aborted && d.conn) = false
    rw [h_fl]
    rfl
  rw [flushInsert]
  by_cases h_conn : d.conn = true
  · rw [if_pos h_conn]
    have h_insert : insertBatch m cfg sql d.view.flight =
        ((insertBatch m cfg sql batch).1, (insertBatch m cfg sql batch).2) := by
      rw [h_flight]
    refine (Move.transact d.view h_dirty h_owing h_insert).to (View.ext rfl rfl h_flight.symm ?_ ?_
      rfl rfl)
    · show (FlushPc.settling batch (insertBatch m cfg sql batch).2).owing = _
      rw [h_flight]
      cases (insertBatch m cfg sql batch).2 <;> rfl
    · show ((FlushPc.settling batch (insertBatch m cfg sql batch).2).aborted && d.conn) = _
      rw [h_conn, Bool.and_true]
      cases (insertBatch m cfg sql batch).2 <;> rfl
  · rw [if_neg h_conn]
    refine flusher_moves _ d.semEnded (by rw [h_fl]; rfl) (by rw [h_fl]; rfl) ?_
    rw [Bool.eq_false_iff.mpr h_conn, Bool.and_false, Bool.and_false]

theorem flushSettle_moves {batch : List BatchItem} {ok : Bool} (h_fl : d.flusher = .settling batch ok) :
    Move m cfg eids d.view (flushSettle d ok batch).view := by
  cases batch with
  | nil =>
    rw [flushSettle]
    cases ok with
    | true =>
      exact flusher_moves _ d.semEnded (by rw [h_fl]; rfl) (by rw [h_fl]; rfl) (by rw [h_fl]; rfl)
    | false =>
      exact closeConn_moves .looking (closeConn d).conn (by rw [h_fl]; rfl) (by rw [h_fl]; rfl) rfl
  | cons item batch =>
    have h_owing : d.view.owing = if ok then item :: batch else [] := by
      show d.flusher.owing = _
      rw [h_fl]
      cases ok <;> rfl
    have h_flight : d.view.flight = item :: batch := by
      show d.flusher.flight = _
      rw [h_fl]
      rfl
    refine (Move.settle d.view h_flight h_owing).to (View.ext rfl rfl rfl ?_ ?_ rfl rfl)
    · cases ok <;> rfl
    · show ((FlushPc.settling batch ok).aborted && d.conn) = (d.flusher.aborted && d.conn)
      rw [h_fl]
      cases ok <;> rfl

end

/-- **Every step is a move of the queue.** -/
theorem step_moves {m : MysqlClient} {cfg : MysqlClaConfig} {eids : EidReader} {d d' : CloState}
    {e : Event} (h : CloOk cfg d) (h_step : step m cfg eids d e = some d') : Move m cfg eids d.view d'.view := by
  have h_act := step_eq_some h_step
  cases e with
  | begin itemsMem threadOk =>
    simp only [act] at h_act
    split at h_act
    · rename_i h_main
      have h_none := h.starting h_main
      split at h_act
      · obtain rfl := Option.some.inj h_act
        refine .of_eq (View.ext ?_ rfl ?_ ?_ ?_ rfl rfl)
        · show MainPc.looping.hand = d.main.hand
          rw [h_main]
          rfl
        · show FlushPc.starting.flight = d.flusher.flight
          rw [h_none]
          rfl
        · show FlushPc.starting.owing = d.flusher.owing
          rw [h_none]
          rfl
        · show (FlushPc.starting.aborted && d.conn) = (d.flusher.aborted && d.conn)
          rw [h_none]
          rfl
      · obtain rfl := Option.some.inj h_act
        exact main_moves .ended d.semEnded (by rw [h_main]; rfl)
    · cases h_act
  | sigterm =>
    obtain rfl := Option.some.inj h_act
    exact main_moves d.main true rfl
  | top =>
    simp only [act] at h_act
    split at h_act
    · rename_i h_main
      obtain rfl := Option.some.inj h_act
      refine main_moves _ d.semEnded ?_
      rw [h_main]
      cases d.semEnded <;> rfl
    · cases h_act
  | dequeue o =>
    simp only [act] at h_act
    split at h_act
    · rename_i h_main
      obtain rfl := Option.some.inj h_act
      cases o with
      | failed => exact main_moves .closing d.semEnded (by rw [h_main]; rfl)
      | closed => exact main_moves .looping true (by rw [h_main]; rfl)
      | corrupt => exact main_moves .looping d.semEnded (by rw [h_main]; rfl)
      | bundle zco payload env => exact takeBundle_moves h_main zco payload env
    · cases h_act
  | put =>
    simp only [act] at h_act
    split at h_act
    · rename_i item h_main
      obtain rfl := Option.some.inj h_act
      exact mainPut_moves h h_main
    · cases h_act
  | fullWake spurious =>
    simp only [act] at h_act
    split at h_act
    · rename_i item signalled h_main
      split at h_act
      · obtain rfl := Option.some.inj h_act
        exact main_moves _ d.semEnded (by rw [h_main]; rfl)
      · cases h_act
    · cases h_act
  | close =>
    simp only [act] at h_act
    split at h_act
    · rename_i h_main
      obtain rfl := Option.some.inj h_act
      obtain ⟨h_flight, h_owing, h_aborted⟩ := d.flusher.view_signal
      refine .of_eq (View.ext ?_ rfl h_flight h_owing (congrArg (· && d.conn) h_aborted) rfl rfl)
      show MainPc.joining.hand = d.main.hand
      rw [h_main]
      rfl
    · cases h_act
  | join =>
    simp only [act] at h_act
    split at h_act
    · rename_i h_both
      obtain rfl := Option.some.inj h_act
      exact main_moves .ended d.semEnded (by rw [h_both.1]; rfl)
    · cases h_act
  | buffers ok =>
    simp only [act] at h_act
    split at h_act
    · rename_i h_fl
      split at h_act
      · obtain rfl := Option.some.inj h_act
        exact flusher_moves .looking d.semEnded (by rw [h_fl]; rfl) (by rw [h_fl]; rfl)
          (by rw [h_fl]; rfl)
      · obtain rfl := Option.some.inj h_act
        exact flusher_moves .failed true (by rw [h_fl]; rfl) (by rw [h_fl]; rfl) (by rw [h_fl]; rfl)
    · cases h_act
  | look =>
    simp only [act] at h_act
    split at h_act
    · rename_i h_look
      obtain rfl := Option.some.inj h_act
      exact flushLook_moves h_look
    · cases h_act
  | wake spurious =>
    simp only [act] at h_act
    split at h_act
    · rename_i h_fl
      split at h_act
      · obtain rfl := Option.some.inj h_act
        exact flusher_moves .looking d.semEnded (by rw [h_fl]; rfl) (by rw [h_fl]; rfl)
          (by rw [h_fl]; rfl)
      · cases h_act
    · rename_i h_fl
      split at h_act
      · obtain rfl := Option.some.inj h_act
        exact flusher_moves (.filling false) d.semEnded (by rw [h_fl]; rfl) (by rw [h_fl]; rfl)
          (by rw [h_fl]; rfl)
      · cases h_act
    · cases h_act
  | timeout =>
    simp only [act] at h_act
    split at h_act
    · rename_i h_fl
      obtain rfl := Option.some.inj h_act
      exact flusher_moves (.filling true) d.semEnded (by rw [h_fl]; rfl) (by rw [h_fl]; rfl)
        (by rw [h_fl]; rfl)
    · cases h_act
  | fill =>
    simp only [act] at h_act
    split at h_act
    · rename_i expired h_fl
      obtain rfl := Option.some.inj h_act
      exact flushFill_moves h_fl
    · cases h_act
  | connect pingOk connectOk =>
    simp only [act] at h_act
    split at h_act
    · rename_i batch h_fl
      obtain rfl := Option.some.inj h_act
      exact flushConnect_moves h_fl pingOk connectOk
    · cases h_act
  | insert sql =>
    simp only [act] at h_act
    split at h_act
    · rename_i batch h_fl
      obtain rfl := Option.some.inj h_act
      exact flushInsert_moves h_fl sql
    · cases h_act
  | settle =>
    simp only [act] at h_act
    split at h_act
    · rename_i batch ok h_fl
      obtain rfl := Option.some.inj h_act
      exact flushSettle_moves h_fl
    · cases h_act

/-! ## A transaction -/

section

variable {m : MysqlClient} {cfg : MysqlClaConfig} {sql : Nat → Bool}

/-- The statement of an item, with its outcome. -/
def insertion (m : MysqlClient) (cfg : MysqlClaConfig) (ok : Bool) (item : BatchItem) : Effect :=
  .sql (.insert (query m cfg item)) ok

theorem insertion_eq_iff {ok r : Bool} {item : BatchItem} {text : Octets} :
    insertion m cfg ok item = .sql (.insert text) r ↔ query m cfg item = text ∧ ok = r := by
  rw [insertion, Effect.sql.injEq, Stmt.insert.injEq]

/-- All items are inserted, or those before one that fails. -/
theorem insertItems_cases (m : MysqlClient) (cfg : MysqlClaConfig) (sql : Nat → Bool) (k : Nat)
    (batch : List BatchItem) :
    insertItems m cfg sql k batch = (batch.map (insertion m cfg true), true) ∨
      ∃ done item rest r, batch = done ++ item :: rest ∧ insertItems m cfg sql k batch =
        (done.map (insertion m cfg true) ++ [insertion m cfg false item, .sql .rollback r],
          false) := by
  induction batch generalizing k with
  | nil => exact .inl rfl
  | cons item batch ih =>
    rw [insertItems]
    by_cases h_sql : sql k = true
    · rw [if_pos h_sql]
      rcases ih (k + 1) with h | ⟨done, bad, rest, r, rfl, h⟩
      · left
        rw [h]
        rfl
      · right
        rw [h]
        exact ⟨item :: done, bad, rest, r, rfl, rfl⟩
    · right
      rw [if_neg h_sql]
      exact ⟨[], item, batch, sql (k + 1), rfl, rfl⟩

theorem executed_insertions (ok : Bool) (batch : List BatchItem) :
    (batch.map (insertion m cfg ok)).filterMap Effect.executed =
      if ok then (batch.map (query m cfg)).map .insert else [] := by
  rw [List.filterMap_map]
  cases ok with
  | true =>
    rw [if_pos rfl, List.map_map, ← List.filterMap_eq_map]
    rfl
  | false => exact List.filterMap_eq_nil_iff.mpr fun _ _ => rfl

/-- What `insertBatch` does to a store with no transaction open. -/
structure Transacts (m : MysqlClient) (cfg : MysqlClaConfig) (batch : List BatchItem)
    (es : List Effect) (ok : Bool) : Prop where
  only : OnlySql es
  texts : ∀ text r, .sql (.insert text) r ∈ es → ∃ item ∈ batch, text = query m cfg item
  rows : ∀ rows : List Octets,
    ((⟨rows, none⟩ : Store Octets).execs (es.filterMap Effect.executed)).rows =
      rows ++ (if ok then batch else []).map (query m cfg)
  opened : ok = true → ∀ rows : List Octets,
    ((⟨rows, none⟩ : Store Octets).execs (es.filterMap Effect.executed)).opened = none

/-- A transaction is started, some of the items are inserted, and it comes to an end. -/
theorem transacts_of {batch done : List BatchItem} {tail : List Effect} {ok : Bool}
    (h_done : done ⊆ batch) (h_only : OnlySql tail)
    (h_texts : ∀ text r, .sql (.insert text) r ∈ tail → ∃ item ∈ batch, text = query m cfg item)
    (h_end : if ok then done = batch ∧ tail.filterMap Effect.executed = [.commit]
      else tail.filterMap Effect.executed = [] ∨ tail.filterMap Effect.executed = [.rollback]) :
    Transacts m cfg batch (.sql .start true :: done.map (insertion m cfg true) ++ tail) ok := by
  have h_exec : (Effect.sql .start true :: done.map (insertion m cfg true) ++ tail).filterMap
      Effect.executed = .start :: (done.map (query m cfg)).map .insert ++
        tail.filterMap Effect.executed := by
    rw [List.filterMap_append, List.filterMap_cons, executed_insertions, if_pos rfl]
    rfl
  refine ⟨?_, ?_, ?_, ?_⟩
  · intro e h_e
    rw [List.cons_append, List.mem_cons, List.mem_append] at h_e
    rcases h_e with rfl | h_e | h_e
    · exact ⟨_, _, rfl⟩
    · obtain ⟨item, -, rfl⟩ := List.mem_map.mp h_e
      exact ⟨_, _, rfl⟩
    · exact h_only e h_e
  · intro text r h_e
    rw [List.cons_append, List.mem_cons, List.mem_append] at h_e
    rcases h_e with h_e | h_e | h_e
    · cases h_e
    · obtain ⟨item, h_item, h_eq⟩ := List.mem_map.mp h_e
      exact ⟨item, h_done h_item, (insertion_eq_iff.mp h_eq).1.symm⟩
    · exact h_texts text r h_e
  · intro rows
    rw [h_exec]
    cases ok with
    | true =>
      obtain ⟨rfl, h_tail⟩ := h_end
      rw [h_tail, execs_committed, if_pos rfl]
    | false => exact (rows_uncommitted rows _ h_end).trans (List.append_nil rows).symm
  · rintro rfl rows
    rw [h_exec, h_end.2, execs_committed]

theorem insertBatch_transacts {batch : List BatchItem} {es : List Effect} {ok : Bool}
    (h : insertBatch m cfg sql batch = (es, ok)) : Transacts m cfg batch es ok := by
  rw [insertBatch] at h
  by_cases h_start : sql 0 = false
  · -- No transaction.
    rw [if_pos h_start] at h
    obtain ⟨rfl, rfl⟩ := Prod.mk.inj h
    refine ⟨?_, ?_, ?_, fun h => by cases h⟩
    · intro e h_e
      exact ⟨_, _, List.mem_singleton.mp h_e⟩
    · intro text r h_e
      cases List.mem_singleton.mp h_e
    · intro rows
      exact (List.append_nil rows).symm
  rw [if_neg h_start] at h
  rcases insertItems_cases m cfg sql 1 batch with
    h_items | ⟨done, bad, rest, r, rfl, h_items⟩
  · rw [h_items] at h
    simp only at h
    split at h
    · obtain ⟨rfl, rfl⟩ := Prod.mk.inj h
      refine transacts_of (List.Subset.refl batch) ?_ ?_ (if_pos rfl ▸ ⟨rfl, rfl⟩)
      · intro e h_e
        exact ⟨_, _, List.mem_singleton.mp h_e⟩
      · intro text r h_e
        cases List.mem_singleton.mp h_e
    · obtain ⟨rfl, rfl⟩ := Prod.mk.inj h
      refine transacts_of (List.Subset.refl batch) ?_ ?_ ?_
      · intro e h_e
        rw [List.mem_cons, List.mem_singleton] at h_e
        rcases h_e with rfl | rfl
        · exact ⟨_, _, rfl⟩
        · exact ⟨_, _, rfl⟩
      · intro text r h_e
        rw [List.mem_cons, List.mem_singleton] at h_e
        rcases h_e with h_e | h_e
        · cases h_e
        · cases h_e
      · show [Effect.sql .commit false, .sql .rollback (sql (batch.length + 2))].filterMap
            Effect.executed = [] ∨ _ = [Stmt.rollback]
        cases sql (batch.length + 2)
        · exact .inl rfl
        · exact .inr rfl
  · rw [h_items] at h
    obtain ⟨rfl, rfl⟩ := Prod.mk.inj h
    refine transacts_of (List.subset_append_left done _) ?_ ?_ ?_
    · intro e h_e
      rw [List.mem_cons, List.mem_singleton] at h_e
      rcases h_e with rfl | rfl
      · exact ⟨_, _, rfl⟩
      · exact ⟨_, _, rfl⟩
    · intro text r' h_e
      rw [List.mem_cons, List.mem_singleton] at h_e
      rcases h_e with h_e | h_e
      · exact ⟨bad, List.mem_append_right _ List.mem_cons_self,
          (insertion_eq_iff.mp h_e.symm).1.symm⟩
      · cases h_e
    · show [insertion m cfg false bad, .sql .rollback r].filterMap Effect.executed = [] ∨
          _ = [Stmt.rollback]
      cases r
      · exact .inl rfl
      · exact .inr rfl

end

/-! ## The ledger -/

/-- The queue, the connection and the reports keep pace. -/
structure Ledger (m : MysqlClient) (cfg : MysqlClaConfig) (eids : EidReader) (v : View) :
    Prop where
  fifo : stored v.log = settled v.log ++ v.flight ++ v.pending
  committed : committed v.log = (successes v.log ++ v.owing).map (query m cfg)
  opened : v.dirty = false → (store v.log).opened = none
  indices : ∀ i item, .stored i item ∈ v.log → i < cfg.batch
  made : ∀ item ∈ stored v.log ++ v.hand, ∃ zco payload,
    item = batchItem eids zco payload ∧ payload.length ≤ cfg.bufSz
  bundles : ∀ b, ((stored v.log ++ v.hand).map fun item => (item.zco, item.payload)).count b +
    (refused v.log).count b ≤ (taken v.log).count b
  texts : ∀ text ok, .sql (.insert text) ok ∈ v.log →
    ∃ item ∈ stored v.log, text = query m cfg item

section

variable {m : MysqlClient} {cfg : MysqlClaConfig} {eids : EidReader} {v v' : View}

theorem ledger_start (m : MysqlClient) (cfg : MysqlClaConfig) (eids : EidReader) :
    Ledger m cfg eids (CloState.start cfg).view where
  fifo := by
    show [] = (CloState.start cfg).items.take 0
    rw [List.take_zero]
  committed := rfl
  opened := fun _ => rfl
  indices := by intro i item h; cases h
  made := by intro item h; cases h
  bundles := fun _ => Nat.le_refl 0
  texts := by intro text ok h; cases h

/-- Nothing is stored, executed or reported by the flush thread. -/
theorem Ledger.note (h : Ledger m cfg eids v) {es : List Effect} {hand : List BatchItem}
    (h_stored : stored es = []) (h_settled : settled es = []) (h_success : successes es = [])
    (h_exec : es.filterMap Effect.executed = []) (h_index : ∀ i item, .stored i item ∉ es)
    (h_text : ∀ stmt ok, .sql stmt ok ∉ es)
    (h_made : ∀ item ∈ hand, item ∈ v.hand ∨ ∃ zco payload,
      item = batchItem eids zco payload ∧ payload.length ≤ cfg.bufSz)
    (h_bundles : ∀ b, (hand.map fun item => (item.zco, item.payload)).count b +
      (refused es).count b ≤
        (v.hand.map fun item => (item.zco, item.payload)).count b + (taken es).count b) :
    Ledger m cfg eids { v with hand := hand, log := v.log ++ es } := by
  have h_store : store (v.log ++ es) = store v.log := by
    rw [store_append, h_exec, execs_nil]
  refine ⟨?_, ?_, ?_, ?_, ?_, ?_, ?_⟩
  · rw [stored_append, settled_append, h_stored, h_settled, List.append_nil, List.append_nil]
    exact h.fifo
  · show (store (v.log ++ es)).rows = (successes (v.log ++ es) ++ v.owing).map (query m cfg)
    rw [h_store, successes_append, h_success, List.append_nil]
    exact h.committed
  · rw [h_store]
    exact h.opened
  · intro i item h_mem
    rw [List.mem_append] at h_mem
    exact h.indices i item (h_mem.resolve_right (h_index i item))
  · intro item h_mem
    rw [stored_append, h_stored, List.append_nil, List.mem_append] at h_mem
    rcases h_mem with h_mem | h_mem
    · exact h.made item (List.mem_append_left _ h_mem)
    · rcases h_made item h_mem with h_old | h_new
      · exact h.made item (List.mem_append_right _ h_old)
      · exact h_new
  · intro b
    have h_old := h.bundles b
    have h_new := h_bundles b
    rw [stored_append, h_stored, refused_append, taken_append, List.append_nil]
    simp only [List.map_append, List.count_append] at h_old ⊢
    omega
  · intro text ok h_mem
    rw [List.mem_append] at h_mem
    obtain ⟨item, h_item, h_eq⟩ := h.texts text ok (h_mem.resolve_right (h_text _ ok))
    rw [stored_append]
    exact ⟨item, List.mem_append_left _ h_item, h_eq⟩

/-- Statements are executed, and nothing is reported. -/
theorem Ledger.statements (h : Ledger m cfg eids v) {es : List Effect} {owing : List BatchItem}
    {dirty conn : Bool} (h_only : OnlySql es)
    (h_rows : ((store v.log).execs (es.filterMap Effect.executed)).rows =
      (successes v.log ++ owing).map (query m cfg))
    (h_opened : dirty = false →
      ((store v.log).execs (es.filterMap Effect.executed)).opened = none)
    (h_texts : ∀ text ok, .sql (.insert text) ok ∈ es →
      ∃ item ∈ stored v.log, text = query m cfg item) :
    Ledger m cfg eids
      { v with owing := owing, dirty := dirty, conn := conn, log := v.log ++ es } := by
  obtain ⟨h_stored, h_settled, h_success, h_taken, h_refused⟩ := h_only.quiet
  refine ⟨?_, ?_, ?_, ?_, ?_, ?_, ?_⟩
  · rw [stored_append, settled_append, h_stored, h_settled, List.append_nil, List.append_nil]
    exact h.fifo
  · show (store (v.log ++ es)).rows = (successes (v.log ++ es) ++ owing).map (query m cfg)
    rw [store_append, successes_append, h_success, List.append_nil]
    exact h_rows
  · rw [store_append]
    exact h_opened
  · intro i item h_mem
    rw [List.mem_append] at h_mem
    refine h.indices i item (h_mem.resolve_right fun h_es => ?_)
    obtain ⟨stmt, ok, h_eq⟩ := h_only _ h_es
    cases h_eq
  · rw [stored_append, h_stored, List.append_nil]
    exact h.made
  · rw [stored_append, h_stored, refused_append, h_refused, taken_append, h_taken,
      List.append_nil, List.append_nil, List.append_nil]
    exact h.bundles
  · intro text ok h_mem
    rw [stored_append, h_stored, List.append_nil]
    rw [List.mem_append] at h_mem
    rcases h_mem with h_mem | h_mem
    · exact h.texts text ok h_mem
    · exact h_texts text ok h_mem

theorem move_ledger (h : Ledger m cfg eids v) (h_move : Move m cfg eids v v') :
    Ledger m cfg eids v' := by
  cases h_move with
  | still => exact h
  | take zco payload =>
    refine h.note rfl rfl rfl rfl (by simp) (by simp) (fun item h_item => .inl h_item) ?_
    intro b
    exact Nat.add_le_add_left (Nat.zero_le _) _
  | hold zco h_hand h_fits =>
    rename_i payload
    refine h.note rfl rfl rfl rfl (by simp) (by simp) ?_ ?_
    · intro item h_item
      exact .inr ⟨zco, payload, List.mem_singleton.mp h_item, h_fits⟩
    · intro b
      rw [h_hand, Nat.add_comm]
      exact Nat.le_refl _
  | refuse zco payload =>
    refine h.note rfl rfl rfl rfl (by simp) (by simp) (fun item h_item => .inl h_item) ?_
    intro b
    exact Nat.le_refl _
  | put h_hand h_i =>
    rename_i item i
    have h_new : stored (v.log ++ [.stored i item]) = stored v.log ++ [item] := stored_append _ _
    have h_store : store (v.log ++ [.stored i item]) = store v.log := store_append _ _
    have h_success : successes (v.log ++ [.stored i item]) = successes v.log :=
      (successes_append _ _).trans (List.append_nil _)
    have h_settled : settled (v.log ++ [.stored i item]) = settled v.log :=
      (settled_append _ _).trans (List.append_nil _)
    have h_refused : refused (v.log ++ [.stored i item]) = refused v.log :=
      (refused_append _ _).trans (List.append_nil _)
    have h_taken : taken (v.log ++ [.stored i item]) = taken v.log :=
      (taken_append _ _).trans (List.append_nil _)
    refine ⟨?_, ?_, ?_, ?_, ?_, ?_, ?_⟩
    · rw [h_new, h_settled, h.fifo, List.append_assoc]
    · show (store (v.log ++ [.stored i item])).rows =
        (successes (v.log ++ [.stored i item]) ++ v.owing).map (query m cfg)
      rw [h_store, h_success]
      exact h.committed
    · rw [h_store]
      exact h.opened
    · intro j item' h_mem
      rw [List.mem_append, List.mem_singleton] at h_mem
      rcases h_mem with h_mem | h_mem
      · exact h.indices j item' h_mem
      · cases h_mem
        exact h_i
    · rw [h_new, List.append_nil, ← h_hand]
      exact h.made
    · rw [h_new, h_refused, h_taken, List.append_nil, ← h_hand]
      exact h.bundles
    · intro text ok h_mem
      rw [List.mem_append] at h_mem
      obtain ⟨item', h_item', h_eq⟩ := h.texts text ok (h_mem.resolve_right (by simp))
      rw [h_new]
      exact ⟨item', List.mem_append_left _ h_item', h_eq⟩
  | grab h_flight =>
    refine ⟨?_, h.committed, h.opened, h.indices, h.made, h.bundles, h.texts⟩
    show stored v.log = settled v.log ++ v.pending ++ []
    rw [h.fifo, h_flight, List.append_nil, List.append_nil]
  | disconnect conn =>
    refine h.statements ?_ ?_ (fun _ => rfl) (by simp)
    · intro e h_e
      exact ⟨_, _, List.mem_singleton.mp h_e⟩
    · exact h.committed
  | connect conn =>
    exact ⟨h.fifo, h.committed, h.opened, h.indices, h.made, h.bundles, h.texts⟩
  | transact h_dirty h_owing h_insert =>
    rename_i sql es ok
    have h_tr := insertBatch_transacts h_insert
    -- No transaction is open.
    have h_store : store v.log = ⟨committed v.log, none⟩ := by
      rw [committed, ← h.opened h_dirty]
    refine h.statements h_tr.only ?_ ?_ ?_
    · rw [h_store, h_tr.rows, h.committed, h_owing, List.append_nil, List.map_append]
    · intro h_ok
      rw [h_store]
      exact h_tr.opened (by simpa using h_ok) _
    · intro text r h_mem
      obtain ⟨item, h_item, h_eq⟩ := h_tr.texts text r h_mem
      refine ⟨item, ?_, h_eq⟩
      rw [h.fifo]
      exact List.mem_append_left _ (List.mem_append_right _ h_item)
  | settle h_flight h_owing =>
    rename_i item rest ok
    have h_stored : stored (v.log ++ [.settled item ok]) = stored v.log :=
      (stored_append _ _).trans (List.append_nil _)
    have h_settled : settled (v.log ++ [.settled item ok]) = settled v.log ++ [item] :=
      settled_append _ _
    have h_store : store (v.log ++ [.settled item ok]) = store v.log := store_append _ _
    have h_success : successes (v.log ++ [.settled item ok]) ++ (if ok then rest else []) =
        successes v.log ++ v.owing := by
      rw [successes_append, h_owing, List.append_assoc]
      cases ok <;> rfl
    have h_refused : refused (v.log ++ [.settled item ok]) = refused v.log :=
      (refused_append _ _).trans (List.append_nil _)
    have h_taken : taken (v.log ++ [.settled item ok]) = taken v.log :=
      (taken_append _ _).trans (List.append_nil _)
    refine ⟨?_, ?_, ?_, ?_, ?_, ?_, ?_⟩
    · rw [h_stored, h_settled, h.fifo, h_flight, List.append_assoc, List.append_assoc,
        List.append_assoc]
      rfl
    · show (store (v.log ++ [.settled item ok])).rows = _
      rw [h_store]
      exact h.committed.trans (congrArg (List.map _) h_success.symm)
    · rw [h_store]
      exact h.opened
    · intro j item' h_mem
      rw [List.mem_append] at h_mem
      exact h.indices j item' (h_mem.resolve_right (by simp))
    · rw [h_stored]
      exact h.made
    · rw [h_stored, h_refused, h_taken]
      exact h.bundles
    · intro text ok' h_mem
      rw [List.mem_append] at h_mem
      rw [h_stored]
      exact h.texts text ok' (h_mem.resolve_right (by simp))

end

/-! ## Runs -/

theorem run_ledger {m : MysqlClient} {cfg : MysqlClaConfig} {eids : EidReader} {d : CloState}
    {es : List Event} (h_run : Lts.run (step m cfg eids) (.start cfg) es = some d) :
    CloOk cfg d ∧ Ledger m cfg eids d.view := by
  have h_step : ∀ s e s', CloOk cfg s ∧ Ledger m cfg eids s.view →
      step m cfg eids s e = some s' → CloOk cfg s' ∧ Ledger m cfg eids s'.view := by
    rintro s e s' ⟨h_ok, h⟩ h_step
    exact ⟨step_cloOk h_ok h_step, move_ledger h (step_moves h_ok h_step)⟩
  exact Lts.run_invariant h_step ⟨cloOk_start cfg, ledger_start m cfg eids⟩ h_run

theorem batchItem_ok {cfg : MysqlClaConfig} (eids : EidReader) (zco : Nat) {payload : Octets}
    (h : payload.length ≤ cfg.bufSz) : (batchItem eids zco payload).Ok cfg := by
  refine ⟨rfl, h, ?_, ?_⟩
  · show (mysqlExtractEids eids payload).1.length ≤ 63 ∧ 0 ∉ (mysqlExtractEids eids payload).1
    rw [mysqlExtractEids]
    split
    · exact ⟨Nat.zero_le 63, List.not_mem_nil⟩
    · exact ⟨eidField_length _, eidField_noNul _⟩
  · show (mysqlExtractEids eids payload).2.length ≤ 63 ∧ 0 ∉ (mysqlExtractEids eids payload).2
    rw [mysqlExtractEids]
    split
    · exact ⟨Nat.zero_le 63, List.not_mem_nil⟩
    · exact ⟨eidField_length _, eidField_noNul _⟩

/-- Everything has come out of the queue when the flush thread has ended. -/
theorem CloOk.drained {cfg : MysqlClaConfig} {d : CloState} (h : CloOk cfg d)
    (h_end : d.flusher = .ended) :
    d.view.flight = [] ∧ d.view.pending = [] ∧ d.view.owing = [] := by
  refine ⟨?_, ?_, ?_⟩
  · show d.flusher.flight = []
    rw [h_end]
    rfl
  · show d.items.take d.count = []
    rw [(h.done h_end).2, List.take_zero]
  · show d.flusher.owing = []
    rw [h_end]
    rfl

/-- The row of a bundle, as far as its fields hold the EIDs. -/
def bundleRow (eids : EidReader) (payload : Octets) : Row :=
  ⟨payload, payload.length, (mysqlExtractEids eids payload).1, (mysqlExtractEids eids payload).2⟩

/-- **The batch.**  In every run in which the flush thread has got its buffers: the array is
    written within its bounds; a bundle is put into it at most once, and not if it was refused;
    every INSERT is whole and is a stored bundle's own row; a success is reported only when the row
    has been committed; and by the time the flush thread has ended every stored bundle has been
    reported, once and in order, with success if and only if its row was committed. -/
theorem batch_settles {m : MysqlClient} (h_m : Documented m) {cfg : MysqlClaConfig}
    {eids : EidReader} {d : CloState} {es : List Event}
    (h_run : Lts.run (step m cfg eids) (.start cfg) es = some d)
    (h_buffers : d.flusher.hasBuffers = true) :
    (∀ i item, .stored i item ∈ d.log → i < cfg.batch) ∧
    (∀ b, ((stored d.log).map fun item => (item.zco, item.payload)).count b +
      (refused d.log).count b ≤ (taken d.log).count b) ∧
    (∀ text ok, .sql (.insert text) ok ∈ d.log → ∃ item ∈ stored d.log,
      text = insertText cfg.table (m.escape item.payload) item.payload.length (m.escape item.src)
        (m.escape item.dst) ∧ ReadsAs m cfg.table text (bundleRow eids item.payload)) ∧
    (successes d.log).map (query m cfg) <+: committed d.log ∧
    (d.flusher = .ended → stored d.log = settled d.log ∧
      committed d.log = (successes d.log).map (query m cfg)) := by
  obtain ⟨h_ok, h⟩ := run_ledger h_run
  have h_sizes := h_ok.sizes h_buffers
  refine ⟨h.indices, ?_, ?_, ?_, ?_⟩
  · intro b
    have h_b := h.bundles b
    rw [List.map_append, List.count_append] at h_b
    have h_log : d.view.log = d.log := rfl
    rw [h_log] at h_b
    omega
  · intro text ok h_mem
    obtain ⟨item, h_item, h_query⟩ := h.texts text ok h_mem
    obtain ⟨zco, payload, h_eq, h_fits⟩ := h.made item (List.mem_append_left _ h_item)
    have h_made := batchItem_ok eids zco h_fits
    have h_row : (batchItem eids zco payload).row =
        bundleRow eids (batchItem eids zco payload).payload := rfl
    rw [← h_eq] at h_made h_row
    refine ⟨item, h_item, ?_, ?_⟩
    · rw [h_query, query_whole h_m h_sizes h_made, h_made.len]
    · rw [h_query, ← h_row]
      exact query_readsAs h_m h_sizes h_made
  · have h_committed : committed d.log = (successes d.log ++ d.view.owing).map (query m cfg) :=
      h.committed
    rw [h_committed, List.map_append]
    exact List.prefix_append _ _
  · intro h_end
    obtain ⟨h_flight, h_pending, h_owing⟩ := h_ok.drained h_end
    have h_fifo := h.fifo
    have h_committed := h.committed
    rw [h_flight, h_pending, List.append_nil, List.append_nil] at h_fifo
    rw [h_owing, List.append_nil] at h_committed
    exact ⟨h_fifo, h_committed⟩

/-- A configuration with a batch of two. -/
def sampleCfg : MysqlClaConfig where
  table := Mail.ascii "inbound"
  batch := 2
  flushMs := 100
  bufSz := 1024
  table_valid := by decide
  batch_pos := by decide
  bufSz_int := by decide

/-- A source of 64 characters. -/
def longEid : Octets := Mail.ascii "dtn://" ++ List.replicate 57 0x61 ++ [0x2f]

/-- A bundle from there, to ipn:2.1. -/
def longBundle : Octets :=
  [0x9f, 0x88, 7, 0, 0, 0x82, 2, 0x82, 2, 1, 0x82, 1, 0x78, 60] ++ longEid.drop 4 ++
    [0x82, 1, 0, 0x82, 0, 0, 0, 0x85, 1, 1, 0, 0, 0x41, 0x61, 0xff]

/-- What the primary block of `longBundle` names. -/
def longReader : EidReader := fun payload =>
  if payload = longBundle then some (some (Mail.ascii "ipn:2.1"), some longEid) else none

/-- One bundle passes through, and its row is committed. -/
def longEvents : List Event :=
  [.begin true true, .top, .dequeue (.bundle 2 longBundle ⟨true, true, true, true, true⟩), .put,
    .buffers true, .look, .timeout, .fill, .connect true true, .connect true true,
    .insert fun _ => true, .settle, .settle, .sigterm, .top, .close, .look, .join]

theorem batch_settles_long : ∃ d,
    Lts.run (step listClient sampleCfg longReader) (.start sampleCfg) longEvents = some d ∧
      (settled d.log).map (·.zco) = [2] ∧ committed d.log = (successes d.log).map
        (query listClient sampleCfg) := by
  have h_run : (Lts.run (step listClient sampleCfg longReader) (.start sampleCfg) longEvents).map
      (fun d => (d.flusher, (settled d.log).map (·.zco))) = some (.ended, [2]) := by
    decide +kernel
  obtain ⟨d, h_d, h_fields⟩ := Option.map_eq_some_iff.mp h_run
  obtain ⟨h_end, h_settled⟩ := Prod.mk.inj h_fields
  have h_buffers : d.flusher.hasBuffers = true := by
    rw [h_end]
    rfl
  have h := (batch_settles listClient_documented h_d h_buffers).2.2.2.2 h_end
  exact ⟨d, h_d, h_settled, h.2⟩

/-- The server takes an `INSERT`. -/
def Effect.inserts : Effect → Bool
  | .sql (.insert _) true => true
  | _ => false

/-- The row of a bundle from a long EID does not hold it. -/
theorem longEid_cut : ¬ ∀ (m : MysqlClient) (cfg : MysqlClaConfig) (eids : EidReader)
    (es : List Event) (d : CloState), Documented m →
    Lts.run (step m cfg eids) (.start cfg) es = some d → d.flusher = .ended →
      ∀ text, .sql (.insert text) true ∈ d.log → ∃ zco payload dst src,
        (zco, payload) ∈ taken d.log ∧ eids payload = some (some dst, some src) ∧
          ReadsAs m cfg.table text ⟨payload, payload.length, src, dst⟩ := by
  intro h_claim
  have h_run : (Lts.run (step listClient sampleCfg longReader) (.start sampleCfg) longEvents).map
      (fun d => (d.flusher, taken d.log, stored d.log, d.log.any Effect.inserts)) =
      some (.ended, [(2, longBundle)], [batchItem longReader 2 longBundle], true) := by
    decide +kernel
  obtain ⟨d, h_d, h_fields⟩ := Option.map_eq_some_iff.mp h_run
  simp only [Prod.mk.injEq] at h_fields
  obtain ⟨h_end, h_taken, h_stored, h_any⟩ := h_fields
  obtain ⟨e, h_e, h_insert⟩ := List.any_eq_true.mp h_any
  unfold Effect.inserts at h_insert
  split at h_insert
  · rename_i text
    obtain ⟨h_ok, h⟩ := run_ledger h_d
    have h_sizes := h_ok.sizes (by rw [h_end]; rfl)
    -- The statement is the one of the only bundle.
    obtain ⟨item, h_item, h_query⟩ := h.texts text true h_e
    have h_item : item ∈ stored d.log := h_item
    rw [h_stored] at h_item
    obtain rfl := List.mem_singleton.mp h_item
    have h_made : (batchItem longReader 2 longBundle).Ok sampleCfg :=
      batchItem_ok longReader 2 (by decide)
    have h_row := query_readsAs listClient_documented h_sizes h_made
    rw [← h_query] at h_row
    obtain ⟨zco, payload, dst, src, h_bundle, h_eids, h_reads⟩ :=
      h_claim _ _ _ _ d listClient_documented h_d h_end text h_e
    rw [h_taken] at h_bundle
    obtain ⟨-, rfl⟩ := Prod.mk.inj (List.mem_singleton.mp h_bundle)
    have h_src : src = longEid := by
      rw [longReader, if_pos rfl] at h_eids
      exact (Option.some.inj (Prod.mk.inj (Option.some.inj h_eids)).2).symm
    have h_same : (batchItem longReader 2 longBundle).src.length = src.length :=
      congrArg (fun row => row.src.length) (readsAs_unique h_row h_reads rfl)
    rw [h_src] at h_same
    exact absurd h_same (by decide +kernel)
  · cases h_insert

end IonContrib.Mysql
