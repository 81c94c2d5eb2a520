/-
  IonContrib.Mysql.CliRuns

  Runs of the input daemon: passes with any failures, reconnections, and rows
  that others add in between.  Whatever leaves the table has been handed to BP,
  also when ids are negative; only a DELETE that does not fit into its buffer is
  ruled out (`run_accounted`).
-/
import IonContrib.Mysql.CliAtomic

namespace IonContrib.Mysql.Cli

open Transactions

/-! ## The transaction of a pass -/

section

variable {s : MysqlServer} (h_s : s.Documented) (cfg : MysqlCliConfig) (ownFqnn : UInt64)
  (table : Outbound) (env : PassEnv)
include h_s

/-- A pass fails without a commit, or ends its transaction with one that may fail if it is empty. -/
theorem ops_processBatch :
    ((processBatch s cfg ownFqnn table env).2 = .failed ∧
      ((processBatch s cfg ownFqnn table env).1.filterMap (Effect.op s) = [] ∨
        ∃ (fs : List (Outbound → Outbound)) (ops : _), (ops = [] ∨ ops = [.rollback]) ∧
          (processBatch s cfg ownFqnn table env).1.filterMap (Effect.op s) =
            .start :: fs.map .update ++ ops)) ∨
    (∃ n, (processBatch s cfg ownFqnn table env).2 = .count n ∧
      ((processBatch s cfg ownFqnn table env).1.filterMap (Effect.op s) = [.start] ∨
        ∃ fs : List (Outbound → Outbound),
          (processBatch s cfg ownFqnn table env).1.filterMap (Effect.op s) =
            .start :: fs.map .update ++ [.commit])) ∨
    (processBatch s cfg ownFqnn table env).2 = .overrun := by
  rcases processBatch_cases h_s cfg ownFqnn table env with
    ⟨-, es, h_es, h_eq⟩ | ⟨-, h_eq⟩ | ⟨-, -, h_eq⟩
  · rw [h_eq]
    refine .inl ⟨rfl, ?_⟩
    rcases h_es with rfl | rfl | ⟨text, ok, rfl⟩
    · exact .inl rfl
    · exact .inl rfl
    · refine .inr ⟨[], _, ops_rollback s env.rollback, ?_⟩
      cases ok <;> rfl
  · rw [h_eq]
    refine .inl ⟨rfl, .inr ⟨[], _, ops_rollback s env.rollback, ?_⟩⟩
    rw [List.filterMap_append, ops_locked]
    rfl
  · rw [h_eq, List.filterMap_append, ops_locked]
    generalize (eligible env.fetched 0 (ownRows s cfg ownFqnn table)).map (·.listed) = ids
    rcases deleteRows_cases cfg env ids with
      ⟨-, h_end⟩ | ⟨-, h_end⟩ | ⟨-, -, -, -, h_end⟩ | ⟨-, -, -, -, h_end⟩
    · rw [h_end]
      refine .inr (.inl ⟨0, rfl, ?_⟩)
      cases env.commit with
      | false => exact .inl rfl
      | true => exact .inr ⟨[], rfl⟩
    · rw [h_end]
      exact .inl ⟨rfl, .inr ⟨[], _, ops_rollback s env.rollback, rfl⟩⟩
    · rw [h_end]
      exact .inr (.inr rfl)
    · rcases h_end with ⟨h_tail, h_r⟩ | ⟨h_tail, h_r⟩ | ⟨h_tail, h_r⟩
      · rw [h_tail, h_r]
        exact .inl ⟨rfl, .inr ⟨[], _, ops_rollback s env.rollback, rfl⟩⟩
      · rw [h_tail, h_r]
        exact .inl ⟨rfl, .inr ⟨[fun table => table.remove (s.deletes (deleteText cfg.table ids))],
          _, ops_rollback s env.rollback, rfl⟩⟩
      · rw [h_tail, h_r]
        exact .inr (.inl ⟨_, rfl, .inr ⟨[fun table =>
          table.remove (s.deletes (deleteText cfg.table ids))], rfl⟩⟩)

/-- A row that a pass takes out of the table has been handed over in it. -/
theorem kept_or_handed {row : OutboundRow} (h_row : row ∈ table.rows)
    (h_bounds : (processBatch s cfg ownFqnn table env).2 ≠ .overrun) :
    row ∈ (tableAfter s table (processBatch s cfg ownFqnn table env)).rows ∨
      ∃ bundle, row.payload = some bundle ∧
        .handed row bundle ∈ (processBatch s cfg ownFqnn table env).1 := by
  rcases ops_processBatch h_s cfg ownFqnn table env with
    ⟨h_r, h_ops⟩ | ⟨n, h_r, -⟩ | h_r
  · left
    have h_pair : processBatch s cfg ownFqnn table env =
        ((processBatch s cfg ownFqnn table env).1, .failed) := Prod.ext rfl h_r
    rw [h_pair, tableAfter_failed h_ops]
    exact h_row
  · rcases processBatch_cases h_s cfg ownFqnn table env with
      ⟨-, es, -, h_eq⟩ | ⟨-, h_eq⟩ | ⟨-, h_acq, h_eq⟩
    · rw [h_eq] at h_r
      cases h_r
    · rw [h_eq] at h_r
      cases h_r
    · have h_handed : (handed (locked s cfg ownFqnn table env)).map Prod.fst =
          eligible env.fetched 0 (ownRows s cfg ownFqnn table) := fetchRows_handed 0 h_acq
      rw [h_eq] at h_r ⊢
      generalize eligible env.fetched 0 (ownRows s cfg ownFqnn table) = rows at h_handed h_r ⊢
      rcases deleteRows_cases cfg env (rows.map (·.listed)) with
        ⟨-, h_end⟩ | ⟨-, h_end⟩ | ⟨-, -, -, -, h_end⟩ | ⟨h_ne, -, -, -, h_end⟩
      · left
        rw [h_end]
        unfold tableAfter closing
        dsimp only
        rw [List.append_nil, List.filterMap_append, ops_locked]
        cases env.commit <;> exact h_row
      · rw [h_end] at h_r
        cases h_r
      · rw [h_end] at h_r
        cases h_r
      · rcases h_end with ⟨-, h_failed⟩ | ⟨-, h_failed⟩ | ⟨h_tail, h_count⟩
        · rw [h_failed] at h_r
          cases h_r
        · rw [h_failed] at h_r
          cases h_r
        · have h_locked : ∀ {row bundle}, .handed row bundle ∈ locked s cfg ownFqnn table env →
              row ∈ table.rows ∧ row.payload = some bundle :=
            fun h => harmless_locked s cfg ownFqnn table env _ h
          have h_rows : ∀ row ∈ rows, ∃ bundle, .handed row bundle ∈
              locked s cfg ownFqnn table env := by
            intro row h
            rw [← h_handed] at h
            obtain ⟨⟨row', bundle⟩, h_mem, rfl⟩ := List.mem_map.mp h
            exact ⟨bundle, mem_handed.mp h_mem⟩
          rw [h_tail, h_count, tableAfter_deleted cfg ownFqnn h_s (by simpa using h_ne)
            fun row h => (h_locked (h_rows row h).choose_spec).1]
          by_cases h_named : row ∈ rows ∧ 0 ≤ row.id
          · obtain ⟨bundle, h_mem⟩ := h_rows row h_named.1
            exact .inr ⟨bundle, (h_locked h_mem).2, List.mem_append_left _ h_mem⟩
          · exact .inl ⟨h_row, h_named⟩
  · exact absurd h_r h_bounds

end

/-! ## Steps -/

/-- What the run keeps: no row that was there or has come is lost. -/
structure Accounted (table : Outbound) (es : List Event) (d : CliState) : Prop where
  whole : d.stray = false
  idle : d.table.Idle
  rows : ∀ row, row ∈ table.rows ∨ .arrive row ∈ es → row ∈ d.table.committed.rows ∨
    ∃ bundle, row.payload = some bundle ∧ .handed row bundle ∈ d.log

/-- The DELETE of a pass in this step fits into its buffer. -/
def RoomyStep (s : MysqlServer) (cfg : MysqlCliConfig) (ownFqnn : UInt64) (d : CliState) :
    Event → Prop
  | .round _ _ env => Roomy s cfg ownFqnn d.table.committed env
  | _ => True

/-- An idle connection takes a new transaction as a fresh one does. -/
theorem committed_execs {σ : Type*} {c : Cell σ} (h : c.Idle) {ops : List (Op σ)}
    (h_ops : ops = [] ∨ ops = [.disconnect] ∨ ∃ ops', ops = .start :: ops') :
    (c.execs ops).committed = ((⟨c.committed, none⟩ : Cell σ).execs ops).committed := by
  rcases h_ops with rfl | rfl | ⟨ops', rfl⟩
  · rfl
  · rfl
  · rw [Cell.execs_start h]

section

variable {s : MysqlServer} {cfg : MysqlCliConfig} {ownFqnn : UInt64} {table : Outbound}
  {es : List Event} {d : CliState}

/-- To close the connection takes nothing away. -/
theorem Accounted.ensureConn (h : Accounted table es d) (pingOk connectOk : Bool) :
    Accounted table es (ensureConn s d pingOk connectOk) ∧
      (ensureConn s d pingOk connectOk).table.committed = d.table.committed := by
  unfold Cli.ensureConn
  split
  · exact ⟨h, rfl⟩
  · unfold closeConn
    split
    · refine ⟨⟨h.whole, rfl, fun row h_row => ?_⟩, rfl⟩
      rcases h.rows row h_row with h_in | ⟨bundle, h_payload, h_log⟩
      · exact .inl h_in
      · exact .inr ⟨bundle, h_payload, List.mem_append_left _ h_log⟩
    · exact ⟨⟨h.whole, h.idle, h.rows⟩, rfl⟩

/-- What a pass on an open connection makes of the state. -/
theorem Accounted.pass (h_s : s.Documented) (h : Accounted table es d) (h_conn : d.conn = true)
    {env : PassEnv} (h_roomy : Roomy s cfg ownFqnn d.table.committed env) :
    Accounted table es (pass s cfg ownFqnn d env) := by
  have h_bounds : (processBatch s cfg ownFqnn d.table.committed env).2 ≠ .overrun := by
    intro h_over
    rcases processBatch_cases h_s cfg ownFqnn d.table.committed env with
      ⟨-, es, -, h_eq⟩ | ⟨-, h_eq⟩ | ⟨h_locks, h_acq, h_eq⟩
    · rw [h_eq] at h_over
      cases h_over
    · rw [h_eq] at h_over
      cases h_over
    · unfold Roomy at h_roomy
      rw [deletes_iff] at h_roomy
      dsimp only at h_roomy
      rw [h_eq] at h_over
      generalize eligible env.fetched 0 (ownRows s cfg ownFqnn d.table.committed) = rows
        at h_roomy h_over
      have h_length : (rows.map (·.listed)).length = rows.length := List.length_map _
      rcases deleteRows_cases cfg env (rows.map (·.listed)) with
        ⟨-, h_end⟩ | ⟨-, h_end⟩ | ⟨h_ne, h_mem, h_size, h_short, -⟩ | ⟨-, -, -, -, h_end⟩
      · rw [h_end] at h_over
        cases h_over
      · rw [h_end] at h_over
        cases h_over
      · rw [h_length] at h_size h_short
        exact h_short (h_roomy ⟨h_locks, h_acq, by simpa using h_ne, h_mem, h_size⟩)
      · rcases h_end with ⟨-, h_r⟩ | ⟨-, h_r⟩ | ⟨-, h_r⟩ <;> rw [h_r] at h_over <;> cases h_over
  have h_kept := fun (row : OutboundRow) (h_row : row ∈ d.table.committed.rows) =>
    kept_or_handed h_s cfg ownFqnn d.table.committed env h_row h_bounds
  have h_ops := ops_processBatch h_s cfg ownFqnn d.table.committed env
  unfold Cli.pass
  dsimp only
  unfold tableAfter at h_kept
  generalize processBatch s cfg ownFqnn d.table.committed env = p at h_bounds h_kept h_ops ⊢
  -- What the log gets, and what the table is then.
  have h_rows : ∀ (es' : List Effect) {d' : CliState}, d'.log = d.log ++ es' →
      (∀ e ∈ p.1, e ∈ es') →
      d'.table.committed = ((Cell.mk d.table.committed none).execs
        ((p.1 ++ closing p.2).filterMap (Effect.op s))).committed →
      ∀ row, row ∈ table.rows ∨ .arrive row ∈ es → row ∈ d'.table.committed.rows ∨
        ∃ bundle, row.payload = some bundle ∧ .handed row bundle ∈ d'.log := by
    intro es' d' h_log h_sub h_table row h_row
    rw [h_log, h_table]
    rcases h.rows row h_row with h_in | ⟨bundle, h_payload, h_mem⟩
    · rcases h_kept row h_in with h_in | ⟨bundle, h_payload, h_mem⟩
      · exact .inl h_in
      · exact .inr ⟨bundle, h_payload, List.mem_append_right _ (h_sub _ h_mem)⟩
    · exact .inr ⟨bundle, h_payload, List.mem_append_left _ h_mem⟩
  rcases h_ops with ⟨h_r, h_ops⟩ | ⟨n, h_r, h_ops⟩ | h_r
  · rw [h_r]
    dsimp only
    have h_close : closeConn s (emit s d p.1) =
        { emit s (emit s d p.1) [.sql .disconnect true] with conn := false } := if_pos h_conn
    rw [h_close]
    refine ⟨h.whole, rfl, h_rows (p.1 ++ [.sql .disconnect true]) ?_ ?_ ?_⟩
    · exact List.append_assoc _ _ _
    · exact fun e h_e => List.mem_append_left _ h_e
    · rw [h_r, closing_failed, List.filterMap_append, ← committed_execs h.idle]
      · exact (congrArg Cell.committed (Cell.execs_append _ _ _)).symm
      · rcases h_ops with h_nil | ⟨fs, ops, -, h_eq⟩
        · rw [h_nil]
          exact .inr (.inl rfl)
        · rw [h_eq]
          exact .inr (.inr ⟨_, rfl⟩)
  · rw [h_r]
    dsimp only
    refine ⟨h.whole, ?_, h_rows p.1 rfl (fun e h_e => h_e) ?_⟩
    · show (d.table.execs (p.1.filterMap (Effect.op s))).Idle
      rcases h_ops with h_eq | ⟨fs, h_eq⟩
      · rw [h_eq]
        rfl
      · rw [h_eq, Cell.execs_append]
        rfl
    · rw [h_r, closing_count, List.append_nil, ← committed_execs h.idle]
      · rfl
      · rcases h_ops with h_eq | ⟨fs, h_eq⟩
        · exact .inr (.inr ⟨_, h_eq⟩)
        · exact .inr (.inr ⟨_, h_eq⟩)
  · exact absurd h_r h_bounds

theorem Accounted.step (h_s : s.Documented) {e : Event} {d' : CliState} (h : Accounted table es d)
    (h_roomy : RoomyStep s cfg ownFqnn d e) (h_step : step s cfg ownFqnn d e = some d') :
    Accounted table (es ++ [e]) d' := by
  have h_quiet : ∀ {d' : CliState}, (∀ row, e ≠ .arrive row) → Accounted table es d' →
      Accounted table (es ++ [e]) d' := by
    intro d' h_e h'
    refine ⟨h'.whole, h'.idle, fun row h_row => h'.rows row (h_row.imp_right fun h_mem => ?_)⟩
    rcases List.mem_append.mp h_mem with h_mem | h_mem
    · exact h_mem
    · exact absurd (List.mem_singleton.mp h_mem).symm (h_e row)
  cases e with
  | round pingOk connectOk env =>
    rw [Cli.step] at h_step
    split at h_step
    · cases h_step
    · split at h_step
      · obtain rfl := Option.some.inj h_step
        exact h_quiet (fun row h_eq => by cases h_eq) ⟨h.whole, h.idle, h.rows⟩
      · obtain ⟨h_conn, h_table⟩ := h.ensureConn (s := s) pingOk connectOk
        dsimp only at h_step
        split at h_step
        · rename_i h_open
          obtain rfl := Option.some.inj h_step
          refine h_quiet (fun row h_eq => by cases h_eq) (h_conn.pass h_s h_open ?_)
          rw [h_table]
          exact h_roomy
        · obtain rfl := Option.some.inj h_step
          exact h_quiet (fun row h_eq => by cases h_eq) h_conn
  | stop =>
    obtain rfl := Option.some.inj h_step
    exact h_quiet (fun row h_eq => by cases h_eq) ⟨h.whole, h.idle, h.rows⟩
  | arrive row =>
    rw [Cli.step] at h_step
    cases h_insert : d.table.committed.insert row with
    | none =>
      rw [h_insert] at h_step
      cases h_step
    | some table' =>
      rw [h_insert] at h_step
      obtain rfl := Option.some.inj h_step
      refine ⟨h.whole, h.idle, fun row' h_row' => ?_⟩
      show row' ∈ table'.rows ∨ _
      rw [Keyed.Table.mem_insert h_insert]
      rcases h_row' with h_start | h_mem
      · exact (h.rows row' (.inl h_start)).imp_left .inr
      · rcases List.mem_append.mp h_mem with h_mem | h_new
        · exact (h.rows row' (.inr h_mem)).imp_left .inr
        · exact .inl (.inl (Event.arrive.inj (List.mem_singleton.mp h_new)))

/-- **No row is lost.** -/
theorem run_accounted (h_s : s.Documented) {conn : Bool}
    (h_roomy : Lts.Meets (step s cfg ownFqnn) (RoomyStep s cfg ownFqnn)
      (CliState.start table conn) es)
    (h_run : Lts.run (step s cfg ownFqnn) (CliState.start table conn) es = some d) :
    Accounted table es d := by
  have h_step : ∀ es d e d', Accounted table es d → RoomyStep s cfg ownFqnn d e →
      step s cfg ownFqnn d e = some d' → Accounted table (es ++ [e]) d' :=
    fun _ _ _ _ h h_met h_step => h.step h_s h_met h_step
  have h_start : Accounted table [] (CliState.start table conn) := by
    refine ⟨rfl, rfl, fun row h_row => ?_⟩
    rcases h_row with h_row | h_none
    · exact .inl h_row
    · cases h_none
  exact Lts.run_invariant_history_of_meets h_step h_start h_roomy h_run

end

/-! ## The input daemon -/

/-- **A pass consumes its rows atomically** unless one of them has a negative id or the size of the
    DELETE has overflowed, and runs lose no row. -/
theorem mysqlCli_consumes_iff {s : MysqlServer} (h_s : s.Documented) (cfg : MysqlCliConfig)
    (ownFqnn : UInt64) :
    (∀ table env, Consumes s cfg table (processBatch s cfg ownFqnn table env) ↔
      Unsigned s cfg ownFqnn table env ∧ Roomy s cfg ownFqnn table env) ∧
    (∀ table conn es d,
      Lts.Meets (step s cfg ownFqnn) (RoomyStep s cfg ownFqnn) (CliState.start table conn) es →
      Lts.run (step s cfg ownFqnn) (CliState.start table conn) es = some d →
      Accounted table es d) :=
  ⟨fun table env => consumes_iff h_s cfg ownFqnn table env,
    fun _ _ _ _ h_roomy h_run => run_accounted h_s h_roomy h_run⟩

/-- What the daemon is started with when it is given no options. -/
def outboundConfig : MysqlCliConfig where
  table := Mail.ascii "outbound"
  batch := 100
  srcFilter := []
  table_valid := by decide
  batch_int := by decide
  srcFilter_fits := by decide

/-- A bundle of one octet from node 1. -/
def rowOfNode1 (id : Int) (h : -2 ^ 63 ≤ id ∧ id < 2 ^ 63) : OutboundRow where
  id := id
  payload := some [0x9f]
  src := some (Mail.ascii "ipn:1.0")
  id_bigint := h
  payload_longblob := by
    intro octets h_octets
    obtain rfl := Option.some.inj (Option.mem_def.mp h_octets)
    decide

/-- Nothing fails. -/
def smooth : PassEnv := ⟨true, true, true, true, fun _ => .acquired, true, true, true, true⟩

/-- A table with one row. -/
def oneRow (row : OutboundRow) : Outbound := ⟨[row], List.pairwise_singleton _ _⟩

theorem mysqlCli_consumes_iff_row7 :
    Consumes listServer outboundConfig (oneRow (rowOfNode1 7 (by decide)))
      (processBatch listServer outboundConfig 1 (oneRow (rowOfNode1 7 (by decide))) smooth) := by
  refine ((mysqlCli_consumes_iff listServer_documented outboundConfig 1).1 _ _).mpr
    ⟨fun _ row h_row => ?_, roomy_of_batch _ _ _ _ (by decide)⟩
  have h_rows := (eligible_sublist _ _ _).subset h_row
  obtain rfl := List.mem_singleton.mp (Keyed.Table.mem_of_mem_select h_rows)
  decide

/-- A row whose id is negative is handed over and stays, to be handed over again. -/
theorem processBatch_negative :
    let row := rowOfNode1 (-5) (by decide)
    let p := processBatch listServer outboundConfig 1 (oneRow row) smooth
    (p.2 = .count 1 ∧ handed p.1 = [(row, [0x9f])] ∧
      (tableAfter listServer (oneRow row) p).rows = [row]) ∧
    ¬ Consumes listServer outboundConfig (oneRow row) p := by
  intro row p
  have h_pass : p.2 = .count 1 ∧ handed p.1 = [(row, [0x9f])] ∧
      (tableAfter listServer (oneRow row) p).rows = [row] := by decide
  refine ⟨h_pass, fun h => ?_⟩
  obtain ⟨h_count, h_handed, h_rows⟩ := h_pass
  have h_gone := (((h.count 1 h_count).2 row).mp (by rw [h_rows]; exact List.mem_singleton_self row)).2
  rw [h_handed] at h_gone
  exact h_gone (List.mem_singleton_self row)

end IonContrib.Mysql.Cli
