/-
  IonContrib.Mysql.CliAtomic

  What the input daemon takes out of its table.

  `Consumes` is what a pass is to do: delete the rows whose bundles it has handed
  to BP when it returns a count, none when it fails, and name all of them in its
  DELETE.  The ids of the table are signed, the list of ids is not: a row with a
  negative id is handed over but named by another number, so it stays.  A pass
  does what it is to do exactly when no such row gets as far as the DELETE and
  the size of its buffer has not overflowed (`consumes_iff`).

  No row is lost either way: what a DELETE takes out of the table has been handed
  over (`run_accounted`).
-/
import IonContrib.Mysql.Cli

namespace IonContrib.Mysql.Cli

open Transactions

/-! ## Specification -/

structure Consumes (s : MysqlServer) (cfg : MysqlCliConfig) (table : Outbound)
    (p : List Effect × Returned) : Prop where
  /-- What BP gets is the payload of a row. -/
  payload : ∀ row bundle, (row, bundle) ∈ handed p.1 → row ∈ table.rows ∧ row.payload = some bundle
  count : ∀ n, p.2 = .count n → n = (handed p.1).length ∧
    ∀ row, row ∈ (tableAfter s table p).rows ↔ row ∈ table.rows ∧ row ∉ (handed p.1).map Prod.fst
  failed : p.2 = .failed → tableAfter s table p = table
  /-- No id is written behind the end of the list. -/
  listed : ∀ index id, .listed index id ∈ p.1 → index < cfg.batch
  /-- The DELETE is whole and names the rows. -/
  names : ∀ text ok, .sql (.delete text) ok ∈ p.1 → ∃ ids : List Nat,
    text = deleteText cfg.table ids ∧ ids.map (↑) = (handed p.1).map fun h => h.1.id
  inBounds : p.2 ≠ .overrun

/-- The rows that the SELECT is to find. -/
def ownRows (s : MysqlServer) (cfg : MysqlCliConfig) (ownFqnn : UInt64) (table : Outbound) :
    List OutboundRow :=
  table.select (ownRow s.like (mysqlOwnEidPattern cfg ownFqnn)) cfg.batch

/-- The rows that are not passed over, from row `k` on. -/
def eligible (fetched : Nat → Fetched) : Nat → List OutboundRow → List OutboundRow
  | _, [] => []
  | k, row :: rows =>
    if row.payload.isSome = true ∧ fetched k ≠ .noLengths then
      row :: eligible fetched (k + 1) rows
    else eligible fetched (k + 1) rows

/-- Whether no acquisition fails. -/
def acquires (fetched : Nat → Fetched) : Nat → List OutboundRow → Bool
  | _, [] => true
  | k, row :: rows =>
    (row.payload.all fun payload => fetched k = .noLengths || (acquire (fetched k) payload).isSome) &&
      acquires fetched (k + 1) rows

/-- Nothing fails on the way to the DELETE, and there is something to delete. -/
structure Deletes (cfg : MysqlCliConfig) (env : PassEnv) (rows : List OutboundRow) : Prop where
  idMem : env.idMem = true
  start : env.start = true
  select : env.select = true
  store : env.store = true
  acquires : acquires env.fetched 0 rows = true
  some : eligible env.fetched 0 rows ≠ []
  deleteMem : env.deleteMem = true
  /-- An allocation of a negative size fails. -/
  size : 0 ≤ delLen cfg.table (eligible env.fetched 0 rows).length

/-- No row that the DELETE is about has a negative id. -/
def Unsigned (s : MysqlServer) (cfg : MysqlCliConfig) (ownFqnn : UInt64) (table : Outbound)
    (env : PassEnv) : Prop :=
  Deletes cfg env (ownRows s cfg ownFqnn table) →
    ∀ row ∈ eligible env.fetched 0 (ownRows s cfg ownFqnn table), 0 ≤ row.id

/-- The DELETE and its NUL fit into the buffer. -/
def Roomy (s : MysqlServer) (cfg : MysqlCliConfig) (ownFqnn : UInt64) (table : Outbound)
    (env : PassEnv) : Prop :=
  let rows := eligible env.fetched 0 (ownRows s cfg ownFqnn table)
  Deletes cfg env (ownRows s cfg ownFqnn table) →
    (deleteText cfg.table (rows.map (·.listed))).length + 1 ≤ delLen cfg.table rows.length

/-! ## Fetching -/

theorem acquire_eq_some {f : Fetched} {payload bundle : Octets} (h_len : payload.length < 2 ^ 32)
    (h : acquire f payload = some bundle) : bundle = payload := by
  unfold acquire at h
  split at h
  · rename_i h_ok
    obtain rfl := Option.some.inj h
    have h_int := h_ok.2
    rw [CText.toInt] at h_int ⊢
    refine List.take_of_length_le ?_
    have h_small := (bmod_of_nonneg h_int).2
    have h_pow : 2 ^ 32 = 4294967296 := by decide
    omega
  · cases h

/-- What the loop is, row by row. -/
theorem fetchRows_ids (fetched : Nat → Fetched) (k count : Nat) (rows : List OutboundRow) :
    (fetchRows fetched k count rows).2 =
      if acquires fetched k rows = true then some ((eligible fetched k rows).map (·.listed))
      else none := by
  induction rows generalizing k count with
  | nil => rfl
  | cons row rows ih =>
    rw [fetchRows, acquires, eligible]
    cases h_payload : row.payload with
    | none => simp [ih]
    | some payload =>
      by_cases h_len : fetched k = .noLengths
      · simp [h_len, ih]
      · cases h_acq : acquire (fetched k) payload with
        | none => simp [h_len, h_acq]
        | some bundle =>
          simp only [h_len, if_false, ih, Option.isSome_some, ne_eq, not_false_eq_true, and_self,
            if_true, Option.all_some, decide_false, Bool.or_true, Bool.true_and, h_acq]
          split
          · rfl
          · rfl

/-- The rows BP has the bundles of. -/
theorem fetchRows_handed {fetched : Nat → Fetched} {k : Nat} (count : Nat)
    {rows : List OutboundRow} (h : acquires fetched k rows = true) :
    (handed (fetchRows fetched k count rows).1).map Prod.fst = eligible fetched k rows := by
  induction rows generalizing k count with
  | nil => rfl
  | cons row rows ih =>
    rw [acquires, Bool.and_eq_true] at h
    rw [fetchRows, eligible]
    cases h_payload : row.payload with
    | none => simp [ih count h.2]
    | some payload =>
      by_cases h_len : fetched k = .noLengths
      · simp [h_len, ih count h.2]
      · rw [h_payload] at h
        obtain ⟨bundle, h_acq⟩ := Option.isSome_iff_exists.mp (by simpa [h_len] using h.1)
        have h_tail := ih (count + 1) h.2
        simp only [h_len, if_false, h_acq, Option.isSome_some, ne_eq, not_false_eq_true, and_self,
          if_true]
        show row :: (handed (fetchRows fetched (k + 1) (count + 1) rows).1).map Prod.fst = _
        rw [h_tail]

/-- What the loop does: ids go into entries of the list that the rows pay for, BP gets payloads. -/
theorem mem_fetchRows {fetched : Nat → Fetched} {k count : Nat} {rows : List OutboundRow}
    {e : Effect} (h : e ∈ (fetchRows fetched k count rows).1) :
    (∃ index id, e = .listed index id ∧ index < count + rows.length) ∨
      ∃ row ∈ rows, ∃ bundle, e = .handed row bundle ∧ row.payload = some bundle := by
  induction rows generalizing k count with
  | nil => cases h
  | cons row rows ih =>
    have h_later : ∀ {k count'}, count' ≤ count + 1 → e ∈ (fetchRows fetched k count' rows).1 →
        (∃ index id, e = .listed index id ∧ index < count + (row :: rows).length) ∨
          ∃ row' ∈ row :: rows, ∃ bundle, e = .handed row' bundle ∧ row'.payload = some bundle := by
      intro k count' h_count h_mem
      rcases ih h_mem with ⟨index, id, h_eq, h_lt⟩ | ⟨row', h_row', h_handed⟩
      · exact .inl ⟨index, id, h_eq, by rw [List.length_cons]; omega⟩
      · exact .inr ⟨row', List.mem_cons_of_mem row h_row', h_handed⟩
    have h_here : count < count + (row :: rows).length := by
      rw [List.length_cons]
      omega
    rw [fetchRows] at h
    cases h_payload : row.payload with
    | none =>
      rw [h_payload] at h
      exact h_later (Nat.le_succ count) h
    | some payload =>
      rw [h_payload] at h
      dsimp only at h
      by_cases h_len : fetched k = .noLengths
      · rw [if_pos h_len] at h
        exact h_later (Nat.le_succ count) h
      · rw [if_neg h_len] at h
        cases h_acq : acquire (fetched k) payload with
        | none =>
          rw [h_acq] at h
          exact .inl ⟨count, row.listed, List.mem_singleton.mp h, h_here⟩
        | some bundle =>
          rw [h_acq] at h
          rcases List.mem_cons.mp h with rfl | h
          · exact .inl ⟨count, row.listed, rfl, h_here⟩
          · rcases List.mem_cons.mp h with rfl | h
            · obtain rfl := acquire_eq_some (row.payload_longblob payload h_payload) h_acq
              exact .inr ⟨row, List.mem_cons_self, bundle, rfl, h_payload⟩
            · exact h_later (Nat.le_refl _) h

/-! ## The end of a pass -/

/-- What a pass does with a DELETE of `n` rows: it fails, its commit does, or all is well. -/
def Ending (env : PassEnv) (text : Octets) (n : Nat) (tail : List Effect) (r : Returned) : Prop :=
  (tail = [.sql (.delete text) false, .sql .rollback env.rollback] ∧ r = .failed) ∨
    (tail = [.sql (.delete text) true, .sql .commit false, .sql .rollback env.rollback] ∧
      r = .failed) ∨
    (tail = [.sql (.delete text) true, .sql .commit true] ∧ r = .count n)

section

variable {cfg : MysqlCliConfig} {env : PassEnv}

theorem Ending.begins {text : Octets} {n : Nat} {tail : List Effect} {r : Returned}
    (h : Ending env text n tail r) : ∃ ok rest, tail = .sql (.delete text) ok :: rest := by
  rcases h with ⟨rfl, -⟩ | ⟨rfl, -⟩ | ⟨rfl, -⟩ <;> exact ⟨_, _, rfl⟩

/-- There are statements in it only, and no other DELETE. -/
theorem Ending.mem {text : Octets} {n : Nat} {tail : List Effect} {r : Returned}
    (h : Ending env text n tail r) {e : Effect} (h_e : e ∈ tail) :
    ∃ stmt ok, e = .sql stmt ok ∧ (stmt = .delete text ∨ stmt = .commit ∨ stmt = .rollback) := by
  rcases h with ⟨rfl, -⟩ | ⟨rfl, -⟩ | ⟨rfl, -⟩ <;>
    simp only [List.mem_cons, List.not_mem_nil, or_false] at h_e
  · rcases h_e with rfl | rfl
    · exact ⟨_, _, rfl, .inl rfl⟩
    · exact ⟨_, _, rfl, .inr (.inr rfl)⟩
  · rcases h_e with rfl | rfl | rfl
    · exact ⟨_, _, rfl, .inl rfl⟩
    · exact ⟨_, _, rfl, .inr (.inl rfl)⟩
    · exact ⟨_, _, rfl, .inr (.inr rfl)⟩
  · rcases h_e with rfl | rfl
    · exact ⟨_, _, rfl, .inl rfl⟩
    · exact ⟨_, _, rfl, .inr (.inl rfl)⟩

/-- The four ways in which a pass ends that has got through the rows. -/
theorem deleteRows_cases (cfg : MysqlCliConfig) (env : PassEnv) (ids : List Nat) :
    (ids = [] ∧ deleteRows cfg env ids = ([.sql .commit env.commit], .count 0)) ∨
    (¬ (env.deleteMem = true ∧ 0 ≤ delLen cfg.table ids.length) ∧
      deleteRows cfg env ids = ([.sql .rollback env.rollback], .failed)) ∨
    (ids ≠ [] ∧ env.deleteMem = true ∧ 0 ≤ delLen cfg.table ids.length ∧
      ¬ (deleteText cfg.table ids).length + 1 ≤ delLen cfg.table ids.length ∧
      deleteRows cfg env ids = ([], .overrun)) ∨
    (ids ≠ [] ∧ env.deleteMem = true ∧ 0 ≤ delLen cfg.table ids.length ∧
      (deleteText cfg.table ids).length + 1 ≤ delLen cfg.table ids.length ∧
      Ending env (deleteText cfg.table ids) ids.length (deleteRows cfg env ids).1
        (deleteRows cfg env ids).2) := by
  unfold deleteRows
  by_cases h_ids : ids = []
  · exact .inl ⟨h_ids, if_pos h_ids⟩
  rw [if_neg h_ids]
  by_cases h_mem : env.deleteMem = false ∨ delLen cfg.table ids.length < 0
  · refine .inr (.inl ⟨?_, if_pos h_mem⟩)
    rintro ⟨h_ok, h_size⟩
    rcases h_mem with h_mem | h_neg
    · rw [h_mem] at h_ok
      cases h_ok
    · omega
  rw [if_neg h_mem, deleteQuery_eq cfg.table_valid]
  rw [not_or, Bool.not_eq_false, Int.not_lt] at h_mem
  by_cases h_fits : (deleteText cfg.table ids).length + 1 ≤ (delLen cfg.table ids.length).toNat
  · rw [if_pos h_fits]
    refine .inr (.inr (.inr ⟨h_ids, h_mem.1, h_mem.2, by omega, ?_⟩))
    cases h_delete : env.delete with
    | false => exact .inl ⟨rfl, rfl⟩
    | true =>
      cases h_commit : env.commit with
      | false => exact .inr (.inl ⟨rfl, rfl⟩)
      | true => exact .inr (.inr ⟨rfl, rfl⟩)
  · rw [if_neg h_fits]
    exact .inr (.inr (.inl ⟨h_ids, h_mem.1, h_mem.2, by omega, rfl⟩))

end

/-! ## A pass -/

/-- Nothing fails before the rows are fetched. -/
def Locks (env : PassEnv) : Prop :=
  env.idMem = true ∧ env.start = true ∧ env.select = true ∧ env.store = true

section

variable {s : MysqlServer} (h_s : s.Documented) (cfg : MysqlCliConfig) (ownFqnn : UInt64)
  (table : Outbound) (env : PassEnv)
include h_s

theorem select_own :
    table.select (s.selects (selectQuery s.toMysqlClient cfg ownFqnn))
      (s.limit (selectQuery s.toMysqlClient cfg ownFqnn)) = ownRows s cfg ownFqnn table := by
  rw [selectQuery_eq h_s.toDocumented, ownRows, h_s.limit _ _ _ cfg.table_valid]
  congr 1
  funext row
  exact h_s.selects _ _ _ row cfg.table_valid

/-- What a pass does with the rows it has locked. -/
def locked (s : MysqlServer) (cfg : MysqlCliConfig) (ownFqnn : UInt64) (table : Outbound)
    (env : PassEnv) : List Effect :=
  .sql .start true :: .sql (.select (selectQuery s.toMysqlClient cfg ownFqnn)) true ::
    (fetchRows env.fetched 0 0 (ownRows s cfg ownFqnn table)).1

omit h_s in
/-- The only statement that matters to the table is the start of the transaction. -/
theorem ops_locked : (locked s cfg ownFqnn table env).filterMap (Effect.op s) = [.start] := by
  have h_none : ∀ e ∈ (fetchRows env.fetched 0 0 (ownRows s cfg ownFqnn table)).1,
      e.op s = none := by
    intro e h_e
    rcases mem_fetchRows h_e with ⟨index, id, rfl, -⟩ | ⟨row, -, bundle, rfl, -⟩
    · rfl
    · rfl
  show Op.start :: (fetchRows env.fetched 0 0 _).1.filterMap (Effect.op s) = _
  rw [List.filterMap_eq_nil_iff.mpr h_none]

/-- The three ways through a pass: it fails before it has the rows, an acquisition fails, or it
    comes to its end. -/
theorem processBatch_cases :
    (¬ Locks env ∧ ∃ es,
      (es = [] ∨ es = [.sql .start false] ∨ (∃ text ok,
        es = [.sql .start true, .sql (.select text) ok, .sql .rollback env.rollback])) ∧
      processBatch s cfg ownFqnn table env = (es, .failed)) ∨
    (acquires env.fetched 0 (ownRows s cfg ownFqnn table) = false ∧
      processBatch s cfg ownFqnn table env =
        (locked s cfg ownFqnn table env ++ [.sql .rollback env.rollback], .failed)) ∨
    (Locks env ∧ acquires env.fetched 0 (ownRows s cfg ownFqnn table) = true ∧
      processBatch s cfg ownFqnn table env =
        (locked s cfg ownFqnn table env ++ (deleteRows cfg env
            ((eligible env.fetched 0 (ownRows s cfg ownFqnn table)).map (·.listed))).1,
          (deleteRows cfg env
            ((eligible env.fetched 0 (ownRows s cfg ownFqnn table)).map (·.listed))).2)) := by
  have h_ids := fetchRows_ids env.fetched 0 0 (ownRows s cfg ownFqnn table)
  unfold processBatch
  dsimp only
  rw [select_own h_s]
  cases h_idMem : env.idMem with
  | false => exact .inl ⟨fun h => by simp [Locks, h_idMem] at h, _, .inl rfl, rfl⟩
  | true =>
    cases h_start : env.start with
    | false => exact .inl ⟨fun h => by simp [Locks, h_start] at h, _, .inr (.inl rfl), rfl⟩
    | true =>
      cases h_select : env.select with
      | false =>
        exact .inl ⟨fun h => by simp [Locks, h_select] at h, _, .inr (.inr ⟨_, _, rfl⟩), rfl⟩
      | true =>
        cases h_store : env.store with
        | false =>
          exact .inl ⟨fun h => by simp [Locks, h_store] at h, _, .inr (.inr ⟨_, _, rfl⟩), rfl⟩
        | true =>
          have h_locks : Locks env := ⟨h_idMem, h_start, h_select, h_store⟩
          cases h_acq : acquires env.fetched 0 (ownRows s cfg ownFqnn table) with
          | false =>
            rw [h_acq, if_neg Bool.false_ne_true] at h_ids
            refine .inr (.inl ⟨rfl, ?_⟩)
            simp only [h_ids, Bool.true_eq_false, if_false]
            rfl
          | true =>
            rw [h_acq, if_pos rfl] at h_ids
            refine .inr (.inr ⟨h_locks, rfl, ?_⟩)
            simp only [h_ids, Bool.true_eq_false, if_false]
            rfl

end

/-! ## What a pass is to do -/

theorem eligible_sublist (fetched : Nat → Fetched) (k : Nat) (rows : List OutboundRow) :
    (eligible fetched k rows).Sublist rows := by
  induction rows generalizing k with
  | nil => exact List.Sublist.refl []
  | cons row rows ih =>
    rw [eligible]
    split
    · exact (ih (k + 1)).cons_cons row
    · exact (ih (k + 1)).cons row

/-- No DELETE of a hundred million rows or fewer is too long for its buffer. -/
theorem roomy_of_batch (s : MysqlServer) {cfg : MysqlCliConfig} (ownFqnn : UInt64)
    (table : Outbound) (env : PassEnv) (h : cfg.batch ≤ 100000000) :
    Roomy s cfg ownFqnn table env := by
  intro _
  have h_limit : (ownRows s cfg ownFqnn table).length ≤ cfg.batch := table.select_length_le _ _
  have h_count := (eligible_sublist env.fetched 0 (ownRows s cfg ownFqnn table)).length_le
  generalize eligible env.fetched 0 (ownRows s cfg ownFqnn table) = rows at h_count ⊢
  have h_ids : ∀ id ∈ rows.map (·.listed), id < 2 ^ 64 := by
    intro id h_id
    obtain ⟨row, -, rfl⟩ := List.mem_map.mp h_id
    exact listed_lt row
  have h_text := deleteText_length cfg.table h_ids
  rw [List.length_map] at h_text
  rw [delLen_fits cfg.table_valid (by omega)]
  omega

/-- A list of ids names the rows whose ids it shows as they are, and no other row. -/
theorem named_iff {table : Outbound} {rows : List OutboundRow} {row : OutboundRow}
    (h_rows : ∀ row ∈ rows, row ∈ table.rows) (h : row ∈ table.rows) :
    (∃ id ∈ rows.map (·.listed), row.id = (id : Nat)) ↔ row ∈ rows ∧ 0 ≤ row.id := by
  constructor
  · rintro ⟨id, h_id, h_eq⟩
    obtain ⟨row', h_row', rfl⟩ := List.mem_map.mp h_id
    obtain ⟨h_low, h_high⟩ := row'.id_bigint
    have h_row := row.id_bigint
    have h_listed := listed_eq row'
    have h_key : row.id = row'.id := by omega
    obtain rfl := table.eq_of_key_eq h (h_rows row' h_row') h_key
    exact ⟨h_row', by omega⟩
  · rintro ⟨h_row, h_sign⟩
    exact ⟨row.listed, List.mem_map_of_mem h_row, ((listed_eq_id_iff row).mpr h_sign).symm⟩

theorem deletes_iff (cfg : MysqlCliConfig) (env : PassEnv) (rows : List OutboundRow) :
    Deletes cfg env rows ↔ Locks env ∧ acquires env.fetched 0 rows = true ∧
      eligible env.fetched 0 rows ≠ [] ∧ env.deleteMem = true ∧
      0 ≤ delLen cfg.table (eligible env.fetched 0 rows).length := by
  constructor
  · intro h
    exact ⟨⟨h.idMem, h.start, h.select, h.store⟩, h.acquires, h.some, h.deleteMem, h.size⟩
  · rintro ⟨⟨h_idMem, h_start, h_select, h_store⟩, h_acq, h_some, h_mem, h_size⟩
    exact ⟨h_idMem, h_start, h_select, h_store, h_acq, h_some, h_mem, h_size⟩

/-- What a pass may do apart from its DELETE. -/
def Harmless (cfg : MysqlCliConfig) (table : Outbound) : Effect → Prop
  | .sql (.delete _) _ => False
  | .sql _ _ => True
  | .listed index _ => index < cfg.batch
  | .handed row bundle => row ∈ table.rows ∧ row.payload = some bundle

section

variable {s : MysqlServer} {cfg : MysqlCliConfig} {table : Outbound}

theorem mem_handed {es : List Effect} {row : OutboundRow} {bundle : Octets} :
    (row, bundle) ∈ handed es ↔ .handed row bundle ∈ es := by
  rw [handed, List.mem_filterMap]
  constructor
  · rintro ⟨e, h_e, h_handing⟩
    cases e with
    | handed row' bundle' =>
      obtain ⟨rfl, rfl⟩ := Prod.mk.inj (Option.some.inj h_handing)
      exact h_e
    | sql stmt ok => cases h_handing
    | listed index id => cases h_handing
  · intro h
    exact ⟨_, h, rfl⟩

/-- A pass whose other effects are harmless is right when its DELETE and its result are. -/
theorem Consumes.of_harmless {p : List Effect × Returned} (ids : List Nat)
    (h_effects : ∀ e ∈ p.1, Harmless cfg table e ∨
      ((∃ ok, e = .sql (.delete (deleteText cfg.table ids)) ok) ∧
        ids.map (↑) = (handed p.1).map fun h => h.1.id))
    (h_count : ∀ n, p.2 = .count n → n = (handed p.1).length ∧ ∀ row,
      row ∈ (tableAfter s table p).rows ↔ row ∈ table.rows ∧ row ∉ (handed p.1).map Prod.fst)
    (h_failed : p.2 = .failed → tableAfter s table p = table) (h_bounds : p.2 ≠ .overrun) :
    Consumes s cfg table p where
  payload := by
    intro row bundle h
    rcases h_effects _ (mem_handed.mp h) with h_harmless | ⟨⟨ok, h_eq⟩, -⟩
    · exact h_harmless
    · cases h_eq
  count := h_count
  failed := h_failed
  listed := by
    intro index id h
    rcases h_effects _ h with h_harmless | ⟨⟨ok, h_eq⟩, -⟩
    · exact h_harmless
    · cases h_eq
  names := by
    intro text ok h
    rcases h_effects _ h with h_harmless | ⟨⟨ok', h_eq⟩, h_ids⟩
    · exact h_harmless.elim
    · cases h_eq
      exact ⟨ids, rfl, h_ids⟩
  inBounds := h_bounds

/-- A pass that fails without a commit leaves the table alone. -/
theorem tableAfter_failed {es : List Effect}
    (h : es.filterMap (Effect.op s) = [] ∨ ∃ (fs : List (Outbound → Outbound)) (ops : _),
      (ops = [] ∨ ops = [.rollback]) ∧
        es.filterMap (Effect.op s) = .start :: fs.map .update ++ ops) :
    tableAfter s table (es, .failed) = table := by
  have h_close : [Effect.sql .disconnect true].filterMap (Effect.op s) = [.disconnect] := rfl
  unfold tableAfter
  show ((Cell.mk table none).execs ((es ++ [Effect.sql .disconnect true]).filterMap
    (Effect.op s))).committed = table
  rw [List.filterMap_append, h_close]
  rcases h with h_nil | ⟨fs, ops, h_ops, h_eq⟩
  · rw [h_nil]
    rfl
  · rw [h_eq, Cell.execs_undone table fs h_ops]

/-- A rollback, as far as it succeeds. -/
theorem ops_rollback (s : MysqlServer) (ok : Bool) :
    [Effect.sql .rollback ok].filterMap (Effect.op s) = [] ∨
      [Effect.sql .rollback ok].filterMap (Effect.op s) = [.rollback] := by
  cases ok with
  | false => exact .inl rfl
  | true => exact .inr rfl

end

section

variable (s : MysqlServer) (cfg : MysqlCliConfig) (ownFqnn : UInt64) (table : Outbound)
  (env : PassEnv)

theorem harmless_locked :
    ∀ e ∈ locked s cfg ownFqnn table env, Harmless cfg table e := by
  intro e h
  rcases List.mem_cons.mp h with rfl | h
  · trivial
  rcases List.mem_cons.mp h with rfl | h
  · trivial
  rcases mem_fetchRows h with ⟨index, id, rfl, h_index⟩ | ⟨row, h_row, bundle, rfl, h_payload⟩
  · have h_limit : (ownRows s cfg ownFqnn table).length ≤ cfg.batch := table.select_length_le _ _
    show index < cfg.batch
    omega
  · exact ⟨Keyed.Table.mem_of_mem_select h_row, h_payload⟩

/-- Statements behind the rows are no hand-over. -/
theorem handed_locked_append {tail : List Effect} (h : ∀ e ∈ tail, ∃ stmt ok, e = .sql stmt ok) :
    handed (locked s cfg ownFqnn table env ++ tail) = handed (locked s cfg ownFqnn table env) := by
  have h_tail : tail.filterMap Effect.handing = [] := by
    refine List.filterMap_eq_nil_iff.mpr fun e h_e => ?_
    obtain ⟨stmt, ok, rfl⟩ := h e h_e
    rfl
  rw [handed, List.filterMap_append, h_tail, List.append_nil]
  rfl

/-- A pass that fails with the rows in its hands. -/
theorem consumes_rollback :
    Consumes s cfg table
      (locked s cfg ownFqnn table env ++ [.sql .rollback env.rollback], .failed) := by
  refine Consumes.of_harmless [] (fun e h_e => .inl ?_) (fun n h => by cases h)
    (fun _ => ?_) (fun h => by cases h)
  · rcases List.mem_append.mp h_e with h_e | h_e
    · exact harmless_locked s cfg ownFqnn table env e h_e
    · obtain rfl := List.mem_singleton.mp h_e
      trivial
  · refine tableAfter_failed (.inr ⟨[], _, ops_rollback s env.rollback, ?_⟩)
    rw [List.filterMap_append, ops_locked]
    rfl

variable {s} {table env}

/-- The rows that a committed DELETE has left. -/
theorem tableAfter_deleted {rows : List OutboundRow} (h_s : s.Documented) (h_ne : rows ≠ [])
    (h_rows : ∀ row ∈ rows, row ∈ table.rows) (row : OutboundRow) (n : Nat) :
    row ∈ (tableAfter s table (locked s cfg ownFqnn table env ++
        [.sql (.delete (deleteText cfg.table (rows.map (·.listed)))) true, .sql .commit true],
        .count n)).rows ↔
      row ∈ table.rows ∧ ¬ (row ∈ rows ∧ 0 ≤ row.id) := by
  have h_ids : ∀ id ∈ rows.map (·.listed), id < 2 ^ 64 := by
    intro id h_id
    obtain ⟨row', -, rfl⟩ := List.mem_map.mp h_id
    exact listed_lt row'
  have h_table : tableAfter s table (locked s cfg ownFqnn table env ++
      [.sql (.delete (deleteText cfg.table (rows.map (·.listed)))) true, .sql .commit true],
      .count n) = table.remove (s.deletes (deleteText cfg.table (rows.map (·.listed)))) := by
    unfold tableAfter closing
    dsimp only
    rw [List.append_nil, List.filterMap_append, ops_locked]
    rfl
  rw [h_table, Keyed.Table.mem_remove]
  refine and_congr_right fun h_row => ?_
  rw [h_s.deletes _ _ row cfg.table_valid (by simpa using h_ne) h_ids, decide_eq_false_iff_not,
    named_iff h_rows h_row]

/-- A pass whose DELETE has gone through is right when no row's id is negative. -/
theorem consumes_deleted {rows : List OutboundRow} (h_s : s.Documented) (h_ne : rows ≠ [])
    (h_handed : (handed (locked s cfg ownFqnn table env)).map Prod.fst = rows)
    (h_signs : ∀ row ∈ rows, 0 ≤ row.id) {tail : List Effect} {r : Returned}
    (h_tail : Ending env (deleteText cfg.table (rows.map (·.listed))) rows.length tail r) :
    Consumes s cfg table (locked s cfg ownFqnn table env ++ tail, r) := by
  have h_rows : ∀ row ∈ rows, row ∈ table.rows := by
    intro row h_row
    rw [← h_handed] at h_row
    obtain ⟨⟨row', bundle⟩, h_mem, rfl⟩ := List.mem_map.mp h_row
    exact (harmless_locked s cfg ownFqnn table env _ (mem_handed.mp h_mem)).1
  have h_stmts : ∀ e ∈ tail, ∃ stmt ok, e = .sql stmt ok := by
    intro e h_e
    obtain ⟨stmt, ok, h_eq, -⟩ := h_tail.mem h_e
    exact ⟨stmt, ok, h_eq⟩
  have h_all := handed_locked_append s cfg ownFqnn table env h_stmts
  have h_names : (rows.map (·.listed)).map (↑) =
      (handed (locked s cfg ownFqnn table env ++ tail)).map fun h => h.1.id := by
    have h_fst : (fun h : OutboundRow × Octets => h.1.id) = OutboundRow.id ∘ Prod.fst := rfl
    rw [h_all, h_fst, ← List.map_map, h_handed, List.map_map]
    refine List.map_congr_left fun row h_row => ?_
    exact (listed_eq_id_iff row).mpr (h_signs row h_row)
  refine Consumes.of_harmless (rows.map (·.listed)) (fun e h_e => ?_) (fun n h_n => ?_)
    (fun h_r => ?_) (fun h_r => ?_)
  · rcases List.mem_append.mp h_e with h_e | h_e
    · exact .inl (harmless_locked s cfg ownFqnn table env e h_e)
    · obtain ⟨stmt, ok, rfl, rfl | rfl | rfl⟩ := h_tail.mem h_e
      · exact .inr ⟨⟨ok, rfl⟩, h_names⟩
      · exact .inl trivial
      · exact .inl trivial
  · have h_n : r = .count n := h_n
    rcases h_tail with ⟨-, rfl⟩ | ⟨-, rfl⟩ | ⟨rfl, rfl⟩
    · cases h_n
    · cases h_n
    · obtain rfl := Returned.count.inj h_n
      dsimp only
      rw [h_all, h_handed, ← h_handed, List.length_map]
      refine ⟨rfl, fun row => ?_⟩
      rw [h_handed, tableAfter_deleted cfg ownFqnn h_s h_ne h_rows]
      refine and_congr_right fun _ => not_congr ?_
      exact ⟨And.left, fun h_row => ⟨h_row, h_signs row h_row⟩⟩
  · have h_r : r = .failed := h_r
    rcases h_tail with ⟨rfl, -⟩ | ⟨rfl, -⟩ | ⟨-, rfl⟩
    · subst h_r
      refine tableAfter_failed (.inr ⟨[], _, ops_rollback s env.rollback, ?_⟩)
      rw [List.filterMap_append, ops_locked]
      rfl
    · subst h_r
      refine tableAfter_failed (.inr ⟨[fun table =>
          table.remove (s.deletes (deleteText cfg.table (rows.map (·.listed))))], _,
        ops_rollback s env.rollback, ?_⟩)
      rw [List.filterMap_append, ops_locked]
      rfl
    · cases h_r
  · have h_r : r = .overrun := h_r
    rcases h_tail with ⟨-, rfl⟩ | ⟨-, rfl⟩ | ⟨-, rfl⟩
    · cases h_r
    · cases h_r
    · cases h_r

end

theorem deleteText_injective {table : Octets} (h : mysqlValidIdent table = true)
    {ids ids' : List Nat} (h_ne : ids ≠ []) (h_ne' : ids' ≠ [])
    (h_eq : deleteText table ids = deleteText table ids') : ids = ids' := by
  have h_names := readDelete_deleteText h h_ne
  rw [h_eq, readDelete_deleteText h h_ne'] at h_names
  exact (List.map_injective_iff.mpr sizeText_injective h_names).symm

section

variable {s : MysqlServer} (h_s : s.Documented) (cfg : MysqlCliConfig) (ownFqnn : UInt64)
  (table : Outbound) (env : PassEnv)
include h_s

/-- What a pass does with its rows in a run that comes to the DELETE: whether it goes through or
    not, the pass is right when the ids have come out as they are. -/
theorem consumes_iff_unsigned {rows : List OutboundRow} (h_ne : rows ≠ [])
    (h_handed : (handed (locked s cfg ownFqnn table env)).map Prod.fst = rows)
    {tail : List Effect} {r : Returned}
    (h_tail : Ending env (deleteText cfg.table (rows.map (·.listed))) rows.length tail r) :
    Consumes s cfg table (locked s cfg ownFqnn table env ++ tail, r) ↔
      ∀ row ∈ rows, 0 ≤ row.id := by
  constructor
  · intro h row h_row
    have h_stmts : ∀ e ∈ tail, ∃ stmt ok, e = .sql stmt ok := by
      intro e h_e
      obtain ⟨stmt, ok, h_eq, -⟩ := h_tail.mem h_e
      exact ⟨stmt, ok, h_eq⟩
    obtain ⟨ok, rest, h_eq⟩ := h_tail.begins
    have h_mem : .sql (.delete (deleteText cfg.table (rows.map (·.listed)))) ok ∈
        locked s cfg ownFqnn table env ++ tail := by
      rw [h_eq]
      exact List.mem_append_right _ List.mem_cons_self
    obtain ⟨ids, h_text, h_ids⟩ := h.names _ _ h_mem
    dsimp only at h_ids
    rw [handed_locked_append s cfg ownFqnn table env h_stmts] at h_ids
    have h_len : ids.length = rows.length := by
      have h_length := congrArg List.length h_ids
      rwa [List.length_map, List.length_map, ← List.length_map (f := Prod.fst), h_handed]
        at h_length
    have h_ids_ne : ids ≠ [] := by
      rintro rfl
      exact h_ne (List.length_eq_zero_iff.mp h_len.symm)
    obtain rfl := deleteText_injective cfg.table_valid (by simpa using h_ne) h_ids_ne h_text
    have h_fst : (fun h : OutboundRow × Octets => h.1.id) = OutboundRow.id ∘ Prod.fst := rfl
    rw [h_fst, ← List.map_map, h_handed, List.map_map] at h_ids
    exact (listed_eq_id_iff row).mp (List.map_inj_left.mp h_ids row h_row)
  · intro h_signs
    exact consumes_deleted cfg ownFqnn h_s h_ne h_handed h_signs h_tail

/-- **When a pass consumes its rows atomically.** -/
theorem consumes_iff :
    Consumes s cfg table (processBatch s cfg ownFqnn table env) ↔
      Unsigned s cfg ownFqnn table env ∧ Roomy s cfg ownFqnn table env := by
  unfold Unsigned Roomy
  dsimp only
  rw [deletes_iff]
  rcases processBatch_cases h_s cfg ownFqnn table env with
    ⟨h_fail, es, h_es, h_eq⟩ | ⟨h_acq, h_eq⟩ | ⟨h_locks, h_acq, h_eq⟩
  · -- The pass ends before the rows are fetched.
    rw [h_eq]
    refine ⟨fun _ => ⟨fun h => absurd h.1 h_fail, fun h => absurd h.1 h_fail⟩, fun _ => ?_⟩
    refine Consumes.of_harmless [] (fun e h_e => .inl ?_) (fun n h => by cases h)
      (fun _ => tableAfter_failed ?_) (fun h => by cases h)
    · rcases h_es with rfl | rfl | ⟨text, ok, rfl⟩ <;>
        simp only [List.mem_cons, List.not_mem_nil, or_false] at h_e
      · subst h_e
        trivial
      · rcases h_e with rfl | rfl | rfl <;> trivial
    · rcases h_es with rfl | rfl | ⟨text, ok, rfl⟩
      · exact .inl rfl
      · exact .inl rfl
      · refine .inr ⟨[], _, ops_rollback s env.rollback, ?_⟩
        cases ok <;> rfl
  · rw [h_eq, h_acq]
    refine ⟨fun _ => ⟨fun h => absurd h.2.1 Bool.false_ne_true,
      fun h => absurd h.2.1 Bool.false_ne_true⟩, fun _ => ?_⟩
    exact consumes_rollback s cfg ownFqnn table env
  · have h_handed : (handed (locked s cfg ownFqnn table env)).map Prod.fst =
        eligible env.fetched 0 (ownRows s cfg ownFqnn table) := fetchRows_handed 0 h_acq
    rw [h_eq, h_acq]
    generalize eligible env.fetched 0 (ownRows s cfg ownFqnn table) = rows at h_handed ⊢
    have h_length : (rows.map (·.listed)).length = rows.length := List.length_map _
    rcases deleteRows_cases cfg env (rows.map (·.listed)) with
      ⟨h_nil, h_end⟩ | ⟨h_mem, h_end⟩ | ⟨h_ne, h_mem, h_size, h_over, h_end⟩ |
        ⟨h_ne, h_mem, h_size, h_fits, h_end⟩
    · obtain rfl : rows = [] := List.map_eq_nil_iff.mp h_nil
      rw [h_end]
      refine ⟨fun _ => ⟨fun h => absurd rfl h.2.2.1, fun h => absurd rfl h.2.2.1⟩, fun _ => ?_⟩
      have h_none : handed (locked s cfg ownFqnn table env ++ [.sql .commit env.commit]) = [] := by
        rw [handed_locked_append s cfg ownFqnn table env]
        · exact List.map_eq_nil_iff.mp h_handed
        · intro e h_e
          exact ⟨_, _, List.mem_singleton.mp h_e⟩
      have h_table : tableAfter s table
          (locked s cfg ownFqnn table env ++ [.sql .commit env.commit], .count 0) = table := by
        unfold tableAfter closing
        dsimp only
        rw [List.append_nil, List.filterMap_append, ops_locked]
        cases env.commit <;> rfl
      refine Consumes.of_harmless [] (fun e h_e => .inl ?_) (fun n h => ?_)
        (fun h => by cases h) (fun h => by cases h)
      · rcases List.mem_append.mp h_e with h_e | h_e
        · exact harmless_locked s cfg ownFqnn table env e h_e
        · obtain rfl := List.mem_singleton.mp h_e
          trivial
      · obtain rfl := Returned.count.inj h
        dsimp only
        rw [h_none, h_table]
        simp
    · rw [h_length] at h_mem
      rw [h_end]
      refine ⟨fun _ => ⟨fun h => absurd h.2.2.2 h_mem, fun h => absurd h.2.2.2 h_mem⟩,
        fun _ => ?_⟩
      exact consumes_rollback s cfg ownFqnn table env
    · rw [h_length] at h_size h_over
      rw [h_end]
      refine ⟨fun h => absurd rfl h.inBounds, fun h => ?_⟩
      exact absurd (h.2 ⟨h_locks, rfl, by simpa using h_ne, h_mem, h_size⟩) h_over
    · rw [h_length] at h_size h_fits
      have h_rows : rows ≠ [] := by simpa using h_ne
      have h_deletes : Locks env ∧ true = true ∧ rows ≠ [] ∧ env.deleteMem = true ∧
          0 ≤ delLen cfg.table rows.length := ⟨h_locks, rfl, h_rows, h_mem, h_size⟩
      rw [consumes_iff_unsigned h_s cfg ownFqnn table env h_rows h_handed]
      · exact ⟨fun h => ⟨fun _ => h, fun _ => h_fits⟩, fun h => h.1 h_deletes⟩
      · rwa [h_length] at h_end

end

end IonContrib.Mysql.Cli
