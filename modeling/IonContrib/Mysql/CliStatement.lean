/-
  IonContrib.Mysql.CliStatement

  The statements of the MySQL input daemon (`processBatch` in `mysqlcli.c`): the
  SELECT that picks the rows of a batch, and the DELETE that names the rows whose
  bundles BP has.

  The DELETE is put together id by id in a buffer whose size is a formula in the
  number of ids.  `deleteQuery_eq` says when it comes out whole; `delLen_fits`,
  that the formula is generous as long as it is computed without overflow.
-/
import IonContrib.Lib.CText
import IonContrib.Lib.Keyed
import IonContrib.Mysql.Statement

namespace IonContrib.Mysql.Cli

open Mail (ascii sizeText mem_sizeText sizeText_length_le)
open Octets (isDigit decimal)

/-! ## Rows -/

/-- A row of the table that the daemon reads; the table is created with a `BIGINT` for the id and
    a `LONGBLOB` for the bundle. -/
structure OutboundRow where
  id : Int
  payload : Option Octets
  src : Option Octets
  id_bigint : -2 ^ 63 ≤ id ∧ id < 2 ^ 63
  payload_longblob : ∀ octets ∈ payload, octets.length < 2 ^ 32
  deriving DecidableEq, Repr

abbrev Outbound := Keyed.Table OutboundRow OutboundRow.id

/-- The text of an id in a row of a result. -/
def idText (id : Int) : Octets :=
  if id < 0 then 0x2d :: sizeText id.natAbs else sizeText id.natAbs

/-- `strtoull (text, NULL, 10)`. -/
def strtoull (text : Octets) : Nat :=
  match CText.number text with
  | none => 0
  | some (n, _) => if n.natAbs < 2 ^ 64 then (n % 2 ^ 64).toNat else 2 ^ 64 - 1

/-- What `idList` gets for a row. -/
def OutboundRow.listed (row : OutboundRow) : Nat := strtoull (idText row.id)

/-! ## Configuration -/

/-- What `parseMysqlArgs` lets through, as far as the input daemon uses it. -/
structure MysqlCliConfig where
  table : Octets
  batch : Nat
  srcFilter : Octets
  table_valid : mysqlValidIdent table = true
  batch_int : 1 ≤ batch ∧ batch < 2 ^ 31
  srcFilter_fits : srcFilter.length < 256 ∧ 0 ∉ srcFilter

def mysqlOwnEidPattern (cfg : MysqlCliConfig) (ownFqnn : UInt64) : Octets :=
  if cfg.srcFilter ≠ [] then (cString cfg.srcFilter).take 255
  else (ascii "ipn:" ++ sizeText ownFqnn.toNat ++ ascii ".%").take 255

/-! ## SELECT -/

def selectText (table escPattern : Octets) (limit : Nat) : Octets :=
  ascii "SELECT id,payload FROM `" ++ table ++ ascii "` WHERE src_eid LIKE '" ++ escPattern ++
    ascii "' ORDER BY id LIMIT " ++ sizeText limit ++ ascii " FOR UPDATE"

/-- The SELECT as it is handed to `mysql_query`. -/
def selectQuery (m : MysqlClient) (cfg : MysqlCliConfig) (ownFqnn : UInt64) : Octets :=
  cString ((selectText cfg.table (cString (m.escape (mysqlOwnEidPattern cfg ownFqnn)))
    cfg.batch).take 1023)

/-! ## DELETE -/

def deleteText (table : Octets) (ids : List Nat) : Octets :=
  ascii "DELETE FROM `" ++ table ++ ascii "` WHERE id IN (" ++
    List.intercalate [0x2c] (ids.map sizeText) ++ [0x29]

/-- The size of the buffer, as the `int` that the code computes. -/
def delLen (table : Octets) (count : Nat) : Int :=
  CText.toInt (64 + count * 21 + table.length : Nat)

/-- `isprintf` behind what is in the buffer. -/
def printBehind (size : Nat) (buf text : Octets) : Octets :=
  buf ++ text.take (size - buf.length - 1)

/-- The loop over `idList`, from entry `i` on. -/
def printIds (size : Nat) : Nat → Octets → List Nat → Octets
  | _, buf, [] => buf
  | i, buf, id :: ids =>
    printIds size (i + 1) (printBehind size buf ((if i = 0 then [] else [0x2c]) ++ sizeText id)) ids

/-- The DELETE as it is handed to `mysql_query`; `none` when the closing parenthesis or the NUL
    behind it does not fit into the buffer. -/
def deleteQuery (size : Nat) (table : Octets) (ids : List Nat) : Option Octets :=
  let head := ascii "DELETE FROM `" ++ table ++ ascii "` WHERE id IN ("
  let buf := printIds size 0 (printBehind size [] head) ids
  if buf.length + 2 ≤ size then some (cString (buf ++ [0x29])) else none

/-! ## Numbers and their texts -/

theorem sizeText_digits (n : Nat) : (sizeText n).all isDigit = true := by
  rw [List.all_eq_true]
  intro c h_c
  obtain ⟨h_low, h_high⟩ := mem_sizeText h_c
  simp [isDigit, h_low, h_high]

theorem sizeText_ne_nil (n : Nat) : sizeText n ≠ [] := by
  intro h
  rw [sizeText, ascii, List.map_eq_nil_iff, Nat.toString_eq_ofList_toDigits,
    String.toList_ofList] at h
  exact Nat.toDigits_ne_nil h

/-- The digits of a number spell it. -/
theorem decimal_sizeText (n : Nat) : decimal (sizeText n) = n := by
  have h_map : ∀ (cs : List Char) (m : Nat), (∀ c ∈ cs, c.isDigit = true) →
      (cs.map fun c => UInt8.ofNat c.toNat).foldl (fun n c => n * 10 + (c.toNat - 0x30)) m =
        Nat.ofDigitChars 10 cs m := by
    intro cs
    induction cs with
    | nil => intro m _; rfl
    | cons c cs ih =>
      intro m h
      have h_c := h c List.mem_cons_self
      simp only [Char.isDigit, Bool.and_eq_true, decide_eq_true_eq] at h_c
      have h_high : c.toNat ≤ 57 := h_c.2
      rw [List.map_cons, List.foldl_cons, Nat.ofDigitChars_cons,
        ih _ fun d h_d => h d (List.mem_cons_of_mem _ h_d), UInt8.toNat_ofNat',
        Nat.mod_eq_of_lt (by omega), Nat.mul_comm m 10]
      rfl
  rw [decimal, sizeText, ascii, Nat.toString_eq_ofList_toDigits, String.toList_ofList,
    h_map _ 0 fun c h_c => Nat.isDigit_of_mem_toDigits (by decide) (by decide) h_c,
    Nat.ofDigitChars_ten_toDigits]

theorem sizeText_injective : Function.Injective sizeText := by
  intro n n' h
  rw [← decimal_sizeText n, h, decimal_sizeText]

theorem number_idText (id : Int) : CText.number (idText id) = some (id, []) := by
  have h_rest : ∀ c ∈ ([] : Octets).head?, isDigit c = false := by
    intro c h_c
    cases h_c
  have h_digits := sizeText_digits id.natAbs
  have h_ne := sizeText_ne_nil id.natAbs
  unfold idText
  split
  · have h := CText.number_minus h_ne h_digits h_rest
    rw [List.append_nil] at h
    rw [h, decimal_sizeText]
    congr 2
    omega
  · have h := CText.number_digits h_ne h_digits h_rest
    rw [List.append_nil] at h
    rw [h, decimal_sizeText]
    congr 2
    omega

/-- A negative id is listed as another number. -/
theorem listed_eq (row : OutboundRow) : (row.listed : Int) = row.id % 2 ^ 64 := by
  obtain ⟨h_low, h_high⟩ := row.id_bigint
  rw [OutboundRow.listed, strtoull, number_idText]
  dsimp only
  rw [if_pos (by omega)]
  omega

theorem listed_lt (row : OutboundRow) : row.listed < 2 ^ 64 := by
  have h := listed_eq row
  omega

theorem listed_eq_id_iff (row : OutboundRow) : (row.listed : Int) = row.id ↔ 0 ≤ row.id := by
  obtain ⟨h_low, h_high⟩ := row.id_bigint
  have h := listed_eq row
  omega

/-! ## The DELETE comes out whole -/

/-- What the loop appends from its second round on. -/
theorem printIds_succ (size i : Nat) (buf : Octets) (ids : List Nat) :
    printIds size (i + 1) buf ids =
      buf ++ (ids.flatMap fun id => 0x2c :: sizeText id).take (size - buf.length - 1) := by
  induction ids generalizing i buf with
  | nil => rw [printIds, List.flatMap_nil, List.take_nil, List.append_nil]
  | cons id ids ih =>
    rw [printIds, if_neg (Nat.succ_ne_zero i), List.singleton_append, ih, printBehind,
      List.flatMap_cons, List.take_append, List.append_assoc, List.length_append, List.length_take]
    congr 3
    omega

theorem intercalate_cons (text : Octets) (texts : List Octets) :
    List.intercalate [0x2c] (text :: texts) = text ++ texts.flatMap (0x2c :: ·) := by
  induction texts generalizing text with
  | nil => simp
  | cons next texts ih =>
    rw [List.intercalate_cons_cons, ih, List.flatMap_cons, List.append_assoc]
    rfl

theorem printIds_eq (size : Nat) (buf : Octets) (ids : List Nat) :
    printIds size 0 buf ids =
      buf ++ (List.intercalate [0x2c] (ids.map sizeText)).take (size - buf.length - 1) := by
  cases ids with
  | nil => simp [printIds]
  | cons id ids =>
    rw [printIds, printIds_succ, printBehind, if_pos rfl, List.nil_append, List.map_cons,
      intercalate_cons, List.flatMap_map, List.take_append, List.append_assoc, List.length_append,
      List.length_take]
    congr 3
    omega

theorem deleteText_noNul {table : Octets} (h : mysqlValidIdent table = true) (ids : List Nat) :
    0 ∉ deleteText table ids := by
  have h_ids : 0 ∉ List.intercalate [0x2c] (ids.map sizeText) := by
    cases ids with
    | nil => exact List.not_mem_nil
    | cons id ids =>
      rw [List.map_cons, intercalate_cons, List.mem_append, List.mem_flatMap, not_or]
      refine ⟨sizeText_noNul id, ?_⟩
      rintro ⟨text, h_text, h_zero⟩
      obtain ⟨id', -, rfl⟩ := List.mem_map.mp h_text
      rcases List.mem_cons.mp h_zero with h_comma | h_zero
      · exact absurd h_comma (by decide)
      · exact sizeText_noNul id' h_zero
  simp only [deleteText, List.mem_append, not_or]
  exact ⟨⟨⟨⟨by decide, validIdent_noNul h⟩, by decide⟩, h_ids⟩, by decide⟩

/-- **The statement is whole or not made at all.** -/
theorem deleteQuery_eq {table : Octets} (h : mysqlValidIdent table = true) (size : Nat)
    (ids : List Nat) :
    deleteQuery size table ids =
      if (deleteText table ids).length + 1 ≤ size then some (deleteText table ids) else none := by
  have h_noNul := deleteText_noNul h ids
  rw [deleteQuery, printBehind, List.nil_append, printIds_eq]
  unfold deleteText at h_noNul ⊢
  generalize ascii "DELETE FROM `" ++ table ++ ascii "` WHERE id IN (" = head at h_noNul ⊢
  generalize List.intercalate [0x2c] (ids.map sizeText) = names at h_noNul ⊢
  simp only [List.length_append, List.length_take, List.length_nil, List.length_singleton]
  by_cases h_fits : head.length + names.length + 1 + 1 ≤ size
  · rw [if_pos h_fits, if_pos (by omega), List.take_of_length_le (by omega),
      List.take_of_length_le (by omega), cString_eq h_noNul]
  · rw [if_neg h_fits, if_neg (by omega)]

/-- The formula leaves room for every list of ids. -/
theorem deleteText_length (table : Octets) {ids : List Nat} (h : ∀ id ∈ ids, id < 2 ^ 64) :
    (deleteText table ids).length + 1 ≤ 64 + ids.length * 21 + table.length := by
  have h_names : (List.intercalate [0x2c] (ids.map sizeText)).length ≤ ids.length * 21 := by
    cases ids with
    | nil => exact Nat.zero_le _
    | cons id ids =>
      have h_rest : ∀ ids' : List Nat, (∀ id ∈ ids', id < 2 ^ 64) →
          ((ids'.map sizeText).flatMap (0x2c :: ·)).length ≤ ids'.length * 21 := by
        intro ids' h'
        induction ids' with
        | nil => exact Nat.zero_le _
        | cons id' ids' ih =>
          have h_id := sizeText_length_le (h' id' List.mem_cons_self)
          have h_ids := ih fun id h_id => h' id (List.mem_cons_of_mem _ h_id)
          simp only [List.map_cons, List.flatMap_cons, List.length_append, List.length_cons]
          omega
      have h_id := sizeText_length_le (h id List.mem_cons_self)
      have h_ids := h_rest ids fun id h_id => h id (List.mem_cons_of_mem _ h_id)
      rw [List.map_cons, intercalate_cons, List.length_append, List.length_cons]
      omega
  have h_head : (ascii "DELETE FROM `").length = 13 := by decide
  have h_where : (ascii "` WHERE id IN (").length = 15 := by decide
  simp only [deleteText, List.length_append, h_head, h_where, List.length_singleton]
  omega

/-- The formula is computed without overflow for any hundred million rows. -/
theorem delLen_fits {table : Octets} (h : mysqlValidIdent table = true) {count : Nat}
    (h_count : count ≤ 100000000) : delLen table count = 64 + count * 21 + table.length := by
  have h_table := validIdent_length h
  rw [delLen, CText.toInt, Int.bmod_eq_of_le (by omega) (by omega)]
  omega

/-! ## The SELECT comes out whole -/

theorem pattern_fits (cfg : MysqlCliConfig) (ownFqnn : UInt64) :
    (mysqlOwnEidPattern cfg ownFqnn).length ≤ 255 := by
  unfold mysqlOwnEidPattern
  split
  · exact List.length_take_le _ _
  · exact List.length_take_le _ _

theorem selectQuery_eq {m : MysqlClient} (h_m : Mysql.Documented m) (cfg : MysqlCliConfig)
    (ownFqnn : UInt64) :
    selectQuery m cfg ownFqnn =
      selectText cfg.table (m.escape (mysqlOwnEidPattern cfg ownFqnn)) cfg.batch := by
  have h_escape := h_m.length_le (mysqlOwnEidPattern cfg ownFqnn)
  have h_noNul := h_m.noNul (mysqlOwnEidPattern cfg ownFqnn)
  have h_pattern := pattern_fits cfg ownFqnn
  have h_table := validIdent_length cfg.table_valid
  have h_limit := sizeText_length (n := cfg.batch) (by have h := cfg.batch_int.2; omega)
  rw [selectQuery, cString_eq h_noNul]
  generalize m.escape (mysqlOwnEidPattern cfg ownFqnn) = escPattern at h_escape h_noNul
  have h_head : (ascii "SELECT id,payload FROM `").length = 24 := by decide
  have h_where : (ascii "` WHERE src_eid LIKE '").length = 22 := by decide
  have h_order : (ascii "' ORDER BY id LIMIT ").length = 20 := by decide
  have h_lock : (ascii " FOR UPDATE").length = 11 := by decide
  rw [List.take_of_length_le]
  · refine cString_eq ?_
    simp only [selectText, List.mem_append, not_or]
    exact ⟨⟨⟨⟨⟨⟨by decide, validIdent_noNul cfg.table_valid⟩, by decide⟩, h_noNul⟩, by decide⟩,
      sizeText_noNul cfg.batch⟩, by decide⟩
  · simp only [selectText, List.length_append, h_head, h_where, h_order, h_lock]
    omega

/-! ## The server -/

structure MysqlServer extends MysqlClient where
  /-- Whether a text is like a pattern. -/
  like : Octets → Octets → Bool
  /-- The rows that meet the condition of a SELECT, and how many of them it asks for. -/
  selects : Octets → OutboundRow → Bool
  limit : Octets → Nat
  /-- The rows that meet the condition of a DELETE. -/
  deletes : Octets → OutboundRow → Bool

/-- `src_eid LIKE '...'`. -/
def ownRow (like : Octets → Octets → Bool) (pattern : Octets) (row : OutboundRow) : Bool :=
  row.src.any (like pattern)

/-- The documented behaviour of the client library and the server. -/
structure MysqlServer.Documented (s : MysqlServer) : Prop
    extends Mysql.Documented s.toMysqlClient where
  selects : ∀ table pattern limit row, mysqlValidIdent table = true →
    s.selects (selectText table (s.escape pattern) limit) row = ownRow s.like pattern row
  limit : ∀ table pattern limit, mysqlValidIdent table = true →
    s.limit (selectText table (s.escape pattern) limit) = limit
  deletes : ∀ table (ids : List Nat) row, mysqlValidIdent table = true → ids ≠ [] →
    (∀ id ∈ ids, id < 2 ^ 64) →
    s.deletes (deleteText table ids) row = decide (∃ id ∈ ids, row.id = id)

/-! ## A server -/

/-- A literal up to its closing quote, and what follows that. -/
def unquote : Octets → Option (Octets × Octets)
  | [] => none
  | [c] => if c = 0x27 then some ([], []) else none
  | c :: e :: s =>
    if c = 0x27 then some ([], e :: s)
    else if c = 0x5c then (unquote s).map fun p => (unescapeChar e :: p.1, p.2)
    else (unquote (e :: s)).map fun p => (c :: p.1, p.2)

theorem unquote_quote (s : Octets) : unquote (0x27 :: s) = some ([], s) := by
  cases s <;> rfl

theorem unquote_escape (s rest : Octets) :
    unquote (backslashEscape s ++ 0x27 :: rest) = some (s, rest) := by
  induction s with
  | nil => exact unquote_quote rest
  | cons c s ih =>
    rw [backslashEscape]
    rcases escapeChar_cases c with ⟨h_none, -, h_quote, h_back⟩ | ⟨e, h_some, h_e, -⟩
    · rw [h_none]
      show unquote (c :: (backslashEscape s ++ 0x27 :: rest)) = _
      -- There is at least the quote behind `c`.
      obtain ⟨e, tail, h_tail⟩ : ∃ e tail, backslashEscape s ++ 0x27 :: rest = e :: tail := by
        cases backslashEscape s with
        | nil => exact ⟨_, _, rfl⟩
        | cons e tail => exact ⟨_, _, rfl⟩
      rw [h_tail] at ih ⊢
      rw [unquote, if_neg h_quote, if_neg h_back, ih, Option.map_some]
    · rw [h_some]
      show unquote (0x5c :: e :: (backslashEscape s ++ 0x27 :: rest)) = _
      rw [unquote, if_neg (by decide), if_pos rfl, ih, Option.map_some, h_e]

/-- `%` is any text, `_` any character, and a backslash takes the next one as it is. -/
def isLike : Octets → Octets → Bool
  | [], text => text.isEmpty
  | [c], text => if c = 0x25 then true else if c = 0x5f then text.length = 1 else text = [c]
  | c :: e :: pattern, text =>
    if c = 0x25 then text.tails.any (isLike (e :: pattern))
    else if c = 0x5c then text.head? = some e && isLike pattern text.tail
    else (if c = 0x5f then !text.isEmpty else text.head? = some c) &&
      isLike (e :: pattern) text.tail

/-- What a SELECT has behind its first quote: the pattern and the text behind it. -/
def readSelect (text : Octets) : Option (Octets × Octets) :=
  (CText.splitFirst 0x27 text).bind fun p => unquote p.2

/-- The texts of the ids that a DELETE names. -/
def readDelete (text : Octets) : List Octets :=
  match CText.splitFirst 0x28 text with
  | none => []
  | some (_, names) => names.dropLast.splitOn 0x2c

/-- A server that reads statements by their punctuation. -/
def listServer : MysqlServer where
  toMysqlClient := listClient
  like := isLike
  selects text row :=
    match readSelect text with
    | none => false
    | some (pattern, _) => ownRow isLike pattern row
  limit text :=
    match readSelect text with
    | none => 0
    | some (_, rest) => decimal ((rest.drop 19).takeWhile isDigit)
  deletes text row := decide (idText row.id ∈ readDelete text)

theorem readSelect_selectText {table : Octets} (h : mysqlValidIdent table = true)
    (pattern : Octets) (limit : Nat) :
    readSelect (selectText table (backslashEscape pattern) limit) =
      some (pattern, ascii " ORDER BY id LIMIT " ++ sizeText limit ++ ascii " FOR UPDATE") := by
  have h_where : ascii "` WHERE src_eid LIKE '" = ascii "` WHERE src_eid LIKE " ++ [0x27] := by
    decide
  have h_order : ascii "' ORDER BY id LIMIT " = 0x27 :: ascii " ORDER BY id LIMIT " := by decide
  have h_split : CText.splitFirst 0x27 (selectText table (backslashEscape pattern) limit) =
      some (ascii "SELECT id,payload FROM `" ++ table ++ ascii "` WHERE src_eid LIKE ",
        backslashEscape pattern ++
          0x27 :: (ascii " ORDER BY id LIMIT " ++ sizeText limit ++ ascii " FOR UPDATE")) := by
    refine CText.splitFirst_eq_some_iff.mpr ⟨?_, ?_⟩
    · simp only [List.mem_append, not_or]
      exact ⟨⟨by decide, notMem_validIdent h (by decide)⟩, by decide⟩
    · simp only [selectText, h_where, h_order, List.append_assoc, List.cons_append,
        List.nil_append]
  rw [readSelect, h_split]
  exact unquote_escape pattern _

theorem readDelete_deleteText {table : Octets} (h : mysqlValidIdent table = true) {ids : List Nat}
    (h_ne : ids ≠ []) : readDelete (deleteText table ids) = ids.map sizeText := by
  have h_where : ascii "` WHERE id IN (" = ascii "` WHERE id IN " ++ [0x28] := by decide
  have h_split : CText.splitFirst 0x28 (deleteText table ids) =
      some (ascii "DELETE FROM `" ++ table ++ ascii "` WHERE id IN ",
        List.intercalate [0x2c] (ids.map sizeText) ++ [0x29]) := by
    refine CText.splitFirst_eq_some_iff.mpr ⟨?_, ?_⟩
    · simp only [List.mem_append, not_or]
      exact ⟨⟨by decide, notMem_validIdent h (by decide)⟩, by decide⟩
    · simp only [deleteText, h_where, List.append_assoc, List.cons_append, List.nil_append]
  have h_comma : ∀ text ∈ ids.map sizeText, 0x2c ∉ text := by
    intro text h_text h_mem
    obtain ⟨id, -, rfl⟩ := List.mem_map.mp h_text
    exact absurd (mem_sizeText h_mem).1 (by decide)
  rw [readDelete, h_split]
  dsimp only
  rw [List.dropLast_concat, List.splitOn_intercalate _ h_comma (by simpa using h_ne)]

/-- No other number has the text of a row's id. -/
theorem idText_eq_sizeText_iff {id : Int} {n : Nat} : idText id = sizeText n ↔ id = n := by
  constructor
  · intro h
    have h_id := number_idText id
    have h_n := number_idText n
    rw [idText, if_neg (by omega), Int.natAbs_natCast, ← h, h_id] at h_n
    exact (Prod.mk.inj (Option.some.inj h_n)).1
  · rintro rfl
    rw [idText, if_neg (by omega), Int.natAbs_natCast]

theorem listServer_documented : listServer.Documented where
  toDocumented := listClient_documented
  selects := by
    intro table pattern limit row h
    show (match readSelect (selectText table (backslashEscape pattern) limit) with
      | none => false
      | some (pattern, _) => ownRow isLike pattern row) = _
    rw [readSelect_selectText h]
    rfl
  limit := by
    intro table pattern limit h
    show (match readSelect (selectText table (backslashEscape pattern) limit) with
      | none => 0
      | some (_, rest) => decimal ((rest.drop 19).takeWhile isDigit)) = _
    have h_head : (ascii " FOR UPDATE").head? = some 0x20 := by decide
    have h_rest : ∀ c ∈ (ascii " FOR UPDATE").head?, isDigit c = false := by
      intro c h_c
      rw [h_head] at h_c
      obtain rfl := Option.some.inj h_c
      decide
    rw [readSelect_selectText h]
    show decimal ((sizeText limit ++ ascii " FOR UPDATE").takeWhile isDigit) = limit
    rw [(CText.span_digits (sizeText_digits limit) h_rest).1, decimal_sizeText]
  deletes := by
    intro table ids row h h_ne _
    show decide (idText row.id ∈ readDelete (deleteText table ids)) = _
    rw [readDelete_deleteText h h_ne, decide_eq_decide, List.mem_map]
    simp only [eq_comm (b := idText row.id), idText_eq_sizeText_iff]

end IonContrib.Mysql.Cli
