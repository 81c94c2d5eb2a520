/-
  IonContrib.Mysql.Statement

  The INSERT statement of the MySQL output daemon (`insertBatch` in
  `mysqlclo.c`, with what `mysqlcla.h` promises of its configuration).

  The client library is outside: `escape` is `mysql_real_escape_string` and
  `literal` is what the server reads between two quotes.  A statement is
  printed into a buffer, so it could be cut off, and is passed on as a C
  string; `query_whole` says that neither loses anything.
-/
import Mathlib.Data.List.TakeWhile
import IonContrib.Mail.Msg

namespace IonContrib.Mysql

open Mail (ascii sizeText mem_sizeText)

/-! ## Configuration -/

def mysqlMaxIdentLen : Nat := 64
def mysqlMaxEidLen : Nat := 64

def isAlnum (c : UInt8) : Bool :=
  (0x30 ≤ c && c ≤ 0x39) || (0x41 ≤ c && c ≤ 0x5a) || (0x61 ≤ c && c ≤ 0x7a)

def mysqlValidIdent (ident : Octets) : Bool :=
  !(ident = [] ∨ ident.length ≥ mysqlMaxIdentLen) && ident.all fun c => isAlnum c || c = 0x5f

/-- What `parseMysqlArgs` lets through, as far as the output daemon uses it. -/
structure MysqlClaConfig where
  table : Octets
  batch : Nat
  flushMs : Int
  bufSz : Nat
  table_valid : mysqlValidIdent table = true
  batch_pos : 1 ≤ batch
  bufSz_int : 1024 ≤ bufSz ∧ bufSz < 2 ^ 31

theorem bufSz_lt (cfg : MysqlClaConfig) : cfg.bufSz < 2147483648 := by
  have h_pow : 2 ^ 31 = 2147483648 := by decide
  have h := cfg.bufSz_int.2
  rw [h_pow] at h
  exact h

/-- The sizes of the buffers of the flush thread, as the `int`s that the code computes. -/
def escPayloadLen (cfg : MysqlClaConfig) : Int := ((2 * cfg.bufSz + 1 : Nat) : Int).bmod (2 ^ 32)
def queryLen (cfg : MysqlClaConfig) : Int := ((2 * cfg.bufSz + 512 : Nat) : Int).bmod (2 ^ 32)

/-- Sizes that an allocation can have. -/
def SizesOk (cfg : MysqlClaConfig) : Prop := 0 ≤ escPayloadLen cfg ∧ 0 ≤ queryLen cfg

instance (cfg : MysqlClaConfig) : Decidable (SizesOk cfg) := inferInstanceAs (Decidable (_ ∧ _))

/-- An `int` that has not become negative. -/
theorem bmod_of_nonneg {n : Nat} (h : 0 ≤ (n : Int).bmod (2 ^ 32)) :
    n % 4294967296 < 2147483648 ∧ (n : Int).bmod (2 ^ 32) = (n % 4294967296 : Nat) := by
  have h_pow : 2 ^ 32 = 4294967296 := by decide
  rw [h_pow, Int.bmod_def] at h ⊢
  omega

/-- The flush thread does not get buffers whose sizes have overflowed. -/
theorem queryLen_eq {cfg : MysqlClaConfig} (h : SizesOk cfg) :
    queryLen cfg = 2 * cfg.bufSz + 512 := by
  have h_lt := bufSz_lt cfg
  have h_small := (bmod_of_nonneg h.1).1
  have h_eq := (bmod_of_nonneg h.2).2
  unfold queryLen
  omega

/-! ## A bundle's row -/

structure BatchItem where
  zco : Nat
  payload : Octets
  len : Nat
  src : Octets
  dst : Octets
  deriving DecidableEq, Repr

/-- The octets of a C string. -/
def cString (s : Octets) : Octets := s.takeWhile (· ≠ 0)

theorem cString_eq {s : Octets} (h : 0 ∉ s) : cString s = s := by
  rw [cString, List.takeWhile_eq_self_iff]
  intro c h_c
  rw [decide_eq_true_eq]
  rintro rfl
  exact h h_c

/-- `istrcpy` into a field of an item. -/
def eidField (str : Option Octets) : Octets :=
  match str with
  | none => []
  | some str => (cString str).take (mysqlMaxEidLen - 1)

/-- `mysqlExtractEids`: `eids` is the destination and the source that the primary block names, if
    it can be read; the fields are source and destination. -/
def mysqlExtractEids (eids : Octets → Option (Option Octets × Option Octets)) (payload : Octets) :
    Octets × Octets :=
  match eids payload with
  | none => ([], [])
  | some (dst, src) => (eidField src, eidField dst)

theorem eidField_length (str : Option Octets) : (eidField str).length ≤ 63 := by
  cases str with
  | none => exact Nat.zero_le 63
  | some str => exact List.length_take_le _ _

theorem eidField_noNul (str : Option Octets) : 0 ∉ eidField str := by
  cases str with
  | none => exact List.not_mem_nil
  | some str =>
    intro h
    have h_all := List.all_takeWhile (p := fun c : UInt8 => decide (c ≠ 0)) (l := str)
    have h_zero := List.all_eq_true.mp h_all 0 (List.mem_of_mem_take h)
    simp at h_zero

/-! ## The statement -/

structure MysqlClient where
  escape : Octets → Octets
  literal : Octets → Option Octets

/-- The documented behaviour of the client library and the server. -/
structure Documented (m : MysqlClient) : Prop where
  length_le : ∀ s, (m.escape s).length ≤ 2 * s.length
  noNul : ∀ s, 0 ∉ m.escape s
  literal_escape : ∀ s, m.literal (m.escape s) = some s

def insertText (table escPayload : Octets) (len : Nat) (escSrc escDst : Octets) : Octets :=
  ascii "INSERT INTO `" ++ table ++ ascii "` (payload,length,src_eid,dst_eid) VALUES ('" ++
    escPayload ++ ascii "'," ++ sizeText len ++ ascii ",'" ++ escSrc ++ ascii "','" ++ escDst ++
    ascii "')"

/-- What `insertBatch` hands to `mysql_query` for an item. -/
def query (m : MysqlClient) (cfg : MysqlClaConfig) (item : BatchItem) : Octets :=
  cString ((insertText cfg.table (cString (m.escape (item.payload.take item.len))) item.len
    (cString (m.escape item.src)) (cString (m.escape item.dst))).take ((queryLen cfg).toNat - 1))

structure Row where
  payload : Octets
  length : Nat
  src : Octets
  dst : Octets
  deriving DecidableEq, Repr

/-- The server reads the row in the statement. -/
def ReadsAs (m : MysqlClient) (table text : Octets) (row : Row) : Prop :=
  ∃ payload src dst, text = insertText table payload row.length src dst ∧
    m.literal payload = some row.payload ∧ m.literal src = some row.src ∧
      m.literal dst = some row.dst

def BatchItem.row (item : BatchItem) : Row := ⟨item.payload, item.len, item.src, item.dst⟩

/-- An item as the dequeue loop makes it. -/
structure BatchItem.Ok (cfg : MysqlClaConfig) (item : BatchItem) : Prop where
  len : item.len = item.payload.length
  fits : item.len ≤ cfg.bufSz
  src : item.src.length ≤ 63 ∧ 0 ∉ item.src
  dst : item.dst.length ≤ 63 ∧ 0 ∉ item.dst

theorem sizeText_length {n : Nat} (h : n < 2147483648) : (sizeText n).length ≤ 10 := by
  rw [sizeText, ascii, List.length_map, Nat.toString_eq_ofList_toDigits, String.toList_ofList]
  exact (Nat.length_toDigits_le_iff (by decide) (by decide)).mpr (by omega)

theorem sizeText_noNul (n : Nat) : 0 ∉ sizeText n := by
  intro h
  exact absurd (mem_sizeText h).1 (by decide)

/-- An identifier has letters, digits and underscores only. -/
theorem notMem_validIdent {ident : Octets} {c : UInt8} (h_valid : mysqlValidIdent ident = true)
    (h_c : (isAlnum c || c = 0x5f) = false) : c ∉ ident := by
  intro h
  rw [mysqlValidIdent, Bool.and_eq_true] at h_valid
  rw [List.all_eq_true.mp h_valid.2 c h] at h_c
  cases h_c

theorem validIdent_noNul {ident : Octets} (h_valid : mysqlValidIdent ident = true) :
    0 ∉ ident := notMem_validIdent h_valid (by decide)

theorem validIdent_length {ident : Octets} (h_valid : mysqlValidIdent ident = true) :
    ident.length ≤ 63 := by
  rw [mysqlValidIdent, Bool.and_eq_true, mysqlMaxIdentLen] at h_valid
  have h := h_valid.1
  simp only [Bool.not_eq_true', decide_eq_false_iff_not, not_or] at h
  omega

theorem table_noNul (cfg : MysqlClaConfig) : 0 ∉ cfg.table := validIdent_noNul cfg.table_valid

theorem table_length (cfg : MysqlClaConfig) : cfg.table.length ≤ 63 :=
  validIdent_length cfg.table_valid

theorem insertText_noNul {table payload src dst : Octets} (len : Nat) (h_table : 0 ∉ table)
    (h_payload : 0 ∉ payload) (h_src : 0 ∉ src) (h_dst : 0 ∉ dst) :
    0 ∉ insertText table payload len src dst := by
  simp only [insertText, List.mem_append, not_or]
  have h_len := sizeText_noNul len
  refine ⟨⟨⟨⟨⟨⟨⟨⟨⟨⟨?_, h_table⟩, ?_⟩, h_payload⟩, ?_⟩, h_len⟩, ?_⟩, h_src⟩, ?_⟩, h_dst⟩, ?_⟩
  all_goals decide

/-- All but the bundle's own text takes less than the 512 octets that are added for it. -/
theorem insertText_length {table src dst : Octets} (payload : Octets) {len : Nat}
    (h_len : len < 2147483648) (h_table : table.length ≤ 63) (h_src : src.length ≤ 126)
    (h_dst : dst.length ≤ 126) :
    (insertText table payload len src dst).length ≤ payload.length + 391 := by
  have h_digits := sizeText_length h_len
  have h_head : (ascii "INSERT INTO `").length = 13 := by decide
  have h_values : (ascii "` (payload,length,src_eid,dst_eid) VALUES ('").length = 44 := by decide
  have h_close : (ascii "',").length = 2 := by decide
  have h_open : (ascii ",'").length = 2 := by decide
  have h_next : (ascii "','").length = 3 := by decide
  have h_end : (ascii "')").length = 2 := by decide
  simp only [insertText, List.length_append, h_head, h_values, h_close, h_open, h_next, h_end]
  omega

/-- **No statement is cut off**, and the server reads in it the item's own row. -/
theorem query_whole {m : MysqlClient} (h_m : Documented m) {cfg : MysqlClaConfig}
    (h_sizes : SizesOk cfg) {item : BatchItem} (h : item.Ok cfg) :
    query m cfg item = insertText cfg.table (m.escape item.payload) item.len (m.escape item.src)
      (m.escape item.dst) := by
  have h_payload := h_m.length_le item.payload
  have h_src := h_m.length_le item.src
  have h_dst := h_m.length_le item.dst
  have h_len := h.len
  have h_fits := h.fits
  have h_int := bufSz_lt cfg
  have h_srcLen := h.src.1
  have h_dstLen := h.dst.1
  have h_text : (insertText cfg.table (m.escape item.payload) item.len (m.escape item.src)
      (m.escape item.dst)).length ≤ (m.escape item.payload).length + 391 :=
    insertText_length _ (by omega) (table_length cfg) (by omega) (by omega)
  rw [query, List.take_of_length_le h.len.ge, cString_eq (h_m.noNul _), cString_eq (h_m.noNul _),
    cString_eq (h_m.noNul _), List.take_of_length_le]
  · exact cString_eq (insertText_noNul _ (table_noNul cfg) (h_m.noNul _) (h_m.noNul _)
      (h_m.noNul _))
  · rw [queryLen_eq h_sizes]
    omega

theorem query_readsAs {m : MysqlClient} (h_m : Documented m) {cfg : MysqlClaConfig}
    (h_sizes : SizesOk cfg) {item : BatchItem} (h : item.Ok cfg) :
    ReadsAs m cfg.table (query m cfg item) item.row :=
  ⟨_, _, _, query_whole h_m h_sizes h, h_m.literal_escape _, h_m.literal_escape _,
    h_m.literal_escape _⟩

/-! ## A client -/

/-- The character that stands for `c` behind a backslash. -/
def escapeChar (c : UInt8) : Option UInt8 :=
  if c = 0 then some 0x30
  else if c = 0x0a then some 0x6e
  else if c = 0x0d then some 0x72
  else if c = 0x1a then some 0x5a
  else if c = 0x5c ∨ c = 0x27 ∨ c = 0x22 then some c
  else none

def unescapeChar (e : UInt8) : UInt8 :=
  if e = 0x30 then 0
  else if e = 0x6e then 0x0a
  else if e = 0x72 then 0x0d
  else if e = 0x5a then 0x1a
  else e

def backslashEscape : Octets → Octets
  | [] => []
  | c :: s =>
    match escapeChar c with
    | none => c :: backslashEscape s
    | some e => 0x5c :: e :: backslashEscape s

/-- What stands between two single quotes. -/
def quotedLiteral : Octets → Option Octets
  | [] => some []
  | [c] => if c = 0x27 ∨ c = 0x5c then none else some [c]
  | c :: e :: s =>
    if c = 0x27 then none
    else if c = 0x5c then (quotedLiteral s).map (unescapeChar e :: ·)
    else (quotedLiteral (e :: s)).map (c :: ·)

/-- A client and a server that go by the list of characters to escape. -/
def listClient : MysqlClient := ⟨backslashEscape, quotedLiteral⟩

theorem quotedLiteral_quote (s : Octets) : quotedLiteral (0x27 :: s) = none := by
  cases s <;> rfl

theorem quotedLiteral_escaped (e : UInt8) (s : Octets) :
    quotedLiteral (0x5c :: e :: s) = (quotedLiteral s).map (unescapeChar e :: ·) := rfl

theorem quotedLiteral_plain {c : UInt8} (h_quote : c ≠ 0x27) (h_back : c ≠ 0x5c) (s : Octets) :
    quotedLiteral (c :: s) = (quotedLiteral s).map (c :: ·) := by
  cases s with
  | nil => exact if_neg (not_or.mpr ⟨h_quote, h_back⟩)
  | cons e s => rw [quotedLiteral, if_neg h_quote, if_neg h_back]

theorem escapeChar_cases (c : UInt8) :
    (escapeChar c = none ∧ c ≠ 0 ∧ c ≠ 0x27 ∧ c ≠ 0x5c) ∨
      ∃ e, escapeChar c = some e ∧ unescapeChar e = c ∧ e ≠ 0 := by
  unfold escapeChar
  split
  · exact .inr ⟨_, rfl, by subst c; decide, by decide⟩
  split
  · exact .inr ⟨_, rfl, by subst c; decide, by decide⟩
  split
  · exact .inr ⟨_, rfl, by subst c; decide, by decide⟩
  split
  · exact .inr ⟨_, rfl, by subst c; decide, by decide⟩
  split
  · rename_i h
    refine .inr ⟨c, rfl, ?_, ?_⟩
    · rcases h with rfl | rfl | rfl <;> decide
    · rcases h with rfl | rfl | rfl <;> decide
  · rename_i h_zero _ _ _ h
    exact .inl ⟨rfl, h_zero, fun h_eq => h (.inr (.inl h_eq)), fun h_eq => h (.inl h_eq)⟩

theorem listClient_documented : Documented listClient where
  length_le := by
    intro s
    show (backslashEscape s).length ≤ 2 * s.length
    induction s with
    | nil => exact Nat.le_refl 0
    | cons c s ih =>
      rw [backslashEscape, List.length_cons]
      split
      · rw [List.length_cons]
        omega
      · rw [List.length_cons, List.length_cons]
        omega
  noNul := by
    intro s
    show 0 ∉ backslashEscape s
    induction s with
    | nil => exact List.not_mem_nil
    | cons c s ih =>
      rw [backslashEscape]
      rcases escapeChar_cases c with ⟨h_none, h_zero, -⟩ | ⟨e, h_some, -, h_e⟩
      · rw [h_none]
        exact List.not_mem_cons_of_ne_of_not_mem h_zero.symm ih
      · rw [h_some]
        exact List.not_mem_cons_of_ne_of_not_mem (by decide)
          (List.not_mem_cons_of_ne_of_not_mem h_e.symm ih)
  literal_escape := by
    intro s
    show quotedLiteral (backslashEscape s) = some s
    induction s with
    | nil => rfl
    | cons c s ih =>
      rw [backslashEscape]
      rcases escapeChar_cases c with ⟨h_none, -, h_quote, h_back⟩ | ⟨e, h_some, h_e, -⟩
      · rw [h_none]
        show quotedLiteral (c :: backslashEscape s) = _
        rw [quotedLiteral_plain h_quote h_back, ih, Option.map_some]
      · rw [h_some]
        show quotedLiteral (0x5c :: e :: backslashEscape s) = _
        rw [quotedLiteral_escaped, ih, Option.map_some, h_e]

/-- A literal ends at the first quote that is not escaped. -/
theorem quotedLiteral_unique {a b r r' : Octets} (h_a : (quotedLiteral a).isSome = true)
    (h_b : (quotedLiteral b).isSome = true) (h : a ++ 0x27 :: r = b ++ 0x27 :: r') :
    a = b ∧ r = r' := by
  induction h_n : a.length using Nat.strong_induction_on generalizing a b with
  | _ n ih =>
    -- The head of either is the quote that ends the other, or the heads agree.
    have h_head : ∀ {c : UInt8} {s : Octets}, (quotedLiteral (c :: s)).isSome = true →
        c ≠ 0x27 := by
      rintro c s h_some rfl
      rw [quotedLiteral_quote] at h_some
      cases h_some
    cases a with
    | nil =>
      cases b with
      | nil => exact ⟨rfl, (List.cons.inj h).2⟩
      | cons c b => exact absurd (List.cons.inj h).1.symm (h_head h_b)
    | cons c a =>
      cases b with
      | nil => exact absurd (List.cons.inj h).1 (h_head h_a)
      | cons c' b =>
        obtain ⟨rfl, h_tail⟩ := List.cons.inj h
        rw [List.length_cons] at h_n
        by_cases h_back : c = 0x5c
        · subst h_back
          -- The next character belongs to the backslash.
          cases a with
          | nil => cases h_a
          | cons e a =>
            cases b with
            | nil => cases h_b
            | cons e' b =>
              obtain ⟨rfl, h_rest⟩ := List.cons.inj h_tail
              rw [quotedLiteral_escaped, Option.isSome_map] at h_a h_b
              rw [List.length_cons] at h_n
              obtain ⟨rfl, rfl⟩ := ih a.length (by omega) h_a h_b h_rest rfl
              exact ⟨rfl, rfl⟩
        · rw [quotedLiteral_plain (h_head h_a) h_back, Option.isSome_map] at h_a
          rw [quotedLiteral_plain (h_head h_b) h_back, Option.isSome_map] at h_b
          obtain ⟨rfl, rfl⟩ := ih a.length (by omega) h_a h_b h_tail rfl
          exact ⟨rfl, rfl⟩

/-- The literals of a statement, each up to its closing quote. -/
theorem insertText_quotes (table payload src dst : Octets) (len : Nat) :
    insertText table payload len src dst =
      ascii "INSERT INTO `" ++ (table ++ (ascii "` (payload,length,src_eid,dst_eid) VALUES ('" ++
        (payload ++ 0x27 :: ((0x2c :: sizeText len ++ ascii ",'") ++
          (src ++ 0x27 :: (ascii ",'" ++ (dst ++ 0x27 :: [0x29]))))))) := by
  have h_close : ascii "'," = [0x27, 0x2c] := by decide
  have h_next : ascii "','" = 0x27 :: ascii ",'" := by decide
  have h_end : ascii "')" = [0x27, 0x29] := by decide
  simp only [insertText, h_close, h_next, h_end, List.append_assoc, List.cons_append,
    List.nil_append]

/-- There is one row of a length in a statement. -/
theorem readsAs_unique {table text : Octets} {row row' : Row}
    (h : ReadsAs listClient table text row) (h' : ReadsAs listClient table text row')
    (h_len : row.length = row'.length) : row = row' := by
  obtain ⟨a, b, c, h_text, h_a, h_b, h_c⟩ := h
  obtain ⟨a', b', c', h_text', h_a', h_b', h_c'⟩ := h'
  rw [h_text, h_len, insertText_quotes, insertText_quotes] at h_text'
  have h_values := List.append_cancel_left (List.append_cancel_left
    (List.append_cancel_left h_text'))
  have h_some : ∀ {s t : Octets}, quotedLiteral s = some t → (quotedLiteral s).isSome = true := by
    intro s t h
    rw [h]
    rfl
  obtain ⟨rfl, h_src⟩ := quotedLiteral_unique (h_some h_a) (h_some h_a') h_values
  obtain ⟨rfl, h_dst⟩ := quotedLiteral_unique (h_some h_b) (h_some h_b')
    (List.append_cancel_left h_src)
  obtain ⟨rfl, -⟩ := quotedLiteral_unique (h_some h_c) (h_some h_c')
    (List.append_cancel_left h_dst)
  obtain ⟨payload, length, src, dst⟩ := row
  obtain ⟨payload', length', src', dst'⟩ := row'
  obtain rfl := Option.some.inj (h_a.symm.trans h_a')
  obtain rfl := Option.some.inj (h_b.symm.trans h_b')
  obtain rfl := Option.some.inj (h_c.symm.trans h_c')
  obtain rfl : length = length' := h_len
  rfl

end IonContrib.Mysql
