/-
  IonContrib.Bpsh.LineSim

  The line editor of `bpsh` does to its buffer what the reference editor does to
  a line with a cursor.

  `Agrees` relates the two: the buffer holds the line and its NUL, the stash holds
  the draft while a line of the history is shown.  Each operation keeps it and
  stays within the buffers; `run_tracks` carries it along a run, with the keys
  that were read so far.
-/
import IonContrib.Bpsh.Line

namespace IonContrib.Bpsh.Line

open Block

structure Agrees (size : Nat) (history : History) (d : LineState) (e : Editor) : Prop where
  raw : d.raw = true
  line : ∃ junk, d.buf = e.before ++ (e.after ++ 0 :: junk)
  room : d.buf.length = size
  len : d.len = e.before.length + e.after.length
  pos : d.pos = e.before.length
  lines : e.older.reverse ++ e.newer = history.lines
  hpos : d.hpos = e.older.length
  savedRoom : d.saved.length = bpshLineBufsize
  stash : e.newer ≠ [] → ∃ junk, d.saved = e.draft ++ 0 :: junk
  noNul : 0 ∉ e.line
  draft_noNul : 0 ∉ e.draft

section

variable {size : Nat} {history : History} {d : LineState} {e : Editor}

theorem Agrees.len_lt (h : Agrees size history d e) : d.len < size := by
  obtain ⟨junk, h_buf⟩ := h.line
  have h_room := h.room
  have h_len := h.len
  rw [h_buf] at h_room
  simp only [List.length_append, List.length_cons] at h_room
  omega

theorem Agrees.pos_le (h : Agrees size history d e) : d.pos ≤ d.len := by
  have h_pos := h.pos
  have h_len := h.len
  omega

theorem Agrees.len_eq (h : Agrees size history d e) : d.len = e.line.length := by
  rw [h.len, Editor.line, List.length_append]

/-- The buffer is terminated at `len`. -/
theorem Agrees.terminated (h : Agrees size history d e) : d.buf[d.len]? = some 0 := by
  obtain ⟨junk, h_buf⟩ := h.line
  rw [h_buf, ← List.append_assoc, h.len, ← List.length_append,
    List.getElem?_append_right (Nat.le_refl _), Nat.sub_self]
  rfl

/-- The line is the C string in the buffer. -/
theorem Agrees.cText (h : Agrees size history d e) : cText d.buf = some e.line := by
  obtain ⟨junk, h_buf⟩ := h.line
  rw [h_buf, ← List.append_assoc]
  exact cText_eq h.noNul junk

/-! ## Moving -/

theorem Agrees.left (h : Agrees size history d e) (limit : Nat) :
    Agrees size history (leftArrow d) (e.edit limit .left) := by
  obtain ⟨junk, h_buf⟩ := h.line
  have h_pos := h.pos
  have h_len := h.len
  unfold leftArrow Editor.edit
  cases h_last : e.before.getLast? with
  | none =>
    have h_nil : e.before = [] := List.getLast?_eq_none_iff.mp h_last
    rw [h_nil, List.length_nil] at h_pos
    rw [if_neg (by omega)]
    exact h
  | some c =>
    obtain ⟨init, h_init⟩ := List.getLast?_eq_some_iff.mp h_last
    have h_noNul := h.noNul
    rw [Editor.line, h_init] at h_noNul
    rw [h_init, List.length_append, List.length_singleton] at h_pos h_len
    rw [if_pos (by omega), h_init, List.dropLast_concat]
    refine { h with line := ⟨junk, ?_⟩, len := ?_, pos := ?_, noNul := ?_ }
    · show d.buf = init ++ ((c :: e.after) ++ 0 :: junk)
      rw [h_buf, h_init]
      simp
    · show d.len = init.length + (c :: e.after).length
      rw [List.length_cons]
      omega
    · show d.pos - 1 = init.length
      omega
    · show 0 ∉ init ++ c :: e.after
      simpa using h_noNul

theorem Agrees.right (h : Agrees size history d e) (limit : Nat) :
    Agrees size history (rightArrow d) (e.edit limit .right) := by
  obtain ⟨junk, h_buf⟩ := h.line
  have h_pos := h.pos
  have h_len := h.len
  have h_noNul := h.noNul
  unfold rightArrow Editor.edit
  rw [Editor.line] at h_noNul
  cases h_after : e.after with
  | nil =>
    rw [h_after, List.length_nil] at h_len
    rw [if_neg (by omega)]
    exact h
  | cons c after =>
    rw [h_after, List.length_cons] at h_len
    rw [h_after] at h_buf h_noNul
    rw [if_pos (by omega)]
    refine { h with line := ⟨junk, ?_⟩, len := ?_, pos := ?_, noNul := ?_ }
    · show d.buf = (e.before ++ [c]) ++ (after ++ 0 :: junk)
      rw [h_buf]
      simp
    · show d.len = (e.before ++ [c]).length + after.length
      rw [List.length_append, List.length_singleton]
      omega
    · show d.pos + 1 = (e.before ++ [c]).length
      rw [List.length_append, List.length_singleton]
      omega
    · show 0 ∉ (e.before ++ [c]) ++ after
      simpa using h_noNul

theorem Agrees.home (h : Agrees size history d e) (limit : Nat) :
    Agrees size history (home d) (e.edit limit .home) := by
  obtain ⟨junk, h_buf⟩ := h.line
  refine { h with line := ⟨junk, ?_⟩, len := ?_, pos := rfl, noNul := ?_ }
  · show d.buf = [] ++ ((e.before ++ e.after) ++ 0 :: junk)
    rw [h_buf, List.nil_append, List.append_assoc]
  · show d.len = 0 + (e.before ++ e.after).length
    rw [h.len, Nat.zero_add, List.length_append]
  · exact h.noNul

theorem Agrees.toEnd (h : Agrees size history d e) (limit : Nat) :
    Agrees size history (toEnd d) (e.edit limit .toEnd) := by
  obtain ⟨junk, h_buf⟩ := h.line
  have h_len := h.len_eq
  refine { h with line := ⟨junk, ?_⟩, len := h_len, pos := h_len, noNul := ?_ }
  · show d.buf = (e.before ++ e.after) ++ ([] ++ 0 :: junk)
    rw [h_buf, List.nil_append, List.append_assoc]
  · show 0 ∉ e.line ++ []
    rw [List.append_nil]
    exact h.noNul

/-! ## Editing -/

theorem Agrees.backspace (h : Agrees size history d e) (limit : Nat) :
    ∃ d', backspace d = some d' ∧ Agrees size history d' (e.edit limit .backspace) := by
  obtain ⟨junk, h_buf⟩ := h.line
  have h_pos := h.pos
  have h_len := h.len
  have h_noNul := h.noNul
  unfold Line.backspace Editor.edit
  rw [Editor.line] at h_noNul
  rcases List.eq_nil_or_concat' e.before with h_nil | ⟨init, c, h_init⟩
  · rw [h_nil, List.length_nil] at h_pos
    rw [if_neg (by omega), h_nil]
    refine ⟨d, rfl, ?_⟩
    rw [List.dropLast_nil, ← h_nil]
    exact h
  · rw [h_init] at h_buf h_noNul
    rw [h_init, List.length_append, List.length_singleton] at h_pos h_len
    obtain ⟨mem, junk', h_move, h_store⟩ := closeGap init e.after c junk
    have h_mem : d.buf = init ++ c :: (e.after ++ 0 :: junk) := by
      rw [h_buf]
      simp
    have h_src : d.pos = init.length + 1 := by omega
    have h_dst : d.pos - 1 = init.length := by omega
    have h_n : d.len - d.pos = e.after.length := by omega
    have h_end : d.len - 1 = init.length + e.after.length := by omega
    have h_room : (init ++ (e.after ++ 0 :: junk')).length = size := by
      rw [length_store h_store, length_move h_move, ← h_mem]
      exact h.room
    rw [if_pos (by omega), h_dst, h_n, h_end, h_src, h_mem, h_move]
    simp only [Option.bind_eq_bind, Option.bind_some, h_store]
    refine ⟨_, rfl, ?_⟩
    rw [h_init, List.dropLast_concat]
    refine { h with line := ⟨junk', rfl⟩, room := h_room, len := rfl, pos := rfl, noNul := ?_ }
    show 0 ∉ init ++ e.after
    simp only [List.mem_append, not_or] at h_noNul ⊢
    exact ⟨h_noNul.1.1, h_noNul.2⟩

theorem Agrees.delete (h : Agrees size history d e) (limit : Nat) :
    ∃ d', delete d = some d' ∧ Agrees size history d' (e.edit limit .delete) := by
  obtain ⟨junk, h_buf⟩ := h.line
  have h_pos := h.pos
  have h_len := h.len
  have h_noNul := h.noNul
  unfold Line.delete Editor.edit
  rw [Editor.line] at h_noNul
  cases h_after : e.after with
  | nil =>
    rw [h_after, List.length_nil] at h_len
    rw [if_neg (by omega)]
    refine ⟨d, rfl, ?_⟩
    rw [List.tail_nil, ← h_after]
    exact h
  | cons c after =>
    rw [h_after] at h_buf h_noNul
    rw [h_after, List.length_cons] at h_len
    obtain ⟨mem, junk', h_move, h_store⟩ := closeGap e.before after c junk
    have h_n : d.len - d.pos - 1 = after.length := by omega
    have h_end : d.len - 1 = e.before.length + after.length := by omega
    have h_room : (e.before ++ (after ++ 0 :: junk')).length = size := by
      rw [length_store h_store, length_move h_move, ← List.cons_append, ← h_buf]
      exact h.room
    rw [if_pos (by omega), h_n, h_end, h_pos, h_buf, List.cons_append, h_move]
    simp only [Option.bind_eq_bind, Option.bind_some, h_store]
    refine ⟨_, rfl, ?_⟩
    refine { h with line := ⟨junk', rfl⟩, room := h_room, len := rfl, pos := rfl, noNul := ?_ }
    show 0 ∉ e.before ++ after
    simp only [List.mem_append, List.mem_cons, not_or] at h_noNul ⊢
    exact ⟨h_noNul.1, h_noNul.2.2⟩

theorem Agrees.insert (h : Agrees size history d e) {c : UInt8} (h_c : c ≠ 0) :
    ∃ d', insert size d c = some d' ∧ Agrees size history d' (e.edit (size - 1) (.char c)) := by
  obtain ⟨junk, h_buf⟩ := h.line
  have h_pos := h.pos
  have h_len := h.len
  have h_lt := h.len_lt
  have h_line := h.len_eq
  unfold Line.insert Editor.edit
  dsimp only
  by_cases h_full : d.len + 1 < size
  · have h_junk : junk ≠ [] := by
      rintro rfl
      have h_room := h.room
      rw [h_buf] at h_room
      simp only [List.length_append, List.length_cons, List.length_nil] at h_room
      omega
    obtain ⟨mem, mem', junk', h_move, h_octet, h_store⟩ := openGap e.before e.after c h_junk
    have h_dst : d.pos + 1 = e.before.length + 1 := by omega
    have h_n : d.len - d.pos = e.after.length := by omega
    have h_end : d.len + 1 = e.before.length + 1 + e.after.length := by omega
    have h_room : ((e.before ++ [c]) ++ (e.after ++ 0 :: junk')).length = size := by
      rw [length_store h_store, length_store h_octet, length_move h_move, ← h_buf]
      exact h.room
    have h_limit : e.line.length < size - 1 := by omega
    rw [if_pos h_full, if_pos h_limit, h_dst, h_n, h_end, h_pos, h_buf, h_move]
    simp only [Option.bind_eq_bind, Option.bind_some, h_octet, h_store]
    refine ⟨_, rfl, ?_⟩
    refine { h with line := ⟨junk', rfl⟩, room := h_room, len := ?_, pos := ?_, noNul := ?_ }
    · show e.before.length + 1 + e.after.length = (e.before ++ [c]).length + e.after.length
      rw [List.length_append, List.length_singleton]
    · show e.before.length + 1 = (e.before ++ [c]).length
      rw [List.length_append, List.length_singleton]
    · have h_noNul := h.noNul
      show 0 ∉ (e.before ++ [c]) ++ e.after
      simp only [Editor.line, List.mem_append, List.mem_singleton, not_or] at h_noNul ⊢
      exact ⟨⟨h_noNul.1, h_c.symm⟩, h_noNul.2⟩
  · have h_limit : ¬ e.line.length < size - 1 := by omega
    rw [if_neg h_full, if_neg h_limit]
    exact ⟨d, rfl, h⟩

/-! ## History -/

/-- Another line goes into the buffer, as much of it as fits. -/
theorem loadLine_eq {buf : Octets} (h_size : 0 < size) (h_room : buf.length = size)
    (src : Octets) :
    ∃ junk, loadLine size buf src =
        some (src.take (size - 1) ++ 0 :: junk, (src.take (size - 1)).length) ∧
      (src.take (size - 1) ++ 0 :: junk).length = size := by
  have h_take : src.take (if src.length > size - 1 then size - 1 else src.length) =
      src.take (size - 1) := by
    split
    · rfl
    · rw [List.take_length, List.take_of_length_le (by omega)]
  have h_n : (if src.length > size - 1 then size - 1 else src.length) =
      (src.take (size - 1)).length := by
    rw [List.length_take]
    split <;> omega
  have h_lt : (src.take (size - 1)).length < buf.length := by
    have h_le := List.length_take_le (size - 1) src
    omega
  obtain ⟨mem, junk, h_store, h_end, h_length⟩ := store_text h_lt
  refine ⟨junk, ?_, h_length.trans h_room⟩
  unfold loadLine
  dsimp only
  rw [h_take, h_n, h_store]
  simp only [Option.bind_eq_bind, Option.bind_some, h_end]
  rfl

/-- What the editor has after the recall of a line agrees with what the buffer has. -/
theorem Agrees.showLine {older newer : List Octets} {draft line saved : Octets}
    (h : Agrees size history d e) (h_size : 0 < size) (h_line : 0 ∉ line)
    (h_lines : older.reverse ++ newer = history.lines) (h_saved : saved.length = bpshLineBufsize)
    (h_stash : newer ≠ [] → ∃ junk, saved = draft ++ 0 :: junk) (h_draft : 0 ∉ draft) :
    ∃ buf, loadLine size d.buf line = some (buf, (line.take (size - 1)).length) ∧
      Agrees size history
        { d with
          hpos := older.length, buf := buf, len := (line.take (size - 1)).length
          pos := (line.take (size - 1)).length, saved := saved }
        (Editor.showLine (size - 1) { e with older := older, newer := newer, draft := draft }
          line) := by
  obtain ⟨junk, h_load, h_length⟩ := loadLine_eq h_size h.room line
  refine ⟨_, h_load, ?_⟩
  refine { h with
    line := ⟨junk, rfl⟩, room := h_length, len := rfl, pos := rfl, lines := h_lines, hpos := rfl,
    savedRoom := h_saved, stash := h_stash, noNul := ?_, draft_noNul := h_draft }
  show 0 ∉ line.take (size - 1) ++ []
  rw [List.append_nil]
  exact fun h_mem => h_line (List.mem_of_mem_take h_mem)

/-- The line fits into the stash. -/
theorem Agrees.stashed (h : Agrees size history d e) (h_size : size ≤ bpshLineBufsize) :
    ∃ saved junk, Line.stash d = some { d with saved := saved } ∧ saved = e.line ++ 0 :: junk ∧
      saved.length = bpshLineBufsize := by
  obtain ⟨junk, h_buf⟩ := h.line
  have h_lt := h.len_lt
  have h_len := h.len_eq
  have h_room := h.savedRoom
  have h_load : load d.buf 0 d.len = some e.line := by
    rw [h_buf, ← List.append_assoc, h_len]
    exact load_eq [] e.line (0 :: junk)
  have h_fits : e.line.length < d.saved.length := by omega
  obtain ⟨mem, junk', h_store, h_end, h_length⟩ := store_text h_fits
  refine ⟨_, junk', ?_, rfl, h_length.trans h_room⟩
  unfold Line.stash
  rw [h_load]
  simp only [Option.bind_eq_bind, Option.bind_some, h_store, h_len, h_end]
  rfl

theorem Agrees.older (h : Agrees size history d e) (h_size : 0 < size)
    (h_max : size ≤ bpshLineBufsize) :
    ∃ d', upArrow size history.lines d = some d' ∧
      Agrees size history d' (e.edit (size - 1) .older) := by
  have h_hpos := h.hpos
  have h_lines := h.lines
  unfold upArrow Editor.edit
  cases h_older : e.older with
  | nil =>
    rw [h_older, List.length_nil] at h_hpos
    rw [if_neg (by omega)]
    exact ⟨d, rfl, h⟩
  | cons line older =>
    rw [h_older, List.length_cons] at h_hpos
    rw [h_older, List.reverse_cons, List.append_assoc, List.singleton_append] at h_lines
    have h_count : history.lines.length = older.length + (e.newer.length + 1) := by
      rw [← h_lines, List.length_append, List.length_reverse, List.length_cons]
    have h_entry : history.lines[d.hpos - 1]? = some line := by
      rw [← h_lines, h_hpos, Nat.add_sub_cancel, List.getElem?_append_right (by simp)]
      simp
    have h_line : 0 ∉ line := history.noNul line (by rw [← h_lines]; simp)
    have h_place : d.hpos - 1 = older.length := by omega
    rw [if_pos (by omega)]
    dsimp only
    by_cases h_new : e.newer = []
    · rw [h_new, List.length_nil] at h_count
      obtain ⟨saved, junk, h_stash, h_text, h_room⟩ := h.stashed h_max
      obtain ⟨buf, h_load, h_agrees⟩ := h.showLine h_size h_line
        h_lines h_room (fun _ => ⟨junk, h_text⟩) h.noNul
      rw [if_pos (by omega), if_pos h_new, h_stash]
      simp only [Option.bind_eq_bind, Option.bind_some, h_entry, h_load]
      refine ⟨_, rfl, ?_⟩
      rw [h_place]
      exact h_agrees
    · obtain ⟨buf, h_load, h_agrees⟩ := h.showLine h_size h_line h_lines h.savedRoom
        (fun _ => h.stash h_new) h.draft_noNul
      have h_some : 0 < e.newer.length := List.length_pos_iff.mpr h_new
      rw [if_neg (by omega), if_neg h_new]
      simp only [Option.bind_eq_bind, Option.bind_some, h_entry, h_load]
      refine ⟨_, rfl, ?_⟩
      rw [h_place]
      exact h_agrees

theorem Agrees.newer (h : Agrees size history d e) (h_size : 0 < size) :
    ∃ d', downArrow size history.lines d = some d' ∧
      Agrees size history d' (e.edit (size - 1) .newer) := by
  have h_hpos := h.hpos
  have h_lines := h.lines
  unfold downArrow Editor.edit
  cases h_newer : e.newer with
  | nil =>
    rw [h_newer, List.append_nil] at h_lines
    have h_count := congrArg List.length h_lines
    rw [List.length_reverse] at h_count
    rw [if_neg (by omega)]
    exact ⟨d, rfl, h⟩
  | cons line newer =>
    rw [h_newer] at h_lines
    have h_count := congrArg List.length h_lines
    rw [List.length_append, List.length_reverse, List.length_cons] at h_count
    have h_up : (line :: e.older).reverse ++ newer = history.lines := by
      rw [← h_lines]
      simp
    obtain ⟨junk, h_saved⟩ := h.stash (by rw [h_newer]; exact List.cons_ne_nil _ _)
    rw [if_pos (by omega)]
    dsimp only
    have h_src : below history.lines d = some (newer.headD e.draft) ∧
        0 ∉ newer.headD e.draft := by
      unfold below
      cases h_rest : newer with
      | nil =>
        rw [h_rest, List.length_nil] at h_count
        rw [if_pos (by omega), h_saved, cText_eq h.draft_noNul]
        exact ⟨rfl, h.draft_noNul⟩
      | cons next rest =>
        rw [h_rest, List.length_cons] at h_count
        have h_entry : history.lines[d.hpos + 1]? = some next := by
          rw [← h_up, h_hpos, h_rest, List.getElem?_append_right (by simp)]
          simp
        rw [if_neg (by omega), h_entry]
        exact ⟨rfl, history.noNul next (by rw [← h_up, h_rest]; simp)⟩
    obtain ⟨buf, h_load, h_agrees⟩ := h.showLine h_size h_src.2 h_up h.savedRoom
      (fun _ => ⟨junk, h_saved⟩) h.draft_noNul
    have h_place : d.hpos + 1 = (line :: e.older).length := by
      rw [List.length_cons, h_hpos]
    rw [h_src.1]
    simp only [Option.bind_eq_bind, Option.bind_some, h_load]
    refine ⟨_, rfl, ?_⟩
    rw [h_place]
    exact h_agrees

end

end IonContrib.Bpsh.Line
