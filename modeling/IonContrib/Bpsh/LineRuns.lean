/-
  IonContrib.Bpsh.LineRuns

  Runs of the line editor of `bpsh`: whatever is typed, however it is cut, and
  whenever the signal comes, no access leaves a buffer, and what is in the buffer
  is what the reference editor has after the same keys (`run_tracks`).
-/
import IonContrib.Bpsh.LineSim

namespace IonContrib.Bpsh.Line

open Block

def Event.got : Event → Option ReadResult
  | .read r => some r
  | _ => none

/-- What a run has read. -/
def reads (es : List Event) : List ReadResult := es.filterMap Event.got

/-- The reference editor after what a run has read. -/
def reference (size : Nat) (history : History) (es : List Event) : Editor × Option Bool :=
  Editor.drive (size - 1) history.lines (decode (reads es)).2

/-- Where a state of the loop is within a key. -/
def Pc.mode : Pc → Option Mode
  | .looking => some .plain
  | .reading => some .plain
  | .escape => some .escape
  | .bracket => some .bracket
  | .extended seq1 => some (.extended seq1)
  | _ => none

/-- What a state has to do with the reference editor. -/
inductive Tracks (size : Nat) (history : History) (m : Mode) (p : Editor × Option Bool)
    (d : LineState) : Prop
  | starting (h_pc : d.pc = .starting) (h_mode : m = .plain)
      (h_p : p = (Editor.fresh history.lines, none)) (h_buf : d.buf.length = size)
      (h_saved : d.saved.length = bpshLineBufsize)
      (h_fields : d.len = 0 ∧ d.pos = 0 ∧ d.hpos = history.lines.length ∧ d.raw = false)
  | within (h_mode : d.pc.mode = some m) (h : Agrees size history d p.1) (h_open : p.2 = none)
  | leaving (ret : Int) (h_pc : d.pc = .leaving ret) (h : Agrees size history d p.1)
      (h_ret : (∃ taken, p.2 = some taken ∧ ret = if taken then 0 else -1) ∨
        (p.2 = none ∧ d.running = false))
  | returned (ret : Int) (h_pc : d.pc = .returned ret) (h : Agrees size history d p.1)
      (h_ret : ret = if p.2 = some true ∧ d.running = true then 0 else -1)
  | fallback (h_pc : d.pc = .fallback) (h_raw : d.raw = false) (h_buf : d.buf.length = size)
  | plain (ret : Int) (h_pc : d.pc = .returned ret) (h_raw : d.raw = false)
      (h_buf : d.buf.length = size) (h_ret : ret = 0 → 0 ∈ d.buf)

section

variable {size : Nat} {history : History} {d : LineState} {e : Editor}

/-- Where the program is has no part in what the buffers hold. -/
theorem Agrees.setPc (h : Agrees size history d e) (pc : Pc) :
    Agrees size history { d with pc := pc } e := { h with }

/-! ## Reading -/

theorem Tracks.again {op : Option LineState}
    (h : ∃ d', op = some d' ∧ Agrees size history d' e) :
    Tracks size history .plain (e, none) (again d op) := by
  obtain ⟨d', rfl, h_agrees⟩ := h
  exact .within rfl (h_agrees.setPc _) rfl

/-- What an editing key does to the reference editor. -/
theorem press_edit {k : Key} (limit : Nat) (h : e.verdict k = none) :
    Editor.press limit (e, none) k = (e.edit limit k, none) := by
  unfold Editor.press
  dsimp only
  rw [h]

/-- What the next thing read is to the reference editor. -/
def absorb (limit : Nat) (m : Mode) (p : Editor × Option Bool) (r : ReadResult) :
    Editor × Option Bool :=
  (scan m r).2.toList.foldl (Editor.press limit) p

theorem Agrees.readKey (h : Agrees size history d e) (r : ReadResult) :
    Tracks size history (scan .plain r).1 (absorb (size - 1) .plain (e, none) r)
      (readKey size d r) := by
  have h_line : d.len = 0 ↔ e.line = [] := by
    rw [h.len_eq, List.length_eq_zero_iff]
  cases r with
  | failed => exact .leaving (-1) rfl (h.setPc _) (.inl ⟨false, rfl, rfl⟩)
  | closed =>
    refine .leaving (if d.len = 0 then -1 else 0) rfl (h.setPc _) (.inl ⟨e.line ≠ [], rfl, ?_⟩)
    by_cases h_empty : d.len = 0
    · rw [if_pos h_empty, if_neg (by simpa using h_line.mp h_empty)]
    · rw [if_neg h_empty, if_pos (by simpa using fun h_eq => h_empty (h_line.mpr h_eq))]
  | octet c =>
    unfold Line.readKey absorb scan
    dsimp only
    by_cases h_enter : c = 0x0d ∨ c = 0x0a
    · have h_esc : c ≠ 27 := by
        rcases h_enter with rfl | rfl <;> decide
      rw [if_pos h_enter, if_neg h_esc, plainKey, if_pos h_enter]
      exact .leaving 0 rfl (h.setPc _) (.inl ⟨true, rfl, rfl⟩)
    rw [if_neg h_enter]
    by_cases h_eot : c = 4
    · have h_esc : c ≠ 27 := by
        rintro rfl
        exact absurd h_eot (by decide)
      rw [if_pos h_eot, if_neg h_esc, plainKey, if_neg h_enter, if_pos h_eot]
      show Tracks size history .plain (Editor.press (size - 1) (e, none) .endOfText) _
      by_cases h_empty : d.len = 0
      · have h_verdict : Editor.press (size - 1) (e, none) .endOfText = (e, some false) := by
          unfold Editor.press Editor.verdict
          dsimp only
          rw [if_pos (h_line.mp h_empty)]
        rw [if_pos h_empty, h_verdict]
        exact .leaving (-1) rfl (h.setPc _) (.inl ⟨false, rfl, rfl⟩)
      · have h_verdict : e.verdict .endOfText = none :=
          if_neg fun h_eq => h_empty (h_line.mpr h_eq)
        rw [if_neg h_empty, press_edit _ h_verdict]
        exact .within rfl (h.setPc _) rfl
    rw [if_neg h_eot]
    by_cases h_back : c = 127 ∨ c = 8
    · have h_esc : c ≠ 27 := by
        rcases h_back with rfl | rfl <;> decide
      rw [if_pos h_back, if_neg h_esc, plainKey, if_neg h_enter, if_neg h_eot, if_pos h_back]
      exact .again (h.backspace (size - 1))
    rw [if_neg h_back]
    by_cases h_esc : c = 27
    · rw [if_pos h_esc, if_pos h_esc]
      exact .within rfl (h.setPc _) rfl
    rw [if_neg h_esc, if_neg h_esc, plainKey, if_neg h_enter, if_neg h_eot, if_neg h_back]
    by_cases h_ctl : c < 32
    · rw [if_pos h_ctl, if_pos h_ctl]
      exact .within rfl (h.setPc _) rfl
    · rw [if_neg h_ctl, if_neg h_ctl]
      have h_c : c ≠ 0 := by
        rintro rfl
        exact h_ctl (by decide)
      exact .again (h.insert h_c)

theorem Agrees.readSeq0 (h : Agrees size history d e) (r : ReadResult) :
    Tracks size history (scan .escape r).1 (absorb (size - 1) .escape (e, none) r)
      (readSeq0 d r) := by
  cases r with
  | failed => exact .within rfl (h.setPc _) rfl
  | closed => exact .within rfl (h.setPc _) rfl
  | octet c =>
    unfold Line.readSeq0 absorb scan
    dsimp only
    split
    · exact .within rfl (h.setPc _) rfl
    · exact .within rfl (h.setPc _) rfl

theorem Agrees.arrowKey (h : Agrees size history d e) (h_size : 0 < size)
    (h_max : size ≤ bpshLineBufsize) (c : UInt8) :
    Tracks size history .plain ((csiKey c).toList.foldl (Editor.press (size - 1)) (e, none))
      (again d (arrowKey size history.lines d c)) := by
  unfold Line.arrowKey
  by_cases h_right : c = 0x43
  · subst h_right
    exact .again ⟨_, rfl, h.right (size - 1)⟩
  by_cases h_left : c = 0x44
  · subst h_left
    exact .again ⟨_, rfl, h.left (size - 1)⟩
  by_cases h_home : c = 0x48
  · subst h_home
    exact .again ⟨_, rfl, h.home (size - 1)⟩
  by_cases h_end : c = 0x46
  · subst h_end
    exact .again ⟨_, rfl, h.toEnd (size - 1)⟩
  by_cases h_up : c = 0x41
  · subst h_up
    exact .again (h.older h_size h_max)
  by_cases h_down : c = 0x42
  · subst h_down
    exact .again (h.newer h_size)
  have h_none : csiKey c = none := by
    simp [csiKey, List.lookup_eq_none_iff, h_right, h_left, h_home, h_end, h_up, h_down]
  rw [if_neg h_right, if_neg h_left, if_neg h_home, if_neg h_end, if_neg h_up, if_neg h_down,
    h_none]
  exact .again ⟨_, rfl, h⟩

theorem Agrees.extendedKey (h : Agrees size history d e) (c : UInt8) :
    Tracks size history .plain ((tildeKey c).toList.foldl (Editor.press (size - 1)) (e, none))
      (again d (extendedKey d c)) := by
  unfold Line.extendedKey
  by_cases h_delete : c = 0x33
  · subst h_delete
    exact .again (h.delete (size - 1))
  by_cases h_home : c = 0x31 ∨ c = 0x37
  · rw [if_neg h_delete, if_pos h_home]
    rcases h_home with rfl | rfl
    · exact .again ⟨_, rfl, h.home (size - 1)⟩
    · exact .again ⟨_, rfl, h.home (size - 1)⟩
  by_cases h_end : c = 0x34 ∨ c = 0x38
  · rw [if_neg h_delete, if_neg h_home, if_pos h_end]
    rcases h_end with rfl | rfl
    · exact .again ⟨_, rfl, h.toEnd (size - 1)⟩
    · exact .again ⟨_, rfl, h.toEnd (size - 1)⟩
  have h_none : tildeKey c = none := by
    rw [not_or] at h_home h_end
    simp [tildeKey, List.lookup_eq_none_iff, h_delete, h_home, h_end]
  rw [if_neg h_delete, if_neg h_home, if_neg h_end, h_none]
  exact .again ⟨_, rfl, h⟩

theorem Agrees.readSeq1 (h : Agrees size history d e) (h_size : 0 < size)
    (h_max : size ≤ bpshLineBufsize) (r : ReadResult) :
    Tracks size history (scan .bracket r).1 (absorb (size - 1) .bracket (e, none) r)
      (readSeq1 size history.lines d r) := by
  cases r with
  | failed => exact .within rfl (h.setPc _) rfl
  | closed => exact .within rfl (h.setPc _) rfl
  | octet c =>
    unfold Line.readSeq1 absorb scan
    dsimp only
    split
    · exact .within rfl (h.setPc _) rfl
    · exact h.arrowKey h_size h_max c

theorem Agrees.readTilde (h : Agrees size history d e) {seq1 : UInt8}
    (h_pc : d.pc = .extended seq1) (r : ReadResult) :
    Tracks size history (scan (.extended seq1) r).1
      (absorb (size - 1) (.extended seq1) (e, none) r) (readTilde d seq1 r) := by
  cases r with
  | failed => exact h.extendedKey seq1
  | closed => exact h.extendedKey seq1
  | octet c =>
    unfold Line.readTilde absorb scan
    dsimp only
    split
    · exact h.extendedKey seq1
    · exact .within (by rw [h_pc]; rfl) h rfl

/-! ## Steps -/

theorem Tracks.begin {m : Mode} {p : Editor × Option Bool} (h : Tracks size history m p d)
    (h_size : 0 < size) (h_pc : d.pc = .starting) (ok : Bool) :
    Tracks size history m p (begin d ok) := by
  cases h with
  | starting _ h_mode h_p h_buf h_saved h_fields =>
    obtain ⟨h_len, h_pos, h_hpos, h_raw⟩ := h_fields
    cases ok with
    | false => exact .fallback rfl h_raw h_buf
    | true =>
      obtain ⟨b, buf, h_cons⟩ := List.exists_cons_of_length_pos (h_buf ▸ h_size)
      have h_store : store d.buf 0 [0] = some (0 :: buf) := by
        rw [h_cons]
        exact store_octet [] b 0 buf
      unfold Line.begin
      rw [if_neg (by decide), h_store]
      subst h_mode h_p
      refine .within rfl ?_ rfl
      refine {
        raw := rfl, line := ⟨buf, rfl⟩, room := ?_, len := h_len, pos := h_pos, lines := ?_
        hpos := ?_, savedRoom := h_saved, stash := fun h_ne => absurd rfl h_ne
        noNul := List.not_mem_nil, draft_noNul := List.not_mem_nil }
      · show (0 :: buf).length = size
        rw [← h_buf, h_cons]
        rfl
      · show history.lines.reverse.reverse ++ [] = history.lines
        rw [List.reverse_reverse, List.append_nil]
      · show d.hpos = history.lines.reverse.length
        rw [h_hpos, List.length_reverse]
  | within h_mode =>
    rw [h_pc] at h_mode
    cases h_mode
  | leaving _ h_at => cases h_pc.symm.trans h_at
  | returned _ h_at => cases h_pc.symm.trans h_at
  | fallback h_at => cases h_pc.symm.trans h_at
  | plain _ h_at => cases h_pc.symm.trans h_at

theorem fgets_length (h_size : 0 < size) {input line : Octets}
    (h : fgets size input = some line) : line.length < size := by
  unfold fgets at h
  split at h
  · cases h
  · obtain rfl := Option.some.inj h
    have h_le := List.length_take_le (size - 1)
      (input.takeWhile (· ≠ 0x0a) ++ (input.dropWhile (· ≠ 0x0a)).take 1)
    omega

theorem Tracks.readFallback {m : Mode} {p : Editor × Option Bool} (h_size : 0 < size)
    (h_raw : d.raw = false) (h_buf : d.buf.length = size) (input : Octets) :
    Tracks size history m p (readFallback size d input) := by
  unfold Line.readFallback
  cases h_line : fgets size input with
  | none => exact .plain (-1) rfl h_raw h_buf fun h_eq => by cases h_eq
  | some line =>
    have h_lt := fgets_length h_size h_line
    have h_fits : 0 + (line ++ [0]).length ≤ d.buf.length := by
      rw [List.length_append, List.length_singleton]
      omega
    have h_store : store d.buf 0 (line ++ [0]) =
        some (Octets.splice d.buf 0 (line ++ [0])) := if_pos h_fits
    dsimp only
    rw [h_store]
    refine .plain 0 rfl h_raw ((Octets.length_splice h_fits).trans h_buf) fun _ => ?_
    show 0 ∈ Octets.splice d.buf 0 (line ++ [0])
    simp [Octets.splice]

theorem Agrees.finish (h : Agrees size history d e) {m : Mode} {p : Editor × Option Bool}
    (h_e : p.1 = e) {ret : Int}
    (h_ret : (∃ taken, p.2 = some taken ∧ ret = if taken then 0 else -1) ∨
      (p.2 = none ∧ d.running = false)) :
    Tracks size history m p (finish d ret) := by
  obtain ⟨junk, h_buf⟩ := h.line
  have h_store : store d.buf d.len [0] = some d.buf := by
    rw [h_buf, ← List.append_assoc, h.len, ← List.length_append]
    exact store_octet (e.before ++ e.after) 0 0 junk
  unfold Line.finish
  rw [h_store]
  subst h_e
  refine .returned _ rfl (h.setPc _) ?_
  rcases h_ret with ⟨taken, h_taken, rfl⟩ | ⟨h_none, h_stop⟩
  · rw [h_taken]
    cases d.running with
    | false => simp
    | true => cases taken <;> simp
  · rw [h_none, h_stop]
    rfl

theorem reads_snoc (es : List Event) (ev : Event) :
    reads (es ++ [ev]) = reads es ++ ev.got.toList := by
  rw [reads, List.filterMap_append]
  cases ev <;> rfl

theorem reads_quiet (es : List Event) {ev : Event} (h : ev.got = none) :
    reads (es ++ [ev]) = reads es := by
  rw [reads_snoc, h, Option.toList_none, List.append_nil]

theorem decode_snoc (rs : List ReadResult) (r : ReadResult) :
    decode (rs ++ [r]) =
      ((scan (decode rs).1 r).1, (decode rs).2 ++ (scan (decode rs).1 r).2.toList) := by
  rw [decode, List.foldl_append]
  rfl

/-- The run that has read `r` as well. -/
theorem reference_read (size : Nat) (history : History) (es : List Event) (r : ReadResult) :
    (decode (reads (es ++ [.read r]))).1 = (scan (decode (reads es)).1 r).1 ∧
      reference size history (es ++ [.read r]) =
        absorb (size - 1) (decode (reads es)).1 (reference size history es) r := by
  have h_reads : reads (es ++ [.read r]) = reads es ++ [r] := reads_snoc es (.read r)
  rw [reference, h_reads, decode_snoc]
  refine ⟨rfl, ?_⟩
  unfold Editor.drive
  rw [List.foldl_append]
  rfl

theorem Tracks.interrupt {m : Mode} {p : Editor × Option Bool} (h : Tracks size history m p d)
    (h_pc : ∀ ret, d.pc ≠ .returned ret) :
    Tracks size history m p { d with running := false } := by
  cases h with
  | starting h_at h_mode h_p h_buf h_saved h_fields =>
    exact .starting h_at h_mode h_p h_buf h_saved h_fields
  | within h_mode h h_open => exact .within h_mode { h with } h_open
  | leaving ret h_at h h_ret =>
    exact .leaving ret h_at { h with } (h_ret.imp_right fun h_none => ⟨h_none.1, rfl⟩)
  | returned ret h_at => exact absurd h_at (h_pc ret)
  | fallback h_at h_raw h_buf => exact .fallback h_at h_raw h_buf
  | plain ret h_at => exact absurd h_at (h_pc ret)

theorem Tracks.step {es : List Event} {ev : Event} {d' : LineState} (h_size : 0 < size)
    (h_max : size ≤ bpshLineBufsize)
    (h : Tracks size history (decode (reads es)).1 (reference size history es) d)
    (h_step : step size history d ev = some d') :
    Tracks size history (decode (reads (es ++ [ev]))).1 (reference size history (es ++ [ev]))
      d' := by
  cases ev with
  | begin ok =>
    rw [reference, reads_quiet es rfl]
    rw [Line.step] at h_step
    split at h_step
    · rename_i h_pc
      obtain rfl := Option.some.inj h_step
      exact h.begin h_size h_pc ok
    · cases h_step
  | fgets input =>
    rw [reference, reads_quiet es rfl]
    rw [Line.step] at h_step
    split at h_step
    · rename_i h_pc
      obtain rfl := Option.some.inj h_step
      cases h with
      | fallback _ h_raw h_buf => exact .readFallback h_size h_raw h_buf input
      | starting h_at => cases h_pc.symm.trans h_at
      | within h_mode =>
        rw [h_pc] at h_mode
        cases h_mode
      | leaving _ h_at => cases h_pc.symm.trans h_at
      | returned _ h_at => cases h_pc.symm.trans h_at
      | plain _ h_at => cases h_pc.symm.trans h_at
    · cases h_step
  | look =>
    rw [reference, reads_quiet es rfl]
    rw [Line.step] at h_step
    split at h_step
    · rename_i h_pc
      obtain rfl := Option.some.inj h_step
      cases h with
      | within h_mode h h_open =>
        rw [h_pc] at h_mode
        by_cases h_run : d.running = true
        · rw [if_pos h_run]
          exact .within h_mode (h.setPc _) h_open
        · rw [if_neg h_run]
          exact .leaving 0 rfl (h.setPc _) (.inr ⟨h_open, Bool.eq_false_of_not_eq_true h_run⟩)
      | starting h_at => cases h_pc.symm.trans h_at
      | leaving _ h_at => cases h_pc.symm.trans h_at
      | returned _ h_at => cases h_pc.symm.trans h_at
      | fallback h_at => cases h_pc.symm.trans h_at
      | plain _ h_at => cases h_pc.symm.trans h_at
    · cases h_step
  | read r =>
    obtain ⟨h_mode', h_p'⟩ := reference_read size history es r
    rw [h_mode', h_p']
    cases h with
    | within h_mode h h_open =>
      generalize (decode (reads es)).1 = m at h_mode
      have h_pair : reference size history es = ((reference size history es).1, none) :=
        Prod.ext rfl h_open
      rw [h_pair]
      rw [Line.step] at h_step
      cases h_pc : d.pc with
      | looking =>
        rw [h_pc] at h_step
        cases h_step
      | reading =>
        rw [h_pc] at h_step h_mode
        obtain rfl := Option.some.inj h_mode
        obtain rfl := Option.some.inj h_step
        exact h.readKey r
      | escape =>
        rw [h_pc] at h_step h_mode
        obtain rfl := Option.some.inj h_mode
        obtain rfl := Option.some.inj h_step
        exact h.readSeq0 r
      | bracket =>
        rw [h_pc] at h_step h_mode
        obtain rfl := Option.some.inj h_mode
        obtain rfl := Option.some.inj h_step
        exact h.readSeq1 h_size h_max r
      | extended seq1 =>
        rw [h_pc] at h_step h_mode
        obtain rfl := Option.some.inj h_mode
        obtain rfl := Option.some.inj h_step
        exact h.readTilde h_pc r
      | _ =>
        rw [h_pc] at h_mode
        cases h_mode
    | starting h_at =>
      rw [Line.step, h_at] at h_step
      cases h_step
    | leaving _ h_at =>
      rw [Line.step, h_at] at h_step
      cases h_step
    | returned _ h_at =>
      rw [Line.step, h_at] at h_step
      cases h_step
    | fallback h_at =>
      rw [Line.step, h_at] at h_step
      cases h_step
    | plain _ h_at =>
      rw [Line.step, h_at] at h_step
      cases h_step
  | leave =>
    rw [reference, reads_quiet es rfl]
    rw [Line.step] at h_step
    split at h_step
    · rename_i ret h_pc
      obtain rfl := Option.some.inj h_step
      cases h with
      | leaving ret' h_at h h_ret =>
        obtain rfl := Pc.leaving.inj (h_pc.symm.trans h_at)
        exact h.finish rfl h_ret
      | starting h_at => cases h_pc.symm.trans h_at
      | within h_mode =>
        rw [h_pc] at h_mode
        cases h_mode
      | returned _ h_at => cases h_pc.symm.trans h_at
      | fallback h_at => cases h_pc.symm.trans h_at
      | plain _ h_at => cases h_pc.symm.trans h_at
    · cases h_step
  | interrupt =>
    rw [reference, reads_quiet es rfl]
    rw [Line.step] at h_step
    split at h_step
    · cases h_step
    · cases h_step
    · rename_i h_returned _
      obtain rfl := Option.some.inj h_step
      exact h.interrupt h_returned

theorem run_tracks {buf saved : Octets} {es : List Event} (h_size : 0 < size)
    (h_max : size ≤ bpshLineBufsize) (h_buf : buf.length = size)
    (h_saved : saved.length = bpshLineBufsize)
    (h_run : Lts.run (step size history) (start history buf saved) es = some d) :
    Tracks size history (decode (reads es)).1 (reference size history es) d := by
  have h_step : ∀ es d ev d',
      Tracks size history (decode (reads es)).1 (reference size history es) d →
      step size history d ev = some d' →
      Tracks size history (decode (reads (es ++ [ev]))).1 (reference size history (es ++ [ev]))
        d' := fun _ _ _ _ h h_step => h.step h_size h_max h_step
  exact Lts.run_invariant_history h_step
    (.starting rfl rfl rfl h_buf h_saved ⟨rfl, rfl, rfl, rfl⟩) h_run

end

/-! ## The editor -/

/-- What a run of `readLineRaw` has to show for itself at any point of it. -/
structure Edits (size : Nat) (history : History) (es : List Event) (d : LineState) : Prop where
  /-- There was no access beyond a buffer. -/
  inBounds : d.pc ≠ .stray
  cursor : d.raw = true → d.pos ≤ d.len ∧ d.len < size
  terminated : d.raw = true → d.buf[d.len]? = some 0
  /-- The line and the cursor are those of the reference editor. -/
  line : d.raw = true → cText d.buf = some (reference size history es).1.line ∧
    d.len = (reference size history es).1.line.length ∧
    d.pos = (reference size history es).1.before.length
  /-- A line is returned when it was ended and not interrupted. -/
  returned : d.raw = true → ∀ ret, d.pc = .returned ret →
    ret = if (reference size history es).2 = some true ∧ d.running = true then 0 else -1
  /-- Whatever is read next can be dealt with. -/
  takes : ∀ m, d.pc.mode = some m → d.pc ≠ .looking → ∀ r, ∃ d',
    step size history d (.read r) = some d'
  /-- Where there is no terminal, `fgets` keeps to the buffer. -/
  fallback : d.raw = false → d.buf.length = size ∧ (d.pc = .returned 0 → 0 ∈ d.buf)

theorem Agrees.edits {size : Nat} {history : History} {es : List Event} {d : LineState}
    (h : Agrees size history d (reference size history es).1) (h_pc : d.pc ≠ .stray)
    (h_ret : ∀ ret, d.pc = .returned ret →
      ret = if (reference size history es).2 = some true ∧ d.running = true then 0 else -1)
    (h_takes : ∀ m, d.pc.mode = some m → d.pc ≠ .looking → ∀ r, ∃ d',
      step size history d (.read r) = some d') : Edits size history es d where
  inBounds := h_pc
  cursor := fun _ => ⟨h.pos_le, h.len_lt⟩
  terminated := fun _ => h.terminated
  line := fun _ => ⟨h.cText, h.len_eq, h.pos⟩
  returned := fun _ => h_ret
  takes := h_takes
  fallback := by
    intro h_raw
    rw [h.raw] at h_raw
    cases h_raw

/-- **The line editor**: within its buffers it does what the reference editor does to a line with a
    cursor, for every input and every history. -/
theorem readLineRaw_edits {size : Nat} {history : History} {buf saved : Octets} {es : List Event}
    {d : LineState} (h_size : 0 < size) (h_max : size ≤ bpshLineBufsize)
    (h_buf : buf.length = size) (h_saved : saved.length = bpshLineBufsize)
    (h_run : Lts.run (step size history) (start history buf saved) es = some d) :
    Edits size history es d := by
  have h_takes : ∀ m, d.pc.mode = some m → d.pc ≠ .looking → ∀ r, ∃ d',
      step size history d (.read r) = some d' := by
    intro m h_mode h_ne r
    rw [step]
    cases h_pc : d.pc with
    | looking => exact absurd h_pc h_ne
    | reading => exact ⟨_, rfl⟩
    | escape => exact ⟨_, rfl⟩
    | bracket => exact ⟨_, rfl⟩
    | extended seq1 => exact ⟨_, rfl⟩
    | _ =>
      rw [h_pc] at h_mode
      cases h_mode
  have h_other : ∀ {pc : Pc}, d.pc = pc → pc ≠ .stray → d.pc ≠ .stray := fun h_pc h_ne h_stray =>
    h_ne (h_pc.symm.trans h_stray)
  cases run_tracks h_size h_max h_buf h_saved h_run with
  | starting h_pc _ _ h_room _ h_fields =>
    have h_cooked : ∀ {P : Prop}, d.raw = true → P := by
      intro P h_raw
      rw [h_fields.2.2.2] at h_raw
      cases h_raw
    exact ⟨h_other h_pc (by decide), h_cooked, h_cooked, h_cooked, h_cooked, h_takes,
      fun _ => ⟨h_room, fun h_at => by cases h_pc.symm.trans h_at⟩⟩
  | within h_mode h _ =>
    refine h.edits ?_ (fun ret h_at => ?_) h_takes
    · intro h_stray
      rw [h_stray] at h_mode
      cases h_mode
    · rw [h_at] at h_mode
      cases h_mode
  | leaving ret h_pc h _ =>
    refine h.edits ?_ (fun ret' h_at => by cases h_pc.symm.trans h_at) h_takes
    intro h_stray
    cases h_pc.symm.trans h_stray
  | returned ret h_pc h h_ret =>
    refine h.edits ?_ (fun ret' h_at => ?_) h_takes
    · intro h_stray
      cases h_pc.symm.trans h_stray
    · obtain rfl := Pc.returned.inj (h_pc.symm.trans h_at)
      exact h_ret
  | fallback h_pc h_raw h_room =>
    have h_cooked : ∀ {P : Prop}, d.raw = true → P := by
      intro P h_true
      rw [h_raw] at h_true
      cases h_true
    exact ⟨h_other h_pc (by decide), h_cooked, h_cooked, h_cooked, h_cooked, h_takes,
      fun _ => ⟨h_room, fun h_at => by cases h_pc.symm.trans h_at⟩⟩
  | plain ret h_pc h_raw h_room h_ret =>
    have h_cooked : ∀ {P : Prop}, d.raw = true → P := by
      intro P h_true
      rw [h_raw] at h_true
      cases h_true
    refine ⟨?_, h_cooked, h_cooked, h_cooked, h_cooked, h_takes, fun _ => ⟨h_room, fun h_at => ?_⟩⟩
    · intro h_stray
      cases h_pc.symm.trans h_stray
    · exact h_ret (Pc.returned.inj (h_pc.symm.trans h_at))

/-- After one command. -/
def historyLs : History := ⟨[[0x6c, 0x73]], by decide⟩

/-- `a`, Left, `b`, Enter. -/
def typedBa : List Event :=
  [.begin true, .look, .read (.octet 0x61), .look, .read (.octet 27), .read (.octet 0x5b),
    .read (.octet 0x44), .look, .read (.octet 0x62), .look, .read (.octet 0x0d), .leave]

/-- The line is `ba`, with the cursor before the `a`. -/
def returnedBa : LineState :=
  ⟨.returned 0, true, true, [0x62, 0x61, 0, 0xff, 0xff, 0xff, 0xff, 0xff], 2, 1, 1,
    List.replicate bpshLineBufsize 0xff⟩

theorem readLineRaw_edits_ba :
    Lts.run (step 8 historyLs) (start historyLs (List.replicate 8 0xff)
      (List.replicate bpshLineBufsize 0xff)) typedBa = some returnedBa ∧
      Edits 8 historyLs typedBa returnedBa := by
  have h_run : Lts.run (step 8 historyLs) (start historyLs (List.replicate 8 0xff)
      (List.replicate bpshLineBufsize 0xff)) typedBa = some returnedBa := rfl
  exact ⟨h_run, readLineRaw_edits (by decide) (by decide) List.length_replicate
    List.length_replicate h_run⟩

end IonContrib.Bpsh.Line
