/-
  IonContrib.Lib.Transport

  Octet streams as a transport hands them over and takes them.

  A stream is the list of what its reads meet: octets, a close, errors.  A read
  takes what is there, up to what it asks for, so where the octets are cut is
  up to the transport and to the reader both.  `arriving` forgets the cuts: it
  is what comes before the stream ends or fails.  `TakesSome` and `TakesAll`
  say in its terms what one read and a read of a whole piece come to.

  A sink is what has been put on the wire and the answers the transport will give;
  it takes as much of a write as it likes.  `Puts` says that what a writer puts
  on the wire is its data, or a front part of it when the writer fails, and
  `Sends` which answers it fails on.
-/
import IonContrib.Lib.Octets

namespace IonContrib

/-- What a read meets: at least one octet, a close, or an error. -/
inductive Arrival (ε : Type) where
  | octets (b : UInt8) (bs : Octets)
  | closed
  | error (e : ε)
  deriving DecidableEq, Repr

/-- What a read answers: `ret` is returned, `data` was put into the caller's memory. -/
structure Read (σ : Type) where
  ret : Int
  data : Octets
  rest : σ

def Read.map {σ τ : Type} (f : σ → τ) (r : Read σ) : Read τ := ⟨r.ret, r.data, f r.rest⟩

section Arriving

variable {ε : Type}

/-- One read of at most `cap` octets; 0 octets are a close. -/
def recvOnce (cap : Nat) : List (Arrival ε) → Except ε Octets × List (Arrival ε)
  | [] => (.ok [], [])
  | .closed :: w => (.ok [], w)
  | .error e :: w => (.error e, w)
  | .octets b bs :: w =>
    (.ok ((b :: bs).take cap),
      match (b :: bs).drop cap with
      | [] => w
      | b :: bs => .octets b bs :: w)

/-- A read that is made again after an error of a kind. -/
def recvRetry (retry closed : ε → Bool) (cap : Nat) :
    List (Arrival ε) → Read (List (Arrival ε))
  | [] => ⟨0, [], []⟩
  | a :: w =>
    match recvOnce cap (a :: w) with
    | (.ok data, rest) => ⟨data.length, data, rest⟩
    | (.error e, _) =>
      if retry e then recvRetry retry closed cap w
      else if closed e then ⟨0, [], w⟩
      else ⟨-1, [], w⟩

/-- What arrives before the stream ends or fails. -/
def arriving (retry : ε → Bool) : List (Arrival ε) → Octets
  | [] => []
  | .closed :: _ => []
  | .error e :: w => if retry e then arriving retry w else []
  | .octets b bs :: w => b :: bs ++ arriving retry w

end Arriving

section Takes

variable {σ : Type} (left : σ → Octets)

/-- Some octets off the front of what is left, or nothing is left. -/
def TakesSome (cap : Nat) (s : σ) (r : Read σ) : Prop :=
  (r.ret = r.data.length ∧ r.data ≠ [] ∧ r.data.length ≤ cap ∧
      left s = r.data ++ left r.rest) ∨
    (r.ret ≤ 0 ∧ left s = [])

/-- The next `len` octets of what is left, or there are not so many. -/
def TakesAll (len : Nat) (s : σ) (r : Read σ) : Prop :=
  (r.ret = len ∧ r.data.length = len ∧ left s = r.data ++ left r.rest) ∨
    (r.ret ≤ 0 ∧ (left s).length < len)

/-- Reading until `len` octets have been got.  Each round gets one at least, so `len` rounds
    are enough. -/
def recvRounds (recv : Nat → σ → Read σ) (len : Nat) : Nat → Octets → σ → Read σ
  | 0, got, s => ⟨got.length, got, s⟩
  | fuel + 1, got, s =>
    if got.length < len then
      let r := recv (len - got.length) s
      if r.ret ≤ 0 then ⟨r.ret, got, r.rest⟩
      else recvRounds recv len fuel (got ++ r.data) r.rest
    else ⟨got.length, got, s⟩

variable {left}

theorem TakesAll.ok {len : Nat} {s : σ} {r : Read σ} (h : TakesAll left len s r)
    (h_len : len ≤ (left s).length) :
    r.ret = len ∧ r.data = (left s).take len ∧ left r.rest = (left s).drop len := by
  rcases h with ⟨h_ret, h_data, h_left⟩ | ⟨-, h_short⟩
  · rw [h_left, ← h_data, List.take_left, List.drop_left, h_data]
    exact ⟨h_ret, rfl, rfl⟩
  · omega

theorem TakesAll.short {len : Nat} {s : σ} {r : Read σ} (h : TakesAll left len s r)
    (h_len : (left s).length < len) : r.ret ≤ 0 := by
  rcases h with ⟨-, h_data, h_left⟩ | ⟨h_ret, -⟩
  · rw [h_left, List.length_append] at h_len
    omega
  · exact h_ret

theorem TakesSome.eq_nil {cap : Nat} {s : σ} {r : Read σ} (h : TakesSome left cap s r)
    (h_ret : r.ret ≤ 0) : left s = [] := by
  rcases h with ⟨h_eq, h_data, -⟩ | ⟨-, h_nil⟩
  · have h_pos : 0 < r.data.length := List.length_pos_of_ne_nil h_data
    omega
  · exact h_nil

theorem TakesSome.pos {cap : Nat} {s : σ} {r : Read σ} (h : TakesSome left cap s r)
    (h_ret : ¬ r.ret ≤ 0) :
    r.ret = r.data.length ∧ 0 < r.data.length ∧ r.data.length ≤ cap ∧
      left s = r.data ++ left r.rest := by
  rcases h with ⟨h_eq, h_data, h_cap, h_left⟩ | ⟨h_le, -⟩
  · exact ⟨h_eq, List.length_pos_of_ne_nil h_data, h_cap, h_left⟩
  · exact absurd h_le h_ret

variable {recv : Nat → σ → Read σ}

/-- What the rounds add to what has been got. -/
theorem recvRounds_takes (h_recv : ∀ cap s, 0 < cap → TakesSome left cap s (recv cap s))
    {len fuel : Nat} (got : Octets) (s : σ) (h_got : got.length ≤ len)
    (h_fuel : len ≤ got.length + fuel) :
    ((recvRounds recv len fuel got s).ret = len ∧
        ∃ more, (recvRounds recv len fuel got s).data = got ++ more ∧
          got.length + more.length = len ∧
          left s = more ++ left (recvRounds recv len fuel got s).rest) ∨
      ((recvRounds recv len fuel got s).ret ≤ 0 ∧ got.length + (left s).length < len) := by
  induction fuel generalizing got s with
  | zero =>
    refine .inl ⟨?_, [], (List.append_nil _).symm, ?_, rfl⟩
    · show (got.length : Int) = len
      omega
    · show got.length + 0 = len
      omega
  | succ fuel ih =>
    rw [recvRounds]
    by_cases h_less : got.length < len
    · rw [if_pos h_less]
      have h_some := h_recv (len - got.length) s (by omega)
      by_cases h_ret : (recv (len - got.length) s).ret ≤ 0
      · simp only [if_pos h_ret]
        exact .inr ⟨h_ret, by rw [h_some.eq_nil h_ret]; exact h_less⟩
      · simp only [if_neg h_ret]
        obtain ⟨-, h_pos, h_cap, h_left⟩ := h_some.pos h_ret
        have h_next := ih (got ++ (recv (len - got.length) s).data)
          (recv (len - got.length) s).rest
          (by rw [List.length_append]; omega) (by rw [List.length_append]; omega)
        rw [List.length_append] at h_next
        rcases h_next with ⟨h_eq, more, h_data, h_len, h_rest⟩ | ⟨h_eq, h_len⟩
        · refine .inl ⟨h_eq, (recv (len - got.length) s).data ++ more, ?_, ?_, ?_⟩
          · rw [h_data, List.append_assoc]
          · rw [List.length_append]
            omega
          · rw [h_left, List.append_assoc, ← h_rest]
        · refine .inr ⟨h_eq, ?_⟩
          rw [h_left, List.length_append]
          omega
    · rw [if_neg h_less]
      refine .inl ⟨?_, [], (List.append_nil _).symm, ?_, rfl⟩
      · show (got.length : Int) = len
        omega
      · show got.length + 0 = len
        omega

/-- **A piece read in rounds is read whole**, if each round takes some of it. -/
theorem takesAll_recvRounds (h_recv : ∀ cap s, 0 < cap → TakesSome left cap s (recv cap s))
    (len : Nat) (s : σ) : TakesAll left len s (recvRounds recv len len [] s) := by
  have h_rounds := recvRounds_takes h_recv [] s (Nat.zero_le len) (Nat.le_add_left len 0)
  rcases h_rounds with ⟨h_ret, more, h_data, h_len, h_left⟩ | ⟨h_ret, h_len⟩
  · rw [List.length_nil, Nat.zero_add] at h_len
    rw [List.nil_append] at h_data
    exact .inl ⟨h_ret, by rw [h_data, h_len], by rw [h_data]; exact h_left⟩
  · rw [List.length_nil, Nat.zero_add] at h_len
    exact .inr ⟨h_ret, h_len⟩

end Takes

/-! ## One read of a stream -/

section Arriving

variable {ε : Type} (retry : ε → Bool)

/-- Octets that are read are the first that arrive. -/
theorem arriving_octets (cap : Nat) (b : UInt8) (bs : Octets) (w : List (Arrival ε)) :
    arriving retry (.octets b bs :: w) =
      (b :: bs).take cap ++
        arriving retry (match (b :: bs).drop cap with
          | [] => w
          | b :: bs => .octets b bs :: w) := by
  have h_cut := List.take_append_drop cap (b :: bs)
  rw [arriving]
  cases h_drop : (b :: bs).drop cap with
  | nil =>
    rw [h_drop, List.append_nil] at h_cut
    rw [h_cut]
  | cons b' bs' =>
    rw [h_drop] at h_cut
    rw [arriving, ← List.append_assoc, h_cut]

theorem takesSome_recvRetry (closed : ε → Bool) {cap : Nat} (h_cap : 0 < cap)
    (w : List (Arrival ε)) : TakesSome (arriving retry) cap w (recvRetry retry closed cap w) := by
  induction w with
  | nil => exact .inr ⟨Int.le_refl 0, rfl⟩
  | cons a w ih =>
    cases a with
    | octets b bs =>
      refine .inl ⟨rfl, ?_, List.length_take_le _ _, arriving_octets retry cap b bs w⟩
      obtain ⟨n, rfl⟩ : ∃ n, cap = n + 1 := ⟨cap - 1, by omega⟩
      exact List.cons_ne_nil b (bs.take n)
    | closed => exact .inr ⟨Int.le_refl 0, rfl⟩
    | error e =>
      rw [recvRetry, recvOnce, TakesSome, arriving]
      by_cases h_retry : retry e = true
      · simp only [if_pos h_retry]
        exact ih
      · simp only [if_neg h_retry]
        refine .inr ⟨?_, trivial⟩
        by_cases h_closed : closed e = true
        · rw [if_pos h_closed]
        · rw [if_neg h_closed]
          show (-1 : Int) ≤ 0
          omega

end Arriving

/-! ## Writing -/

/-- What a transport makes of a write: it takes at most `k + 1` octets, or none, or fails. -/
inductive Accept (ε : Type) where
  | octets (k : Nat)
  | nothing
  | error (e : ε)
  deriving DecidableEq, Repr

/-- `answers` is for the writes to come; after them each write is taken whole. -/
structure Sink (ε : Type) where
  wire : Octets
  answers : List (Accept ε)
  deriving DecidableEq, Repr

section Sink

variable {ε : Type}

/-- One write, and how many octets of it were taken. -/
def Sink.write (data : Octets) (s : Sink ε) : Except ε Nat × Sink ε :=
  match s.answers with
  | [] => (.ok data.length, ⟨s.wire ++ data, []⟩)
  | .octets k :: answers =>
    (.ok (data.take (k + 1)).length, ⟨s.wire ++ data.take (k + 1), answers⟩)
  | .nothing :: answers => (.ok 0, ⟨s.wire, answers⟩)
  | .error e :: answers => (.error e, ⟨s.wire, answers⟩)

/-- Everything that one write can come to.  The transport has given an answer, or it takes it
    whole. -/
theorem Sink.write_cases (data : Octets) (s : Sink ε) :
    (∃ n, n ≤ data.length ∧ s.write data = (.ok n, ⟨s.wire ++ data.take n, s.answers.tail⟩) ∧
        (s.answers = [] → n = data.length) ∧
        (n = 0 → data = [] ∨ ∃ answers, s.answers = .nothing :: answers)) ∨
      ∃ e answers, s.answers = .error e :: answers ∧
        s.write data = (.error e, ⟨s.wire, answers⟩) := by
  obtain ⟨wire, answers⟩ := s
  cases answers with
  | nil =>
    refine .inl ⟨data.length, Nat.le_refl _, ?_, fun _ => rfl, fun h => ?_⟩
    · rw [List.take_length]
      rfl
    · exact .inl (List.eq_nil_of_length_eq_zero h)
  | cons a answers =>
    cases a with
    | octets k =>
      refine .inl ⟨(data.take (k + 1)).length, ?_, ?_, fun h => ?_, fun h => ?_⟩
      · rw [List.length_take]
        exact Nat.min_le_right _ _
      · have h_take : data.take (min (k + 1) data.length) = data.take (k + 1) := by
          rw [← List.take_take, List.take_length]
        rw [List.length_take, h_take, ← List.length_take]
        rfl
      · cases h
      · rw [List.length_take] at h
        exact .inl (List.eq_nil_of_length_eq_zero (by omega))
    | nothing =>
      refine .inl ⟨0, Nat.zero_le _, ?_, fun h => ?_, fun _ => .inr ⟨answers, rfl⟩⟩
      · rw [List.take_zero, List.append_nil]
        rfl
      · cases h
    | error e => exact .inr ⟨e, answers, rfl, rfl⟩

/-- A writer was given `data` and returned `ok`. -/
structure Puts (data wire : Octets) (ok : Bool) (wire' : Octets) : Prop where
  grows : wire <+: wire'
  within : wire' <+: wire ++ data
  whole : ok = true → wire' = wire ++ data

/-- What was put on the wire is a front part of the data. -/
theorem Puts.sent {data wire wire' : Octets} {ok : Bool} (h : Puts data wire ok wire') :
    ∃ sent, wire' = wire ++ sent ∧ sent <+: data ∧ (ok = true → sent = data) := by
  obtain ⟨sent, rfl⟩ := h.grows
  exact ⟨sent, rfl, (List.prefix_append_right_inj _).mp h.within,
    fun h_ok => List.append_cancel_left (h.whole h_ok)⟩

/-- `fatal` are the answers that the writer gives up on. -/
structure Sends (fatal : Accept ε → Bool) (data : Octets) (s : Sink ε) (ok : Bool) (s' : Sink ε) :
    Prop extends Puts data s.wire ok s'.wire where
  answers : s'.answers <:+ s.answers
  willing : (∀ a ∈ s.answers, fatal a = false) → ok = true

variable {fatal : Accept ε → Bool} {data more : Octets} {s s' s'' : Sink ε} {ok : Bool}

/-- Nothing is left to send. -/
theorem Sends.nil (s : Sink ε) : Sends fatal [] s true s where
  grows := List.prefix_rfl
  within := List.prefix_append _ _
  whole := fun _ => (List.append_nil _).symm
  answers := List.suffix_rfl
  willing := fun _ => rfl

/-- Sending on after what was taken of the data. -/
theorem Sends.step (h : Sends fatal more s' ok s'') (h_wire : s'.wire = s.wire ++ data)
    (h_answers : s'.answers <:+ s.answers) : Sends fatal (data ++ more) s ok s'' where
  grows := ⟨data ++ h.grows.choose, by rw [← List.append_assoc, ← h_wire, h.grows.choose_spec]⟩
  within := by
    rw [← List.append_assoc, ← h_wire]
    exact h.within
  whole := by
    rw [← List.append_assoc, ← h_wire]
    exact h.whole
  answers := h.answers.trans h_answers
  willing := fun h_all => h.willing fun a h_a => h_all a (h_answers.subset h_a)

/-- Sending again what was not taken. -/
theorem Sends.again {answers : List (Accept ε)} (h : Sends fatal data ⟨s.wire, answers⟩ ok s')
    (h_answers : answers <:+ s.answers) : Sends fatal data s ok s' := by
  have h_step : Sends fatal ([] ++ data) s ok s' := h.step (List.append_nil _).symm h_answers
  exact h_step

/-- The transport failed before anything more was taken. -/
theorem Sends.failed (h_wire : s'.wire = s.wire) (h_answers : s'.answers <:+ s.answers)
    (h_fatal : ∃ a ∈ s.answers, fatal a = true) : Sends fatal data s false s' where
  grows := h_wire ▸ List.prefix_rfl
  within := by
    rw [h_wire]
    exact List.prefix_append _ _
  whole := fun h => by cases h
  answers := h_answers
  willing := fun h_all => by
    obtain ⟨a, h_a, h_true⟩ := h_fatal
    rw [h_all a h_a] at h_true
    cases h_true

end Sink

end IonContrib
