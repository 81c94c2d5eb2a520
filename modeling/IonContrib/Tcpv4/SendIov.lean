/-
  IonContrib.Tcpv4.SendIov

  Gathered writing (`tcpv4ConnSendIov`), over a plain socket and through the
  cork buffer of the Mbed TLS backend.

  Over a socket the list of buffers is advanced past what each `writev` took.
  Through TLS the buffers are collected and written out by what the cork buffer
  holds; what is on the wire and what is in the buffer are together what has
  been handed over (`Gathers`), until a write fails.
-/
import IonContrib.Tcpv4.Codec
import IonContrib.Tcpv4.Io
import IonContrib.Tcpv4.Term

namespace IonContrib.Tcpv4.Io

open Octets

/-- A length that is stored into an `int`. -/
def castInt (n : Nat) : Int := (n : Int).bmod (2 ^ 32)

def sizeMod : Nat := 2 ^ 64

def intMax : Nat := 2 ^ 31 - 1

/-! ## A socket -/

/-- Drops the octets already sent; `none` when no buffer is left. -/
def advance : Nat → List Octets → Option (List Octets)
  | _, [] => none
  | sent, b :: iov =>
    if 0 < sent ∧ b.length ≤ sent then
      if iov = [] then none else advance (sent - b.length) iov
    else if 0 < sent then some (b.drop sent :: iov)
    else some (b :: iov)

/-- The loop around `writev`; `remaining` is a `size_t`. -/
def writevLoop : Nat → Nat → List Octets → Sink Errno → Option (Int × Sink Errno)
  | 0, _, _, _ => none
  | fuel + 1, remaining, iov, s =>
    if remaining = 0 then some (0, s)
    else
      match s.write iov.flatten with
      | (.error .eintr, s) => writevLoop fuel remaining iov s
      | (.error _, s) => some (-1, s)
      | (.ok sent, s) =>
        let remaining := (remaining + sizeMod - sent) % sizeMod
        if remaining = 0 then some (0, s)
        else
          match advance sent iov with
          | none => some (0, s)
          | some iov => writevLoop fuel remaining iov s

/-- Each round takes an answer, the first one without takes the rest. -/
def rounds {ε : Type} (s : Sink ε) : Nat := s.answers.length + 2

/-! ## The cork buffer -/

/-- What `mbedtls_ssl_write` fails with. -/
inductive MbedWriteError where
  | wantRead
  | wantWrite
  | other
  deriving DecidableEq, Repr

def writeAll : Nat → Octets → Sink MbedWriteError → Option (Int × Sink MbedWriteError)
  | 0, _, _ => none
  | fuel + 1, data, s =>
    if data = [] then some (0, s)
    else
      match s.write data with
      | (.ok n, s) => if 0 < n then writeAll fuel (data.drop n) s else some (-1, s)
      | (.error .wantRead, s) => writeAll fuel data s
      | (.error .wantWrite, s) => writeAll fuel data s
      | (.error .other, s) => some (-1, s)

structure TlsConn where
  ssl : Sink MbedWriteError
  corked : Bool
  corkLen : Nat
  corkBuf : Octets
  deriving DecidableEq, Repr

def flushCork (c : TlsConn) : Option (Int × TlsConn) :=
  if c.corkLen = 0 then some (0, c)
  else
    (writeAll (rounds c.ssl) (c.corkBuf.take c.corkLen) c.ssl).map fun (rc, ssl) =>
      (rc, { c with corkLen := 0, ssl := ssl })

/-- The loop of a corked `tcpv4TlsSend`; `data` is what is left of it.  `bufsz` is
    `TCPV4_TLS_CORK_BUFSZ`. -/
def corkLoop (bufsz : Nat) (len : Int) : Nat → Octets → TlsConn → Option (Int × TlsConn)
  | 0, _, _ => none
  | fuel + 1, data, c =>
    if data = [] then some (len, c)
    else
      (if bufsz - c.corkLen = 0 then flushCork c else some (0, c)).bind fun (rc, c) =>
        if rc < 0 then some (-1, c)
        else
          let room := bufsz - c.corkLen
          let take := if data.length < room then data.length else room
          corkLoop bufsz len fuel (data.drop take)
            { c with
              corkBuf := splice c.corkBuf c.corkLen (data.take take)
              corkLen := c.corkLen + take }

def tcpv4TlsSend (bufsz : Nat) (data : Octets) (len : Int) (c : TlsConn) :
    Option (Int × TlsConn) :=
  if len < 0 then some (-1, c)
  else
    let from_ := data.take len.toNat
    if !c.corked then
      (writeAll (rounds c.ssl) from_ c.ssl).map fun (rc, ssl) =>
        (if rc < 0 then -1 else len, { c with ssl := ssl })
    else corkLoop bufsz len (from_.length + 1) from_ c

def tcpv4TlsCork (c : TlsConn) : TlsConn := { c with corked := true }

def tcpv4TlsUncork (c : TlsConn) : Option (Int × TlsConn) := flushCork { c with corked := false }

/-! ## Sending -/

inductive SendConn where
  | plain (sock : Sink Errno)
  | tls (c : TlsConn)

/-- The buffers are sent one by one, the empty ones are passed over. -/
def sendCorked (bufsz : Nat) : List Octets → TlsConn → Option (Int × TlsConn)
  | [], c => some (0, c)
  | b :: iov, c =>
    if b.length = 0 then sendCorked bufsz iov c
    else
      (tcpv4TlsSend bufsz b (castInt b.length) c).bind fun (rc, c) =>
        if rc ≠ castInt b.length then some (-1, c) else sendCorked bufsz iov c

def tcpv4ConnSendIov (bufsz : Nat) (iov : List Octets) (conn : SendConn) :
    Option (Int × SendConn) :=
  if iov.length < 1 then some (0, conn)
  else
    match conn with
    | .tls c =>
      (sendCorked bufsz iov (tcpv4TlsCork c)).bind fun (result, c) =>
        (tcpv4TlsUncork c).map fun (rc, c) => (if rc < 0 then -1 else result, .tls c)
    | .plain s =>
      (writevLoop (rounds s) ((iov.map List.length).sum % sizeMod) iov s).map fun (rc, s) =>
        (rc, .plain s)

/-! ## What a writer puts on the wire -/

/-- What makes `writeAll` give up. -/
def mbedFatal : Accept MbedWriteError → Bool
  | .nothing => true
  | .error e => e = .other
  | .octets _ => false

/-- What makes the loop around `writev` give up. -/
def sockFatal : Accept Errno → Bool
  | .error e => e ≠ .eintr
  | _ => false

/-- `0` or `-1`. -/
def returned (ok : Bool) : Int := if ok then 0 else -1

/-- By induction on the rounds: each has taken an answer, or all the rest. -/
theorem writeAll_sends {fuel : Nat} (data : Octets) (s : Sink MbedWriteError)
    (h_fuel : s.answers.length + 2 ≤ fuel) :
    ∃ ok s', writeAll fuel data s = some (returned ok, s') ∧ Sends mbedFatal data s ok s' := by
  induction fuel generalizing data s with
  | zero => omega
  | succ fuel ih =>
    rw [writeAll]
    by_cases h_nil : data = []
    · rw [if_pos h_nil, h_nil]
      exact ⟨true, s, rfl, Sends.nil s⟩
    rw [if_neg h_nil]
    rcases s.write_cases data with ⟨n, h_n, h_write, h_all, h_zero⟩ | ⟨e, answers, h_answers, h_write⟩
    · rw [h_write]
      simp only
      by_cases h_pos : 0 < n
      · rw [if_pos h_pos]
        have h_step : ∀ ok s', Sends mbedFatal (data.drop n) ⟨s.wire ++ data.take n, s.answers.tail⟩
            ok s' → Sends mbedFatal data s ok s' := by
          intro ok s' h_rest
          have h_data := h_rest.step (s := s) rfl (List.tail_suffix _)
          rwa [List.take_append_drop] at h_data
        by_cases h_none : s.answers = []
        · -- All of it was taken, and the next round finds nothing left.
          have h_left : data.drop n = [] := List.drop_eq_nil_of_le (by rw [h_all h_none])
          obtain ⟨fuel, rfl⟩ : ∃ k, fuel = k + 1 := ⟨fuel - 1, by omega⟩
          refine ⟨true, ⟨s.wire ++ data.take n, s.answers.tail⟩, ?_, h_step _ _ ?_⟩
          · rw [writeAll, if_pos h_left]
            rfl
          · rw [h_left]
            exact Sends.nil _
        · have h_pop : s.answers.tail.length + 1 = s.answers.length := by
            rw [List.length_tail]
            have h_some := List.length_pos_of_ne_nil h_none
            omega
          obtain ⟨ok, s', h_loop, h_rest⟩ := ih (data.drop n)
            ⟨s.wire ++ data.take n, s.answers.tail⟩ (by simp only; omega)
          exact ⟨ok, s', h_loop, h_step ok s' h_rest⟩
      · rw [if_neg h_pos]
        obtain rfl : n = 0 := by omega
        rcases h_zero rfl with h | ⟨answers, h_answers⟩
        · exact absurd h h_nil
        · refine ⟨false, _, rfl, Sends.failed ?_ (List.tail_suffix _) ?_⟩
          · show s.wire ++ data.take 0 = s.wire
            rw [List.take_zero, List.append_nil]
          · exact ⟨.nothing, by rw [h_answers]; exact List.mem_cons_self, rfl⟩
    · rw [h_write]
      have h_tail : answers <:+ s.answers := by
        rw [h_answers]
        exact List.suffix_cons _ _
      rw [h_answers, List.length_cons] at h_fuel
      have h_again := ih data ⟨s.wire, answers⟩ (by simp only; omega)
      obtain ⟨ok, s', h_loop, h_rest⟩ := h_again
      have h_step := h_rest.again h_tail
      cases e with
      | wantRead => exact ⟨ok, s', h_loop, h_step⟩
      | wantWrite => exact ⟨ok, s', h_loop, h_step⟩
      | other =>
        refine ⟨false, _, rfl, Sends.failed rfl h_tail ⟨.error .other, ?_, rfl⟩⟩
        rw [h_answers]
        exact List.mem_cons_self

/-! ## The cork buffer -/

/-- What the cork buffer holds. -/
def TlsConn.pending (c : TlsConn) : Octets := c.corkBuf.take c.corkLen

/-- What has been handed over, on the wire or not yet. -/
def TlsConn.given (c : TlsConn) : Octets := c.ssl.wire ++ c.pending

structure TlsConn.Ok (bufsz : Nat) (c : TlsConn) : Prop where
  size : c.corkBuf.length = bufsz
  len : c.corkLen ≤ bufsz

/-- A call was handed `data` and returned `ok`.  A failed one leaves nothing in the buffer. -/
structure Gathers (bufsz : Nat) (data : Octets) (c : TlsConn) (ok : Bool) (c' : TlsConn) :
    Prop where
  keeps : c'.Ok bufsz
  corked : c'.corked = c.corked
  grows : c.ssl.wire <+: c'.ssl.wire
  within : c'.given <+: c.given ++ data
  whole : ok = true → c'.given = c.given ++ data
  empty : ok = false → c'.corkLen = 0
  answers : c'.ssl.answers <:+ c.ssl.answers
  willing : (∀ a ∈ c.ssl.answers, mbedFatal a = false) → ok = true

section

variable {bufsz : Nat} {data more : Octets} {c c' c'' : TlsConn} {ok : Bool}

theorem pending_nil (h : c.corkLen = 0) : c.pending = [] := by
  rw [TlsConn.pending, h, List.take_zero]

theorem Gathers.nil (h : c.Ok bufsz) : Gathers bufsz [] c true c where
  keeps := h
  corked := rfl
  grows := List.prefix_rfl
  within := List.prefix_append _ _
  whole := fun _ => (List.append_nil _).symm
  empty := fun h => by cases h
  answers := List.suffix_rfl
  willing := fun _ => rfl

theorem Gathers.step (h : Gathers bufsz data c true c') (h_more : Gathers bufsz more c' ok c'') :
    Gathers bufsz (data ++ more) c ok c'' where
  keeps := h_more.keeps
  corked := h_more.corked.trans h.corked
  grows := h.grows.trans h_more.grows
  within := by
    rw [← List.append_assoc, ← h.whole rfl]
    exact h_more.within
  whole := by
    rw [← List.append_assoc, ← h.whole rfl]
    exact h_more.whole
  empty := h_more.empty
  answers := h_more.answers.trans h.answers
  willing := fun h_all => h_more.willing fun a h_a => h_all a (h.answers.subset h_a)

/-- After a failure nothing more is sent. -/
theorem Gathers.failed (h : Gathers bufsz data c false c') (more : Octets) :
    Gathers bufsz (data ++ more) c false c' where
  keeps := h.keeps
  corked := h.corked
  grows := h.grows
  within := by
    rw [← List.append_assoc]
    exact h.within.trans (List.prefix_append _ _)
  whole := fun h => by cases h
  empty := h.empty
  answers := h.answers
  willing := h.willing

theorem flushCork_gathers (h_c : c.Ok bufsz) :
    ∃ ok c', flushCork c = some (returned ok, c') ∧ Gathers bufsz [] c ok c' ∧ c'.corkLen = 0 := by
  rw [flushCork]
  by_cases h_len : c.corkLen = 0
  · rw [if_pos h_len]
    exact ⟨true, c, rfl, Gathers.nil h_c, h_len⟩
  · rw [if_neg h_len]
    obtain ⟨ok, ssl, h_write, h_sends⟩ :=
      writeAll_sends c.pending c.ssl (Nat.le_refl (rounds c.ssl))
    obtain ⟨c', h_c'⟩ : ∃ c', c' = { c with corkLen := 0, ssl := ssl } := ⟨_, rfl⟩
    have h_given : c'.given = ssl.wire := by
      rw [TlsConn.given, pending_nil (by rw [h_c']), List.append_nil, h_c']
    refine ⟨ok, c', ?_, ⟨?_, ?_, ?_, ?_, ?_, fun _ => ?_, ?_, ?_⟩, ?_⟩
    · rw [← TlsConn.pending, h_write, h_c']
      rfl
    · rw [h_c']
      exact ⟨h_c.size, Nat.zero_le _⟩
    · rw [h_c']
    · rw [h_c']
      exact h_sends.grows
    · rw [h_given, List.append_nil]
      exact h_sends.within
    · rw [h_given, List.append_nil]
      exact h_sends.whole
    · rw [h_c']
    · rw [h_c']
      exact h_sends.answers
    · exact h_sends.willing
    · rw [h_c']

/-- A piece that the buffer has room for. -/
theorem Gathers.splice (h_c : c.Ok bufsz) (piece : Octets) (h_room : c.corkLen + piece.length ≤ bufsz) :
    Gathers bufsz piece c true
      { c with corkBuf := splice c.corkBuf c.corkLen piece, corkLen := c.corkLen + piece.length } := by
  have h_fits : c.corkLen + piece.length ≤ c.corkBuf.length := by
    rw [h_c.size]
    exact h_room
  have h_given : TlsConn.given { c with
      corkBuf := Octets.splice c.corkBuf c.corkLen piece, corkLen := c.corkLen + piece.length } =
      c.given ++ piece := by
    rw [TlsConn.given, TlsConn.pending, take_splice h_fits, TlsConn.given, TlsConn.pending,
      List.append_assoc]
  refine ⟨⟨?_, h_room⟩, rfl, List.prefix_rfl, ?_, fun _ => h_given, fun h => ?_,
    List.suffix_rfl, fun _ => rfl⟩
  · rw [length_splice h_fits, h_c.size]
  · exact h_given ▸ List.prefix_rfl
  · cases h

/-- By induction on the rounds, each of which puts at least an octet into the buffer. -/
theorem corkLoop_gathers (h_bufsz : 0 < bufsz) {len : Int} {fuel : Nat} (data : Octets)
    (h_fuel : data.length < fuel) (h_c : c.Ok bufsz) :
    ∃ ok c', corkLoop bufsz len fuel data c = some (if ok then len else -1, c') ∧
      Gathers bufsz data c ok c' := by
  induction fuel generalizing data c with
  | zero => omega
  | succ fuel ih =>
    rw [corkLoop]
    by_cases h_nil : data = []
    · rw [if_pos h_nil, h_nil]
      exact ⟨true, c, rfl, Gathers.nil h_c⟩
    rw [if_neg h_nil]
    have h_pos : 0 < data.length := List.length_pos_of_ne_nil h_nil
    -- The buffer is written out first if it is full.
    obtain ⟨ok₁, c₁, h_first, h_gathers, h_room⟩ : ∃ ok₁ c₁,
        (if bufsz - c.corkLen = 0 then flushCork c else some (0, c)) =
          some (returned ok₁, c₁) ∧
        Gathers bufsz [] c ok₁ c₁ ∧ (ok₁ = true → c₁.corkLen < bufsz) := by
      by_cases h_full : bufsz - c.corkLen = 0
      · rw [if_pos h_full]
        obtain ⟨ok₁, c₁, h_flush, h_gathers, h_zero⟩ := flushCork_gathers h_c
        exact ⟨ok₁, c₁, h_flush, h_gathers, fun _ => by omega⟩
      · rw [if_neg h_full]
        exact ⟨true, c, rfl, Gathers.nil h_c, fun _ => by omega⟩
    rw [h_first, Option.bind_some]
    cases ok₁ with
    | false => exact ⟨false, c₁, rfl, h_gathers.failed data⟩
    | true =>
      simp only [returned]
      have h_free := h_room rfl
      rw [if_neg (by decide)]
      obtain ⟨take, h_take⟩ : ∃ take, take =
        if data.length < bufsz - c₁.corkLen then data.length else bufsz - c₁.corkLen := ⟨_, rfl⟩
      rw [← h_take]
      have h_le : 0 < take ∧ take ≤ data.length ∧ c₁.corkLen + take ≤ bufsz := by
        rw [h_take]
        split <;> omega
      have h_piece : (data.take take).length = take := List.length_take_of_le h_le.2.1
      have h_splice := Gathers.splice h_gathers.keeps (data.take take)
        (by rw [h_piece]; exact h_le.2.2)
      rw [h_piece] at h_splice
      obtain ⟨ok, c', h_loop, h_rest⟩ := ih (data.drop take)
        (by rw [List.length_drop]; omega) h_splice.keeps
      have h_all := h_gathers.step (h_splice.step h_rest)
      rw [List.take_append_drop, List.nil_append] at h_all
      exact ⟨ok, c', h_loop, h_all⟩

/-! ## A list of buffers -/

/-- The lengths of an `iov` are stored from `int`s, and there is an `int` of them. -/
structure IovOk (iov : List Octets) : Prop where
  count : iov.length ≤ intMax
  len : ∀ b ∈ iov, b.length ≤ intMax

theorem IovOk.tail {b : Octets} {iov : List Octets} (h : IovOk (b :: iov)) : IovOk iov where
  count := by
    have h_count := h.count
    rw [List.length_cons] at h_count
    omega
  len := fun b' h_b => h.len b' (List.mem_cons_of_mem _ h_b)

theorem castInt_eq {n : Nat} (h : n ≤ intMax) : castInt n = n := by
  have h_max : intMax = 2147483647 := by decide
  rw [h_max] at h
  exact Int.bmod_eq_of_le (by norm_num <;> omega) (by norm_num <;> omega)

theorem tcpv4TlsSend_corked (h_bufsz : 0 < bufsz) (h_c : c.Ok bufsz) (h_corked : c.corked = true)
    (h_data : data.length ≤ intMax) :
    ∃ ok c', tcpv4TlsSend bufsz data (castInt data.length) c =
        some (if ok then (data.length : Int) else -1, c') ∧ Gathers bufsz data c ok c' := by
  rw [tcpv4TlsSend, castInt_eq h_data, if_neg (by omega)]
  simp only [h_corked, Bool.not_true, Bool.false_eq_true, if_false, Int.toNat_natCast,
    List.take_length]
  exact corkLoop_gathers h_bufsz data (Nat.lt_succ_self _) h_c

theorem sendCorked_gathers (h_bufsz : 0 < bufsz) {iov : List Octets} (h_iov : IovOk iov)
    (h_c : c.Ok bufsz) (h_corked : c.corked = true) :
    ∃ ok c', sendCorked bufsz iov c = some (returned ok, c') ∧
      Gathers bufsz iov.flatten c ok c' := by
  induction iov generalizing c with
  | nil => exact ⟨true, c, rfl, Gathers.nil h_c⟩
  | cons b iov ih =>
    rw [sendCorked, List.flatten_cons]
    by_cases h_empty : b.length = 0
    · rw [if_pos h_empty, List.eq_nil_of_length_eq_zero h_empty, List.nil_append]
      exact ih h_iov.tail h_c h_corked
    rw [if_neg h_empty]
    have h_len := h_iov.len b List.mem_cons_self
    obtain ⟨ok, c₁, h_send, h_gathers⟩ := tcpv4TlsSend_corked h_bufsz h_c h_corked h_len
    rw [h_send, Option.bind_some, castInt_eq h_len]
    cases ok with
    | false =>
      refine ⟨false, c₁, if_pos ?_, h_gathers.failed _⟩
      show (-1 : Int) ≠ b.length
      omega
    | true =>
      obtain ⟨ok, c', h_rest, h_more⟩ := ih h_iov.tail h_gathers.keeps
        (h_gathers.corked.trans h_corked)
      simp only [if_true, ne_eq, not_true_eq_false, if_false]
      exact ⟨ok, c', h_rest, h_gathers.step h_more⟩

/-- `advance` drops what was sent, and comes to the end of the list only with it. -/
theorem advance_spec (sent : Nat) {iov : List Octets} (h_iov : iov ≠ [])
    (h_sent : sent ≤ iov.flatten.length) :
    match advance sent iov with
    | none => sent = iov.flatten.length
    | some iov' => iov'.flatten = iov.flatten.drop sent ∧ iov' ≠ [] := by
  induction iov generalizing sent with
  | nil => exact absurd rfl h_iov
  | cons b iov ih =>
    rw [advance]
    rw [List.flatten_cons, List.length_append] at *
    by_cases h_whole : 0 < sent ∧ b.length ≤ sent
    · rw [if_pos h_whole]
      by_cases h_last : iov = []
      · subst h_last
        rw [if_pos rfl]
        rw [List.flatten_nil, List.length_nil] at h_sent ⊢
        show sent = b.length + 0
        omega
      · rw [if_neg h_last]
        have h_rest := ih (sent - b.length) h_last (by omega)
        have h_drop : (b ++ iov.flatten).drop sent = iov.flatten.drop (sent - b.length) := by
          rw [List.drop_append, List.drop_eq_nil_of_le h_whole.2, List.nil_append]
        cases h_adv : advance (sent - b.length) iov with
        | none =>
          rw [h_adv] at h_rest
          simp only at h_rest ⊢
          omega
        | some iov' =>
          rw [h_adv] at h_rest
          simp only at h_rest ⊢
          rw [h_drop]
          exact h_rest
    · rw [if_neg h_whole]
      by_cases h_pos : 0 < sent
      · rw [if_pos h_pos]
        refine ⟨?_, List.cons_ne_nil _ _⟩
        rw [List.flatten_cons, List.drop_append_of_le_length (by omega)]
      · rw [if_neg h_pos]
        obtain rfl : sent = 0 := by omega
        exact ⟨rfl, List.cons_ne_nil _ _⟩

theorem flatten_le {iov : List Octets} (h : ∀ b ∈ iov, b.length ≤ intMax) :
    iov.flatten.length ≤ iov.length * intMax := by
  induction iov with
  | nil => exact Nat.zero_le _
  | cons b iov ih =>
    have h_b := h b List.mem_cons_self
    have h_rest := ih fun b' h_b => h b' (List.mem_cons_of_mem _ h_b)
    rw [List.flatten_cons, List.length_append, List.length_cons, Nat.succ_mul]
    omega

/-- The `size_t` that counts the octets does not wrap. -/
theorem IovOk.flatten_lt {iov : List Octets} (h : IovOk iov) : iov.flatten.length < sizeMod := by
  calc iov.flatten.length ≤ iov.length * intMax := flatten_le h.len
    _ ≤ intMax * intMax := Nat.mul_le_mul_right _ h.count
    _ < sizeMod := by decide

/-- By induction on the rounds.  `remaining` counts what the buffers still hold. -/
theorem writevLoop_sends {fuel : Nat} {iov : List Octets} (s : Sink Errno) (h_iov : iov ≠ [])
    (h_size : iov.flatten.length < sizeMod) (h_fuel : s.answers.length + 2 ≤ fuel) :
    ∃ ok s', writevLoop fuel iov.flatten.length iov s = some (returned ok, s') ∧
      Sends sockFatal iov.flatten s ok s' := by
  induction fuel generalizing iov s with
  | zero => omega
  | succ fuel ih =>
    rw [writevLoop]
    by_cases h_nil : iov.flatten.length = 0
    · rw [if_pos h_nil, List.eq_nil_of_length_eq_zero h_nil]
      exact ⟨true, s, rfl, Sends.nil s⟩
    rw [if_neg h_nil]
    rcases s.write_cases iov.flatten with ⟨n, h_n, h_write, h_all, h_zero⟩ |
      ⟨e, answers, h_answers, h_write⟩
    · rw [h_write]
      simp only
      have h_left : (iov.flatten.length + sizeMod - n) % sizeMod = iov.flatten.length - n := by
        rw [Nat.sub_add_comm h_n, Nat.add_mod_right, Nat.mod_eq_of_lt (by omega)]
      rw [h_left]
      have h_step : ∀ ok s', Sends sockFatal (iov.flatten.drop n)
          ⟨s.wire ++ iov.flatten.take n, s.answers.tail⟩ ok s' →
          Sends sockFatal iov.flatten s ok s' := by
        intro ok s' h_rest
        have h_data := h_rest.step (s := s) rfl (List.tail_suffix _)
        rwa [List.take_append_drop] at h_data
      by_cases h_done : iov.flatten.length - n = 0
      · rw [if_pos h_done]
        refine ⟨true, _, rfl, h_step _ _ ?_⟩
        rw [List.drop_eq_nil_of_le (by omega)]
        exact Sends.nil _
      · rw [if_neg h_done]
        have h_adv := advance_spec n h_iov h_n
        cases h_next : advance n iov with
        | none =>
          rw [h_next] at h_adv
          simp only at h_adv
          omega
        | some iov' =>
          rw [h_next] at h_adv
          obtain ⟨h_flat, h_iov'⟩ := h_adv
          have h_len : iov'.flatten.length = iov.flatten.length - n := by
            rw [h_flat, List.length_drop]
          have h_pop : s.answers.tail.length + 1 = s.answers.length := by
            have h_some : s.answers ≠ [] := fun h_none => h_done (by rw [h_all h_none]; omega)
            have h_pos := List.length_pos_of_ne_nil h_some
            rw [List.length_tail]
            omega
          obtain ⟨ok, s', h_loop, h_rest⟩ := ih
            ⟨s.wire ++ iov.flatten.take n, s.answers.tail⟩ h_iov' (by omega)
            (by simp only; omega)
          rw [h_len] at h_loop
          rw [h_flat] at h_rest
          exact ⟨ok, s', h_loop, h_step ok s' h_rest⟩
    · rw [h_write]
      have h_tail : answers <:+ s.answers := by
        rw [h_answers]
        exact List.suffix_cons _ _
      rw [h_answers, List.length_cons] at h_fuel
      have h_fail : sockFatal (.error e) = true → ∃ ok s',
          some ((-1 : Int), (⟨s.wire, answers⟩ : Sink Errno)) = some (returned ok, s') ∧
            Sends sockFatal iov.flatten s ok s' := by
        intro h_fatal
        refine ⟨false, _, rfl, Sends.failed rfl h_tail ⟨.error e, ?_, h_fatal⟩⟩
        rw [h_answers]
        exact List.mem_cons_self
      cases e with
      | eintr =>
        obtain ⟨ok, s', h_loop, h_rest⟩ := ih ⟨s.wire, answers⟩ h_iov h_size
          (by simp only; omega)
        exact ⟨ok, s', h_loop, h_rest.again h_tail⟩
      | ebadf => exact h_fail rfl
      | econnreset => exact h_fail rfl
      | other => exact h_fail rfl

end

/-! ## `tcpv4ConnSendIov` -/

def SendConn.wire : SendConn → Octets
  | .plain s => s.wire
  | .tls c => c.ssl.wire

/-- Between calls a TLS connection is not corked, and its cork buffer is empty. -/
def SendConn.Ok (bufsz : Nat) : SendConn → Prop
  | .plain _ => True
  | .tls c => c.Ok bufsz ∧ c.corkLen = 0 ∧ c.corked = false

/-- The transport only ever interrupts a write or takes a part of it. -/
def SendConn.Willing : SendConn → Prop
  | .plain s => ∀ a ∈ s.answers, sockFatal a = false
  | .tls c => ∀ a ∈ c.ssl.answers, mbedFatal a = false

theorem Gathers.uncork {bufsz : Nat} {data : Octets} {c c' : TlsConn} {ok : Bool}
    (h : Gathers bufsz data (tcpv4TlsCork c) ok c') (h_corked : c.corked = false) :
    Gathers bufsz data c ok { c' with corked := false } where
  keeps := ⟨h.keeps.size, h.keeps.len⟩
  corked := h_corked.symm
  grows := h.grows
  within := h.within
  whole := h.whole
  empty := h.empty
  answers := h.answers
  willing := h.willing

/-- The buffers are collected and written out, unless a write fails. -/
theorem sendTls_gathers {bufsz : Nat} (h_bufsz : 0 < bufsz) {iov : List Octets} (h_nil : iov ≠ [])
    (h_iov : IovOk iov) {c : TlsConn} (h_c : c.Ok bufsz) (h_corked : c.corked = false) :
    ∃ ok c', tcpv4ConnSendIov bufsz iov (.tls c) = some (returned ok, .tls c') ∧
      Gathers bufsz iov.flatten c ok c' ∧ c'.corkLen = 0 := by
  obtain ⟨ok, c₁, h_send, h_collect⟩ := sendCorked_gathers h_bufsz h_iov
    (c := tcpv4TlsCork c) ⟨h_c.size, h_c.len⟩ rfl
  have h_gathers := h_collect.uncork h_corked
  rw [tcpv4ConnSendIov, if_neg (Nat.not_lt.mpr (List.length_pos_of_ne_nil h_nil)), h_send,
    Option.bind_some]
  simp only [tcpv4TlsUncork]
  cases ok with
  | false =>
    -- The failure has emptied the buffer, so there is nothing left to write out.
    have h_zero := h_gathers.empty rfl
    refine ⟨false, { c₁ with corked := false }, ?_, h_gathers, h_zero⟩
    rw [flushCork, if_pos h_zero]
    rfl
  | true =>
    obtain ⟨ok, c', h_flush, h_last, h_zero⟩ := flushCork_gathers h_gathers.keeps
    have h_all := h_gathers.step h_last
    rw [List.append_nil] at h_all
    refine ⟨ok, c', ?_, h_all, h_zero⟩
    rw [h_flush]
    cases ok <;> rfl

/-- Over a socket and through TLS. -/
theorem tcpv4ConnSendIov_puts {bufsz : Nat} (h_bufsz : 0 < bufsz) {iov : List Octets}
    (h_iov : IovOk iov) {conn : SendConn} (h_conn : conn.Ok bufsz) :
    ∃ ok conn', tcpv4ConnSendIov bufsz iov conn = some (returned ok, conn') ∧
      conn'.Ok bufsz ∧ Puts iov.flatten conn.wire ok conn'.wire ∧
      (conn.Willing → ok = true) := by
  by_cases h_nil : iov = []
  · subst h_nil
    refine ⟨true, conn, ?_, h_conn, ⟨List.prefix_rfl, List.prefix_append _ _, fun _ => ?_⟩,
      fun _ => rfl⟩
    · cases conn <;> rfl
    · exact (List.append_nil _).symm
  cases conn with
  | plain s =>
    obtain ⟨ok, s', h_loop, h_sends⟩ := writevLoop_sends s h_nil h_iov.flatten_lt
      (Nat.le_refl (rounds s))
    have h_sum : (iov.map List.length).sum % sizeMod = iov.flatten.length := by
      rw [← List.length_flatten, Nat.mod_eq_of_lt h_iov.flatten_lt]
    refine ⟨ok, .plain s', ?_, trivial, h_sends.toPuts, h_sends.willing⟩
    rw [tcpv4ConnSendIov, if_neg (Nat.not_lt.mpr (List.length_pos_of_ne_nil h_nil)), h_sum,
      h_loop]
    rfl
  | tls c =>
    obtain ⟨h_ok, h_zero, h_corked⟩ := h_conn
    obtain ⟨ok, c', h_send, h_gathers, h_empty⟩ := sendTls_gathers h_bufsz h_nil h_iov h_ok h_corked
    have h_given : c.given = c.ssl.wire := by
      rw [TlsConn.given, pending_nil h_zero, List.append_nil]
    have h_given' : c'.given = c'.ssl.wire := by
      rw [TlsConn.given, pending_nil h_empty, List.append_nil]
    have h_within := h_gathers.within
    have h_whole := h_gathers.whole
    rw [h_given, h_given'] at h_within h_whole
    exact ⟨ok, .tls c', h_send, ⟨h_gathers.keeps, h_empty, h_gathers.corked.trans h_corked⟩,
      ⟨h_gathers.grows, h_within, h_whole⟩, h_gathers.willing⟩

/-- **Gathered writing is complete.**  A call returns; what it has put on the wire is a front part
    of the buffers' octets, and all of them if it returns 0, as it does unless the transport
    fails. -/
theorem tcpv4ConnSendIov_gathers {bufsz : Nat} (h_bufsz : 0 < bufsz) {iov : List Octets}
    (h_iov : IovOk iov) {conn : SendConn} (h_conn : conn.Ok bufsz) :
    ∃ rc conn' sent, tcpv4ConnSendIov bufsz iov conn = some (rc, conn') ∧ (rc = 0 ∨ rc = -1) ∧
      conn'.Ok bufsz ∧ conn'.wire = conn.wire ++ sent ∧ sent <+: iov.flatten ∧
      (rc = 0 → sent = iov.flatten) ∧ (conn.Willing → rc = 0) := by
  obtain ⟨ok, conn', h_send, h_ok, h_puts, h_willing⟩ :=
    tcpv4ConnSendIov_puts h_bufsz h_iov h_conn
  obtain ⟨sent, h_wire, h_front, h_whole⟩ := h_puts.sent
  have h_rc : (returned ok = 0 ∨ returned ok = -1) ∧ (returned ok = 0 ↔ ok = true) := by
    cases ok <;> decide
  exact ⟨returned ok, conn', sent, h_send, h_rc.1, h_ok, h_wire, h_front,
    fun h_zero => h_whole (h_rc.2.mp h_zero), fun h => h_rc.2.mpr (h_willing h)⟩

/-- "abc" and "de" through a cork buffer of two octets, whose second record is taken in part. -/
theorem tcpv4ConnSendIov_gathers_small :
    ∃ rc conn' sent, tcpv4ConnSendIov 2 [[0x61, 0x62, 0x63], [], [0x64, 0x65]]
        (.tls ⟨⟨[], [.error .wantWrite, .octets 5, .octets 0]⟩, false, 0, [0, 0]⟩) =
          some (rc, conn') ∧
      (rc = 0 ∨ rc = -1) ∧ conn'.Ok 2 ∧ conn'.wire = [] ++ sent ∧
      sent <+: [0x61, 0x62, 0x63, 0x64, 0x65] ∧ (rc = 0 → sent = [0x61, 0x62, 0x63, 0x64, 0x65]) ∧
      (SendConn.Willing
        (.tls ⟨⟨[], [.error .wantWrite, .octets 5, .octets 0]⟩, false, 0, [0, 0]⟩) → rc = 0) :=
  have h_iov : IovOk [[0x61, 0x62, 0x63], [], [0x64, 0x65]] := ⟨by decide, by decide⟩
  tcpv4ConnSendIov_gathers (by decide) h_iov ⟨⟨rfl, by decide⟩, rfl, rfl⟩

/-! ## The caller -/

/-- The buffers of one write of `sendSegments`. -/
def segmentIov (mtu : Nat) (x : Xfer) (len off consumed : Nat) : List Octets :=
  (cutSegs mtu x len off tcpv4TxSegsPerWrite consumed).flatMap fun p =>
    [(tcpv4MsgEncodeXferSegmentHdr sendHdrCap p.1).getD [], p.2]

theorem flatten_segmentIov (mtu : Nat) (x : Xfer) (len off consumed : Nat) :
    (segmentIov mtu x len off consumed).flatten =
      (cutSegs mtu x len off tcpv4TxSegsPerWrite consumed).flatMap segmentOctets := by
  rw [segmentIov]
  induction cutSegs mtu x len off tcpv4TxSegsPerWrite consumed with
  | nil => rfl
  | cons p segs ih =>
    rw [List.flatMap_cons, List.flatMap_cons, List.flatten_append, ih, segmentOctets]
    simp

theorem cutSegs_bounds (mtu : Nat) (x : Xfer) (len off segs consumed : Nat) :
    (cutSegs mtu x len off segs consumed).length ≤ segs ∧
      ∀ p ∈ cutSegs mtu x len off segs consumed, p.2.length ≤ len := by
  induction segs generalizing consumed with
  | zero => exact ⟨Nat.le_refl 0, fun p h_p => absurd h_p List.not_mem_nil⟩
  | succ segs ih =>
    rw [cutSegs]
    by_cases h_more : consumed < len
    · rw [if_pos h_more]
      cases h_cut : cutSegment mtu x len off consumed with
      | none => exact ⟨Nat.zero_le _, fun p h_p => absurd h_p List.not_mem_nil⟩
      | some p =>
        have h_data : p.2.length ≤ len := by
          rw [cutSegment] at h_cut
          split at h_cut
          · obtain ⟨ext, -, rfl⟩ := Option.map_eq_some_iff.mp h_cut
            exact (List.length_take_le _ _).trans (by split <;> omega)
          · cases h_cut
            exact (List.length_take_le _ _).trans (by split <;> omega)
        obtain ⟨h_count, h_rest⟩ := ih (consumed + p.1.dataLength)
        refine ⟨Nat.succ_le_succ h_count, fun q h_q => ?_⟩
        rcases List.mem_cons.mp h_q with rfl | h_q
        · exact h_data
        · exact h_rest q h_q
    · rw [if_neg h_more]
      exact ⟨Nat.zero_le _, fun p h_p => absurd h_p List.not_mem_nil⟩

/-- `sendSegments` hands over a bounded number of buffers, each no longer than a bufferful. -/
theorem iovOk_segmentIov (mtu : Nat) (x : Xfer) {len : Nat} (off consumed : Nat)
    (h_len : len ≤ tcpv4TxbufSize) : IovOk (segmentIov mtu x len off consumed) := by
  have h_max : intMax = 2147483647 := by decide
  have h_size : tcpv4TxbufSize = 65536 := by decide
  obtain ⟨h_count, h_data⟩ := cutSegs_bounds mtu x len off tcpv4TxSegsPerWrite consumed
  have h_segs : tcpv4TxSegsPerWrite = 16 := rfl
  refine ⟨?_, fun b h_b => ?_⟩
  · have h_two : (segmentIov mtu x len off consumed).length =
        (cutSegs mtu x len off tcpv4TxSegsPerWrite consumed).length * 2 := by
      rw [segmentIov, List.length_flatMap]
      simp [Nat.mul_comm]
    omega
  · obtain ⟨p, h_p, h_b⟩ := List.mem_flatMap.mp h_b
    have h_two : b = (tcpv4MsgEncodeXferSegmentHdr sendHdrCap p.1).getD [] ∨ b = p.2 := by
      simpa using h_b
    rcases h_two with rfl | rfl
    · have h_cap : sendHdrCap ≤ 65536 := by decide
      rw [lawful_xferSegment.encode_eq]
      split
      · rename_i h_hdr
        rw [Option.getD_some]
        omega
      · exact Nat.zero_le _
    · have h_b := h_data p h_p
      omega

/-- So a run of segments goes out as the one stretch of octets that the session's steps put on
    the wire. -/
theorem sendSegments_puts {bufsz : Nat} (h_bufsz : 0 < bufsz) {mtu : Nat} {x : Xfer}
    {len off consumed consumed' : Nat} {data : Octets} (h_len : len ≤ tcpv4TxbufSize)
    (h_run : cutRun mtu x len off tcpv4TxSegsPerWrite consumed = some (data, consumed'))
    {conn : SendConn} (h_conn : conn.Ok bufsz) :
    ∃ ok conn', tcpv4ConnSendIov bufsz (segmentIov mtu x len off consumed) conn =
        some (returned ok, conn') ∧
      Puts data conn.wire ok conn'.wire := by
  have h_iov := iovOk_segmentIov mtu x off consumed h_len
  obtain ⟨ok, conn', h_send, -, h_puts, -⟩ := tcpv4ConnSendIov_puts h_bufsz h_iov h_conn
  rw [flatten_segmentIov, ← cutRun_segs h_run] at h_puts
  exact ⟨ok, conn', h_send, h_puts⟩

end IonContrib.Tcpv4.Io
