/-
  IonContrib.Tcpv4.Io

  Reading off a session (`tcpv4io.c`): the receive buffer that an established
  session reads through.

  What is left to a session is what its buffer holds and what has yet to
  arrive.  Every read takes the next octets of that, whether the buffer has
  them all, some or none, and starting the buffer takes nothing away.
-/
import IonContrib.Lib.Transport
import IonContrib.Tcpv4.Msg

namespace IonContrib.Tcpv4.Io

open Octets

def tcpv4RxbufSize : Nat := 64 * 1024
def tcpv4RxbufDirect : Nat := 4096

/-! ## The stream -/

inductive Errno where
  | eintr
  | ebadf
  | econnreset
  | other
  deriving DecidableEq, Repr

/-- What `mbedtls_ssl_read` fails with. -/
inductive MbedReadError where
  | wantRead
  | wantWrite
  | receivedNewSessionTicket
  | peerCloseNotify
  | connEof
  | other
  deriving DecidableEq, Repr

/-- What `gnutls_record_recv` fails with. -/
inductive GnutlsReadError where
  | again
  | interrupted
  | prematureTermination
  | other
  deriving DecidableEq, Repr

def MbedReadError.retry : MbedReadError → Bool
  | .wantRead | .wantWrite | .receivedNewSessionTicket => true
  | _ => false

def MbedReadError.eof : MbedReadError → Bool
  | .peerCloseNotify | .connEof => true
  | _ => false

def GnutlsReadError.retry : GnutlsReadError → Bool
  | .again | .interrupted => true
  | _ => false

def GnutlsReadError.eof : GnutlsReadError → Bool
  | .prematureTermination => true
  | _ => false

/-- A socket, or `-1`. -/
abbrev Socket := Option (List (Arrival Errno))

/-- Where a session's octets come from: its socket, or its TLS layer. -/
inductive Stream where
  | plain (sock : Socket)
  | mbed (w : List (Arrival MbedReadError))
  | gnutls (w : List (Arrival GnutlsReadError))

/-- `tcpv4TlsRecv` of either TLS layer. -/
def tcpv4TlsRecvMbed (cap : Nat) (w : List (Arrival MbedReadError)) :
    Read (List (Arrival MbedReadError)) :=
  recvRetry MbedReadError.retry MbedReadError.eof cap w

def tcpv4TlsRecvGnutls (cap : Nat) (w : List (Arrival GnutlsReadError)) :
    Read (List (Arrival GnutlsReadError)) :=
  recvRetry GnutlsReadError.retry GnutlsReadError.eof cap w


/-- One read of the socket. -/
def irecvSome (cap : Nat) : Socket → Read Socket
  | none => ⟨0, [], none⟩
  | some w =>
    match recvOnce cap w with
    | (.ok data, w) => ⟨data.length, data, some w⟩
    | (.error .eintr, w) => ⟨0, [], some w⟩
    | (.error .ebadf, w) => ⟨0, [], some w⟩
    | (.error .econnreset, w) => ⟨0, [], some w⟩
    | (.error .other, w) => ⟨-1, [], some w⟩

def connRecvSome (cap : Nat) : Stream → Read Stream
  | .plain sock => (irecvSome cap sock).map .plain
  | .mbed w => (tcpv4TlsRecvMbed cap w).map .mbed
  | .gnutls w => (tcpv4TlsRecvGnutls cap w).map .gnutls

/-- `itcp_recv` is given. -/
def connRecvExactly (itcpRecv : Nat → Socket → Read Socket) (len : Nat) : Stream → Read Stream
  | .plain sock => (itcpRecv len sock).map .plain
  | .mbed w => (recvRounds tcpv4TlsRecvMbed len len [] w).map .mbed
  | .gnutls w => (recvRounds tcpv4TlsRecvGnutls len len [] w).map .gnutls

/-! ## The buffer -/

/-- `conn->rxBuf` with `rxBufLen` and `rxBufOff`. -/
structure RxBuf where
  buf : Octets
  len : Nat
  off : Nat

structure RxConn where
  stream : Stream
  rxBuf : Option RxBuf

/-- What `MTAKE (TCPV4_RXBUF_SIZE)` gives. -/
abbrev RxMem := { buf : Octets // buf.length = tcpv4RxbufSize }

def tcpv4ConnStartBuffering (mem : Option RxMem) (c : RxConn) : RxConn :=
  match c.rxBuf, mem with
  | some _, _ => c
  | none, none => c
  | none, some m => { c with rxBuf := some ⟨m, 0, 0⟩ }

/-- The loop at the end of `tcpv4ConnRecv`. -/
def recvBuffered (len : Nat) : Nat → Octets → Stream → RxBuf → Read RxConn
  | 0, got, s, b => ⟨len, got, s, some b⟩
  | fuel + 1, got, s, b =>
    if got.length < len then
      let r := connRecvSome tcpv4RxbufSize s
      if r.ret ≤ 0 then
        ⟨if 0 < got.length ∧ r.ret = 0 then -1 else r.ret, got, r.rest, some b⟩
      else
        let n := r.ret.toNat
        let buf := splice b.buf 0 r.data
        let want := if len - got.length < n then len - got.length else n
        recvBuffered len fuel (got ++ buf.take want) r.rest ⟨buf, n, want⟩
    else ⟨len, got, s, some b⟩

/-- What the buffer has of a request. -/
def RxBuf.serve (len : Nat) (b : RxBuf) : Octets × RxBuf :=
  let avail := b.len - b.off
  if 0 < avail then
    let got := if avail < len then avail else len
    ((b.buf.drop b.off).take got, { b with off := b.off + got })
  else ([], b)

def tcpv4ConnRecv (itcpRecv : Nat → Socket → Read Socket) (len : Nat) (c : RxConn) :
    Read RxConn :=
  match c.rxBuf with
  | none => (connRecvExactly itcpRecv len c.stream).map fun s => ⟨s, none⟩
  | some b =>
    let (got, b') := b.serve len
    if 0 < b.len - b.off ∧ got.length = len then ⟨len, got, c.stream, some b'⟩
    else if tcpv4RxbufDirect ≤ len - got.length then
      let r := connRecvExactly itcpRecv (len - got.length) c.stream
      ⟨if r.ret = (len - got.length : Nat) then len
        else if 0 < got.length ∧ r.ret = 0 then -1 else r.ret,
       got ++ r.data, r.rest, some b'⟩
    else recvBuffered len len got c.stream b'

/-! ## What is left -/

/-- What has yet to arrive on a stream, before it ends or fails. -/
def Stream.arriving : Stream → Octets
  | .plain none => []
  | .plain (some w) => IonContrib.arriving (fun _ => false) w
  | .mbed w => IonContrib.arriving MbedReadError.retry w
  | .gnutls w => IonContrib.arriving GnutlsReadError.retry w

/-- What the buffer holds that has not been read. -/
def RxBuf.ahead (b : RxBuf) : Octets := (b.buf.take b.len).drop b.off

def RxConn.left (c : RxConn) : Octets :=
  (c.rxBuf.elim [] RxBuf.ahead) ++ c.stream.arriving

/-- The buffer is where `MTAKE` put it, and its offsets lie in it. -/
structure RxBuf.Ok (b : RxBuf) : Prop where
  size : b.buf.length = tcpv4RxbufSize
  len : b.len ≤ tcpv4RxbufSize
  off : b.off ≤ b.len

def RxConn.Ok (c : RxConn) : Prop := ∀ b, c.rxBuf = some b → b.Ok

/-- `itcp_recv` receives exactly as many octets as it is asked for, or it returns 0 or -1
    because they do not all arrive. -/
structure ItcpRecv (itcpRecv : Nat → Socket → Read Socket) : Prop where
  takes : ∀ len sock, TakesAll (fun s => Stream.arriving (.plain s)) len sock (itcpRecv len sock)

theorem TakesSome.map {σ τ : Type} {left : σ → Octets} {left' : τ → Octets} {f : σ → τ} {cap : Nat}
    {s : σ} {r : Read σ} (h : TakesSome left cap s r) (h_left : ∀ s, left' (f s) = left s) :
    TakesSome left' cap (f s) (r.map f) := by
  rw [TakesSome, Read.map, h_left, h_left]
  exact h

theorem TakesAll.map {σ τ : Type} {left : σ → Octets} {left' : τ → Octets} {f : σ → τ} {len : Nat}
    {s : σ} {r : Read σ} (h : TakesAll left len s r) (h_left : ∀ s, left' (f s) = left s) :
    TakesAll left' len (f s) (r.map f) := by
  rw [TakesAll, Read.map, h_left, h_left]
  exact h

theorem takesSome_irecvSome {cap : Nat} (h_cap : 0 < cap) (sock : Socket) :
    TakesSome (fun s => Stream.arriving (.plain s)) cap sock (irecvSome cap sock) := by
  cases sock with
  | none => exact .inr ⟨Int.le_refl 0, rfl⟩
  | some w =>
    cases w with
    | nil => exact .inr ⟨Int.le_refl 0, rfl⟩
    | cons a w =>
      cases a with
      | octets b bs =>
        refine .inl ⟨rfl, ?_, List.length_take_le _ _, arriving_octets _ cap b bs w⟩
        obtain ⟨n, rfl⟩ : ∃ n, cap = n + 1 := ⟨cap - 1, by omega⟩
        exact List.cons_ne_nil b (bs.take n)
      | closed => exact .inr ⟨Int.le_refl 0, rfl⟩
      | error e =>
        refine .inr ⟨?_, rfl⟩
        cases e
        case other =>
          show (-1 : Int) ≤ 0
          omega
        all_goals exact Int.le_refl 0

theorem takesSome_connRecvSome (cap : Nat) (h_cap : 0 < cap) (s : Stream) :
    TakesSome Stream.arriving cap s (connRecvSome cap s) := by
  cases s with
  | plain sock => exact TakesSome.map (takesSome_irecvSome h_cap sock) fun _ => rfl
  | mbed w => exact TakesSome.map (takesSome_recvRetry _ _ h_cap w) fun _ => rfl
  | gnutls w => exact TakesSome.map (takesSome_recvRetry _ _ h_cap w) fun _ => rfl

variable {itcpRecv : Nat → Socket → Read Socket}

theorem takesAll_connRecvExactly (h : ItcpRecv itcpRecv) (len : Nat) (s : Stream) :
    TakesAll Stream.arriving len s (connRecvExactly itcpRecv len s) := by
  cases s with
  | plain sock => exact TakesAll.map (h.takes len sock) fun _ => rfl
  | mbed w =>
    exact TakesAll.map (takesAll_recvRounds (fun _ w h_cap => takesSome_recvRetry _ _ h_cap w) len w)
      fun _ => rfl
  | gnutls w =>
    exact TakesAll.map (takesAll_recvRounds (fun _ w h_cap => takesSome_recvRetry _ _ h_cap w) len w)
      fun _ => rfl

/-! ## The buffered read -/

/-- The buffer after one read of the stream, of which `want` octets are used. -/
theorem ahead_splice {b : RxBuf} {data : Octets} {want : Nat} (h : b.Ok)
    (h_data : data.length ≤ tcpv4RxbufSize) (h_want : want ≤ data.length) :
    (splice b.buf 0 data).take want = data.take want ∧
      RxBuf.Ok ⟨splice b.buf 0 data, data.length, want⟩ ∧
      RxBuf.ahead ⟨splice b.buf 0 data, data.length, want⟩ = data.drop want := by
  have h_room : 0 + data.length ≤ b.buf.length := by
    rw [h.size]
    omega
  have h_front : (splice b.buf 0 data).take data.length = data := by
    have h_take := take_splice h_room
    rwa [Nat.zero_add, List.take_zero, List.nil_append] at h_take
  refine ⟨?_, ⟨by rw [length_splice h_room, h.size], h_data, h_want⟩, ?_⟩
  · rw [← h_front, List.take_take, Nat.min_eq_left h_want, h_front]
  · show ((splice b.buf 0 data).take data.length).drop want = _
    rw [h_front]

theorem left_some (s : Stream) (b : RxBuf) : RxConn.left ⟨s, some b⟩ = b.ahead ++ s.arriving := rfl

theorem ok_some {s : Stream} {b : RxBuf} (h : b.Ok) : RxConn.Ok ⟨s, some b⟩ := by
  intro b' h_b
  cases h_b
  exact h

/-- The loop adds what is missing, by induction on its rounds.  The stream is read only while
    the buffer is empty. -/
theorem recvBuffered_takes {len fuel : Nat} {got : Octets} {s : Stream} {b : RxBuf} (h_b : b.Ok)
    (h_ahead : got.length < len → b.ahead = []) (h_got : got.length ≤ len)
    (h_fuel : len ≤ got.length + fuel) :
    (recvBuffered len fuel got s b).rest.Ok ∧
      (((recvBuffered len fuel got s b).ret = len ∧
          ∃ more, (recvBuffered len fuel got s b).data = got ++ more ∧
            got.length + more.length = len ∧
            RxConn.left ⟨s, some b⟩ = more ++ (recvBuffered len fuel got s b).rest.left) ∨
        ((recvBuffered len fuel got s b).ret ≤ 0 ∧
          got.length + (RxConn.left ⟨s, some b⟩).length < len)) := by
  induction fuel generalizing got s b with
  | zero =>
    refine ⟨ok_some h_b, .inl ⟨rfl, [], (List.append_nil _).symm, ?_, rfl⟩⟩
    show got.length + 0 = len
    omega
  | succ fuel ih =>
    rw [recvBuffered]
    by_cases h_less : got.length < len
    · rw [if_pos h_less, left_some, h_ahead h_less, List.nil_append]
      have h_some := takesSome_connRecvSome tcpv4RxbufSize (by decide) s
      by_cases h_ret : (connRecvSome tcpv4RxbufSize s).ret ≤ 0
      · simp only [if_pos h_ret]
        refine ⟨ok_some h_b, .inr ⟨?_, ?_⟩⟩
        · split <;> omega
        · rw [h_some.eq_nil h_ret]
          exact h_less
      · obtain ⟨h_n, h_pos, h_cap, h_left⟩ := h_some.pos h_ret
        rw [h_n] at h_ret
        simp only [h_n, if_neg h_ret, Int.toNat_natCast]
        generalize (connRecvSome tcpv4RxbufSize s).data = data at *
        generalize (connRecvSome tcpv4RxbufSize s).rest = s' at *
        -- A read that brings more than is wanted ends the loop, and leaves the rest behind.
        obtain ⟨want, h_want⟩ : ∃ want, want =
          if len - got.length < data.length then len - got.length else data.length := ⟨_, rfl⟩
        rw [← h_want]
        have h_le : want ≤ data.length ∧ want ≤ len - got.length := by
          rw [h_want]
          split <;> omega
        obtain ⟨h_take, h_ok, h_rest⟩ := ahead_splice h_b h_cap h_le.1
        rw [h_take]
        have h_len : (got ++ data.take want).length = got.length + want := by
          rw [List.length_append, List.length_take_of_le h_le.1]
        have h_more : (got ++ data.take want).length < len → data.drop want = [] := by
          intro h_short
          refine List.drop_eq_nil_of_le ?_
          rw [h_len, h_want] at h_short
          rw [h_want]
          split at h_short <;> split <;> omega
        have h_goes : 0 < want := by
          rw [h_want]
          split <;> omega
        have h_next := ih (s := s') h_ok (fun h => h_rest.trans (h_more h))
          (by rw [h_len]; omega) (by rw [h_len]; omega)
        rw [h_len, left_some, h_rest] at h_next
        refine ⟨h_next.1, ?_⟩
        rcases h_next.2 with ⟨h_eq, more, h_data, h_sum, h_end⟩ | ⟨h_eq, h_short⟩
        · refine .inl ⟨h_eq, data.take want ++ more, ?_, ?_, ?_⟩
          · rw [h_data, List.append_assoc]
          · rw [List.length_append, List.length_take_of_le h_le.1]
            omega
          · rw [h_left, List.append_assoc, ← h_end, ← List.append_assoc, List.take_append_drop]
        · refine .inr ⟨h_eq, ?_⟩
          rw [List.length_append, List.length_drop] at h_short
          rw [h_left, List.length_append]
          omega
    · rw [if_neg h_less]
      refine ⟨ok_some h_b, .inl ⟨rfl, [], (List.append_nil _).symm, ?_, rfl⟩⟩
      show got.length + 0 = len
      omega

theorem length_ahead {b : RxBuf} (h : b.Ok) : b.ahead.length = b.len - b.off := by
  have h_len := h.len
  have h_size := h.size
  rw [RxBuf.ahead, List.length_drop, List.length_take_of_le (by omega)]

theorem ahead_advance {b : RxBuf} (h : b.Ok) {n : Nat} (h_n : n ≤ b.len - b.off) :
    ((b.buf.drop b.off).take n).length = n ∧ RxBuf.Ok { b with off := b.off + n } ∧
      b.ahead = (b.buf.drop b.off).take n ++ RxBuf.ahead { b with off := b.off + n } := by
  have h_off := h.off
  have h_len := h.len
  have h_size := h.size
  refine ⟨?_, ⟨h_size, h_len, ?_⟩, ?_⟩
  · rw [List.length_take_of_le]
    rw [List.length_drop]
    omega
  · show b.off + n ≤ b.len
    omega
  · have h_front : (b.buf.drop b.off).take n = b.ahead.take n := by
      rw [RxBuf.ahead, List.drop_take, List.take_take, Nat.min_eq_left h_n]
    have h_rest : RxBuf.ahead { b with off := b.off + n } = b.ahead.drop n := by
      rw [RxBuf.ahead, RxBuf.ahead, List.drop_drop]
    rw [h_front, h_rest, List.take_append_drop]

/-- What the buffer serves of a request, and it is empty when that is not all. -/
theorem serve_takes (len : Nat) {b : RxBuf} (h : b.Ok) :
    (b.serve len).2.Ok ∧ b.ahead = (b.serve len).1 ++ (b.serve len).2.ahead ∧
      (b.serve len).1.length ≤ len ∧
      ((b.serve len).1.length < len → (b.serve len).2.ahead = []) := by
  have h_total := length_ahead h
  rw [RxBuf.serve]
  by_cases h_avail : 0 < b.len - b.off
  · simp only [if_pos h_avail]
    obtain ⟨n, h_n⟩ : ∃ n, n = if b.len - b.off < len then b.len - b.off else len := ⟨_, rfl⟩
    rw [← h_n]
    have h_le : n ≤ b.len - b.off ∧ n ≤ len ∧ (n < len → n = b.len - b.off) := by
      rw [h_n]
      split <;> omega
    obtain ⟨h_length, h_ok, h_ahead⟩ := ahead_advance h h_le.1
    refine ⟨h_ok, h_ahead, by omega, fun h_short => List.eq_nil_of_length_eq_zero ?_⟩
    rw [h_ahead, List.length_append] at h_total
    omega
  · simp only [if_neg h_avail]
    exact ⟨h, rfl, Nat.zero_le len, fun _ => List.eq_nil_of_length_eq_zero (by omega)⟩

/-- **A read takes the next octets of what is left**, from the buffer, the stream or both. -/
theorem tcpv4ConnRecv_takes (h : ItcpRecv itcpRecv) (len : Nat) {c : RxConn} (h_c : c.Ok) :
    (tcpv4ConnRecv itcpRecv len c).rest.Ok ∧
      TakesAll RxConn.left len c (tcpv4ConnRecv itcpRecv len c) := by
  obtain ⟨s, rxBuf⟩ := c
  cases rxBuf with
  | none =>
    refine ⟨?_, ?_⟩
    · intro b h_b
      cases h_b
    exact TakesAll.map (takesAll_connRecvExactly h len s) fun _ => rfl
  | some b =>
    obtain ⟨h_ok, h_ahead, h_len, h_nil⟩ := serve_takes len (h_c b rfl)
    rw [tcpv4ConnRecv]
    simp only
    generalize (b.serve len).1 = got at *
    generalize (b.serve len).2 = b' at *
    have h_left : RxConn.left ⟨s, some b⟩ = got ++ RxConn.left ⟨s, some b'⟩ := by
      rw [left_some, left_some, h_ahead, List.append_assoc]
    by_cases h_done : 0 < b.len - b.off ∧ got.length = len
    · rw [if_pos h_done]
      exact ⟨ok_some h_ok, .inl ⟨rfl, h_done.2, h_left⟩⟩
    rw [if_neg h_done]
    by_cases h_direct : tcpv4RxbufDirect ≤ len - got.length
    · -- The buffer is empty, and the rest comes straight off the stream.
      rw [if_pos h_direct]
      have h_pos : 0 < tcpv4RxbufDirect := by decide
      have h_empty := h_nil (by omega)
      refine ⟨ok_some h_ok, ?_⟩
      rw [left_some s b', h_empty, List.nil_append] at h_left
      rcases takesAll_connRecvExactly h (len - got.length) s with
        ⟨h_ret, h_data, h_rest⟩ | ⟨h_ret, h_short⟩
      · refine .inl ⟨if_pos h_ret, ?_, ?_⟩
        · show (got ++ _).length = len
          rw [List.length_append, h_data]
          omega
        · rw [h_left, h_rest, left_some, h_empty, List.nil_append, List.append_assoc]
      · refine .inr ⟨?_, ?_⟩
        · show (if _ then _ else _) ≤ (0 : Int)
          rw [if_neg (by omega)]
          split <;> omega
        · rw [h_left, List.length_append]
          omega
    · rw [if_neg h_direct]
      obtain ⟨h_end, h_rounds⟩ := recvBuffered_takes (s := s) h_ok h_nil h_len
        (Nat.le_add_left len got.length)
      refine ⟨h_end, ?_⟩
      rcases h_rounds with ⟨h_ret, more, h_data, h_sum, h_rest⟩ | ⟨h_ret, h_short⟩
      · refine .inl ⟨h_ret, ?_, ?_⟩
        · rw [h_data, List.length_append, h_sum]
        · rw [h_left, h_rest, h_data, List.append_assoc]
      · refine .inr ⟨h_ret, ?_⟩
        rw [h_left, List.length_append]
        exact h_short

/-- The read that the message readers are written with, for what is left: it waits for octets
    that are not there yet, and this one does not return with them. -/
theorem tcpv4ConnRecv_refines (h : ItcpRecv itcpRecv) (len : Nat) {c : RxConn} (h_c : c.Ok) :
    match Tcpv4.tcpv4ConnRecv len c.left with
    | .got data rest =>
      (tcpv4ConnRecv itcpRecv len c).ret = len ∧ (tcpv4ConnRecv itcpRecv len c).data = data ∧
        (tcpv4ConnRecv itcpRecv len c).rest.left = rest
    | _ => (tcpv4ConnRecv itcpRecv len c).ret ≤ 0 := by
  have h_takes := (tcpv4ConnRecv_takes h len h_c).2
  rw [Tcpv4.tcpv4ConnRecv, Recv.take]
  by_cases h_len : c.left.length < len
  · rw [if_pos h_len]
    exact h_takes.short h_len
  · rw [if_neg h_len]
    exact h_takes.ok (Nat.not_lt.mp h_len)

/-! ## Successive reads -/

/-- What the receiver thread does with its stream. -/
inductive RxCall where
  | startBuffering (mem : Option RxMem)
  | recv (len : Nat)

/-- A read, with what was asked for. -/
structure RxResult where
  len : Nat
  ret : Int
  data : Octets

def RxResult.ok (r : RxResult) : Bool := r.ret = r.len

def rxRun (itcpRecv : Nat → Socket → Read Socket) : List RxCall → RxConn → List RxResult
  | [], _ => []
  | .startBuffering mem :: calls, c => rxRun itcpRecv calls (tcpv4ConnStartBuffering mem c)
  | .recv len :: calls, c =>
    let r := tcpv4ConnRecv itcpRecv len c
    ⟨len, r.ret, r.data⟩ :: rxRun itcpRecv calls r.rest

/-- The requests of a run. -/
def requests : List RxCall → List Nat
  | [] => []
  | .startBuffering _ :: calls => requests calls
  | .recv len :: calls => len :: requests calls

/-- The successful reads, up to the first that is not. -/
def successive (results : List RxResult) : List Octets :=
  (results.takeWhile RxResult.ok).map RxResult.data

/-- A stream cut into pieces of the lengths asked for, as far as it goes. -/
def pieces : Octets → List Nat → List Octets
  | _, [] => []
  | s, len :: lens => if len ≤ s.length then s.take len :: pieces (s.drop len) lens else []

theorem startBuffering_keeps {c : RxConn} (mem : Option RxMem) (h_c : c.Ok) :
    (tcpv4ConnStartBuffering mem c).Ok ∧ (tcpv4ConnStartBuffering mem c).left = c.left := by
  obtain ⟨s, rxBuf⟩ := c
  cases rxBuf with
  | some b => exact ⟨h_c, rfl⟩
  | none =>
    cases mem with
    | none => exact ⟨h_c, rfl⟩
    | some m => exact ⟨ok_some ⟨m.property, Nat.zero_le _, Nat.le_refl 0⟩, rfl⟩

/-- A read is successful exactly if what it asks for is left. -/
theorem ok_tcpv4ConnRecv (h : ItcpRecv itcpRecv) (len : Nat) {c : RxConn} (h_c : c.Ok)
    (data : Octets) :
    RxResult.ok ⟨len, (tcpv4ConnRecv itcpRecv len c).ret, data⟩ = true ↔ len ≤ c.left.length := by
  have h_takes := (tcpv4ConnRecv_takes h len h_c).2
  refine decide_eq_true_iff.trans ⟨fun h_ret => ?_, fun h_len => (h_takes.ok h_len).1⟩
  by_contra h_short
  have h_le := h_takes.short (Nat.not_le.mp h_short)
  simp only at h_ret
  omega

/-- A run cuts what is left into the pieces asked for, whatever reads the stream made. -/
theorem successive_rxRun (h : ItcpRecv itcpRecv) (calls : List RxCall) {c : RxConn} (h_c : c.Ok) :
    successive (rxRun itcpRecv calls c) = pieces c.left (requests calls) := by
  induction calls generalizing c with
  | nil => rfl
  | cons call calls ih =>
    cases call with
    | startBuffering mem =>
      obtain ⟨h_ok, h_left⟩ := startBuffering_keeps mem h_c
      rw [rxRun, ih h_ok, h_left]
      rfl
    | recv len =>
      obtain ⟨h_next, h_takes⟩ := tcpv4ConnRecv_takes h len h_c
      have h_iff := ok_tcpv4ConnRecv h len h_c (tcpv4ConnRecv itcpRecv len c).data
      rw [rxRun, requests, pieces, successive]
      by_cases h_len : len ≤ c.left.length
      · obtain ⟨-, h_data, h_left⟩ := h_takes.ok h_len
        have h_run := ih h_next
        rw [h_left] at h_run
        rw [if_pos h_len, List.takeWhile_cons_of_pos (h_iff.mpr h_len), List.map_cons]
        exact congr (congrArg List.cons h_data) h_run
      · rw [if_neg h_len, List.takeWhile_cons_of_neg (fun h_ok => h_len (h_iff.mp h_ok))]
        rfl

/-- After reads that were successful, one more is exactly if the stream goes as far. -/
theorem rxRun_ok_iff (h : ItcpRecv itcpRecv) {calls : List RxCall} {c : RxConn} (h_c : c.Ok)
    {pre post : List RxResult} {r : RxResult} (h_run : rxRun itcpRecv calls c = pre ++ r :: post)
    (h_pre : ∀ q ∈ pre, q.ok = true) :
    r.ok = true ↔ (pre.map RxResult.len).sum + r.len ≤ c.left.length := by
  induction calls generalizing c pre with
  | nil => exact absurd h_run.symm (List.append_ne_nil_of_right_ne_nil _ (List.cons_ne_nil _ _))
  | cons call calls ih =>
    cases call with
    | startBuffering mem =>
      obtain ⟨h_ok, h_left⟩ := startBuffering_keeps mem h_c
      rw [← h_left]
      exact ih h_ok h_run h_pre
    | recv len =>
      obtain ⟨h_next, h_takes⟩ := tcpv4ConnRecv_takes h len h_c
      have h_iff := ok_tcpv4ConnRecv h len h_c (tcpv4ConnRecv itcpRecv len c).data
      rw [rxRun] at h_run
      cases pre with
      | nil =>
        obtain ⟨rfl, -⟩ := List.cons.inj h_run
        rw [List.map_nil, List.sum_nil, Nat.zero_add]
        exact h_iff
      | cons q pre =>
        obtain ⟨rfl, h_rest⟩ := List.cons.inj h_run
        have h_len := h_iff.mp (h_pre _ List.mem_cons_self)
        have h_more := ih h_next h_rest fun q h_q => h_pre q (List.mem_cons_of_mem _ h_q)
        rw [h_more, (h_takes.ok h_len).2.2, List.length_drop, List.map_cons, List.sum_cons]
        simp only
        omega

theorem requests_map_recv (lens : List Nat) : requests (lens.map .recv) = lens := by
  induction lens with
  | nil => rfl
  | cons len lens ih => exact congrArg (len :: ·) ih

theorem pieces_flatten (s : Octets) (lens : List Nat) : (pieces s lens).flatten <+: s := by
  induction lens generalizing s with
  | nil => exact List.nil_prefix
  | cons len lens ih =>
    rw [pieces]
    split
    · obtain ⟨rest, h_rest⟩ := ih (s.drop len)
      refine ⟨rest, ?_⟩
      rw [List.flatten_cons, List.append_assoc, h_rest, List.take_append_drop]
    · exact List.nil_prefix

/-- **Buffered reading is transparent.**  Successive reads give the stream's octets in order, cut
    where the requests cut it, and the reads of a session that never starts its buffer give the
    same from any stream of these octets; a read is successful exactly if the stream goes as far. -/
theorem tcpv4ConnRecv_transparent (h : ItcpRecv itcpRecv) (s : Stream) (calls : List RxCall) :
    successive (rxRun itcpRecv calls ⟨s, none⟩) = pieces s.arriving (requests calls) ∧
      (successive (rxRun itcpRecv calls ⟨s, none⟩)).flatten <+: s.arriving ∧
      (∀ s' : Stream, s'.arriving = s.arriving →
        successive (rxRun itcpRecv ((requests calls).map .recv) ⟨s', none⟩) =
          successive (rxRun itcpRecv calls ⟨s, none⟩)) ∧
      ∀ pre r post, rxRun itcpRecv calls ⟨s, none⟩ = pre ++ r :: post → (∀ q ∈ pre, q.ok = true) →
        (r.ok = true ↔ (pre.map RxResult.len).sum + r.len ≤ s.arriving.length) := by
  have h_fresh : ∀ s, RxConn.Ok ⟨s, none⟩ := by
    intro s b h_b
    cases h_b
  have h_run := successive_rxRun h calls (h_fresh s)
  refine ⟨h_run, ?_, fun s' h_same => ?_, fun pre r post h_post => rxRun_ok_iff h (h_fresh s) h_post⟩
  · rw [h_run]
    exact pieces_flatten _ _
  · rw [h_run, successive_rxRun h _ (h_fresh s'), requests_map_recv]
    exact congrArg (pieces · _) h_same

/-- A socket read to the end of each request, an error or a close. -/
def itcpRecvRounds (len : Nat) (sock : Socket) : Read Socket := recvRounds irecvSome len len [] sock

theorem itcpRecvRounds_takes : ItcpRecv itcpRecvRounds :=
  ⟨takesAll_recvRounds fun _ sock h_cap => takesSome_irecvSome h_cap sock⟩

def rxMem : RxMem := ⟨List.replicate tcpv4RxbufSize 0, List.length_replicate⟩

/-- Three octets of "abcdef" that come in two pieces, then two, then two of the one left. -/
theorem tcpv4ConnRecv_transparent_small :
    successive (rxRun itcpRecvRounds [.recv 3, .startBuffering (some rxMem), .recv 2, .recv 2]
      ⟨.plain (some [.octets 0x61 [0x62], .octets 0x63 [0x64, 0x65, 0x66]]), none⟩) =
        [[0x61, 0x62, 0x63], [0x64, 0x65]] :=
  (tcpv4ConnRecv_transparent itcpRecvRounds_takes _ _).1

end IonContrib.Tcpv4.Io
