/-
  IonContrib.Lib.Into

  Reading an octet stream piece by piece into a buffer of fixed size.

  A write that would reach past the end of the buffer is an answer of its own
  (`overrun`), so that a reader can be shown never to give it.  `Filled` is what
  each read keeps: the front of the buffer holds the octets read so far.
-/
import IonContrib.Lib.Recv

namespace IonContrib

open Octets

/-- What a reader comes to: the stream ended first, a write past the end of the buffer, a
    refusal of its own, or a value and the rest of the stream. -/
inductive Into (ε α : Type) where
  | ended
  | overrun
  | refused (why : ε)
  | got (a : α) (rest : Octets)
  deriving DecidableEq, Repr

namespace Into

variable {ε α β : Type}

def bind (r : Into ε α) (f : α → Octets → Into ε β) : Into ε β :=
  match r with
  | .ended => .ended
  | .overrun => .overrun
  | .refused why => .refused why
  | .got a rest => f a rest

@[simp] theorem bind_got (a : α) (rest : Octets) (f : α → Octets → Into ε β) :
    (Into.got a rest : Into ε α).bind f = f a rest := rfl

@[simp] theorem bind_ended (f : α → Octets → Into ε β) :
    (Into.ended : Into ε α).bind f = .ended := rfl

end Into

section

variable {ε : Type}

/-- `memcpy (buf + off, piece)`. -/
def putInto (buf : Octets) (off : Nat) (piece s : Octets) : Into ε Octets :=
  if off + piece.length > buf.length then .overrun else .got (splice buf off piece) s

/-- Reads `len` octets to `buf + off`. -/
def recvInto (buf : Octets) (off len : Nat) (s : Octets) : Into ε Octets :=
  if off + len > buf.length then .overrun
  else if s.length < len then .ended
  else .got (splice buf off (s.take len)) (s.drop len)

/-- A buffer of `cap` octets, of which the first ones are `bytes`. -/
structure Filled (buf : Octets) (cap : Nat) (bytes : Octets) : Prop where
  size : buf.length = cap
  front : buf.take bytes.length = bytes

theorem Filled.empty (buf : Octets) : Filled buf buf.length [] := ⟨rfl, rfl⟩

variable {buf bytes piece : Octets} {cap off len : Nat}

theorem Filled.splice (h : Filled buf cap bytes) (h_room : bytes.length + piece.length ≤ cap) :
    Filled (splice buf bytes.length piece) cap (bytes ++ piece) where
  size := by
    rw [length_splice (by rw [h.size]; exact h_room), h.size]
  front := by
    rw [List.length_append, take_splice (by rw [h.size]; exact h_room), h.front]

/-- A field of the octets read so far is where it was read to. -/
theorem Filled.field (pre post : Octets) (h : Filled buf cap bytes)
    (h_bytes : bytes = pre ++ (piece ++ post)) (h_off : pre.length = off)
    (h_len : piece.length = len) : (buf.drop off).take len = piece := by
  rw [← List.take_append_drop bytes.length buf, h.front, h_bytes, ← h_off, ← h_len]
  simp

theorem Filled.octet (pre post : Octets) {b : UInt8} (h : Filled buf cap bytes)
    (h_bytes : bytes = pre ++ b :: post) (h_off : pre.length = off) : buf.getD off 0 = b := by
  rw [← List.take_append_drop bytes.length buf, h.front, h_bytes, ← h_off]
  simp

theorem putInto_filled (off : Nat) (s : Octets) (h : Filled buf cap bytes) (h_off : bytes.length = off)
    (h_room : off + piece.length ≤ cap) :
    ∃ buf', (putInto buf off piece s : Into ε Octets) = .got buf' s ∧
      Filled buf' cap (bytes ++ piece) := by
  subst h_off
  rw [putInto, if_neg (by rw [h.size]; omega)]
  exact ⟨_, rfl, h.splice h_room⟩

theorem recvInto_filled (off : Nat) (t : Octets) (h : Filled buf cap bytes) (h_off : bytes.length = off)
    (h_len : piece.length = len) (h_room : off + len ≤ cap) :
    ∃ buf', (recvInto buf off len (piece ++ t) : Into ε Octets) = .got buf' t ∧
      Filled buf' cap (bytes ++ piece) := by
  subst h_off h_len
  rw [recvInto, if_neg (by rw [h.size]; omega), if_neg (by rw [List.length_append]; omega),
    List.take_left, List.drop_left]
  exact ⟨_, rfl, h.splice h_room⟩

theorem recvInto_short {s : Octets} (h : Filled buf cap bytes) (h_room : off + len ≤ cap)
    (h_short : s.length < len) : (recvInto buf off len s : Into ε Octets) = .ended := by
  rw [recvInto, if_neg (by rw [h.size]; omega), if_pos h_short]

/-- A piece of length 0 need not be asked for. -/
theorem recvInto_or {β : Type} {s : Octets} {r : Into ε β} {f : Octets → Octets → Into ε β}
    (h_off : off ≤ buf.length) (h : len = 0 → r = f buf s) :
    (if len > 0 then (recvInto buf off len s).bind f else r) = (recvInto buf off len s).bind f := by
  by_cases h_len : len > 0
  · rw [if_pos h_len]
  · obtain rfl : len = 0 := by omega
    rw [if_neg h_len, h rfl, recvInto, if_neg (by omega), if_neg (by omega)]
    simp

/-! ## Readers without the buffer -/

/-- What is left of the answer when the buffer is forgotten. -/
def Into.toRecv {α : Type} : Into ε α → Recv α
  | .ended => .wait
  | .overrun => .fail
  | .refused _ => .fail
  | .got a rest => .got a rest

/-- A read into the buffer is a read of the piece, and it does not reach past the end. -/
theorem toRecv_bind_recvInto {α : Type} {f : Octets → Octets → Into ε α}
    {g : Octets → Octets → Recv α} {s : Octets} (h : Filled buf cap bytes)
    (h_off : bytes.length = off) (h_room : off + len ≤ cap)
    (h_next : ∀ buf' piece t, Filled buf' cap (bytes ++ piece) → piece.length = len →
      (f buf' t).toRecv = g piece t) :
    ((recvInto buf off len s).bind f).toRecv = (Recv.take len s).bind g := by
  subst h_off
  by_cases h_short : s.length < len
  · rw [recvInto_short h h_room h_short, Recv.take, if_pos h_short]
    rfl
  · have h_len : (s.take len).length = len := List.length_take_of_le (Nat.not_lt.mp h_short)
    rw [recvInto, if_neg (by rw [h.size]; omega), if_neg h_short, Recv.take, if_neg h_short]
    exact h_next _ _ _ (h.splice (by omega)) h_len

/-- What is left to a stream that has a piece of some length: the piece, and the rest. -/
theorem exists_piece {s : Octets} (h : len ≤ s.length) :
    ∃ piece t, s = piece ++ t ∧ piece.length = len :=
  ⟨s.take len, s.drop len, (List.take_append_drop len s).symm, List.length_take_of_le h⟩

end

end IonContrib
