/-
  IonContrib.Tcpv4.Wire

  The messages of an established session as they stand on the wire, one behind
  the other.

  A reader of the receiver thread takes exactly the octets of a message, and
  there is only one way to read them (`wired_prefix`): what has been read off
  the front of a stream of messages is the front of those messages.
-/
import IonContrib.Tcpv4.Codec
import IonContrib.Tcpv4.Steps

namespace IonContrib.Tcpv4

open Octets

/-- A short message, or a segment with its data. -/
inductive Wire where
  | ctrl (m : Ctrl)
  | segment (seg : XferSegment) (data : Octets)
  deriving DecidableEq, Repr

namespace Wire

def octets : Wire → Octets
  | .ctrl m => m.octets
  | .segment seg data => tmsgXferSegment :: seg.body ++ data

/-- The numbers of the message fit their fields, and a segment has the data it announces. -/
def Fits : Wire → Prop
  | .ctrl (.ack m) => m.InRange
  | .ctrl (.refuse m) => m.InRange
  | .segment seg data => seg.Fits ∧ data.length = seg.dataLength
  | _ => True

def ack? : Wire → Option XferAck
  | .ctrl (.ack m) => some m
  | _ => none

def refuse? : Wire → Option XferRefuse
  | .ctrl (.refuse m) => some m
  | _ => none

def segment? : Wire → Option (XferSegment × Octets)
  | .segment seg data => some (seg, data)
  | _ => none

theorem octets_ne_nil (w : Wire) : w.octets ≠ [] := by
  cases w with
  | ctrl m => cases m <;> exact List.cons_ne_nil _ _
  | segment seg data => exact List.cons_ne_nil _ _

end Wire

/-- A stream of messages. -/
def wired (ms : List Wire) : Octets := ms.flatMap Wire.octets

def acksOf (ms : List Wire) : List XferAck := ms.filterMap Wire.ack?

def refusalsOf (ms : List Wire) : List XferRefuse := ms.filterMap Wire.refuse?

def segmentsOf (ms : List Wire) : List (XferSegment × Octets) := ms.filterMap Wire.segment?

@[simp] theorem wired_nil : wired [] = [] := rfl

@[simp] theorem wired_cons (w : Wire) (ms : List Wire) : wired (w :: ms) = w.octets ++ wired ms := rfl

@[simp] theorem wired_append (ms ms' : List Wire) : wired (ms ++ ms') = wired ms ++ wired ms' :=
  List.flatMap_append

/-! ## Readers take what a message is -/

theorem recvFixed_exact {μ : Type} {encode : Nat → μ → Option Octets}
    {decode : Octets → Decoded μ} {body : μ → Octets} {InRange : μ → Prop} {type : UInt8} {len : Nat}
    (h_law : Lawful encode decode (fun m => [type] ++ body m) InRange) {s rest : Octets} {m : μ}
    (h : recvFixed type len decode s = .got m rest) : s = body m ++ rest ∧ InRange m := by
  obtain ⟨data, s', h_take, h_rest⟩ := Recv.bind_eq_got.mp h
  obtain ⟨h_len, rfl⟩ := Recv.take_eq_got h_take
  cases h_dec : decode (type :: data) with
  | need => simp [h_dec] at h_rest
  | bad => simp [h_dec] at h_rest
  | ok m' used =>
    rw [h_dec] at h_rest
    by_cases h_used : used = len + 1
    · simp only [h_used, if_true, Recv.got.injEq] at h_rest
      obtain ⟨rfl, rfl⟩ := h_rest
      obtain ⟨h_range, -, h_wire⟩ := h_law.of_decode h_dec
      rw [h_used, List.take_of_length_le (by simp [h_len])] at h_wire
      have h_body : body m' = data := List.tail_eq_of_cons_eq h_wire
      exact ⟨by rw [h_body], h_range⟩
    · simp [h_used] at h_rest

theorem recvXferAck_exact {s rest : Octets} {m : XferAck} (h : recvXferAck s = .got m rest) :
    s = m.body ++ rest ∧ m.InRange := recvFixed_exact lawful_xferAck h

theorem recvXferRefuse_exact {s rest : Octets} {m : XferRefuse}
    (h : recvXferRefuse s = .got m rest) : s = m.body ++ rest ∧ m.InRange :=
  recvFixed_exact lawful_xferRefuse h

theorem recvSessTerm_exact {s rest : Octets} {m : SessTerm} (h : recvSessTerm s = .got m rest) :
    s = [m.flags, m.reason] ++ rest := (recvFixed_exact lawful_sessTerm h).1

theorem tcpv4RecvMsgReject_exact {s rest : Octets} {m : MsgReject}
    (h : tcpv4RecvMsgReject s = .got m rest) : s = [m.reason, m.rejectedType] ++ rest :=
  (recvFixed_exact lawful_msgReject h).1

theorem xferSegmentHdrOf_exact {cap : Nat} {bytes s rest : Octets} {m : XferSegment}
    (h : xferSegmentHdrOf cap (tmsgXferSegment :: bytes) s = .got m rest) :
    m.body = bytes ∧ rest = s ∧ m.InRange := by
  unfold xferSegmentHdrOf at h
  split at h
  · cases h
  cases h_dec : tcpv4MsgDecodeXferSegmentHdr (tmsgXferSegment :: bytes) with
  | need => simp [h_dec] at h
  | bad => simp [h_dec] at h
  | ok m' used =>
    simp only [h_dec] at h
    by_cases h_used : used = (tmsgXferSegment :: bytes).length
    · simp only [h_used, if_true, Recv.got.injEq] at h
      obtain ⟨rfl, rfl⟩ := h
      obtain ⟨h_range, -, h_wire⟩ := lawful_xferSegment.of_decode h_dec
      rw [h_used, List.take_length] at h_wire
      exact ⟨List.tail_eq_of_cons_eq h_wire, rfl, h_range⟩
    · rw [if_neg h_used] at h
      cases h

theorem XferSegment.length_body (m : XferSegment) :
    m.body.length = 17 + if m.isStart then 4 + m.xferExt.length else 0 := by
  unfold XferSegment.body
  cases m.isStart with
  | true =>
    simp only [if_true, List.cons_append, List.length_cons, List.length_append, length_beBytes]
    omega
  | false => simp

theorem recvXferSegmentHdr_exact {s rest : Octets} {m : XferSegment}
    (h : recvXferSegmentHdr segHdrCap s = .got m rest) : s = m.body ++ rest ∧ m.Fits := by
  -- An item list that is longer than what was read for it is not in the header.
  have h_fits : m.InRange → m.body.length ≤ 21 + tcpv4MaxExtLen → m.Fits := by
    intro h_range h_len
    refine ⟨h_range.transferId, h_range.dataLength, ?_, h_range.start⟩
    rw [m.length_body] at h_len
    cases h_start : m.isStart with
    | true =>
      rw [h_start, if_pos rfl] at h_len
      omega
    | false => simp [h_range.start h_start]
  obtain ⟨head, s₁, h_head, h₁⟩ := Recv.bind_eq_got.mp h
  obtain ⟨h_headLen, rfl⟩ := Recv.take_eq_got h_head
  split at h₁
  · obtain ⟨lens, s₂, h_lens, h₂⟩ := Recv.bind_eq_got.mp h₁
    obtain ⟨h_lensLen, rfl⟩ := Recv.take_eq_got h_lens
    dsimp only at h₂
    split at h₂
    · cases h₂
    rename_i h_ext
    obtain ⟨ext, s₃, h_take, h₃⟩ := Recv.bind_eq_got.mp h₂
    obtain ⟨h_extLen, rfl⟩ := Recv.take_eq_got h_take
    obtain ⟨dataLen, s₄, h_data, h₄⟩ := Recv.bind_eq_got.mp h₃
    obtain ⟨h_dataLen, rfl⟩ := Recv.take_eq_got h_data
    simp only [List.cons_append] at h₄
    obtain ⟨h_body, rfl, h_range⟩ := xferSegmentHdrOf_exact h₄
    refine ⟨by rw [h_body]; simp, h_fits h_range ?_⟩
    rw [h_body]
    simp only [List.length_append]
    omega
  · obtain ⟨dataLen, s₄, h_data, h₂⟩ := Recv.bind_eq_got.mp h₁
    obtain ⟨h_dataLen, rfl⟩ := Recv.take_eq_got h_data
    simp only [List.cons_append] at h₂
    obtain ⟨h_body, rfl, h_range⟩ := xferSegmentHdrOf_exact h₂
    refine ⟨by rw [h_body]; simp, h_fits h_range ?_⟩
    rw [h_body, List.length_append]
    omega

/-! ## There is one way to read a stream -/

/-- The next message of a stream, read as the receiver thread reads it. -/
def recvWire : Octets → Recv Wire
  | [] => .wait
  | type :: s =>
    if type = tmsgXferSegment then
      (recvXferSegmentHdr segHdrCap s).bind fun seg s =>
        (tcpv4ConnRecv seg.dataLength s).bind fun data s => .got (.segment seg data) s
    else if type = tmsgXferAck then (recvXferAck s).bind fun m s => .got (.ctrl (.ack m)) s
    else if type = tmsgXferRefuse then (recvXferRefuse s).bind fun m s => .got (.ctrl (.refuse m)) s
    else if type = tmsgKeepalive then .got (.ctrl .keepalive) s
    else if type = tmsgMsgReject then
      (tcpv4RecvMsgReject s).bind fun m s => .got (.ctrl (.msgReject m)) s
    else if type = tmsgSessTerm then
      (recvSessTerm s).bind fun m s => .got (.ctrl (.sessTerm m)) s
    else .fail

theorem recvWire_octets {w : Wire} (h : w.Fits) (t : Octets) :
    recvWire (w.octets ++ t) = .got w t := by
  cases w with
  | segment seg data =>
    obtain ⟨h_seg, h_len⟩ := h
    simp only [Wire.octets, recvWire, List.cons_append, List.append_assoc, if_true]
    rw [recvXferSegmentHdr_body h_seg, Recv.bind_got, tcpv4ConnRecv, Recv.take_append t h_len,
      Recv.bind_got]
  | ctrl m =>
    cases m with
    | ack m =>
      show recvWire (tmsgXferAck :: (m.body ++ t)) = _
      rw [recvWire, recvXferAck_body h.transferId h.ackLength]
      rfl
    | refuse m =>
      show recvWire (tmsgXferRefuse :: (m.body ++ t)) = _
      rw [recvWire, recvXferRefuse_body h]
      rfl
    | sessTerm m =>
      show recvWire (tmsgSessTerm :: ([m.flags, m.reason] ++ t)) = _
      rw [recvWire, recvSessTerm_body]
      rfl
    | msgReject m =>
      show recvWire (tmsgMsgReject :: ([m.reason, m.rejectedType] ++ t)) = _
      rw [recvWire, tcpv4RecvMsgReject_body]
      rfl
    | keepalive => rfl

/-- **A stream of messages is read in one way**: what is read off its front are its first
    messages. -/
theorem wired_prefix {ms ms' : List Wire} (h_ms : ∀ w ∈ ms, w.Fits) (h_ms' : ∀ w ∈ ms', w.Fits)
    (h : wired ms <+: wired ms') : ms <+: ms' := by
  induction ms generalizing ms' with
  | nil => exact List.nil_prefix
  | cons w ms ih =>
    obtain ⟨more, h⟩ := h
    cases ms' with
    | nil =>
      rw [wired_cons, List.append_assoc, wired_nil] at h
      exact absurd (List.append_eq_nil_iff.mp h).1 w.octets_ne_nil
    | cons w' ms' =>
      have h_read := recvWire_octets (h_ms w List.mem_cons_self) (wired ms ++ more)
      rw [← List.append_assoc, ← wired_cons, h, wired_cons,
        recvWire_octets (h_ms' w' List.mem_cons_self)] at h_read
      obtain ⟨rfl, h_rest⟩ := Recv.got.inj h_read
      have h_tail := ih (fun v h_v => h_ms v (List.mem_cons_of_mem _ h_v))
        (fun v h_v => h_ms' v (List.mem_cons_of_mem _ h_v)) ⟨more, h_rest.symm⟩
      exact List.cons_prefix_cons.mpr ⟨rfl, h_tail⟩

end IonContrib.Tcpv4
