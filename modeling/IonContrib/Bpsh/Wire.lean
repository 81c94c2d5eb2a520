/-
  IonContrib.Bpsh.Wire

  Frames as octets: `bpsh_encode` and `bpsh_decode` of `bpsh_proto.c`.

  The numbers have the types of the source, so what a cast cuts off is cut off
  here too.  ION's own CBOR calls are parameters (`CborCalls`), with what
  `cbor.h` says of them in `CborCalls.Correct`; those for signed integers are
  in `ioncompat.h`.  A decoder moves its cursor and `bytesBuffered` together,
  so the octets that are left are all there is to pass on.
-/
import IonContrib.Lib.CborHead

namespace IonContrib.Bpsh.Wire

open Octets Cbor

/-! ## CBOR -/

/-- `cbor_encode_*` give what they write.  `cbor_decode_*` get the octets that are buffered and
    give the value and the number of octets read; a byte string is called for with no place to
    put it, so it gives its size and the octets of its head. -/
structure CborCalls where
  encodeInteger : UInt64 → Octets
  encodeByteString : Octets → Octets
  encodeArrayOpen : UInt64 → Octets
  decodeInteger : Octets → Option (UInt64 × Nat)
  decodeByteString : UInt64 → Octets → Option (UInt64 × Nat)
  decodeArrayOpen : UInt64 → Octets → Option Nat

/-- What `cbor.h` says: any length of an integer is read, a byte string no longer than the size
    that is passed, an array of the size that is passed. -/
structure CborCalls.Correct (c : CborCalls) : Prop where
  encodeInteger : ∀ v, Head 0 v.toNat (c.encodeInteger v)
  encodeByteString : ∀ bs, ∃ head, Head 2 (bs.length % 2 ^ 64) head ∧
    c.encodeByteString bs = head ++ bs
  encodeArrayOpen : ∀ size, size ≠ 0xffffffffffffffff → Head 4 size.toNat (c.encodeArrayOpen size)
  decodeInteger : ∀ input v k, c.decodeInteger input = some (v, k) ↔
    ∃ head rest, input = head ++ rest ∧ Head 0 v.toNat head ∧ k = head.length
  decodeByteString : ∀ max input n k, c.decodeByteString max input = some (n, k) ↔
    n ≤ max ∧ ∃ head rest, input = head ++ rest ∧ Head 2 n.toNat head ∧ k = head.length
  decodeArrayOpen : ∀ size input k, size ≠ 0 → size ≠ 0xffffffffffffffff →
    (c.decodeArrayOpen size input = some k ↔
      ∃ head rest, input = head ++ rest ∧ Head 4 size.toNat head ∧ k = head.length)

/-- `cbor_encode_signed_int`. -/
def cborEncodeSignedInt (c : CborCalls) (value : Int) : Octets :=
  if value ≥ 0 then c.encodeInteger (UInt64.ofInt value)
  else
    match c.encodeInteger (UInt64.ofInt (-1 - value)) with
    | [] => []
    | head :: rest => (head ||| 0x20) :: rest

/-- `(vast) magnitude`. -/
def toVast (magnitude : Nat) : Int := (magnitude : Int).bmod (2 ^ 64)

/-- `cbor_decode_signed_int`: the magnitude becomes a `vast` before the sign is looked at. -/
def cborDecodeSignedInt (buffered : Octets) : Option (Int × Nat) :=
  match decodeHead buffered with
  | none => none
  | some (majorType, magnitude, k) =>
    if majorType = 0 then some (toVast magnitude, k)
    else if majorType = 1 then some (-1 - toVast magnitude, k)
    else none

/-! ## Frames -/

/-- `BpshFrame`, with the two enumerations as the compiler has them. -/
structure BpshFrame where
  version : Int32
  msgType : UInt32
  sessionId : UInt64
  seqNum : UInt64
  payload : Octets
  exitCode : Int32
  exitCause : UInt32
  deriving DecidableEq

def bpshVersion : Nat := 1

/-- What the fifth item of a frame is. -/
inductive Kind where
  /-- An empty byte string. -/
  | empty
  /-- A byte string. -/
  | bytes
  /-- An array of an exit code and its cause. -/
  | exit
  deriving DecidableEq, Repr

/-- The cases of `switch (frame->msgType)`. -/
def kindOf (msgType : Nat) : Option Kind :=
  match msgType with
  | 2 | 5 | 10 => some .empty             -- INIT_ACK, STDIN_EOF, EXIT_SESSION
  | 1 | 3 | 4 | 6 | 7 | 9 | 11 => some .bytes
  | 8 => some .exit
  | _ => none

def bpshFrameOverhead : Nat := 64

/-- The conversion of a count of octets to the `int` that is returned. -/
def returned (n : Nat) : Int := (n : Int).bmod (2 ^ 32)

/-! ## Encoding -/

def encodeBody (c : CborCalls) (frame : BpshFrame) : Option Octets :=
  match kindOf frame.msgType.toNat with
  | some .empty => some (c.encodeByteString [])
  | some .bytes => some (c.encodeByteString frame.payload)
  | some .exit =>
    some (c.encodeArrayOpen 2 ++ cborEncodeSignedInt c frame.exitCode.toInt ++
      c.encodeInteger frame.exitCause.toUInt64)
  | none => none

/-- The four numbers in front of the fifth item. -/
def encodeHeader (c : CborCalls) (frame : BpshFrame) : Octets :=
  c.encodeArrayOpen 5 ++ c.encodeInteger (UInt64.ofInt frame.version.toInt) ++
    c.encodeInteger frame.msgType.toUInt64 ++ c.encodeInteger frame.sessionId ++
    c.encodeInteger frame.seqNum

/-- The room that is asked for, in a `uvast`. -/
def BpshFrame.needed (frame : BpshFrame) : Nat :=
  if frame.msgType = 8 then bpshFrameOverhead
  else (bpshFrameOverhead + frame.payload.length) % 2 ^ 64

/-- The octets that are written and what is returned; `none` for -1. -/
def bpshEncode (c : CborCalls) (frame : BpshFrame) (buflen : Nat) : Option (Octets × Int) :=
  if buflen < frame.needed then none
  else
    match encodeBody c frame with
    | none => none
    | some body =>
      let written := encodeHeader c frame ++ body
      if written.length > buflen then none else some (written, returned written.length)

/-! ## Decoding -/

def readInteger (c : CborCalls) (rest : Octets) : Option (UInt64 × Octets) :=
  (c.decodeInteger rest).map fun p => (p.1, rest.drop p.2)

def readArrayOpen (c : CborCalls) (size : UInt64) (rest : Octets) : Option Octets :=
  (c.decodeArrayOpen size rest).map fun k => rest.drop k

def readByteString (c : CborCalls) (max : UInt64) (rest : Octets) : Option (UInt64 × Octets) :=
  (c.decodeByteString max rest).map fun p => (p.1, rest.drop p.2)

def readSignedInt (rest : Octets) : Option (Int × Octets) :=
  (cborDecodeSignedInt rest).map fun p => (p.1, rest.drop p.2)

/-- The cases of the fifth item: the frame, the octets from the payload on, and those behind it. -/
def decodeBody (c : CborCalls) (frame : BpshFrame) (rest : Octets) :
    Option (BpshFrame × Octets × Octets) :=
  match kindOf frame.msgType.toNat with
  | some .empty => do
    let (_, rest) ← readByteString c 0 rest
    some (frame, rest, rest)
  | some .bytes => do
    let (bsSize, rest) ← readByteString c (UInt64.ofNat rest.length) rest
    if bsSize.toNat > rest.length then none
    else some ({ frame with payload := rest.take bsSize.toNat }, rest, rest.drop bsSize.toNat)
  | some .exit => do
    let rest ← readArrayOpen c 2 rest
    let (exitCode, rest) ← readSignedInt rest
    let (val, rest) ← readInteger c rest
    some ({ frame with exitCode := Int32.ofInt exitCode, exitCause := val.toUInt32 }, rest, rest)
  | none => none

/-- A frame, where in the buffer its payload is, and what is returned. -/
structure Decoded where
  frame : BpshFrame
  payloadAt : Nat
  rc : Int
  deriving DecidableEq

def decodeFrame (c : CborCalls) (buffered : Octets) : Option (BpshFrame × Octets × Octets) := do
  let rest ← readArrayOpen c 5 buffered
  let (version, rest) ← readInteger c rest
  let (msgType, rest) ← readInteger c rest
  let (sessionId, rest) ← readInteger c rest
  let (seqNum, rest) ← readInteger c rest
  decodeBody c ⟨Int32.ofInt version.toNat, msgType.toUInt32, sessionId, seqNum, [], 0, 0⟩ rest

/-- `none` for -1. -/
def bpshDecode (c : CborCalls) (buf : Octets) : Option Decoded :=
  if buf = [] then none
  else
    let bytesBuffered := buf.length % 2 ^ 32
    match decodeFrame c (buf.take bytesBuffered) with
    | none => none
    | some (frame, payload, rest) =>
      some ⟨frame, bytesBuffered - payload.length, returned (bytesBuffered - rest.length)⟩

end IonContrib.Bpsh.Wire
