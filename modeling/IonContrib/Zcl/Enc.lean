/-
  IonContrib.Zcl.Enc

  The compressor of `zclcodec.c`: bundles are added to the open chunk, carriers
  are cut from it, and it is ended or aborted.

  libzstd is a parameter: `ZstdC` is its streaming compressor as `compress` uses
  it.  A call that is given room and is not done has made progress, and `work`
  bounds the calls.

  The counters have the widths of the C program: `seq` 32 bits, the others 64.
-/
import IonContrib.Lib.Doubling
import IonContrib.Lib.Lts
import IonContrib.Zcl.Carrier

namespace IonContrib.Zcl

open Octets

/-! ## The compressor of libzstd -/

/-- `ZSTD_EndDirective`. -/
inductive ZDirective where
  | goOn
  | flush
  | finish
  deriving DecidableEq, Repr

/-- One call: the context after it, the octets of input taken, what was put into the output
    buffer, and what is left to emit, or `none` for `ZSTD_isError`. -/
structure ZPut (δ : Type) where
  cctx : δ
  used : Nat
  out : Octets
  ret : Option Nat

/-- The condition under which `compress` is done. -/
def zDone (dir : ZDirective) (input : Octets) {δ : Type} (call : ZPut δ) : Bool :=
  if dir = .goOn then decide (call.used = input.length) else decide (call.ret = some 0)

structure ZstdC where
  CCtx : Type
  /-- A context made or reset. -/
  fresh : CCtx
  /-- `ZSTD_CStreamOutSize ()`. -/
  outSize : Nat
  outSize_pos : 0 < outSize
  compressStream2 : CCtx → Nat → Octets → ZDirective → ZPut CCtx
  work : CCtx → Octets → ZDirective → Nat
  /-- A call that leaves something to do has made progress. -/
  progress : ∀ d room input dir, 0 < room → (compressStream2 d room input dir).ret ≠ none →
    zDone dir input (compressStream2 d room input dir) = false →
    work (compressStream2 d room input dir).cctx
      (input.drop (compressStream2 d room input dir).used) dir < work d input dir

/-! ## State -/

/-- `out` is the zstd data behind the header room, `none` when there is no buffer. -/
structure ZclEnc (δ : Type) where
  cctx : δ
  streamId : Nat
  chunkId : Nat
  seq : Nat
  inChunk : Bool
  chunkIn : Nat
  pendingIn : Nat
  out : Option Octets
  outCap : Nat

/-- What an encoder is made with, and whether the n-th allocation succeeds. -/
structure ZclEncCfg where
  z : ZstdC
  streamId : Nat
  streamId_lt : streamId < 2 ^ 64
  mem : Nat → Bool

variable (c : ZclEncCfg)

abbrev ZclEncCfg.Enc : Type := ZclEnc c.z.CCtx

/-- An encoder, the allocations so far, and the carriers cut. -/
structure ZclEncRun where
  enc : c.Enc
  allocs : Nat
  cut : List Octets

def zclEncInit : ZclEncRun c := ⟨⟨c.z.fresh, c.streamId, 0, 0, false, 0, 0, none, 0⟩, 0, []⟩

/-! ## Compressing -/

/-- `outLen`. -/
def ZclEnc.outLen {δ : Type} (e : ZclEnc δ) : Nat :=
  match e.out with
  | none => 0
  | some out => zclHdrLen + out.length

/-- The capacity that holds `want` octets. -/
def ZclEnc.capFor {δ : Type} (e : ZclEnc δ) (want : Nat) : Nat :=
  doubleUntil want (if e.outCap ≠ 0 then e.outCap else 64 * 1024) want

/-- Makes the buffer hold `want` octets. -/
def growOut (w : ZclEncRun c) (want : Nat) : ZclEncRun c × Bool :=
  let cap := w.enc.capFor want
  if cap = w.enc.outCap then (w, true)
  else if c.mem w.allocs then
    ({ w with enc := { w.enc with outCap := cap }, allocs := w.allocs + 1 }, true)
  else ({ w with allocs := w.allocs + 1 }, false)

/-- Room for what one call may emit. -/
def makeRoom (w : ZclEncRun c) : ZclEncRun c × Bool :=
  if w.enc.outCap - w.enc.outLen < c.z.outSize then growOut c w (w.enc.outLen + c.z.outSize)
  else (w, true)

/-- A call of the compressor, whose output goes behind what is in the buffer. -/
def zPut (w : ZclEncRun c) (call : ZPut c.z.CCtx) : ZclEncRun c :=
  { w with enc := { w.enc with cctx := call.cctx, out := w.enc.out.map (· ++ call.out) } }

theorem le_capFor {δ : Type} (e : ZclEnc δ) (want : Nat) : want ≤ e.capFor want := by
  have h_pos : 0 < if e.outCap ≠ 0 then e.outCap else 64 * 1024 := by
    split
    · next h_cap => exact Nat.pos_of_ne_zero h_cap
    · decide
  exact le_doubleUntil h_pos (Nat.le_add_left want _)

/-- All that making room can change is the capacity. -/
theorem growOut_cases (w : ZclEncRun c) (want : Nat) :
    (growOut c w want = (w, true) ∧ want ≤ w.enc.outCap) ∨
      (∃ cap, growOut c w want =
        ({ w with enc := { w.enc with outCap := cap }, allocs := w.allocs + 1 }, true) ∧
          want ≤ cap) ∨
      growOut c w want = ({ w with allocs := w.allocs + 1 }, false) := by
  have h_le := le_capFor w.enc want
  unfold growOut
  dsimp only
  by_cases h_same : w.enc.capFor want = w.enc.outCap
  · rw [if_pos h_same]
    exact Or.inl ⟨rfl, h_same ▸ h_le⟩
  · rw [if_neg h_same]
    cases c.mem w.allocs with
    | true => exact Or.inr (Or.inl ⟨_, rfl, h_le⟩)
    | false => exact Or.inr (Or.inr rfl)

/-- There is room for a call when the buffer could be made large enough. -/
theorem room_makeRoom {w : ZclEncRun c} (h : (makeRoom c w).2 = true) :
    0 < (makeRoom c w).1.enc.outCap - (makeRoom c w).1.enc.outLen := by
  have h_pos := c.z.outSize_pos
  unfold makeRoom at h ⊢
  by_cases h_small : w.enc.outCap - w.enc.outLen < c.z.outSize
  · rw [if_pos h_small] at h ⊢
    rcases growOut_cases c w (w.enc.outLen + c.z.outSize) with
      ⟨h_eq, h_le⟩ | ⟨cap, h_eq, h_le⟩ | h_eq
    · rw [h_eq]
      dsimp only
      omega
    · rw [h_eq]
      show 0 < cap - w.enc.outLen
      omega
    · rw [h_eq] at h
      cases h
  · rw [if_neg h_small]
    dsimp only
    omega

/-- The loop of `compress`; `false` for -1. -/
def compressLoop (w : ZclEncRun c) (input : Octets) (dir : ZDirective) : ZclEncRun c × Bool :=
  if _h_room : (makeRoom c w).2 = true then
    let call := c.z.compressStream2 w.enc.cctx
      ((makeRoom c w).1.enc.outCap - (makeRoom c w).1.enc.outLen) input dir
    let w := zPut c (makeRoom c w).1 call
    if _h_err : call.ret = none then (w, false)
    else if _h_done : zDone dir input call = true then (w, true)
    else compressLoop w (input.drop call.used) dir
  else ((makeRoom c w).1, false)
termination_by c.z.work w.enc.cctx input dir
decreasing_by exact c.z.progress _ _ _ _ (room_makeRoom c _h_room) _h_err (by simpa using _h_done)

/-- Runs the compressor over `data`, appending what it emits behind the header room. -/
def compress (w : ZclEncRun c) (data : Octets) (dir : ZDirective) : ZclEncRun c × Bool :=
  match w.enc.out with
  | none =>
    match growOut c w (zclHdrLen + c.z.outSize) with
    | (w, false) => (w, false)
    | (w, true) => compressLoop c { w with enc := { w.enc with out := some [] } } data dir
  | some _ => compressLoop c w data dir

/-! ## Calls -/

def zclEncAdd (w : ZclEncRun c) (bundle : Octets) : ZclEncRun c × Int :=
  if bundle.length = 0 ∨ bundle.length > 0xffffffff then (w, -1)
  else
    match compress c w (beBytes 4 bundle.length) .goOn with
    | (w, false) => (w, -1)
    | (w, true) =>
      match compress c w bundle .goOn with
      | (w, false) => (w, -1)
      | (w, true) =>
        ({ w with enc := { w.enc with
            inChunk := true
            chunkIn := (w.enc.chunkIn + bundle.length) % 2 ^ 64
            pendingIn := (w.enc.pendingIn + bundle.length) % 2 ^ 64 } }, 0)

/-- The header of the carrier that is cut next. -/
def nextHeader {δ : Type} (e : ZclEnc δ) (endChunk : Bool) (payload : Octets) : ZclHeader where
  flags := if endChunk then zclFlagEnd else 0
  streamId := e.streamId
  chunkId := e.chunkId
  seq := e.seq
  length := payload.length

/-- The encoder after a carrier has been cut. -/
def afterCut {δ : Type} (e : ZclEnc δ) (endChunk : Bool) : ZclEnc δ :=
  let e := { e with out := none, outCap := 0, pendingIn := 0, seq := (e.seq + 1) % 2 ^ 32 }
  if endChunk then
    { e with chunkId := (e.chunkId + 1) % 2 ^ 64, seq := 0, inChunk := false, chunkIn := 0 }
  else e

def zclEncCut (w : ZclEncRun c) (endChunk : Bool) : ZclEncRun c × Int :=
  if !w.enc.inChunk ∨ w.enc.pendingIn = 0 ∧ !endChunk then (w, 0)
  else
    match compress c w [] (if endChunk then .finish else .flush) with
    | (w, false) => (w, -1)
    | (w, true) =>
      let payload := w.enc.out.getD []
      if payload.length > zclMaxCarrier then (w, -1)
      else
        ({ w with
          enc := afterCut w.enc endChunk
          cut := w.cut ++ [zclHeaderPut (nextHeader w.enc endChunk payload) payload ++ payload] },
          1)

/-- Drops the open chunk. -/
def zclEncAbort (w : ZclEncRun c) : ZclEncRun c :=
  { w with enc := { w.enc with
      cctx := c.z.fresh
      out := none
      outCap := 0
      chunkId := if w.enc.seq > 0 then (w.enc.chunkId + 1) % 2 ^ 64 else w.enc.chunkId
      seq := 0
      inChunk := false
      chunkIn := 0
      pendingIn := 0 } }

/-! ## Runs -/

inductive ZclEncAct where
  | add (bundle : Octets)
  | cut (endChunk : Bool)
  | abort

/-- Any call may follow any other, whatever it returned. -/
def encStep (w : ZclEncRun c) : ZclEncAct → Option (ZclEncRun c)
  | .add bundle => some (zclEncAdd c w bundle).1
  | .cut endChunk => some (zclEncCut c w endChunk).1
  | .abort => some (zclEncAbort c w)

end IonContrib.Zcl
