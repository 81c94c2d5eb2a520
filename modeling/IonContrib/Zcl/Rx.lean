/-
  IonContrib.Zcl.Rx

  The receive state machine of `zclcodec.c`.

  libzstd is a parameter: `Zstd` is its streaming decoder as `decodeCarrier`
  uses it.  Its `work` bounds the calls a carrier takes, for a call that neither
  takes input nor gives output is an error of the library.

  `ZclCfg` is what a receiver is made with, together with the answers it gets
  from outside: `mem n` says whether the n-th allocation succeeds, `emit n`
  whether the n-th bundle is taken.  `handed` and `emitted` record what the
  C program leaves no trace of: the carriers given to the decoder, and the
  bundles given to the emit function.

  Buffered carriers are counted by `Nat`, for `bufCount` stays within
  `maxCarriers + 1`.
-/
import IonContrib.Zcl.Carrier
import IonContrib.Lib.Doubling

namespace IonContrib.Zcl

open Octets

/-! ## The decoder of libzstd -/

/-- What `ZSTD_decompressStream` answers: `ZSTD_isError`, 0 or more to come. -/
inductive ZRet
  | error
  | frameEnd
  | more
  deriving DecidableEq, Repr

/-- One call: the context after it, the octets of input taken, what was put into the output
    buffer, and the answer. -/
structure ZCall (δ : Type) where
  dctx : δ
  used : Nat
  out : Octets
  ret : ZRet

structure Zstd where
  DCtx : Type
  /-- A context made or reset. -/
  fresh : DCtx
  decompressStream : DCtx → Nat → Octets → ZCall DCtx
  work : DCtx → Octets → Nat
  /-- A call that leaves something to do has made progress. -/
  progress : ∀ d room input, (decompressStream d room input).ret = .more →
    (decompressStream d room input).used < input.length ∨
      (decompressStream d room input).out.length = room →
    work (decompressStream d room input).dctx
      (input.drop (decompressStream d room input).used) < work d input

/-! ## State -/

structure Pending where
  chunk : Nat
  seq : Nat
  isEnd : Bool
  atMs : Nat
  data : Octets
  deriving DecidableEq, Repr

/-- The fields of a stream that `takeRecords` works on.  `lenBuf` and `record` (`rec`) are as long as
    `lenHave` and `recHave` say. -/
structure ZclRecords where
  chunkOut : Nat
  lenBuf : Octets
  recLen : Nat
  record : Octets
  recCap : Nat

structure ZclStream (δ : Type) where
  used : Bool
  id : Nat
  lastUse : Nat
  synced : Bool
  cur : Nat
  next : Nat
  haveDone : Bool
  done : Nat
  dctx : δ
  frameDone : Bool
  records : ZclRecords
  buf : List Pending
  bufCount : Nat
  bufBytes : Nat

structure ZclRxLimits where
  maxBundle : Nat
  maxChunkOut : Nat
  reorderMs : Nat
  maxCarriers : Nat
  maxBufBytes : Nat
  maxStreams : Nat

structure ZclRxStats where
  carriersIn : Nat
  carriersBad : Nat
  carriersStale : Nat
  carriersDropped : Nat
  bytesIn : Nat
  bundlesOut : Nat
  bytesOut : Nat
  emitFailed : Nat
  chunksDone : Nat
  chunksLost : Nat
  chunksCorrupt : Nat
  streamsEvicted : Nat
  deriving DecidableEq, Repr

structure ZclCfg where
  z : Zstd
  /-- `ZSTD_DStreamOutSize ()`. -/
  tmpLen : Nat
  limits : ZclRxLimits
  mem : Nat → Bool
  emit : Nat → Bool

/-- What the functions on a stream change besides the stream. -/
structure ZclWork where
  stats : ZclRxStats
  emitted : List Octets
  handed : Nat
  allocs : Nat

abbrev ZclCfg.Stream (c : ZclCfg) : Type := ZclStream c.z.DCtx

structure ZclRx (c : ZclCfg) where
  streams : List c.Stream
  useClock : Nat
  work : ZclWork

def zclRxDefaults : ZclRxLimits where
  maxBundle := 64 * 1024 * 1024
  maxChunkOut := 1024 * 1024 * 1024
  reorderMs := 10000
  maxCarriers := 4096
  maxBufBytes := 64 * 1024 * 1024
  maxStreams := 16

variable (c : ZclCfg)

/-- A stream set to zeros. -/
def freeStream : c.Stream :=
  ⟨false, 0, 0, false, 0, 0, false, 0, c.z.fresh, false, ⟨0, [], 0, [], 0⟩, [], 0, 0⟩

def zclRxNew : Option (ZclRx c) :=
  if c.limits.maxStreams = 0 ∨ c.limits.maxBundle = 0 then none
  else some ⟨List.replicate c.limits.maxStreams (freeStream c), 0,
    ⟨⟨0, 0, 0, 0, 0, 0, 0, 0, 0, 0, 0, 0⟩, [], 0, 0⟩⟩

/-! ## Records -/

/-- `emit`, with the statistics it leads to. -/
def emitRecord (w : ZclWork) (record : Octets) : ZclWork :=
  let stats :=
    if c.emit w.emitted.length then
      { w.stats with
        bundlesOut := w.stats.bundlesOut + 1
        bytesOut := w.stats.bytesOut + record.length }
    else { w.stats with emitFailed := w.stats.emitFailed + 1 }
  { w with stats := stats, emitted := w.emitted ++ [record] }

/-- Room for `want` octets of the record; `false` when there is no memory. -/
def growRec (w : ZclWork) (r : ZclRecords) (want : Nat) : ZclWork × ZclRecords × Bool :=
  if want > r.recCap then
    let cap := doubleUntil want (if r.recCap = 0 then 4096 else r.recCap) want
    let cap := if cap > r.recLen then r.recLen else cap
    let got := c.mem w.allocs
    ({ w with allocs := w.allocs + 1 }, if got then { r with recCap := cap } else r, got)
  else (w, r, true)

/-- A round of `takeRecords` that takes an octet of a length. -/
def takeLen (w : ZclWork) (r : ZclRecords) (b : UInt8) (data : Octets) :
    ZclWork × ZclRecords × Option Octets :=
  let r := { r with lenBuf := r.lenBuf ++ [b] }
  if r.lenBuf.length = zclRecHdrLen then
    let r := { r with recLen := beNat r.lenBuf, record := [] }
    (w, r, if r.recLen = 0 ∨ r.recLen > c.limits.maxBundle then none else some data)
  else (w, r, some data)

/-- How much of `len` octets belongs to the record. -/
def takeSize (r : ZclRecords) (len : Nat) : Nat :=
  if r.recLen - r.record.length > len then len else r.recLen - r.record.length

/-- A round of `takeRecords` that takes octets of a record. -/
def takeBody (w : ZclWork) (r : ZclRecords) (data : Octets) :
    ZclWork × ZclRecords × Option Octets :=
  let take := takeSize r data.length
  match growRec c w r (r.record.length + take) with
  | (w, r, false) => (w, r, none)
  | (w, r, true) =>
    let r := { r with record := r.record ++ data.take take }
    if r.record.length = r.recLen then
      (emitRecord c w r.record, { r with lenBuf := [], recLen := 0, record := [] },
        some (data.drop take))
    else (w, r, some (data.drop take))

/-- The loop of `takeRecords`.  Every round takes at least one octet, so there are no more
    rounds than octets. -/
def takeRounds : Nat → ZclWork → ZclRecords → Octets → ZclWork × ZclRecords × Bool
  | 0, w, r, _ => (w, r, true)
  | _ + 1, w, r, [] => (w, r, true)
  | rounds + 1, w, r, b :: data =>
    match if r.lenBuf.length < zclRecHdrLen then takeLen c w r b data
      else takeBody c w r (b :: data) with
    | (w, r, none) => (w, r, false)
    | (w, r, some data) => takeRounds rounds w r data

/-- Takes decompressed octets into records; `false` if the chunk is corrupt. -/
def takeRecords (w : ZclWork) (r : ZclRecords) (data : Octets) : ZclWork × ZclRecords × Bool :=
  if data.length > c.limits.maxChunkOut - r.chunkOut then (w, r, false)
  else takeRounds c data.length w { r with chunkOut := r.chunkOut + data.length } data

/-! ## Decoding -/

/-- What the loop of `decodeCarrier` leaves: on a return out of it nothing, else the input
    not taken, and whether the frame ended. -/
structure ZclDecoded (δ : Type) where
  work : ZclWork
  dctx : δ
  records : ZclRecords
  rest : Option (Octets × Bool)

def decodeLoop (w : ZclWork) (d : c.z.DCtx) (r : ZclRecords) (input : Octets) :
    ZclDecoded c.z.DCtx :=
  let call := c.z.decompressStream d c.tmpLen input
  if call.ret = .error then ⟨w, call.dctx, r, none⟩
  else
    match takeRecords c w r call.out with
    | (w, r, false) => ⟨w, call.dctx, r, none⟩
    | (w, r, true) =>
      if call.ret = .frameEnd then ⟨w, call.dctx, r, some (input.drop call.used, true)⟩
      else if _h : call.ret = .more ∧
          (call.used < input.length ∨ call.out.length = c.tmpLen) then
        decodeLoop w call.dctx r (input.drop call.used)
      else ⟨w, call.dctx, r, some (input.drop call.used, false)⟩
termination_by c.z.work d input
decreasing_by exact c.z.progress d c.tmpLen input _h.1 _h.2

/-- Decodes the next carrier of the current chunk; `false` if the chunk is corrupt. -/
def decodeCarrier (w : ZclWork) (s : c.Stream) (p : Pending) : ZclWork × c.Stream × Bool :=
  let w := { w with handed := w.handed + 1 }
  if s.frameDone then (w, s, false)
  else
    let w := { w with stats := { w.stats with bytesIn := w.stats.bytesIn + p.data.length } }
    let out := decodeLoop c w s.dctx s.records p.data
    let s := { s with dctx := out.dctx, records := out.records }
    match out.rest with
    | none => (out.work, s, false)
    | some (rest, frameDone) =>
      let s := { s with frameDone := frameDone }
      if rest ≠ [] then (out.work, s, false)
      else if p.isEnd then
        -- The chunk must end on a frame and a record.
        (out.work, s, s.frameDone && s.records.lenBuf.isEmpty)
      else (out.work, s, !s.frameDone)

/-! ## The reorder buffer -/

/-- Drops the buffered carriers of chunks below `chunk`. -/
def dropBelow (w : ZclWork) (s : c.Stream) (chunk : Nat) : ZclWork × c.Stream :=
  let gone := s.buf.takeWhile (·.chunk < chunk)
  ({ w with stats := { w.stats with carriersDropped := w.stats.carriersDropped + gone.length } },
    { s with
      buf := s.buf.dropWhile (·.chunk < chunk)
      bufCount := s.bufCount - gone.length
      bufBytes := s.bufBytes - (gone.map (·.data.length)).sum })

def resetChunk (s : c.Stream) : c.Stream :=
  let recCap := if s.records.recCap > 1024 * 1024 then 0 else s.records.recCap
  { s with dctx := c.z.fresh, frameDone := false, records := ⟨0, [], 0, [], recCap⟩ }

/-- `chunk + 1` in 64 bits. -/
def nextChunk (chunk : Nat) : Nat := (chunk + 1) % 2 ^ 64

/-- Ends the current chunk; what is buffered for it goes too. -/
def endChunk (w : ZclWork) (s : c.Stream) : ZclWork × c.Stream :=
  let s := { s with synced := false, haveDone := true, done := s.cur }
  let (w, s) := dropBelow c w s (nextChunk s.cur)
  (w, resetChunk c s)

def syncTo (w : ZclWork) (s : c.Stream) (chunk : Nat) : ZclWork × c.Stream :=
  let (w, s) := dropBelow c w s chunk
  (w, resetChunk c { s with synced := true, cur := chunk, next := 0 })

/-- The first chunk start in the buffer. -/
def firstStart (buf : List Pending) : Option Pending := buf.find? fun p => decide (p.seq = 0)

/-- Takes the head `p` off the buffer. -/
def unbuffer (s : c.Stream) (p : Pending) (rest : List Pending) : c.Stream :=
  { s with buf := rest, bufCount := s.bufCount - 1, bufBytes := s.bufBytes - p.data.length }

/-- One round of `drain`; `none` where the loop is left. -/
def drainRound (w : ZclWork) (s : c.Stream) : Option (ZclWork × c.Stream) :=
  match s.buf with
  | [] => none
  | p :: rest =>
    if !s.synced then
      match firstStart s.buf with
      | none => none
      | some start =>
        if start.chunk ≠ (if s.haveDone then nextChunk s.done else 0) then none
        else some (syncTo c w s start.chunk)
    else if p.chunk ≠ s.cur ∨ p.seq ≠ s.next then none
    else
      match decodeCarrier c w (unbuffer c s p rest) p with
      | (w, s, false) =>
        let stats := { w.stats with chunksCorrupt := w.stats.chunksCorrupt + 1 }
        some (endChunk c { w with stats := stats } s)
      | (w, s, true) =>
        if p.isEnd then
          let stats := { w.stats with chunksDone := w.stats.chunksDone + 1 }
          some (endChunk c { w with stats := stats } s)
        else some (w, { s with next := (s.next + 1) % 2 ^ 32 })

def drainRounds : Nat → ZclWork → c.Stream → ZclWork × c.Stream
  | 0, w, s => (w, s)
  | rounds + 1, w, s =>
    match drainRound c w s with
    | none => (w, s)
    | some (w, s) => drainRounds rounds w s

/-- Decodes everything that is next in line.  A round takes a carrier off the buffer or goes
    to a chunk whose start is taken next, so these rounds are enough. -/
def drain (w : ZclWork) (s : c.Stream) : ZclWork × c.Stream :=
  drainRounds c (2 * s.buf.length + 1) w s

/-- Gives up waiting for what is missing at the head of the buffer. -/
def resolveGap (w : ZclWork) (s : c.Stream) : ZclWork × c.Stream :=
  if s.synced then
    let stats := { w.stats with chunksLost := w.stats.chunksLost + 1 }
    endChunk c { w with stats := stats } s
  else
    match firstStart s.buf with
    | some p => syncTo c w s p.chunk
    | none =>
      -- No chunk start buffered: the lowest chunk's start is lost.
      match s.buf with
      | [] => (w, s)
      | head :: _ =>
        dropBelow c w { s with haveDone := true, done := head.chunk } (nextChunk head.chunk)

/-- The buffer is too full, or its head has waited too long. -/
def overdue (s : c.Stream) (nowMs : Nat) : Bool :=
  decide (s.bufCount > c.limits.maxCarriers) || decide (s.bufBytes > c.limits.maxBufBytes) ||
    match s.buf with
    | [] => false
    | head :: _ => decide (nowMs ≥ head.atMs ∧ nowMs - head.atMs ≥ c.limits.reorderMs)

def settleRounds : Nat → ZclWork → c.Stream → Nat → ZclWork × c.Stream
  | 0, w, s, _ => (w, s)
  | rounds + 1, w, s, nowMs =>
    if s.buf = [] then (w, s)
    else
      let (w, s) := drain c w s
      if s.buf = [] then (w, s)
      else if overdue c s nowMs then
        let (w, s) := resolveGap c w s
        settleRounds rounds w s nowMs
      else (w, s)

def settleGuard : Nat := 1000000

/-- Decodes what it can and gives up the gaps that have lasted. -/
def settle (w : ZclWork) (s : c.Stream) (nowMs : Nat) : ZclWork × c.Stream :=
  settleRounds c settleGuard w s nowMs

/-! ## Carriers and ticks -/

/-- Whether a stream takes the place of the victim found so far. -/
def betterVictim (victim s : c.Stream) : Bool :=
  !s.used || (victim.used && decide (s.lastUse < victim.lastUse))

/-- The loop that looks for a victim: its place and itself. -/
def findVictim : List c.Stream → Nat → Option (Nat × c.Stream) → Option (Nat × c.Stream)
  | [], _, victim => victim
  | s :: rest, i, none => findVictim rest (i + 1) (some (i, s))
  | s :: rest, i, some (j, victim) =>
    findVictim rest (i + 1) (if betterVictim c victim s then some (i, s) else some (j, victim))

/-- The loop that looks for a stream in use with this id. -/
def lookupStream (id : Nat) : List c.Stream → Nat → Option (Nat × c.Stream)
  | [], _ => none
  | s :: rest, i =>
    if s.used ∧ s.id = id then some (i, s) else lookupStream id rest (i + 1)

variable {c}

/-- What evicting a stream counts. -/
def countEvicted (stats : ZclRxStats) (victim : c.Stream) : ZclRxStats :=
  if victim.used then
    { stats with
      carriersDropped := stats.carriersDropped + victim.bufCount
      streamsEvicted := stats.streamsEvicted + 1 }
  else stats

/-- The place of the stream with this id, which may be made for it; `none` when there is no
    memory for a decoder. -/
def findStream (rx : ZclRx c) (id : Nat) : ZclRx c × Option Nat :=
  match lookupStream c id rx.streams 0 with
  | some (i, s) =>
    let useClock := rx.useClock + 1
    (⟨rx.streams.set i { s with lastUse := useClock }, useClock, rx.work⟩, some i)
  | none =>
    match findVictim c rx.streams 0 none with
    | none => (rx, none)
    | some (i, victim) =>
      let work := { rx.work with
        stats := countEvicted rx.work.stats victim
        allocs := rx.work.allocs + 1 }
      let victim := if victim.used then freeStream c else victim
      if !c.mem rx.work.allocs then (⟨rx.streams.set i victim, rx.useClock, work⟩, none)
      else
        let useClock := rx.useClock + 1
        let victim := { victim with
          dctx := c.z.fresh
          used := true
          id := id
          lastUse := useClock }
        (⟨rx.streams.set i victim, useClock, work⟩, some i)

/-- Old, or before what is decoded next. -/
def staleCarrier (s : c.Stream) (h : ZclHeader) : Bool :=
  (s.haveDone && decide (h.chunkId ≤ s.done)) ||
    (s.synced && decide (h.chunkId = s.cur) && decide (h.seq < s.next)) ||
      (s.synced && decide (h.chunkId < s.cur))

/-- `p` is at or behind place `(chunk, seq)`. -/
def Pending.atOrBehind (p : Pending) (chunk seq : Nat) : Bool :=
  decide (p.chunk > chunk) || (decide (p.chunk = chunk) && decide (p.seq ≥ seq))

/-- The carrier in front of its place in the buffer; `none` when it is there already. -/
def insertPending (p : Pending) : List Pending → Option (List Pending)
  | [] => some [p]
  | q :: rest =>
    if q.atOrBehind p.chunk p.seq then
      if q.chunk = p.chunk ∧ q.seq = p.seq then none else some (p :: q :: rest)
    else (insertPending p rest).map (q :: ·)

def ZclRx.countStale (rx : ZclRx c) : ZclRx c :=
  { rx with work := { rx.work with stats := { rx.work.stats with
      carriersStale := rx.work.stats.carriersStale + 1 } } }

def ZclRx.countDropped (rx : ZclRx c) : ZclRx c :=
  { rx with work := { rx.work with stats := { rx.work.stats with
      carriersDropped := rx.work.stats.carriersDropped + 1 } } }

/-- The part of `zclRxCarrier` behind `findStream`, for the stream at place `i`. -/
def takeCarrier (rx : ZclRx c) (i : Nat) (s : c.Stream) (h : ZclHeader) (data : Octets)
    (nowMs : Nat) : ZclRx c :=
  if staleCarrier s h then rx.countStale
  else
    let p : Pending := ⟨h.chunkId, h.seq, h.flags &&& zclFlagEnd != 0, nowMs, data⟩
    match insertPending p s.buf with
    | none => rx.countStale
    | some buf =>
      let work := { rx.work with allocs := rx.work.allocs + 1 }
      if !c.mem rx.work.allocs then { rx with work := work }.countDropped
      else
        let s := { s with
          buf := buf
          bufCount := s.bufCount + 1
          bufBytes := s.bufBytes + data.length }
        let (work, s) := settle c work s nowMs
        { rx with work := work, streams := rx.streams.set i s }

/-- Takes one received carrier; `false` if it was refused. -/
def zclRxCarrier (rx : ZclRx c) (carrier : Octets) (nowMs : Nat) : ZclRx c × Bool :=
  let rx := { rx with work := { rx.work with stats := { rx.work.stats with
    carriersIn := rx.work.stats.carriersIn + 1 } } }
  match zclHeaderGet carrier with
  | none => ({ rx with work := { rx.work with stats := { rx.work.stats with
      carriersBad := rx.work.stats.carriersBad + 1 } } }, false)
  | some h =>
    match findStream rx h.streamId with
    | (rx, none) => (rx.countDropped, true)
    | (rx, some i) =>
      match rx.streams[i]? with
      | none => (rx, true)
      | some s =>
        (takeCarrier rx i s h ((carrier.drop zclHdrLen).take h.length) nowMs, true)

/-- The loop of `zclRxTick`. -/
def tickStreams (nowMs : Nat) : ZclWork → List c.Stream → ZclWork × List c.Stream
  | w, [] => (w, [])
  | w, s :: rest =>
    let (w, s) := if s.used then settle c w s nowMs else (w, s)
    let (w, rest) := tickStreams nowMs w rest
    (w, s :: rest)

/-- Applies the reorder timeout. -/
def zclRxTick (rx : ZclRx c) (nowMs : Nat) : ZclRx c :=
  let (work, streams) := tickStreams nowMs rx.work rx.streams
  { rx with work := work, streams := streams }

end IonContrib.Zcl
