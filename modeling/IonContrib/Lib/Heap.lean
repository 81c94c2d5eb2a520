/-
  IonContrib.Lib.Heap

  A heap of blocks for code that lends out references into its buffers.

  A reference is the place of one octet and the octet that was there.  It is
  good (`Holds`) as long as its block has not been released and the octet is
  still there: allocation keeps every reference good, releasing a block those
  into other blocks, and writing those it does not write over.

  The numbers of blocks are not used again, so a reference into a block that
  was released stays bad.
-/
import IonContrib.Lib.Memory

namespace IonContrib

structure Heap where
  blocks : Nat → Option Memory
  next : Nat

/-- One octet that somebody was given a pointer to. -/
structure Ref where
  block : Nat
  pos : Nat
  octet : UInt8
  deriving DecidableEq

namespace Heap

def empty : Heap := ⟨fun _ => none, 0⟩

/-- The heap with a new block, whose number is `h.next`. -/
def alloc (h : Heap) (m : Memory) : Heap :=
  ⟨fun b => if b = h.next then some m else h.blocks b, h.next + 1⟩

def free (h : Heap) (block : Nat) : Heap :=
  { h with blocks := fun b => if b = block then none else h.blocks b }

def write (h : Heap) (block off : Nat) (data : Octets) : Heap :=
  { h with
    blocks := fun b => if b = block then (h.blocks b).map fun m => m.write off data
      else h.blocks b }

/-- What a block holds; nothing is asked about a block that is not there. -/
def memory (h : Heap) (block : Nat) : Memory := (h.blocks block).getD fun _ => 0

/-- Block numbers in use. -/
def Live (h : Heap) (block : Nat) : Prop := (h.blocks block).isSome = true

structure Wf (h : Heap) : Prop where
  fresh : ∀ b, h.Live b → b < h.next

/-- The octet of a reference is in its place. -/
def Holds (h : Heap) (r : Ref) : Prop := ∃ m, h.blocks r.block = some m ∧ m r.pos = r.octet

instance (h : Heap) (r : Ref) : Decidable (h.Holds r) :=
  match h_block : h.blocks r.block with
  | none => .isFalse fun ⟨_, h_m, _⟩ => by rw [h_block] at h_m; cases h_m
  | some m =>
    decidable_of_iff (m r.pos = r.octet)
      ⟨fun h_octet => ⟨m, h_block, h_octet⟩, fun ⟨_, h_m, h_octet⟩ => by
        rw [h_block] at h_m; cases h_m; exact h_octet⟩

theorem Holds.live {h : Heap} {r : Ref} (h_r : h.Holds r) : h.Live r.block := by
  obtain ⟨m, h_m, -⟩ := h_r
  rw [Live, h_m]
  rfl

/-- A reference to an octet of a live block is good. -/
theorem holds_memory {h : Heap} {block : Nat} (h_live : h.Live block) (pos : Nat) :
    h.Holds ⟨block, pos, h.memory block pos⟩ := by
  obtain ⟨m, h_m⟩ := Option.isSome_iff_exists.mp h_live
  refine ⟨m, h_m, ?_⟩
  show m pos = (h.blocks block).getD (fun _ => 0) pos
  rw [h_m]
  rfl

/-! ## Allocation -/

theorem Wf.alloc {h : Heap} (h_wf : h.Wf) (m : Memory) : (h.alloc m).Wf where
  fresh b h_live := by
    show b < h.next + 1
    by_cases h_b : b = h.next
    · omega
    · have h_old : h.Live b := by
        simpa [Live, Heap.alloc, h_b] using h_live
      have := h_wf.fresh b h_old
      omega

theorem live_alloc_next (h : Heap) (m : Memory) : (h.alloc m).Live h.next := by
  simp [Live, Heap.alloc]

theorem Live.alloc {h : Heap} (h_wf : h.Wf) {b : Nat} (h_live : h.Live b) (m : Memory) :
    (h.alloc m).Live b := by
  have h_ne : b ≠ h.next := Nat.ne_of_lt (h_wf.fresh b h_live)
  simpa [Live, Heap.alloc, h_ne] using h_live

theorem Holds.alloc {h : Heap} (h_wf : h.Wf) {r : Ref} (h_r : h.Holds r) (m : Memory) :
    (h.alloc m).Holds r := by
  have h_ne : r.block ≠ h.next := Nat.ne_of_lt (h_wf.fresh _ h_r.live)
  obtain ⟨old, h_old, h_octet⟩ := h_r
  refine ⟨old, ?_, h_octet⟩
  show (if r.block = h.next then some m else h.blocks r.block) = some old
  rw [if_neg h_ne, h_old]

/-! ## Release -/

theorem Wf.free {h : Heap} (h_wf : h.Wf) (block : Nat) : (h.free block).Wf where
  fresh b h_live := by
    apply h_wf.fresh b
    by_cases h_b : b = block
    · simp [Live, Heap.free, h_b] at h_live
    · simpa [Live, Heap.free, h_b] using h_live

theorem Live.free {h : Heap} {b block : Nat} (h_live : h.Live b) (h_ne : b ≠ block) :
    (h.free block).Live b := by
  simpa [Live, Heap.free, h_ne] using h_live

theorem Holds.free {h : Heap} {r : Ref} (h_r : h.Holds r) {block : Nat}
    (h_ne : r.block ≠ block) : (h.free block).Holds r := by
  obtain ⟨m, h_m, h_octet⟩ := h_r
  refine ⟨m, ?_, h_octet⟩
  show (if r.block = block then none else h.blocks r.block) = some m
  rw [if_neg h_ne, h_m]

/-! ## Writing -/

theorem Wf.write {h : Heap} (h_wf : h.Wf) (block off : Nat) (data : Octets) :
    (h.write block off data).Wf where
  fresh b h_live := by
    apply h_wf.fresh b
    by_cases h_b : b = block
    · simpa [Live, Heap.write, h_b] using h_live
    · simpa [Live, Heap.write, h_b] using h_live

theorem live_write (h : Heap) (b block off : Nat) (data : Octets) :
    (h.write block off data).Live b ↔ h.Live b := by
  by_cases h_b : b = block
  · simp [Live, Heap.write, h_b]
  · simp [Live, Heap.write, h_b]

/-- A write somewhere else, or in front of the octet or behind it. -/
theorem Holds.write {h : Heap} {r : Ref} (h_r : h.Holds r) {block off : Nat} {data : Octets}
    (h_apart : r.block = block → r.pos < off ∨ off + data.length ≤ r.pos) :
    (h.write block off data).Holds r := by
  obtain ⟨m, h_m, h_octet⟩ := h_r
  by_cases h_b : r.block = block
  · refine ⟨m.write off data, ?_, ?_⟩
    · show (if r.block = block then (h.blocks r.block).map _ else h.blocks r.block) = _
      rw [if_pos h_b, h_m]
      rfl
    · rw [Memory.write_outside (h_apart h_b)]
      exact h_octet
  · refine ⟨m, ?_, h_octet⟩
    show (if r.block = block then (h.blocks r.block).map _ else h.blocks r.block) = _
    rw [if_neg h_b, h_m]

/-! ## What a block holds -/

theorem memory_eq_of_blocks {h h' : Heap} {b : Nat} (h_eq : h'.blocks b = h.blocks b) :
    h'.memory b = h.memory b := by
  rw [memory, h_eq]
  rfl

theorem memory_alloc {h : Heap} (h_wf : h.Wf) {b : Nat} (h_live : h.Live b) (m : Memory) :
    (h.alloc m).memory b = h.memory b :=
  memory_eq_of_blocks (if_neg (Nat.ne_of_lt (h_wf.fresh b h_live)))

theorem memory_free {h : Heap} {b block : Nat} (h_ne : b ≠ block) :
    (h.free block).memory b = h.memory b :=
  memory_eq_of_blocks (if_neg h_ne)

theorem memory_write_of_ne {h : Heap} {b block off : Nat} {data : Octets} (h_ne : b ≠ block) :
    (h.write block off data).memory b = h.memory b :=
  memory_eq_of_blocks (if_neg h_ne)

theorem memory_write {h : Heap} {b off : Nat} {data : Octets} (h_live : h.Live b) :
    (h.write b off data).memory b = (h.memory b).write off data := by
  obtain ⟨m, h_m⟩ := Option.isSome_iff_exists.mp h_live
  show (if b = b then (h.blocks b).map _ else h.blocks b).getD _ = _
  rw [if_pos rfl, memory, h_m]
  rfl

end Heap

end IonContrib
