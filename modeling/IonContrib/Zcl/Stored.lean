/-
  IonContrib.Zcl.Stored

  A codec that stores, to run the receiver with: an octet is written as a 0
  and itself, the end of a frame as a 1.
-/
import IonContrib.Zcl.Rx

namespace IonContrib.Zcl

/-- The octets stored in front of `input`, at most `room` of them; how much of the input they
    take, and whether the frame ends with it. -/
def unstore : Nat → Octets → Octets × Nat × ZRet
  | 0, _ => ([], 0, .more)
  | _ + 1, [] => ([], 0, .more)
  | room + 1, tag :: rest =>
    if tag = 1 then ([], 1, .frameEnd)
    else if tag = 0 then
      match rest with
      | [] => ([], 0, .error)
      | b :: rest =>
        let (out, used, ret) := unstore room rest
        (b :: out, used + 2, ret)
    else ([], 0, .error)

/-- As long as there is more, something has been taken. -/
theorem unstore_used {room : Nat} {input : Octets} (h_room : 0 < room) (h_input : input ≠ [])
    (h_more : (unstore room input).2.2 = .more) :
    0 < (unstore room input).2.1 := by
  cases input with
  | nil => exact absurd rfl h_input
  | cons tag rest =>
    obtain ⟨room, rfl⟩ : ∃ r, room = r + 1 := ⟨room - 1, by omega⟩
    unfold unstore at h_more ⊢
    by_cases h_end : tag = 1
    · rw [if_pos h_end] at h_more
      cases h_more
    rw [if_neg h_end] at h_more ⊢
    by_cases h_octet : tag = 0
    · rw [if_pos h_octet] at h_more ⊢
      cases rest with
      | nil => cases h_more
      | cons b rest => exact Nat.succ_pos _
    · rw [if_neg h_octet] at h_more
      cases h_more

def storedDecoder : Zstd where
  DCtx := Unit
  fresh := ()
  decompressStream _ room input :=
    if room = 0 ∨ input = [] then ⟨(), 0, [], .error⟩
    else ⟨(), (unstore room input).2.1, (unstore room input).1, (unstore room input).2.2⟩
  work _ input := input.length
  progress d room input h_more _ := by
    by_cases h_none : room = 0 ∨ input = []
    · rw [if_pos h_none] at h_more
      cases h_more
    · rw [if_neg h_none] at h_more
      obtain ⟨h_room, h_input⟩ := not_or.mp h_none
      have h_used := unstore_used (Nat.pos_of_ne_zero h_room) h_input h_more
      have h_pos : 0 < input.length := List.length_pos_iff.mpr h_input
      simp only [if_neg h_none, List.length_drop]
      omega

/-- A receiver with the limits of the daemon that never runs out of memory. -/
def storedCfg : ZclCfg where
  z := storedDecoder
  tmpLen := 128 * 1024
  limits := zclRxDefaults
  mem _ := true
  emit _ := true

end IonContrib.Zcl
