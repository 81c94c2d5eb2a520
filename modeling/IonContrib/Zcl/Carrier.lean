/-
  IonContrib.Zcl.Carrier

  The wire format of the zcl tunnel (`zclcodec.c`): a carrier is a header of
  36 octets and a slice of a zstd stream behind it.
-/
import IonContrib.Lib.Octets

namespace IonContrib.Zcl

open Octets

def zclHdrLen : Nat := 36
def zclFlagEnd : UInt8 := 0x01
def zclRecHdrLen : Nat := 4
def zclMaxCarrier : Nat := 64 * 1024 * 1024

def zclMagic : Octets := [0x5a, 0x43, 0x4c, 0x01]

/-! ## Checksum -/

def crcTable : List UInt32 := [
  0x00000000, 0xf26b8303, 0xe13b70f7, 0x1350f3f4, 0xc79a971f, 0x35f1141c, 0x26a1e7e8,
  0xd4ca64eb, 0x8ad958cf, 0x78b2dbcc, 0x6be22838, 0x9989ab3b, 0x4d43cfd0, 0xbf284cd3,
  0xac78bf27, 0x5e133c24, 0x105ec76f, 0xe235446c, 0xf165b798, 0x030e349b, 0xd7c45070,
  0x25afd373, 0x36ff2087, 0xc494a384, 0x9a879fa0, 0x68ec1ca3, 0x7bbcef57, 0x89d76c54,
  0x5d1d08bf, 0xaf768bbc, 0xbc267848, 0x4e4dfb4b, 0x20bd8ede, 0xd2d60ddd, 0xc186fe29,
  0x33ed7d2a, 0xe72719c1, 0x154c9ac2, 0x061c6936, 0xf477ea35, 0xaa64d611, 0x580f5512,
  0x4b5fa6e6, 0xb93425e5, 0x6dfe410e, 0x9f95c20d, 0x8cc531f9, 0x7eaeb2fa, 0x30e349b1,
  0xc288cab2, 0xd1d83946, 0x23b3ba45, 0xf779deae, 0x05125dad, 0x1642ae59, 0xe4292d5a,
  0xba3a117e, 0x4851927d, 0x5b016189, 0xa96ae28a, 0x7da08661, 0x8fcb0562, 0x9c9bf696,
  0x6ef07595, 0x417b1dbc, 0xb3109ebf, 0xa0406d4b, 0x522bee48, 0x86e18aa3, 0x748a09a0,
  0x67dafa54, 0x95b17957, 0xcba24573, 0x39c9c670, 0x2a993584, 0xd8f2b687, 0x0c38d26c,
  0xfe53516f, 0xed03a29b, 0x1f682198, 0x5125dad3, 0xa34e59d0, 0xb01eaa24, 0x42752927,
  0x96bf4dcc, 0x64d4cecf, 0x77843d3b, 0x85efbe38, 0xdbfc821c, 0x2997011f, 0x3ac7f2eb,
  0xc8ac71e8, 0x1c661503, 0xee0d9600, 0xfd5d65f4, 0x0f36e6f7, 0x61c69362, 0x93ad1061,
  0x80fde395, 0x72966096, 0xa65c047d, 0x5437877e, 0x4767748a, 0xb50cf789, 0xeb1fcbad,
  0x197448ae, 0x0a24bb5a, 0xf84f3859, 0x2c855cb2, 0xdeeedfb1, 0xcdbe2c45, 0x3fd5af46,
  0x7198540d, 0x83f3d70e, 0x90a324fa, 0x62c8a7f9, 0xb602c312, 0x44694011, 0x5739b3e5,
  0xa55230e6, 0xfb410cc2, 0x092a8fc1, 0x1a7a7c35, 0xe811ff36, 0x3cdb9bdd, 0xceb018de,
  0xdde0eb2a, 0x2f8b6829, 0x82f63b78, 0x709db87b, 0x63cd4b8f, 0x91a6c88c, 0x456cac67,
  0xb7072f64, 0xa457dc90, 0x563c5f93, 0x082f63b7, 0xfa44e0b4, 0xe9141340, 0x1b7f9043,
  0xcfb5f4a8, 0x3dde77ab, 0x2e8e845f, 0xdce5075c, 0x92a8fc17, 0x60c37f14, 0x73938ce0,
  0x81f80fe3, 0x55326b08, 0xa759e80b, 0xb4091bff, 0x466298fc, 0x1871a4d8, 0xea1a27db,
  0xf94ad42f, 0x0b21572c, 0xdfeb33c7, 0x2d80b0c4, 0x3ed04330, 0xccbbc033, 0xa24bb5a6,
  0x502036a5, 0x4370c551, 0xb11b4652, 0x65d122b9, 0x97baa1ba, 0x84ea524e, 0x7681d14d,
  0x2892ed69, 0xdaf96e6a, 0xc9a99d9e, 0x3bc21e9d, 0xef087a76, 0x1d63f975, 0x0e330a81,
  0xfc588982, 0xb21572c9, 0x407ef1ca, 0x532e023e, 0xa145813d, 0x758fe5d6, 0x87e466d5,
  0x94b49521, 0x66df1622, 0x38cc2a06, 0xcaa7a905, 0xd9f75af1, 0x2b9cd9f2, 0xff56bd19,
  0x0d3d3e1a, 0x1e6dcdee, 0xec064eed, 0xc38d26c4, 0x31e6a5c7, 0x22b65633, 0xd0ddd530,
  0x0417b1db, 0xf67c32d8, 0xe52cc12c, 0x1747422f, 0x49547e0b, 0xbb3ffd08, 0xa86f0efc,
  0x5a048dff, 0x8ecee914, 0x7ca56a17, 0x6ff599e3, 0x9d9e1ae0, 0xd3d3e1ab, 0x21b862a8,
  0x32e8915c, 0xc083125f, 0x144976b4, 0xe622f5b7, 0xf5720643, 0x07198540, 0x590ab964,
  0xab613a67, 0xb831c993, 0x4a5a4a90, 0x9e902e7b, 0x6cfbad78, 0x7fab5e8c, 0x8dc0dd8f,
  0xe330a81a, 0x115b2b19, 0x020bd8ed, 0xf0605bee, 0x24aa3f05, 0xd6c1bc06, 0xc5914ff2,
  0x37faccf1, 0x69e9f0d5, 0x9b8273d6, 0x88d28022, 0x7ab90321, 0xae7367ca, 0x5c18e4c9,
  0x4f48173d, 0xbd23943e, 0xf36e6f75, 0x0105ec76, 0x12551f82, 0xe03e9c81, 0x34f4f86a,
  0xc69f7b69, 0xd5cf889d, 0x27a40b9e, 0x79b737ba, 0x8bdcb4b9, 0x988c474d, 0x6ae7c44e,
  0xbe2da0a5, 0x4c4623a6, 0x5f16d052, 0xad7d5351]

def crcStep (crc : UInt32) (b : UInt8) : UInt32 :=
  crcTable.getD ((crc ^^^ b.toUInt32) &&& 0xff).toNat 0 ^^^ (crc >>> 8)

def zclCrc32c (crc : UInt32) (data : Octets) : UInt32 := ~~~ (data.foldl crcStep (~~~ crc))

/-! ## Header -/

structure ZclHeader where
  flags : UInt8
  streamId : Nat
  chunkId : Nat
  seq : Nat
  length : Nat
  deriving DecidableEq, Repr

/-- The octets in front of the checksum. -/
def ZclHeader.fields (h : ZclHeader) : Octets :=
  zclMagic ++ [h.flags, 0, 0, 0] ++ beBytes 8 h.streamId ++ beBytes 8 h.chunkId ++
    beBytes 4 h.seq ++ beBytes 4 h.length

def zclHeaderPut (h : ZclHeader) (payload : Octets) : Octets :=
  let crc := zclCrc32c 0 h.fields
  let crc := zclCrc32c crc payload
  h.fields ++ beBytes 4 crc.toNat

/-- Parses and checks a whole carrier. -/
def zclHeaderGet (carrier : Octets) : Option ZclHeader :=
  if carrier.length < zclHdrLen ∨ carrier.length - zclHdrLen > zclMaxCarrier ∨
      carrier.take 4 ≠ zclMagic ∨ carrier.getD 4 0 &&& ~~~ zclFlagEnd ≠ 0 ∨
      carrier.getD 5 0 ≠ 0 ∨ carrier.getD 6 0 ≠ 0 ∨ carrier.getD 7 0 ≠ 0 then none
  else
    let h : ZclHeader := {
      flags := carrier.getD 4 0
      streamId := beNat ((carrier.drop 8).take 8)
      chunkId := beNat ((carrier.drop 16).take 8)
      seq := beNat ((carrier.drop 24).take 4)
      length := beNat ((carrier.drop 28).take 4) }
    if h.length ≠ carrier.length - zclHdrLen then none
    else
      let crc := zclCrc32c 0 (carrier.take 32)
      let crc := zclCrc32c crc ((carrier.drop zclHdrLen).take h.length)
      if crc.toNat = beNat ((carrier.drop 32).take 4) then some h else none

/-- A header the wire format has room for, in front of this payload. -/
structure ZclHeader.Fits (h : ZclHeader) (payload : Octets) : Prop where
  flags_known : h.flags &&& ~~~ zclFlagEnd = 0
  streamId_lt : h.streamId < 2 ^ 64
  chunkId_lt : h.chunkId < 2 ^ 64
  seq_lt : h.seq < 2 ^ 32
  length_eq : h.length = payload.length
  length_le : payload.length ≤ zclMaxCarrier

@[simp] theorem ZclHeader.length_fields (h : ZclHeader) : h.fields.length = 32 := by
  simp [ZclHeader.fields, zclMagic]

@[simp] theorem length_zclHeaderPut (h : ZclHeader) (payload : Octets) :
    (zclHeaderPut h payload).length = zclHdrLen := by
  simp [zclHeaderPut, zclHdrLen]

/-- The fields of a header that was read are within their widths. -/
theorem zclHeaderGet_lt {carrier : Octets} {h : ZclHeader} (hg : zclHeaderGet carrier = some h) :
    h.chunkId < 2 ^ 64 ∧ h.seq < 2 ^ 32 := by
  unfold zclHeaderGet at hg
  dsimp only at hg
  have h_width : ∀ off k, beNat ((carrier.drop off).take k) < 256 ^ k := by
    intro off k
    refine Nat.lt_of_lt_of_le (beNat_lt _) (Nat.pow_le_pow_right (by decide) ?_)
    exact List.length_take_le _ _
  split at hg
  · cases hg
  split at hg
  · cases hg
  split at hg
  · obtain rfl := Option.some.inj hg
    exact ⟨h_width 16 8, h_width 24 4⟩
  · cases hg

/-- A stretch of a carrier. -/
theorem drop_take_eq {carrier mid : Octets} {off k : Nat} (pre post : Octets)
    (h_all : carrier = pre ++ (mid ++ post)) (h_off : pre.length = off) (h_k : mid.length = k) :
    (carrier.drop off).take k = mid := by
  rw [h_all, ← h_off, List.drop_left, ← h_k, List.take_left]

/-- What the sender put is what the receiver gets. -/
theorem zclHeaderGet_put {h : ZclHeader} {payload : Octets} (hf : h.Fits payload) :
    zclHeaderGet (zclHeaderPut h payload ++ payload) = some h := by
  have h_max : zclMaxCarrier = 64 * 1024 * 1024 := rfl
  have h_len := hf.length_eq
  have h_le := hf.length_le
  have h_stream : beNat (beBytes 8 h.streamId) = h.streamId := beNat_beBytes hf.streamId_lt
  have h_chunk : beNat (beBytes 8 h.chunkId) = h.chunkId := beNat_beBytes hf.chunkId_lt
  have h_seq : beNat (beBytes 4 h.seq) = h.seq := beNat_beBytes hf.seq_lt
  have h_length : beNat (beBytes 4 h.length) = h.length :=
    beNat_beBytes (by rw [h_len]; omega)
  generalize h_crc : zclCrc32c (zclCrc32c 0 h.fields) payload = crc
  have h_sum : beNat (beBytes 4 crc.toNat) = crc.toNat := beNat_beBytes crc.toNat_lt
  generalize h_carrier : zclHeaderPut h payload ++ payload = carrier
  have h_put : carrier = h.fields ++ (beBytes 4 crc.toNat ++ payload) := by
    rw [← h_carrier, zclHeaderPut, h_crc, List.append_assoc]
  have h_all : carrier = [0x5a, 0x43, 0x4c, 0x01, h.flags, 0, 0, 0] ++ (beBytes 8 h.streamId ++
      (beBytes 8 h.chunkId ++ (beBytes 4 h.seq ++ (beBytes 4 h.length ++
        (beBytes 4 crc.toNat ++ payload))))) := by
    rw [h_put]
    simp [ZclHeader.fields, zclMagic]
  have h_total : carrier.length = zclHdrLen + payload.length := by
    rw [← h_carrier, List.length_append, length_zclHeaderPut]
  have h_fields : carrier.take 32 = h.fields := by
    rw [h_put]
    exact List.take_left' h.length_fields
  have h_stream' : (carrier.drop 8).take 8 = beBytes 8 h.streamId :=
    drop_take_eq _ _ h_all rfl (length_beBytes 8 _)
  have h_chunk' : (carrier.drop 16).take 8 = beBytes 8 h.chunkId := by
    refine drop_take_eq ([0x5a, 0x43, 0x4c, 0x01, h.flags, 0, 0, 0] ++ beBytes 8 h.streamId)
      (beBytes 4 h.seq ++ (beBytes 4 h.length ++ (beBytes 4 crc.toNat ++ payload))) ?_ rfl
      (length_beBytes 8 _)
    rw [h_all, List.append_assoc]
  have h_seq' : (carrier.drop 24).take 4 = beBytes 4 h.seq := by
    refine drop_take_eq ([0x5a, 0x43, 0x4c, 0x01, h.flags, 0, 0, 0] ++ beBytes 8 h.streamId ++
      beBytes 8 h.chunkId) (beBytes 4 h.length ++ (beBytes 4 crc.toNat ++ payload)) ?_ rfl
      (length_beBytes 4 _)
    simp only [h_all, List.append_assoc]
  have h_length' : (carrier.drop 28).take 4 = beBytes 4 h.length := by
    refine drop_take_eq ([0x5a, 0x43, 0x4c, 0x01, h.flags, 0, 0, 0] ++ beBytes 8 h.streamId ++
      beBytes 8 h.chunkId ++ beBytes 4 h.seq) (beBytes 4 crc.toNat ++ payload) ?_ rfl
      (length_beBytes 4 _)
    simp only [h_all, List.append_assoc]
  have h_sum' : (carrier.drop 32).take 4 = beBytes 4 crc.toNat :=
    drop_take_eq _ _ h_put h.length_fields (length_beBytes 4 _)
  have h_payload : (carrier.drop zclHdrLen).take h.length = payload := by
    have h_off : (h.fields ++ beBytes 4 crc.toNat).length = zclHdrLen := by
      rw [List.length_append, h.length_fields, length_beBytes]
      rfl
    refine drop_take_eq _ [] ?_ h_off h_len.symm
    rw [h_put, List.append_nil, List.append_assoc]
  have h_flags : carrier.getD 4 0 = h.flags := by
    rw [h_all]
    rfl
  have h_known := hf.flags_known
  have h_accept : ¬ (carrier.length < zclHdrLen ∨ carrier.length - zclHdrLen > zclMaxCarrier ∨
      carrier.take 4 ≠ zclMagic ∨ carrier.getD 4 0 &&& ~~~ zclFlagEnd ≠ 0 ∨
      carrier.getD 5 0 ≠ 0 ∨ carrier.getD 6 0 ≠ 0 ∨ carrier.getD 7 0 ≠ 0) := by
    have h_magic : carrier.take 4 = zclMagic ∧ carrier.getD 5 0 = 0 ∧ carrier.getD 6 0 = 0 ∧
        carrier.getD 7 0 = 0 := by
      rw [h_all]
      exact ⟨rfl, rfl, rfl, rfl⟩
    rw [h_total, h_flags, h_known, h_magic.1, h_magic.2.1, h_magic.2.2.1, h_magic.2.2.2]
    simp only [ne_eq, not_true_eq_false, or_false]
    omega
  rw [zclHeaderGet, if_neg h_accept]
  simp only [h_stream', h_chunk', h_seq', h_length', h_sum', h_fields, h_payload, h_flags,
    h_stream, h_chunk, h_seq, h_length, h_sum, h_crc, if_true]
  rw [if_neg (by omega)]

/-! ## What is accepted -/

/-- The next octets of a carrier, the first of them by its place. -/
theorem drop_take_succ {carrier : Octets} {i : Nat} (k : Nat) (h : i < carrier.length) :
    (carrier.drop i).take (k + 1) = carrier.getD i 0 :: (carrier.drop (i + 1)).take k := by
  have h_get : carrier.getD i 0 = carrier[i] := by
    rw [List.getD_eq_getElem?_getD, List.getElem?_eq_getElem h, Option.getD_some]
  rw [List.drop_eq_getElem_cons h, List.take_succ_cons, h_get]

/-- A number read off a carrier and written again. -/
theorem beBytes_drop_take {carrier : Octets} {off k : Nat} (h : off + k ≤ carrier.length) :
    beBytes k (beNat ((carrier.drop off).take k)) = (carrier.drop off).take k := by
  have h_k : ((carrier.drop off).take k).length = k := by
    rw [List.length_take, List.length_drop]
    omega
  have h_bytes := beBytes_beNat ((carrier.drop off).take k)
  rwa [h_k] at h_bytes

/-- The fields as `zclHeaderGet` reads them are what the carrier starts with. -/
theorem fields_of_read {carrier : Octets} (h_len : zclHdrLen ≤ carrier.length)
    (h_magic : carrier.take 4 = zclMagic)
    (h_zero : carrier.getD 5 0 = 0 ∧ carrier.getD 6 0 = 0 ∧ carrier.getD 7 0 = 0) :
    ZclHeader.fields
      ⟨carrier.getD 4 0, beNat ((carrier.drop 8).take 8), beNat ((carrier.drop 16).take 8),
        beNat ((carrier.drop 24).take 4), beNat ((carrier.drop 28).take 4)⟩ =
      carrier.take 32 := by
  have h_hdr : zclHdrLen = 36 := rfl
  have h_flags : [carrier.getD 4 0, 0, 0, 0] = (carrier.drop 4).take 4 := by
    rw [drop_take_succ 3 (by omega), drop_take_succ 2 (by omega), drop_take_succ 1 (by omega),
      drop_take_succ 0 (by omega), h_zero.1, h_zero.2.1, h_zero.2.2, List.take_zero]
  rw [ZclHeader.fields, beBytes_drop_take (by omega), beBytes_drop_take (by omega),
    beBytes_drop_take (by omega), beBytes_drop_take (by omega), ← h_magic, h_flags,
    ← List.take_add, ← List.take_add, ← List.take_add, ← List.take_add, ← List.take_add]

/-- What an accepted carrier is made of. -/
theorem zclHeaderGet_shape {carrier : Octets} {h : ZclHeader} (hg : zclHeaderGet carrier = some h) :
    h.Fits (carrier.drop zclHdrLen) ∧
      carrier = zclHeaderPut h (carrier.drop zclHdrLen) ++ carrier.drop zclHdrLen := by
  have h_hdr : zclHdrLen = 36 := rfl
  have h_width := zclHeaderGet_lt hg
  unfold zclHeaderGet at hg
  dsimp only at hg
  split at hg
  · cases hg
  rename_i h_accept
  simp only [not_or, ne_eq, Decidable.not_not, Nat.not_lt] at h_accept
  obtain ⟨h_len, h_max, h_magic, h_known, h_zero⟩ := h_accept
  split at hg
  · cases hg
  rename_i h_length
  rw [ne_eq, Decidable.not_not] at h_length
  split at hg
  · rename_i h_sum
    have h_fields := fields_of_read h_len h_magic h_zero
    have h_bytes := @beBytes_drop_take carrier 32 4 (by omega)
    have h_stream : beNat ((carrier.drop 8).take 8) < 256 ^ 8 :=
      Nat.lt_of_lt_of_le (beNat_lt _) (Nat.pow_le_pow_right (by decide) (List.length_take_le _ _))
    have h_payload : (carrier.drop zclHdrLen).take (beNat ((carrier.drop 28).take 4)) =
        carrier.drop zclHdrLen := by
      rw [h_length, ← List.length_drop, List.take_length]
    rw [h_payload] at h_sum
    obtain rfl := Option.some.inj hg
    refine ⟨⟨h_known, h_stream, h_width.1, h_width.2, ?_, ?_⟩, ?_⟩
    · rw [List.length_drop]
      exact h_length
    · rw [List.length_drop]
      exact h_max
    · rw [zclHeaderPut, h_fields, h_sum, h_bytes, ← List.take_add]
      exact (List.take_append_drop 36 carrier).symm
  · cases hg

/-- **A carrier is accepted exactly when it is a header that fits its payload, as the sender puts
    it, and the payload behind it.** -/
theorem zclHeaderGet_eq_some_iff {carrier : Octets} {h : ZclHeader} :
    zclHeaderGet carrier = some h ↔
      ∃ payload, h.Fits payload ∧ carrier = zclHeaderPut h payload ++ payload := by
  constructor
  · intro hg
    exact ⟨_, zclHeaderGet_shape hg⟩
  · rintro ⟨payload, h_fits, rfl⟩
    exact zclHeaderGet_put h_fits

end IonContrib.Zcl
