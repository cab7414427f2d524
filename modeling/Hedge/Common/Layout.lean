import Hedge.Common.Bytes
import Hedge.Common.ExactFloat
import Mathlib.Data.Int.Log
import Mathlib.Data.List.GetD

/-!
# Records of a fixed layout

A record is written as the concatenation of its fields and read back by slices at fixed offsets.
`slice_flatten` is the one fact about it: the slice at the offset of a field is the field. `chunks`
cuts a string at all offsets at once and is inverse to the concatenation in both directions. Fields
of machine integers and of single floats are little-endian.

A float of the model has no negative zero, and no payload of a NaN.
-/

namespace Hedge.Common

/-- `bytes[off .. off + n]`. -/
def slice (bytes : List UInt8) (off n : ℕ) : List UInt8 := (bytes.drop off).take n

/-- The slice at the offset of a field is the field. -/
theorem slice_flatten {fields : List (List UInt8)} {widths : List ℕ}
    (h : fields.map List.length = widths) {k : ℕ} {field : List UInt8}
    (hk : fields[k]? = some field) :
    slice fields.flatten (widths.take k).sum (widths.getD k 0) = field := by
  subst h
  induction fields generalizing k with
  | nil => cases hk
  | cons f fields ih =>
    cases k with
    | zero =>
      cases hk
      simp [slice]
    | succ k =>
      have hpast : f.drop (f.length + ((fields.map List.length).take k).sum) = [] :=
        List.drop_eq_nil_of_le (Nat.le_add_right _ _)
      have hrest := ih hk
      simp only [slice] at hrest
      simpa [slice, List.drop_append, hpast] using hrest

/-- The slices of the given widths, one after the other. -/
def chunks : List ℕ → List UInt8 → List (List UInt8)
  | [], _ => []
  | w :: ws, bytes => bytes.take w :: chunks ws (bytes.drop w)

/-- Cutting the concatenation of the fields gives them back. -/
theorem chunks_flatten {fields : List (List UInt8)} {widths : List ℕ}
    (h : fields.map List.length = widths) : chunks widths fields.flatten = fields := by
  subst h
  induction fields with
  | nil => rfl
  | cons field fields ih =>
    rw [List.map_cons, List.flatten_cons, chunks, List.take_left, List.drop_left, ih]

/-- The slices of a string of the right length make it up. -/
theorem flatten_chunks {widths : List ℕ} {bytes : List UInt8} (h : bytes.length = widths.sum) :
    (chunks widths bytes).flatten = bytes := by
  induction widths generalizing bytes with
  | nil => exact (List.length_eq_zero_iff.mp h).symm
  | cons w widths ih =>
    rw [List.sum_cons] at h
    have hrest : (bytes.drop w).length = widths.sum := by
      rw [List.length_drop, h, Nat.add_sub_cancel_left]
    rw [chunks, List.flatten_cons, ih hrest, List.take_append_drop]

theorem length_slice {bytes : List UInt8} {off n : ℕ} (h : off + n ≤ bytes.length) :
    (slice bytes off n).length = n := by
  rw [slice, List.length_take, List.length_drop]
  omega

theorem slice_one {bytes : List UInt8} {off : ℕ} (h : off < bytes.length) :
    slice bytes off 1 = [bytes.getD off 0] := by
  rw [slice, List.drop_eq_getElem_cons h, List.getD_eq_getElem _ _ h]
  rfl

/-! ## Integers -/

/-- `n.to_le_bytes()` of a `u32`. -/
def leU32 (n : UInt32) : List UInt8 := toLe 4 n.toNat

/-- `n.to_le_bytes()` of a `u64`. -/
def leU64 (n : UInt64) : List UInt8 := toLe 8 n.toNat

/-- `n.to_le_bytes()` of an `i64`. -/
def leI64 (n : Int64) : List UInt8 := leU64 n.toUInt64

/-- `u32::from_le_bytes`. -/
def readU32 (bytes : List UInt8) : UInt32 := UInt32.ofNat (ofLe bytes)

/-- `u64::from_le_bytes`. -/
def readU64 (bytes : List UInt8) : UInt64 := UInt64.ofNat (ofLe bytes)

/-- `i64::from_le_bytes`. -/
def readI64 (bytes : List UInt8) : Int64 := (readU64 bytes).toInt64

@[simp] theorem length_leU32 (n : UInt32) : (leU32 n).length = 4 := length_toLe _ _

@[simp] theorem length_leU64 (n : UInt64) : (leU64 n).length = 8 := length_toLe _ _

@[simp] theorem length_leI64 (n : Int64) : (leI64 n).length = 8 := length_leU64 _

@[simp] theorem readU32_leU32 (n : UInt32) : readU32 (leU32 n) = n := by
  have hlt : n.toNat < 256 ^ 4 := n.toNat_lt
  rw [readU32, leU32, ofLe_toLe_of_lt hlt, UInt32.ofNat_toNat]

@[simp] theorem readU64_leU64 (n : UInt64) : readU64 (leU64 n) = n := by
  have hlt : n.toNat < 256 ^ 8 := n.toNat_lt
  rw [readU64, leU64, ofLe_toLe_of_lt hlt, UInt64.ofNat_toNat]

@[simp] theorem readI64_leI64 (n : Int64) : readI64 (leI64 n) = n := by
  rw [readI64, leI64, readU64_leU64, Int64.toInt64_toUInt64]

theorem toLe_ofLe {bytes : List UInt8} {w : ℕ} (h : bytes.length = w) :
    toLe w (ofLe bytes) = bytes := by
  rw [← List.length_reverse] at h
  rw [toLe, ofLe, ← h, toBe_ofBe, List.reverse_reverse]

theorem ofLe_lt {bytes : List UInt8} {w : ℕ} (h : bytes.length = w) : ofLe bytes < 256 ^ w := by
  rw [← List.length_reverse] at h
  exact h ▸ ofBe_lt bytes.reverse

theorem leU32_readU32 {bytes : List UInt8} (h : bytes.length = 4) : leU32 (readU32 bytes) = bytes := by
  rw [leU32, readU32, UInt32.toNat_ofNat_of_lt' (ofLe_lt h), toLe_ofLe h]

theorem leU64_readU64 {bytes : List UInt8} (h : bytes.length = 8) : leU64 (readU64 bytes) = bytes := by
  rw [leU64, readU64, UInt64.toNat_ofNat_of_lt' (ofLe_lt h), toLe_ofLe h]

theorem leI64_readI64 {bytes : List UInt8} (h : bytes.length = 8) : leI64 (readI64 bytes) = bytes := by
  rw [leI64, readI64, UInt64.toUInt64_toInt64, leU64_readU64 h]

/-- The last byte of a `u64` holds its upper eight bits. -/
theorem top_mem_leU64 (n : UInt64) : UInt8.ofNat (n.toNat / 256 ^ 7) ∈ leU64 n :=
  List.mem_reverse.mpr List.mem_cons_self

/-! ## Single floats -/

/-- Round to an integer, ties to even. -/
def roundTiesEven (q : ℚ) : ℤ :=
  let d := q - ⌊q⌋
  if d < 1 / 2 then ⌊q⌋ else if 1 / 2 < d then ⌊q⌋ + 1 else if 2 ∣ ⌊q⌋ then ⌊q⌋ else ⌊q⌋ + 1

/-- The bits of a nonnegative number without its sign. A significand that is rounded up to the next
power of two carries into the exponent, and past the largest exponent the value is infinite. -/
def f32Magnitude (q : ℚ) : ℕ :=
  let e := Max.max (-126) (Int.log 2 q)
  Min.min (roundTiesEven (q / 2 ^ (e - 23)) + (e + 126) * 2 ^ 23).toNat 0x7f800000

/-- `x.to_bits()` of an `f32`. -/
def f32Bits : ExactFloat → UInt32
  | .nan => 0x7fc00000
  | .posInf => 0x7f800000
  | .negInf => 0xff800000
  | .fin q => UInt32.ofNat (if q < 0 then 0x80000000 + f32Magnitude (-q) else f32Magnitude q)

/-- `f32::from_bits`. -/
def f32OfBits (bits : UInt32) : ExactFloat :=
  let negative := 0x80000000 ≤ bits.toNat
  let exponent : ℕ := bits.toNat / 2 ^ 23 % 256
  let fraction : ℕ := bits.toNat % 2 ^ 23
  if exponent = 255 then
    if fraction ≠ 0 then .nan else if negative then .negInf else .posInf
  else
    let magnitude : ℚ :=
      if exponent = 0 then fraction / 2 ^ 149 else (2 ^ 23 + fraction) * 2 ^ ((exponent : ℤ) - 150)
    .fin (if negative then -magnitude else magnitude)

/-- `x.to_le_bytes()` of an `f32`. -/
def leF32 (x : ExactFloat) : List UInt8 := leU32 (f32Bits x)

/-- `f32::from_le_bytes`. -/
def readF32 (bytes : List UInt8) : ExactFloat := f32OfBits (readU32 bytes)

@[simp] theorem length_leF32 (x : ExactFloat) : (leF32 x).length = 4 := length_leU32 _

example : readF32 (leF32 (.fin (-5 / 8))) = .fin (-5 / 8) := by decide +kernel

end Hedge.Common
