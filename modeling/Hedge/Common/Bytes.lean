import Mathlib.Tactic.Ring
import Mathlib.Tactic.NormNum
import Mathlib.Data.List.Basic
import Mathlib.Data.List.GetD

/-!
# Fixed-width byte strings

Big-endian encodings of naturals at a fixed width, and in-place slice writes. `toBe w n` keeps the
low `8 * w` bits of `n`, as `to_be_bytes` does; `ofBe` reads a byte string of any length. The two
are inverse on byte strings of the right width (`toBe_ofBe`) and on naturals that fit
(`ofBe_toBe_of_lt`).

`hexBytes` pairs hexadecimal digits up, and `toUTF8_of_ascii` says what the bytes of a text of ASCII
characters are.

`writeSlice` is the `buf[off .. off + n].copy_from_slice(src)` idiom. A buffer that is filled from
the left by consecutive writes is the concatenation of what was written (`writeSlice_append`).
-/

namespace Hedge.Common

/-! ## Big-endian naturals -/

/-- The `w` big-endian bytes of `n`; bits above `8 * w` are dropped. -/
def toBe : ℕ → ℕ → List UInt8
  | 0, _ => []
  | w + 1, n => UInt8.ofNat (n / 256 ^ w) :: toBe w n

/-- The natural with the given big-endian bytes. -/
def ofBe (bs : List UInt8) : ℕ :=
  bs.foldl (fun acc b => acc * 256 + b.toNat) 0

/-- `from_le_bytes`, as a natural number. -/
def ofLe (bs : List UInt8) : ℕ := ofBe bs.reverse

@[simp] theorem length_toBe (w n : ℕ) : (toBe w n).length = w := by
  induction w with
  | zero => rfl
  | succ w ih => simp only [toBe, List.length_cons, ih]

/-- The accumulator of `ofBe` only contributes its shifted value. -/
theorem foldl_ofBe (bs : List UInt8) (acc : ℕ) :
    bs.foldl (fun acc b => acc * 256 + b.toNat) acc = acc * 256 ^ bs.length + ofBe bs := by
  induction bs generalizing acc with
  | nil => simp [ofBe]
  | cons b bs ih =>
    simp only [ofBe, List.foldl_cons, List.length_cons]
    rw [ih, ih (0 * 256 + b.toNat), pow_succ]
    ring

theorem ofBe_cons (b : UInt8) (bs : List UInt8) :
    ofBe (b :: bs) = b.toNat * 256 ^ bs.length + ofBe bs := by
  have h := foldl_ofBe bs (0 * 256 + b.toNat)
  simpa [ofBe] using h

theorem ofBe_lt (bs : List UInt8) : ofBe bs < 256 ^ bs.length := by
  induction bs with
  | nil => simp [ofBe]
  | cons b bs ih =>
    have hb : b.toNat < 256 := b.toNat_lt
    rw [ofBe_cons, List.length_cons, pow_succ]
    have hle : b.toNat * 256 ^ bs.length ≤ 255 * 256 ^ bs.length :=
      Nat.mul_le_mul_right _ (by omega)
    omega

/-- Encoding only looks at the value modulo the width. -/
theorem toBe_add_mul (w n k : ℕ) : toBe w (k * 256 ^ w + n) = toBe w n := by
  induction w generalizing k with
  | zero => rfl
  | succ w ih =>
    have hsplit : k * 256 ^ (w + 1) + n = (k * 256) * 256 ^ w + n := by rw [pow_succ]; ring
    have hhead : (k * 256 * 256 ^ w + n) / 256 ^ w = k * 256 + n / 256 ^ w := by
      rw [Nat.add_comm, Nat.add_mul_div_right _ _ (by positivity), Nat.add_comm]
    have hbyte : UInt8.ofNat (k * 256 + n / 256 ^ w) = UInt8.ofNat (n / 256 ^ w) := by
      apply UInt8.toNat_inj.mp
      simp only [UInt8.toNat_ofNat']
      omega
    rw [hsplit, toBe, toBe, hhead, hbyte, ih (k * 256)]

/-- Re-encoding a byte string gives it back. -/
theorem toBe_ofBe (bs : List UInt8) : toBe bs.length (ofBe bs) = bs := by
  induction bs with
  | nil => rfl
  | cons b bs ih =>
    have hlt := ofBe_lt bs
    have hpos : 0 < 256 ^ bs.length := by positivity
    rw [ofBe_cons, List.length_cons, toBe, toBe_add_mul, ih]
    congr 1
    rw [Nat.add_comm, Nat.add_mul_div_right _ _ hpos, Nat.div_eq_of_lt hlt, Nat.zero_add,
      UInt8.ofNat_toNat]

theorem ofBe_toBe (w n : ℕ) : ofBe (toBe w n) = n % 256 ^ w := by
  induction w with
  | zero => simp [toBe, ofBe, Nat.mod_one]
  | succ w ih =>
    have hsplit : n % 256 ^ (w + 1) = n % 256 ^ w + 256 ^ w * (n / 256 ^ w % 256) := by
      rw [pow_succ, Nat.mod_mul]
    have hbyte : (UInt8.ofNat (n / 256 ^ w)).toNat = n / 256 ^ w % 256 := UInt8.toNat_ofNat'
    rw [toBe, ofBe_cons, length_toBe, ih, hbyte, hsplit, Nat.mul_comm, Nat.add_comm]

theorem ofBe_toBe_of_lt {w n : ℕ} (h : n < 256 ^ w) : ofBe (toBe w n) = n := by
  rw [ofBe_toBe, Nat.mod_eq_of_lt h]

/-- The `w` little-endian bytes of `n`. -/
def toLe (w n : ℕ) : List UInt8 := (toBe w n).reverse

@[simp] theorem length_toLe (w n : ℕ) : (toLe w n).length = w := by simp [toLe]

theorem ofLe_toLe_of_lt {w n : ℕ} (h : n < 256 ^ w) : ofLe (toLe w n) = n := by
  rw [ofLe, toLe, List.reverse_reverse, ofBe_toBe_of_lt h]

/-- Two values that fit the width have different encodings. -/
theorem toBe_inj_of_lt {w n m : ℕ} (hn : n < 256 ^ w) (hm : m < 256 ^ w)
    (h : toBe w n = toBe w m) : n = m := by
  have hval := congrArg ofBe h
  rwa [ofBe_toBe_of_lt hn, ofBe_toBe_of_lt hm] at hval

/-- Byte strings of one length with one value are the same. -/
theorem ofBe_inj_of_length_eq {xs ys : List UInt8} (hlen : xs.length = ys.length)
    (h : ofBe xs = ofBe ys) : xs = ys := by
  rw [← toBe_ofBe xs, ← toBe_ofBe ys, h, hlen]

/-- A leading byte other than zero fixes the length. -/
theorem le_ofBe_cons {b : UInt8} (hb : b ≠ 0) (bs : List UInt8) :
    256 ^ bs.length ≤ ofBe (b :: bs) := by
  have hpos : 0 < b.toNat := Nat.pos_of_ne_zero fun h => hb (UInt8.toNat_inj.mp h)
  rw [ofBe_cons]
  exact le_add_right (Nat.le_mul_of_pos_left _ hpos)

theorem length_le_of_ofBe_eq {xs ys : List UInt8} (hxs : ∀ b ∈ xs, b ≠ 0)
    (h : ofBe xs = ofBe ys) : xs.length ≤ ys.length := by
  cases xs with
  | nil => exact Nat.zero_le _
  | cons b bs =>
    have hlow := le_ofBe_cons (hxs b List.mem_cons_self) bs
    have hpow : 256 ^ bs.length < 256 ^ ys.length := by
      rw [h] at hlow
      exact lt_of_le_of_lt hlow (ofBe_lt ys)
    exact (Nat.pow_lt_pow_iff_right (by norm_num)).mp hpow

/-- Byte strings without a zero byte are told apart by their values. -/
theorem ofBe_inj {xs ys : List UInt8} (hxs : ∀ b ∈ xs, b ≠ 0) (hys : ∀ b ∈ ys, b ≠ 0)
    (h : ofBe xs = ofBe ys) : xs = ys :=
  ofBe_inj_of_length_eq
    (le_antisymm (length_le_of_ofBe_eq hxs h) (length_le_of_ofBe_eq hys h.symm)) h

/-- One more byte of a big-endian reading. -/
theorem shiftLeft_or_byte (n : ℕ) (b : UInt8) :
    (BitVec.ofNat 128 n <<< 8) ||| b.toBitVec.setWidth 128
      = BitVec.ofNat 128 (n * 256 + b.toNat) := by
  have hdisjoint : (BitVec.ofNat 128 n <<< 8) &&& b.toBitVec.setWidth 128 = 0#128 := by
    apply BitVec.eq_of_getLsbD_eq
    intro i hi
    rw [BitVec.getLsbD_and, BitVec.getLsbD_shiftLeft, BitVec.getLsbD_setWidth]
    by_cases hlow : i < 8
    · simp [hlow]
    · simp [BitVec.getLsbD_of_ge b.toBitVec i (by omega)]
  rw [← BitVec.add_eq_or_of_and_eq_zero _ _ hdisjoint]
  apply BitVec.eq_of_toNat_eq
  have hb := b.toNat_lt
  have hval : b.toBitVec.toNat = b.toNat := rfl
  simp only [BitVec.toNat_add, BitVec.toNat_shiftLeft, BitVec.toNat_ofNat, BitVec.toNat_setWidth,
    Nat.shiftLeft_eq, hval]
  omega

/-- The first `n` bytes, with zeros at the end if there are fewer. -/
def padded (n : ℕ) (bytes : List UInt8) : List UInt8 :=
  bytes.take n ++ List.replicate (n - (bytes.take n).length) 0

theorem toList_ofFn_getD (n : ℕ) (bytes : List UInt8) :
    (Vector.ofFn fun i : Fin n => bytes.getD i.val 0).toList = padded n bytes := by
  apply List.ext_getElem
  · simp [padded]
  · intro i hi hi'
    rw [Vector.length_toList] at hi
    simp only [padded, Vector.getElem_toList, Vector.getElem_ofFn, List.getElem_append,
      List.length_take, List.getElem_take, List.getElem_replicate]
    split_ifs with hlt
    · exact List.getD_eq_getElem _ _ (by omega)
    · exact List.getD_eq_default _ _ (by omega)

theorem padded_of_le {n : ℕ} {bytes : List UInt8} (h : n ≤ bytes.length) :
    padded n bytes = bytes.take n := by
  rw [padded, List.length_take_of_le h, Nat.sub_self, List.replicate_zero, List.append_nil]

/-- The padding can be told from bytes other than zero. -/
theorem takeWhile_padded {n : ℕ} {bytes : List UInt8} (h : ∀ b ∈ bytes.take n, b ≠ 0) :
    (padded n bytes).takeWhile (· ≠ 0) = bytes.take n := by
  rw [padded, List.takeWhile_append_of_pos (by simpa using h)]
  simp

/-! ## Hexadecimal digits -/

/-- The bytes of pairs of hexadecimal digits. -/
def hexBytes : List ℕ → List UInt8
  | [] => []
  | [_] => []
  | high :: low :: ds => UInt8.ofNat (16 * high + low) :: hexBytes ds

theorem length_hexBytes (ds : List ℕ) : (hexBytes ds).length = ds.length / 2 := by
  fun_induction hexBytes ds with
  | case1 => rfl
  | case2 => simp
  | case3 high low ds ih =>
    simp only [List.length_cons, ih]
    omega

/-- An even number of digits is read as the number of their bytes. -/
theorem foldl_hexBytes {ds : List ℕ} (hlt : ∀ d ∈ ds, d < 16) (heven : ds.length % 2 = 0) (n : ℕ) :
    ds.foldl (fun n d => n * 16 + d) n
      = (hexBytes ds).foldl (fun acc b => acc * 256 + b.toNat) n := by
  fun_induction hexBytes ds generalizing n with
  | case1 => rfl
  | case2 => simp at heven
  | case3 high low ds ih =>
    simp only [List.mem_cons, forall_eq_or_imp] at hlt
    obtain ⟨hhigh, hlow, hds⟩ := hlt
    have hbyte : (UInt8.ofNat (16 * high + low)).toNat = 16 * high + low := by
      rw [UInt8.toNat_ofNat']
      omega
    have hacc : (n * 16 + high) * 16 + low = n * 256 + (16 * high + low) := by ring
    rw [List.foldl_cons, List.foldl_cons, List.foldl_cons, hbyte, hacc]
    exact ih hds (by simp only [List.length_cons] at heven; omega) _

theorem getElem?_hexBytes (ds : List ℕ) {i : ℕ} (h : 2 * i + 1 < ds.length) :
    (hexBytes ds)[i]? = some (UInt8.ofNat (16 * ds[2 * i] + ds[2 * i + 1])) := by
  fun_induction hexBytes ds generalizing i with
  | case1 => simp at h
  | case2 => simp at h
  | case3 high low ds ih =>
    match i with
    | 0 => rfl
    | i + 1 =>
      rw [List.getElem?_cons_succ]
      exact ih (by simp only [List.length_cons] at h; omega)
/-! ## Bytes of a text -/

theorem toList_loop (bs : ByteArray) (i : ℕ) (r : List UInt8) :
    ByteArray.toList.loop bs i r = r.reverse ++ bs.data.toList.drop i := by
  induction i, r using ByteArray.toList.loop.induct bs with
  | case1 i r hi ih =>
    have hlen : i < bs.data.toList.length := hi
    have hget : bs.get! i = bs.data.toList[i] := by
      show bs.data[i]! = _
      simp [hi]
    rw [ByteArray.toList.loop, if_pos hi, ih, List.drop_eq_getElem_cons hlen, hget,
      List.reverse_cons, List.append_assoc, List.singleton_append]
  | case2 i r hi =>
    have hlen : bs.data.toList.length ≤ i := Nat.le_of_not_lt hi
    rw [ByteArray.toList.loop, if_neg hi, List.drop_eq_nil_of_le hlen, List.append_nil]

theorem toList_eq_data (bs : ByteArray) : bs.toList = bs.data.toList := by
  rw [ByteArray.toList, toList_loop, List.reverse_nil, List.nil_append, List.drop_zero]

theorem length_toUTF8 (s : String) : s.toUTF8.toList.length = s.utf8ByteSize := by
  rw [toList_eq_data]
  rfl

/-- The bytes of a text of ASCII characters are their codes. -/
theorem toUTF8_of_ascii {s : String} (h : ∀ c ∈ s.toList, c.toNat < 128) :
    s.toUTF8.toList = s.toList.map fun c => UInt8.ofNat c.toNat := by
  have hbytes : s.toUTF8.toList = s.toList.flatMap String.utf8EncodeChar := by
    rw [toList_eq_data, String.toUTF8_eq_toByteArray, ← String.utf8Encode_toList, List.utf8Encode]
    simp
  have hone : ∀ c ∈ s.toList, String.utf8EncodeChar c = [UInt8.ofNat c.toNat] := by
    intro c hc
    apply String.utf8EncodeChar_eq_singleton
    have hval : c.val.toNat < 128 := h c hc
    rw [Char.utf8Size, if_pos]
    show c.val.toNat ≤ 127
    omega
  rw [hbytes, List.flatMap_congr hone, List.map_eq_flatMap]

/-! ## Slice writes -/

/-- `buf[off .. off + src.len()].copy_from_slice(src)`. -/
def writeSlice (buf : List UInt8) (off : ℕ) (src : List UInt8) : List UInt8 :=
  buf.take off ++ src ++ buf.drop (off + src.length)

/-- Writing at the end of the filled part appends to it. -/
theorem writeSlice_append {pre src : List UInt8} {off : ℕ} (rest : List UInt8)
    (hoff : pre.length = off) :
    writeSlice (pre ++ rest) off src = (pre ++ src) ++ rest.drop src.length := by
  subst hoff
  rw [writeSlice, List.take_left, List.drop_append, List.drop_eq_nil_of_le (by omega)]
  simp

end Hedge.Common
