import Mathlib.Data.List.Basic
import Mathlib.Order.Lattice

/-!
# Byte streams with short reads

A source of bytes in the manner of `std::io::Read`: one `read` fills as much of the caller's buffer
as it likes, but at least one byte, unless the stream is at its end or the buffer is empty. How much
each read returns is a schedule the stream carries; past its end the reads are full ones.

`fill` is the loop around `read` that stops when the buffer is full or a read returns nothing. What
it returns does not depend on the schedule (`fill_fst`, `bytes_fill`).
-/

namespace Hedge.Common

/-- A byte stream and the sizes its coming reads will have. -/
structure Reader where
  bytes : List UInt8
  chunks : List ℕ
  deriving Repr, DecidableEq

namespace Reader

/-- How many bytes the next read into a buffer of `n` bytes returns. -/
def readLen (r : Reader) (n : ℕ) : ℕ := min (max 1 (r.chunks.headD n)) (min n r.bytes.length)

/-- `read`, into a buffer of `n` bytes. -/
def read (r : Reader) (n : ℕ) : List UInt8 × Reader :=
  (r.bytes.take (r.readLen n), { bytes := r.bytes.drop (r.readLen n), chunks := r.chunks.tail })

theorem readLen_le (r : Reader) (n : ℕ) : r.readLen n ≤ n :=
  le_trans (min_le_right _ _) (min_le_left _ _)

theorem readLen_le_length (r : Reader) (n : ℕ) : r.readLen n ≤ r.bytes.length :=
  le_trans (min_le_right _ _) (min_le_right _ _)

theorem length_read (r : Reader) (n : ℕ) : (r.read n).1.length = r.readLen n :=
  List.length_take_of_le (r.readLen_le_length n)

/-- A read returns nothing only at the end of the stream or into an empty buffer. -/
theorem readLen_eq_zero {r : Reader} {n : ℕ} : r.readLen n = 0 ↔ n = 0 ∨ r.bytes = [] := by
  rw [readLen, ← List.length_eq_zero_iff]
  omega

/-- The loop of `fill`, for at most `fuel` reads. -/
def fillLoop : ℕ → ℕ → Reader → List UInt8 × Reader
  | 0, _, r => ([], r)
  | fuel + 1, n, r =>
    let (bytes, r) := r.read n
    if bytes = [] then ([], r)
    else
      let (more, r) := fillLoop fuel (n - bytes.length) r
      (bytes ++ more, r)

/-- Reads until `n` bytes have come in or a read returns nothing. Each read but the last returns a
byte at least, so that `n` reads are enough. -/
def fill (r : Reader) (n : ℕ) : List UInt8 × Reader := fillLoop n n r

theorem fillLoop_fst {fuel n : ℕ} (r : Reader) (h : n ≤ fuel) :
    (fillLoop fuel n r).1 = r.bytes.take n ∧ (fillLoop fuel n r).2.bytes = r.bytes.drop n := by
  induction fuel generalizing n r with
  | zero =>
    obtain rfl : n = 0 := by omega
    exact ⟨rfl, rfl⟩
  | succ fuel ih =>
    have hle := r.readLen_le n
    have hlen := r.length_read n
    simp only [fillLoop]
    split_ifs with hnil
    · rw [hnil, List.length_nil] at hlen
      have hend := readLen_eq_zero.mp hlen.symm
      have hkeep : (r.read n).2.bytes = r.bytes := by
        simp only [read, ← hlen, List.drop_zero]
      rw [hkeep]
      rcases hend with rfl | hbytes
      · simp
      · simp [hbytes]
    · have hpos : 0 < r.readLen n := by
        rw [← hlen]
        exact List.length_pos_iff.mpr hnil
      obtain ⟨htake, hdrop⟩ := ih (r.read n).2 (n := n - (r.read n).1.length) (by omega)
      rw [htake, hdrop, hlen]
      have hsplit : n = r.readLen n + (n - r.readLen n) := by omega
      constructor
      · conv_rhs => rw [hsplit, List.take_add]
        rfl
      · conv_rhs => rw [hsplit, ← List.drop_drop]
        rfl

@[simp] theorem fill_fst (r : Reader) (n : ℕ) : (r.fill n).1 = r.bytes.take n :=
  (fillLoop_fst r le_rfl).1

@[simp] theorem bytes_fill (r : Reader) (n : ℕ) : (r.fill n).2.bytes = r.bytes.drop n :=
  (fillLoop_fst r le_rfl).2

end Reader

end Hedge.Common
