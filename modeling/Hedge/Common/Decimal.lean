import Mathlib.Data.Char
import Mathlib.Data.List.Lex
import Mathlib.Tactic.Ring

/-!
# Zero-padded decimals

`decimal w n` is what a format string `{:0w}` prints for `n`: its decimal digits, with zeros in
front up to the width `w`. Different numbers print differently (`decimal_inj`), and up to the width
the order of the texts is the order of the numbers (`decimal_append_lt`). Past the width it is not:
a number with more digits is a longer text, and texts are compared from the left.

`parseUnsigned` reads an unsigned number of a radix as `from_str_radix` does.
-/

namespace Hedge.Common

/-- The digits of `n`, padded with zeros to at least `w` characters. -/
def decimal (w n : ℕ) : List Char :=
  List.replicate (w - (Nat.toDigits 10 n).length) '0' ++ Nat.toDigits 10 n

@[simp] theorem ofDigitChars_decimal (w n : ℕ) : Nat.ofDigitChars 10 (decimal w n) 0 = n := by
  rw [decimal, Nat.ofDigitChars_append, Nat.ofDigitChars_replicate_zero, Nat.mul_zero,
    Nat.ofDigitChars_ten_toDigits]

theorem decimal_inj {w n m : ℕ} (h : decimal w n = decimal w m) : n = m := by
  rw [← ofDigitChars_decimal w n, h, ofDigitChars_decimal]

theorem length_decimal {w n : ℕ} (hw : 0 < w) (h : n < 10 ^ w) : (decimal w n).length = w := by
  have hle := (Nat.length_toDigits_le_iff (b := 10) (by norm_num) hw).mpr h
  rw [decimal, List.length_append, List.length_replicate]
  omega

theorem isDigit_of_mem_decimal {w n : ℕ} {c : Char} (h : c ∈ decimal w n) : c.isDigit := by
  rcases List.mem_append.mp h with h | h
  · rw [List.eq_of_mem_replicate h]
    rfl
  · exact Nat.isDigit_of_mem_toDigits (by norm_num) (by norm_num) h

/-! ## Texts of digits are ordered by their values -/

theorem ofDigitChars_cons_zero (c : Char) (cs : List Char) :
    Nat.ofDigitChars 10 (c :: cs) 0
      = 10 ^ cs.length * (c.toNat - 48) + Nat.ofDigitChars 10 cs 0 := by
  have hzero : '0'.toNat = 48 := rfl
  rw [Nat.ofDigitChars_cons, Nat.ofDigitChars_eq_ofDigitChars_zero, Nat.mul_zero, Nat.zero_add,
    hzero]

theorem toNat_bounds_of_isDigit {c : Char} (h : c.isDigit) : 48 ≤ c.toNat ∧ c.toNat ≤ 57 := by
  rw [Char.isDigit, Bool.and_eq_true, decide_eq_true_eq, decide_eq_true_eq] at h
  exact h

theorem ofDigitChars_lt {cs : List Char} (h : ∀ c ∈ cs, c.isDigit) :
    Nat.ofDigitChars 10 cs 0 < 10 ^ cs.length := by
  induction cs with
  | nil => simp
  | cons c cs ih =>
    obtain ⟨-, hc⟩ := toNat_bounds_of_isDigit (h c List.mem_cons_self)
    have htail := ih fun d hd => h d (List.mem_cons_of_mem _ hd)
    have hhead : 10 ^ cs.length * (c.toNat - 48) ≤ 10 ^ cs.length * 9 :=
      Nat.mul_le_mul_left _ (by omega)
    rw [ofDigitChars_cons_zero, List.length_cons, pow_succ]
    omega

/-- Of two digit strings of one length the one with the smaller value comes first, whatever
follows them. -/
theorem append_lt_of_ofDigitChars_lt {xs ys : List Char} (hxs : ∀ c ∈ xs, c.isDigit)
    (hys : ∀ c ∈ ys, c.isDigit) (hlen : xs.length = ys.length)
    (h : Nat.ofDigitChars 10 xs 0 < Nat.ofDigitChars 10 ys 0) (rest : List Char) :
    xs ++ rest < ys ++ rest := by
  induction xs generalizing ys with
  | nil =>
    obtain rfl : ys = [] := List.length_eq_zero_iff.mp hlen.symm
    exact absurd h (lt_irrefl _)
  | cons x xs ih =>
    cases ys with
    | nil => simp at hlen
    | cons y ys =>
      have hlen' : xs.length = ys.length := by simpa using hlen
      obtain ⟨hy, -⟩ := toNat_bounds_of_isDigit (hys y List.mem_cons_self)
      have hxtail : ∀ c ∈ xs, c.isDigit := fun c hc => hxs c (List.mem_cons_of_mem _ hc)
      have hytail : ∀ c ∈ ys, c.isDigit := fun c hc => hys c (List.mem_cons_of_mem _ hc)
      rw [ofDigitChars_cons_zero, ofDigitChars_cons_zero, hlen'] at h
      rcases lt_trichotomy x.toNat y.toNat with hlt | heq | hgt
      · exact List.Lex.rel hlt
      · obtain rfl : x = y := Char.toNat_inj.mp heq
        exact List.Lex.cons (ih hxtail hytail hlen' (Nat.lt_of_add_lt_add_left h))
      · have hbound := ofDigitChars_lt hytail
        have hstep : 10 ^ ys.length * (y.toNat - 48) + 10 ^ ys.length
            ≤ 10 ^ ys.length * (x.toNat - 48) := by
          rw [← Nat.mul_succ]
          exact Nat.mul_le_mul_left _ (by omega)
        omega

/-- Up to the width, the texts are ordered as the numbers are. -/
theorem decimal_append_lt {w n m : ℕ} (hw : 0 < w) (hnm : n < m) (hm : m < 10 ^ w)
    (rest : List Char) : decimal w n ++ rest < decimal w m ++ rest := by
  refine append_lt_of_ofDigitChars_lt (fun _ => isDigit_of_mem_decimal)
    (fun _ => isDigit_of_mem_decimal) ?_ ?_ rest
  · rw [length_decimal hw (lt_trans hnm hm), length_decimal hw hm]
  · rwa [ofDigitChars_decimal, ofDigitChars_decimal]

example : decimal 4 10000 ++ ['.'] < decimal 4 1001 ++ ['.'] := by decide

/-! ## Reading numbers -/

/-- The value of a digit of a radix up to 36. -/
def digitVal (radix : ℕ) (c : Char) : Option ℕ :=
  let value :=
    if c.isDigit then some (c.toNat - '0'.toNat)
    else if 'a' ≤ c ∧ c ≤ 'z' then some (c.toNat - 'a'.toNat + 10)
    else if 'A' ≤ c ∧ c ≤ 'Z' then some (c.toNat - 'A'.toNat + 10)
    else none
  value.filter (· < radix)

/-- An unsigned number below a bound: an optional plus sign and at least one digit. -/
def parseUnsigned (radix bound : ℕ) (s : String) : Option ℕ :=
  let digits := match s.toList with
    | '+' :: ds => ds
    | ds => ds
  if digits = [] then none
  else ((digits.mapM (digitVal radix)).map fun ds => ds.foldl (fun n d => n * radix + d) 0).filter
    (· < bound)

/-- A text without a sign is read by its digits. -/
theorem parseUnsigned_of_unsigned {radix bound : ℕ} {s : String}
    (hplus : s.toList.head? ≠ some '+') (hne : s.toList ≠ []) :
    parseUnsigned radix bound s = ((s.toList.mapM (digitVal radix)).map fun ds =>
      ds.foldl (fun n d => n * radix + d) 0).filter (· < bound) := by
  rw [parseUnsigned]
  split
  next ds heq =>
    rw [heq] at hplus
    exact absurd rfl hplus
  next => rw [if_neg hne]

example : parseUnsigned 16 (2 ^ 128) "+0fF" = some 255 := by decide

end Hedge.Common
