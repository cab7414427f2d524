import Mathlib.Data.List.Basic
import Mathlib.Data.Option.Basic

/-!
# Base64

The strict decoder of the standard alphabet of RFC 4648: groups of four characters, padding only at
the end of the last group, and no bits set behind the last byte. `decode_three`, `decode_two` and
`decode_one` say what it makes of a group whose characters stand for the six-bit parts of one to
three bytes, so an encoder is checked group by group.
-/

namespace Hedge.Common.Base64

/-- The value of a character of the alphabet. -/
def value (c : Char) : Option ℕ :=
  if 'A' ≤ c ∧ c ≤ 'Z' then some (c.toNat - 65)
  else if 'a' ≤ c ∧ c ≤ 'z' then some (c.toNat - 97 + 26)
  else if '0' ≤ c ∧ c ≤ '9' then some (c.toNat - 48 + 52)
  else if c = '+' then some 62
  else if c = '/' then some 63
  else none

/-- The bytes of a text. -/
def decode : List Char → Option (List UInt8)
  | [] => some []
  | a :: b :: c :: d :: rest =>
    if c = '=' ∧ d = '=' ∧ rest = [] then do
      let x ← value a
      let y ← value b
      if y % 16 = 0 then some [UInt8.ofNat (x * 4 + y / 16)] else none
    else if d = '=' ∧ rest = [] then do
      let x ← value a
      let y ← value b
      let z ← value c
      if z % 4 = 0 then some [UInt8.ofNat (x * 4 + y / 16), UInt8.ofNat (y % 16 * 16 + z / 4)]
      else none
    else do
      let x ← value a
      let y ← value b
      let z ← value c
      let w ← value d
      let bytes ← decode rest
      some (UInt8.ofNat (x * 4 + y / 16) :: UInt8.ofNat (y % 16 * 16 + z / 4) ::
        UInt8.ofNat (z % 4 * 64 + w) :: bytes)
  | _ => none

section Groups

variable {a b c d : Char} (p q r : UInt8)

/-- A character of the alphabet is not the padding. -/
theorem ne_pad_of_value {v : ℕ} (h : value c = some v) : c ≠ '=' := by
  rintro rfl
  cases h

theorem decode_three (ha : value a = some (p.toNat / 4))
    (hb : value b = some (p.toNat % 4 * 16 + q.toNat / 16))
    (hc : value c = some (q.toNat % 16 * 4 + r.toNat / 64)) (hd : value d = some (r.toNat % 64))
    (rest : List Char) :
    decode (a :: b :: c :: d :: rest) = (decode rest).map fun bytes => p :: q :: r :: bytes := by
  have hp := p.toNat_lt
  have hq := q.toNat_lt
  have hr := r.toNat_lt
  have hfirst : p.toNat / 4 * 4 + (p.toNat % 4 * 16 + q.toNat / 16) / 16 = p.toNat := by omega
  have hsecond : (p.toNat % 4 * 16 + q.toNat / 16) % 16 * 16
      + (q.toNat % 16 * 4 + r.toNat / 64) / 4 = q.toNat := by omega
  have hthird : (q.toNat % 16 * 4 + r.toNat / 64) % 4 * 64 + r.toNat % 64 = r.toNat := by omega
  rw [decode, if_neg (fun h => ne_pad_of_value hc h.1), if_neg (fun h => ne_pad_of_value hd h.1),
    ha, hb, hc, hd]
  simp only [Option.bind_eq_bind, Option.bind_some, hfirst, hsecond, hthird, UInt8.ofNat_toNat]
  cases decode rest <;> rfl

theorem decode_two (ha : value a = some (p.toNat / 4))
    (hb : value b = some (p.toNat % 4 * 16 + q.toNat / 16))
    (hc : value c = some (q.toNat % 16 * 4)) : decode [a, b, c, '='] = some [p, q] := by
  have hp := p.toNat_lt
  have hq := q.toNat_lt
  have hfirst : p.toNat / 4 * 4 + (p.toNat % 4 * 16 + q.toNat / 16) / 16 = p.toNat := by omega
  have hsecond : (p.toNat % 4 * 16 + q.toNat / 16) % 16 * 16 + q.toNat % 16 * 4 / 4 = q.toNat := by
    omega
  have hzero : q.toNat % 16 * 4 % 4 = 0 := by omega
  rw [decode, if_neg (fun h => ne_pad_of_value hc h.1), if_pos ⟨rfl, rfl⟩, ha, hb, hc]
  simp only [Option.bind_eq_bind, Option.bind_some, hfirst, hsecond, hzero, if_true,
    UInt8.ofNat_toNat]

theorem decode_one (ha : value a = some (p.toNat / 4)) (hb : value b = some (p.toNat % 4 * 16)) :
    decode [a, b, '=', '='] = some [p] := by
  have hp := p.toNat_lt
  have hfirst : p.toNat / 4 * 4 + p.toNat % 4 * 16 / 16 = p.toNat := by omega
  have hzero : p.toNat % 4 * 16 % 16 = 0 := by omega
  rw [decode, if_pos ⟨rfl, rfl, rfl⟩, ha, hb]
  simp only [Option.bind_eq_bind, Option.bind_some, hfirst, hzero, if_true, UInt8.ofNat_toNat]

end Groups

end Hedge.Common.Base64
