import Hedge.Common.Json
import Mathlib.Algebra.Order.Field.Basic
import Mathlib.Data.Char

/-!
# JSON texts

The grammar of JSON over bytes, as a relation between a text and the value it stands for. Of the
members of an object with one name the last one counts. A reader that accepts only JSON texts is
described by `ReadsTexts`; what it reads can then be told from the bytes: no byte of a text is a
control character other than white space (`textByte_of_isText`), and a text is at least as
long as its value is large (`size_le_of_isText`).
-/

namespace Hedge.Common

namespace JsonText

/-! ## Grammar -/

/-- The bytes of a text of ASCII characters. -/
def ascii (s : List Char) : List UInt8 := s.map fun c => UInt8.ofNat c.toNat

/-- White space between tokens. -/
def IsWs (bs : List UInt8) : Prop := ∀ b ∈ bs, b = 0x20 ∨ b = 0x09 ∨ b = 0x0a ∨ b = 0x0d

/-- A run of decimal digits. -/
def IsDigits (cs : List Char) : Prop := cs ≠ [] ∧ ∀ c ∈ cs, c.isDigit

/-- The value of a hexadecimal digit. -/
def hexVal (c : Char) : Option ℕ :=
  if c.isDigit then some (c.toNat - '0'.toNat)
  else if 'a' ≤ c ∧ c ≤ 'f' then some (c.toNat - 'a'.toNat + 10)
  else if 'A' ≤ c ∧ c ≤ 'F' then some (c.toNat - 'A'.toNat + 10)
  else none

/-- Four hexadecimal digits and their value. -/
def IsHex4 (cs : List Char) (n : ℕ) : Prop :=
  ∃ a b c d, cs = [a, b, c, d] ∧ ∃ va vb vc vd, hexVal a = some va ∧ hexVal b = some vb ∧
    hexVal c = some vc ∧ hexVal d = some vd ∧ n = ((va * 16 + vb) * 16 + vc) * 16 + vd

/-- The two-character escapes. -/
def escapes : List (Char × Char) :=
  [('"', '"'), ('\\', '\\'), ('/', '/'), ('b', '\x08'), ('f', '\x0c'), ('n', '\n'), ('r', '\r'),
    ('t', '\t')]

/-- A character of a string: itself, an escape, or its UTF-16 code in hexadecimal. -/
inductive CharText : List UInt8 → Char → Prop
  | plain {c : Char} : 0x20 ≤ c.toNat → c ≠ '"' → c ≠ '\\' → CharText (String.utf8EncodeChar c) c
  | escape {e c : Char} : (e, c) ∈ escapes → CharText (ascii ['\\', e]) c
  | code {hex : List Char} {c : Char} : IsHex4 hex c.toNat → CharText (ascii ('\\' :: 'u' :: hex)) c
  | pair {hi lo : List Char} {h l : ℕ} {c : Char} : IsHex4 hi h → IsHex4 lo l →
      0xd800 ≤ h → h < 0xdc00 → 0xdc00 ≤ l → l < 0xe000 →
      c.toNat = 0x10000 + (h - 0xd800) * 0x400 + (l - 0xdc00) →
      CharText (ascii (('\\' :: 'u' :: hi) ++ ('\\' :: 'u' :: lo))) c

/-- The characters between the quotes of a string. -/
inductive CharsText : List UInt8 → List Char → Prop
  | nil : CharsText [] []
  | cons {bs rest : List UInt8} {c : Char} {cs : List Char} :
      CharText bs c → CharsText rest cs → CharsText (bs ++ rest) (c :: cs)

/-- A string. -/
def StrText (bs : List UInt8) (s : String) : Prop :=
  ∃ body, CharsText body s.toList ∧ bs = ascii ['"'] ++ body ++ ascii ['"']

/-- The exponent of a number and its value. -/
inductive ExpText : List Char → ℤ → Prop
  | none : ExpText [] 0
  | pos {e : Char} {sign ds : List Char} : e = 'e' ∨ e = 'E' → sign = [] ∨ sign = ['+'] →
      IsDigits ds → ExpText (e :: sign ++ ds) (Nat.ofDigitChars 10 ds 0)
  | neg {e : Char} {ds : List Char} : e = 'e' ∨ e = 'E' → IsDigits ds →
      ExpText (e :: '-' :: ds) (-Nat.ofDigitChars 10 ds 0)

/-- A number. One with a fraction or an exponent, or outside the range of the integers, is a
float. -/
inductive NumText : List UInt8 → JsonNumber → Prop
  | posInt {n : UInt64} : NumText (ascii (Nat.toDigits 10 n.toNat)) (.posInt n)
  | negInt {n : Int64} : n < 0 →
      NumText (ascii ('-' :: Nat.toDigits 10 n.toInt.natAbs)) (.negInt n)
  | float {sign frac exp : List Char} {int : ℕ} {e : ℤ} : sign = [] ∨ sign = ['-'] →
      frac = [] ∨ (∃ ds, IsDigits ds ∧ frac = '.' :: ds) → ExpText exp e →
      frac ++ exp ≠ [] ∨ 2 ^ 64 ≤ int ∨ (sign ≠ [] ∧ (int = 0 ∨ 2 ^ 63 < int)) →
      NumText (ascii (sign ++ Nat.toDigits 10 int ++ frac ++ exp))
        (.float ((if sign = [] then 1 else -1) *
          (int + Nat.ofDigitChars 10 frac.tail 0 / 10 ^ frac.tail.length) * 10 ^ e))

/-- Of the members with one name, the last. -/
def keepLast : List (String × Json) → List (String × Json)
  | [] => []
  | field :: fields =>
    if field.1 ∈ fields.map Prod.fst then keepLast fields else field :: keepLast fields

mutual

/-- The text of a value, without white space around it. -/
inductive ValueText : List UInt8 → Json → Prop
  | null : ValueText (ascii ['n', 'u', 'l', 'l']) .null
  | true : ValueText (ascii ['t', 'r', 'u', 'e']) (.bool .true)
  | false : ValueText (ascii ['f', 'a', 'l', 's', 'e']) (.bool .false)
  | num {bs : List UInt8} {n : JsonNumber} : NumText bs n → ValueText bs (.num n)
  | str {bs : List UInt8} {s : String} : StrText bs s → ValueText bs (.str s)
  | arrNil {ws : List UInt8} : IsWs ws → ValueText (ascii ['['] ++ ws ++ ascii [']']) (.arr [])
  | arr {bs : List UInt8} {vs : List Json} : ElemsText bs vs →
      ValueText (ascii ['['] ++ bs ++ ascii [']']) (.arr vs)
  | objNil {ws : List UInt8} : IsWs ws → ValueText (ascii ['\x7b'] ++ ws ++ ascii ['\x7d']) (.obj [])
  | obj {bs : List UInt8} {fields : List (String × Json)} : FieldsText bs fields →
      ValueText (ascii ['\x7b'] ++ bs ++ ascii ['\x7d']) (.obj (keepLast fields))

/-- The elements of an array, separated by commas. -/
inductive ElemsText : List UInt8 → List Json → Prop
  | last {l bs r : List UInt8} {v : Json} : IsWs l → ValueText bs v → IsWs r →
      ElemsText (l ++ bs ++ r) [v]
  | cons {l bs r rest : List UInt8} {v : Json} {vs : List Json} : IsWs l → ValueText bs v →
      IsWs r → ElemsText rest vs → ElemsText (l ++ bs ++ r ++ ascii [','] ++ rest) (v :: vs)

/-- The members of an object, separated by commas. -/
inductive FieldsText : List UInt8 → List (String × Json) → Prop
  | last {l name r l' bs r' : List UInt8} {key : String} {v : Json} : IsWs l → StrText name key →
      IsWs r → IsWs l' → ValueText bs v → IsWs r' →
      FieldsText (l ++ name ++ r ++ ascii [':'] ++ (l' ++ bs ++ r')) [(key, v)]
  | cons {l name r l' bs r' rest : List UInt8} {key : String} {v : Json}
      {fields : List (String × Json)} : IsWs l → StrText name key → IsWs r → IsWs l' →
      ValueText bs v → IsWs r' → FieldsText rest fields →
      FieldsText (l ++ name ++ r ++ ascii [':'] ++ (l' ++ bs ++ r') ++ ascii [','] ++ rest)
        ((key, v) :: fields)

end

end JsonText

open JsonText

/-- A JSON text of a value. -/
def IsText (bs : List UInt8) (v : Json) : Prop :=
  ∃ l value r, IsWs l ∧ ValueText value v ∧ IsWs r ∧ bs = l ++ value ++ r

/-- A reader that accepts a byte string only as a text of the value it returns. -/
def ReadsTexts (parse : List UInt8 → Option Json) : Prop :=
  ∀ bs v, parse bs = some v → IsText bs v

/-- The reader that gives up on every byte string. -/
theorem readsTexts_none : ReadsTexts fun _ => none := by
  intro bytes v h
  cases h

/-! ## Compact texts

What a writer puts out that adds no white space and need not escape a character. -/

namespace JsonText

/-- A string as it stands between quotes. -/
def plainStr (s : String) : List UInt8 :=
  ascii ['"'] ++ s.toList.flatMap String.utf8EncodeChar ++ ascii ['"']

/-- The decimal digits of an `i64`. -/
def plainI64 (n : Int64) : List UInt8 :=
  if 0 ≤ n then ascii (Nat.toDigits 10 n.toUInt64.toNat)
  else ascii ('-' :: Nat.toDigits 10 n.toInt.natAbs)

/-- The members of an object with commas between them. -/
def plainFields : List (String × List UInt8) → List UInt8
  | [] => []
  | [(name, text)] => plainStr name ++ ascii [':'] ++ text
  | (name, text) :: fields => plainStr name ++ ascii [':'] ++ text ++ ascii [','] ++ plainFields fields

/-- An object. -/
def plainObj (fields : List (String × List UInt8)) : List UInt8 :=
  ascii ['\x7b'] ++ plainFields fields ++ ascii ['\x7d']

/-- A string that needs no escape. -/
def IsPlain (s : String) : Prop := ∀ c ∈ s.toList, 0x20 ≤ c.toNat ∧ c ≠ '"' ∧ c ≠ '\\'

instance (s : String) : Decidable (IsPlain s) := List.decidableBAll _ _

theorem strText_plainStr {s : String} (h : IsPlain s) : StrText (plainStr s) s := by
  have hchars : ∀ cs : List Char, (∀ c ∈ cs, 0x20 ≤ c.toNat ∧ c ≠ '"' ∧ c ≠ '\\') →
      CharsText (cs.flatMap String.utf8EncodeChar) cs := by
    intro cs hcs
    induction cs with
    | nil => exact .nil
    | cons c cs ih =>
      obtain ⟨⟨hlow, hquote, hbackslash⟩, hcs⟩ := List.forall_mem_cons.mp hcs
      rw [List.flatMap_cons]
      exact .cons (.plain hlow hquote hbackslash) (ih hcs)
  exact ⟨_, hchars _ h, rfl⟩

theorem valueText_plainI64 (n : Int64) : ValueText (plainI64 n) (.ofI64 n) := by
  rw [Json.ofI64, JsonNumber.ofI64, plainI64]
  split_ifs with hn
  · exact .num .posInt
  · exact .num (.negInt (Int64.not_le.mp hn))

theorem isWs_nil : IsWs [] := by simp [IsWs]

/-- The texts of the members of an object make up its text. -/
theorem fieldsText_plainFields {fields : List (String × List UInt8 × Json)} (hne : fields ≠ [])
    (h : ∀ field ∈ fields, IsPlain field.1 ∧ ValueText field.2.1 field.2.2) :
    FieldsText (plainFields (fields.map fun field => (field.1, field.2.1)))
      (fields.map fun field => (field.1, field.2.2)) := by
  induction fields with
  | nil => exact absurd rfl hne
  | cons field fields ih =>
    obtain ⟨⟨hname, hvalue⟩, hrest⟩ := List.forall_mem_cons.mp h
    have hkey := strText_plainStr hname
    cases fields with
    | nil => simpa [plainFields] using FieldsText.last isWs_nil hkey isWs_nil isWs_nil hvalue isWs_nil
    | cons next fields =>
      have htail := ih (List.cons_ne_nil _ _) hrest
      simpa [plainFields] using
        FieldsText.cons isWs_nil hkey isWs_nil isWs_nil hvalue isWs_nil htail

theorem keepLast_of_nodup {fields : List (String × Json)} (h : (fields.map Prod.fst).Nodup) :
    keepLast fields = fields := by
  induction fields with
  | nil => rfl
  | cons field fields ih =>
    obtain ⟨hfresh, hnodup⟩ := List.nodup_cons.mp h
    rw [keepLast, if_neg hfresh, ih hnodup]

/-- An object with different plain names, written from the texts of its members. -/
theorem valueText_plainObj {fields : List (String × List UInt8 × Json)} (hne : fields ≠ [])
    (h : ∀ field ∈ fields, IsPlain field.1 ∧ ValueText field.2.1 field.2.2)
    (hnodup : (fields.map Prod.fst).Nodup) :
    ValueText (plainObj (fields.map fun field => (field.1, field.2.1)))
      (.obj (fields.map fun field => (field.1, field.2.2))) := by
  have hobj := ValueText.obj (fieldsText_plainFields hne h)
  rwa [keepLast_of_nodup (by rw [List.map_map]; exact hnodup)] at hobj

end JsonText

theorem isText_of_valueText {bs : List UInt8} {v : Json} (h : ValueText bs v) : IsText bs v :=
  ⟨[], bs, [], isWs_nil, h, isWs_nil, by simp⟩

/-! ## Bytes -/

namespace JsonText

/-- The bytes that occur in texts: no control character but white space, and nothing that is not
UTF-8. -/
def TextByte (b : UInt8) : Prop := 0x09 ≤ b.toNat ∧ b.toNat ≤ 0xf7

theorem textByte_of_isWs {bs : List UInt8} (h : IsWs bs) : ∀ b ∈ bs, TextByte b := by
  intro b hb
  rcases h b hb with rfl | rfl | rfl | rfl <;> exact ⟨by decide, by decide⟩

/-- A character of the ASCII range is a byte of a text. -/
theorem textByte_ascii {cs : List Char} (h : ∀ c ∈ cs, 0x09 ≤ c.toNat ∧ c.toNat ≤ 0x7f) :
    ∀ b ∈ ascii cs, TextByte b := by
  intro b hb
  obtain ⟨c, hc, rfl⟩ := List.mem_map.mp hb
  obtain ⟨hlow, hhigh⟩ := h c hc
  have hval : (UInt8.ofNat c.toNat).toNat = c.toNat := by
    rw [UInt8.toNat_ofNat', Nat.mod_eq_of_lt (by omega)]
  exact ⟨by omega, by omega⟩

theorem textByte_utf8EncodeChar {c : Char} (h : 0x20 ≤ c.toNat) :
    ∀ b ∈ String.utf8EncodeChar c, TextByte b := by
  have hbyte : ∀ n, 0x09 ≤ n → n ≤ 0xf7 → TextByte (UInt8.ofNat n) := by
    intro n hlow hhigh
    rw [TextByte, UInt8.toNat_ofNat', Nat.mod_eq_of_lt (by omega)]
    exact ⟨hlow, hhigh⟩
  have hval : c.val.toNat = c.toNat := rfl
  intro b hb
  simp only [String.utf8EncodeChar, hval] at hb
  split_ifs at hb <;> simp only [List.mem_cons, List.not_mem_nil, or_false] at hb
  · rw [hb]
    exact hbyte _ (by omega) (by omega)
  · rcases hb with rfl | rfl <;> exact hbyte _ (by omega) (by omega)
  · rcases hb with rfl | rfl | rfl <;> exact hbyte _ (by omega) (by omega)
  · rcases hb with rfl | rfl | rfl | rfl <;> exact hbyte _ (by omega) (by omega)

/-! ### Strings and numbers -/

theorem bounds_of_isDigit {c : Char} (h : c.isDigit) : 0x09 ≤ c.toNat ∧ c.toNat ≤ 0x7f := by
  rw [Char.isDigit, Bool.and_eq_true, decide_eq_true_eq, decide_eq_true_eq] at h
  have hlow : 48 ≤ c.toNat := h.1
  have hhigh : c.toNat ≤ 57 := h.2
  exact ⟨by omega, by omega⟩

theorem bounds_of_hexVal {c : Char} {n : ℕ} (h : hexVal c = some n) :
    0x09 ≤ c.toNat ∧ c.toNat ≤ 0x7f := by
  unfold hexVal at h
  split_ifs at h with hdigit hlower hupper
  · exact bounds_of_isDigit hdigit
  · have hlow : 97 ≤ c.toNat := hlower.1
    have hhigh : c.toNat ≤ 102 := hlower.2
    exact ⟨by omega, by omega⟩
  · have hlow : 65 ≤ c.toNat := hupper.1
    have hhigh : c.toNat ≤ 70 := hupper.2
    exact ⟨by omega, by omega⟩

theorem bounds_of_isHex4 {cs : List Char} {n : ℕ} (h : IsHex4 cs n) :
    ∀ c ∈ cs, 0x09 ≤ c.toNat ∧ c.toNat ≤ 0x7f := by
  obtain ⟨a, b, c, d, rfl, va, vb, vc, vd, ha, hb, hc, hd, -⟩ := h
  intro x hx
  simp only [List.mem_cons, List.not_mem_nil, or_false] at hx
  rcases hx with rfl | rfl | rfl | rfl
  · exact bounds_of_hexVal ha
  · exact bounds_of_hexVal hb
  · exact bounds_of_hexVal hc
  · exact bounds_of_hexVal hd

theorem textByte_of_charText {bs : List UInt8} {c : Char} (h : CharText bs c) :
    ∀ b ∈ bs, TextByte b := by
  have hbackslash : 0x09 ≤ '\\'.toNat ∧ '\\'.toNat ≤ 0x7f := by decide
  have hu : 0x09 ≤ 'u'.toNat ∧ 'u'.toNat ≤ 0x7f := by decide
  cases h with
  | plain hlow _ _ => exact textByte_utf8EncodeChar hlow
  | escape he =>
    have hall : ∀ pair ∈ escapes, 0x09 ≤ pair.1.toNat ∧ pair.1.toNat ≤ 0x7f := by decide
    refine textByte_ascii ?_
    simp only [List.forall_mem_cons]
    exact ⟨hbackslash, hall _ he, by simp⟩
  | code hhex =>
    refine textByte_ascii ?_
    simp only [List.forall_mem_cons]
    exact ⟨hbackslash, hu, bounds_of_isHex4 hhex⟩
  | pair hhi hlo _ _ _ _ _ =>
    refine textByte_ascii ?_
    simp only [List.forall_mem_append, List.forall_mem_cons]
    exact ⟨⟨hbackslash, hu, bounds_of_isHex4 hhi⟩, hbackslash, hu, bounds_of_isHex4 hlo⟩

theorem textByte_of_charsText {bs : List UInt8} {cs : List Char} (h : CharsText bs cs) :
    ∀ b ∈ bs, TextByte b := by
  induction h with
  | nil => simp
  | cons hchar _ ih => exact List.forall_mem_append.mpr ⟨textByte_of_charText hchar, ih⟩

theorem textByte_of_strText {bs : List UInt8} {s : String} (h : StrText bs s) :
    ∀ b ∈ bs, TextByte b := by
  obtain ⟨body, hbody, rfl⟩ := h
  have hquote : ∀ b ∈ ascii ['"'], TextByte b := textByte_ascii (by simp)
  simp only [List.forall_mem_append]
  exact ⟨⟨hquote, textByte_of_charsText hbody⟩, hquote⟩

theorem bounds_of_mem_toDigits {n : ℕ} : ∀ c ∈ Nat.toDigits 10 n, 0x09 ≤ c.toNat ∧ c.toNat ≤ 0x7f :=
  fun _ hc => bounds_of_isDigit (Nat.isDigit_of_mem_toDigits (by decide) (by decide) hc)

theorem bounds_of_expText {cs : List Char} {e : ℤ} (h : ExpText cs e) :
    ∀ c ∈ cs, 0x09 ≤ c.toNat ∧ c.toNat ≤ 0x7f := by
  have he : ∀ {x : Char}, x = 'e' ∨ x = 'E' → 0x09 ≤ x.toNat ∧ x.toNat ≤ 0x7f := by
    rintro x (rfl | rfl) <;> exact ⟨by decide, by decide⟩
  cases h with
  | none => simp
  | pos hx hsign hds =>
    simp only [List.forall_mem_append, List.forall_mem_cons]
    refine ⟨⟨he hx, ?_⟩, fun c hc => bounds_of_isDigit (hds.2 c hc)⟩
    rcases hsign with rfl | rfl <;> simp
  | neg hx hds =>
    simp only [List.forall_mem_cons]
    exact ⟨he hx, by decide, fun c hc => bounds_of_isDigit (hds.2 c hc)⟩

theorem textByte_of_numText {bs : List UInt8} {n : JsonNumber} (h : NumText bs n) :
    ∀ b ∈ bs, TextByte b := by
  cases h with
  | posInt => exact textByte_ascii bounds_of_mem_toDigits
  | negInt _ => exact textByte_ascii (List.forall_mem_cons.mpr ⟨by decide, bounds_of_mem_toDigits⟩)
  | float hsign hfrac hexp _ =>
    refine textByte_ascii ?_
    simp only [List.forall_mem_append]
    refine ⟨⟨⟨?_, bounds_of_mem_toDigits⟩, ?_⟩, bounds_of_expText hexp⟩
    · rcases hsign with rfl | rfl <;> simp
    · rcases hfrac with rfl | ⟨ds, hds, rfl⟩
      · simp
      · exact List.forall_mem_cons.mpr ⟨by decide, fun c hc => bounds_of_isDigit (hds.2 c hc)⟩

/-! ### Values -/

mutual

theorem textByte_of_valueText {bs : List UInt8} {v : Json} (h : ValueText bs v) :
    ∀ b ∈ bs, TextByte b := by
  match h with
  | .null => exact textByte_ascii (by simp)
  | .true => exact textByte_ascii (by simp)
  | .false => exact textByte_ascii (by simp)
  | .num hn => exact textByte_of_numText hn
  | .str hs => exact textByte_of_strText hs
  | .arrNil hws =>
    simp only [List.forall_mem_append]
    exact ⟨⟨textByte_ascii (by simp), textByte_of_isWs hws⟩, textByte_ascii (by simp)⟩
  | .arr helems =>
    simp only [List.forall_mem_append]
    exact ⟨⟨textByte_ascii (by simp), textByte_of_elemsText helems⟩, textByte_ascii (by simp)⟩
  | .objNil hws =>
    simp only [List.forall_mem_append]
    exact ⟨⟨textByte_ascii (by simp), textByte_of_isWs hws⟩, textByte_ascii (by simp)⟩
  | .obj hfields =>
    simp only [List.forall_mem_append]
    exact ⟨⟨textByte_ascii (by simp), textByte_of_fieldsText hfields⟩, textByte_ascii (by simp)⟩

theorem textByte_of_elemsText {bs : List UInt8} {vs : List Json} (h : ElemsText bs vs) :
    ∀ b ∈ bs, TextByte b := by
  match h with
  | .last hl hv hr =>
    simp only [List.forall_mem_append]
    exact ⟨⟨textByte_of_isWs hl, textByte_of_valueText hv⟩, textByte_of_isWs hr⟩
  | .cons hl hv hr hrest =>
    simp only [List.forall_mem_append]
    exact ⟨⟨⟨⟨textByte_of_isWs hl, textByte_of_valueText hv⟩, textByte_of_isWs hr⟩,
      textByte_ascii (by simp)⟩, textByte_of_elemsText hrest⟩

theorem textByte_of_fieldsText {bs : List UInt8} {fields : List (String × Json)}
    (h : FieldsText bs fields) : ∀ b ∈ bs, TextByte b := by
  match h with
  | .last hl hk hr hl' hv hr' =>
    simp only [List.forall_mem_append]
    exact ⟨⟨⟨⟨textByte_of_isWs hl, textByte_of_strText hk⟩, textByte_of_isWs hr⟩,
      textByte_ascii (by simp)⟩, ⟨textByte_of_isWs hl', textByte_of_valueText hv⟩,
      textByte_of_isWs hr'⟩
  | .cons hl hk hr hl' hv hr' hrest =>
    simp only [List.forall_mem_append]
    exact ⟨⟨⟨⟨⟨⟨textByte_of_isWs hl, textByte_of_strText hk⟩, textByte_of_isWs hr⟩,
      textByte_ascii (by simp)⟩, ⟨textByte_of_isWs hl', textByte_of_valueText hv⟩,
      textByte_of_isWs hr'⟩, textByte_ascii (by simp)⟩, textByte_of_fieldsText hrest⟩

end

end JsonText

/-- Every byte of a JSON text is one that may occur in it. -/
theorem textByte_of_isText {bs : List UInt8} {v : Json} (h : IsText bs v) :
    ∀ b ∈ bs, TextByte b := by
  obtain ⟨l, value, r, hl, hvalue, hr, rfl⟩ := h
  simp only [List.forall_mem_append]
  exact ⟨⟨textByte_of_isWs hl, textByte_of_valueText hvalue⟩, textByte_of_isWs hr⟩

/-- A byte string with another byte is not read. -/
theorem ReadsTexts.eq_none {parse : List UInt8 → Option Json} (h : ReadsTexts parse)
    {bs : List UInt8} {b : UInt8} (hb : b ∈ bs) (hbyte : ¬ TextByte b) : parse bs = none :=
  Option.eq_none_iff_forall_ne_some.mpr fun v hread =>
    hbyte (textByte_of_isText (h bs v hread) b hb)

/-- In particular one with a zero byte. -/
theorem not_textByte_zero : ¬ TextByte 0 := fun h => absurd h.1 (by decide)

/-! ## Lengths -/

namespace JsonText

/-- A lower bound for the text of a number: its decimal digits. -/
def numSize : JsonNumber → ℕ
  | .posInt n => (Nat.toDigits 10 n.toNat).length
  | .negInt n => (Nat.toDigits 10 n.toInt.natAbs).length
  | .float _ => 1

mutual

/-- A lower bound for the length of a text of a value. -/
def size : Json → ℕ
  | .null | .bool _ => 4
  | .num n => numSize n
  | .str s => s.length + 2
  | .arr elems => sizeElems elems + 2
  | .obj fields => sizeFields fields + 2

/-- The elements of an array. -/
def sizeElems : List Json → ℕ
  | [] => 0
  | v :: vs => size v + sizeElems vs

/-- The members of an object, each with its quotes and its colon. -/
def sizeFields : List (String × Json) → ℕ
  | [] => 0
  | (key, v) :: fields => key.length + 3 + size v + sizeFields fields

end

@[simp] theorem length_ascii (cs : List Char) : (ascii cs).length = cs.length := List.length_map _

theorem length_pos_of_charText {bs : List UInt8} {c : Char} (h : CharText bs c) :
    0 < bs.length := by
  cases h with
  | plain _ _ _ => exact List.length_pos_iff.mpr String.utf8EncodeChar_ne_nil
  | escape _ => simp
  | code _ => simp
  | pair _ _ _ _ _ _ _ => simp

theorem length_le_of_charsText {bs : List UInt8} {cs : List Char} (h : CharsText bs cs) :
    cs.length ≤ bs.length := by
  induction h with
  | nil => exact Nat.le_refl _
  | cons hchar _ ih =>
    have hone := length_pos_of_charText hchar
    rw [List.length_append, List.length_cons]
    omega

theorem length_le_of_strText {bs : List UInt8} {s : String} (h : StrText bs s) :
    s.length + 2 ≤ bs.length := by
  obtain ⟨body, hbody, rfl⟩ := h
  have hlen := length_le_of_charsText hbody
  rw [String.length_toList] at hlen
  simp only [List.length_append, length_ascii, List.length_cons, List.length_nil]
  omega

theorem numSize_le_of_numText {bs : List UInt8} {n : JsonNumber} (h : NumText bs n) :
    numSize n ≤ bs.length := by
  cases h with
  | posInt => simp [numSize]
  | negInt _ => simp [numSize]
  | @float sign frac exp int e _ _ _ _ =>
    have hdigits : 0 < (Nat.toDigits 10 int).length := Nat.length_toDigits_pos
    simp only [numSize, length_ascii, List.length_append]
    omega

theorem sizeFields_keepLast_le (fields : List (String × Json)) :
    sizeFields (keepLast fields) ≤ sizeFields fields := by
  induction fields with
  | nil => exact Nat.le_refl _
  | cons field fields ih =>
    rw [keepLast]
    split_ifs
    · simp only [sizeFields]
      omega
    · simp only [sizeFields]
      omega

/-- A member counts with its name, beside the members of other names. -/
theorem sizeFields_of_lookup {fields : List (String × Json)} {key : String} {v : Json}
    (h : fields.lookup key = some v) :
    key.length + 3 + size v + sizeFields (fields.filter (·.1 ≠ key)) ≤ sizeFields fields := by
  have hfilter : ∀ fields : List (String × Json),
      sizeFields (fields.filter (·.1 ≠ key)) ≤ sizeFields fields := by
    intro fields
    induction fields with
    | nil => exact Nat.le_refl _
    | cons field fields ih =>
      rw [List.filter_cons]
      split_ifs <;> simp only [sizeFields] <;> omega
  induction fields with
  | nil => cases h
  | cons field fields ih =>
    obtain ⟨name, w⟩ := field
    rw [List.lookup_cons] at h
    by_cases hname : key = name
    · subst hname
      rw [beq_self_eq_true] at h
      cases h
      have hrest := hfilter fields
      rw [List.filter_cons_of_neg (by simp)]
      simp only [sizeFields]
      omega
    · rw [beq_eq_false_iff_ne.mpr hname] at h
      have hrest := ih h
      rw [List.filter_cons_of_pos (by simpa using Ne.symm hname)]
      simp only [sizeFields]
      omega

theorem lookup_filter_ne {fields : List (String × Json)} {key key' : String} (h : key' ≠ key) :
    (fields.filter (·.1 ≠ key)).lookup key' = fields.lookup key' := by
  induction fields with
  | nil => rfl
  | cons field fields ih =>
    obtain ⟨name, w⟩ := field
    by_cases hname : name = key
    · subst hname
      rw [List.filter_cons_of_neg (by simp), ih, List.lookup_cons, beq_eq_false_iff_ne.mpr h]
    · rw [List.filter_cons_of_pos (by simpa using hname), List.lookup_cons, List.lookup_cons, ih]

/-- Members of different names count together. -/
theorem sizeFields_le_of_lookups {wanted fields : List (String × Json)}
    (hnodup : (wanted.map Prod.fst).Nodup)
    (h : ∀ field ∈ wanted, fields.lookup field.1 = some field.2) :
    sizeFields wanted ≤ sizeFields fields := by
  induction wanted generalizing fields with
  | nil => exact Nat.zero_le _
  | cons field wanted ih =>
    obtain ⟨key, v⟩ := field
    obtain ⟨hfresh, hnodup⟩ := List.nodup_cons.mp hnodup
    obtain ⟨hfirst, hrest⟩ := List.forall_mem_cons.mp h
    have hone : key.length + 3 + size v + sizeFields (fields.filter (·.1 ≠ key))
        ≤ sizeFields fields := sizeFields_of_lookup hfirst
    have hothers := @ih (fields.filter (·.1 ≠ key)) hnodup fun other hmem => by
      have hne : other.1 ≠ key := fun heq => hfresh (List.mem_map.mpr ⟨other, hmem, heq⟩)
      rw [lookup_filter_ne hne, hrest other hmem]
    simp only [sizeFields]
    omega

mutual

theorem size_le_of_valueText {bs : List UInt8} {v : Json} (h : ValueText bs v) :
    size v ≤ bs.length := by
  match h with
  | .null => simp [size]
  | .true => simp [size]
  | .false => simp [size]
  | .num hn =>
    simp only [size]
    exact numSize_le_of_numText hn
  | .str hs =>
    simp only [size]
    exact length_le_of_strText hs
  | .arrNil _ =>
    simp only [size, sizeElems, List.length_append, length_ascii, List.length_cons, List.length_nil]
    omega
  | .arr helems =>
    have hle := sizeElems_le_of_elemsText helems
    simp only [size, List.length_append, length_ascii, List.length_cons, List.length_nil]
    omega
  | .objNil _ =>
    simp only [size, sizeFields, List.length_append, length_ascii, List.length_cons,
      List.length_nil]
    omega
  | @ValueText.obj _ fields hfields =>
    have hle := sizeFields_le_of_fieldsText hfields
    have hkept := sizeFields_keepLast_le fields
    simp only [size, List.length_append, length_ascii, List.length_cons, List.length_nil]
    omega

theorem sizeElems_le_of_elemsText {bs : List UInt8} {vs : List Json} (h : ElemsText bs vs) :
    sizeElems vs ≤ bs.length := by
  match h with
  | .last _ hv _ =>
    have hle := size_le_of_valueText hv
    simp only [sizeElems, List.length_append]
    omega
  | .cons _ hv _ hrest =>
    have hle := size_le_of_valueText hv
    have hle' := sizeElems_le_of_elemsText hrest
    simp only [sizeElems, List.length_append]
    omega

theorem sizeFields_le_of_fieldsText {bs : List UInt8} {fields : List (String × Json)}
    (h : FieldsText bs fields) : sizeFields fields ≤ bs.length := by
  match h with
  | .last _ hk _ _ hv _ =>
    have hkey := length_le_of_strText hk
    have hle := size_le_of_valueText hv
    simp only [sizeFields, List.length_append, length_ascii, List.length_cons, List.length_nil]
    omega
  | .cons _ hk _ _ hv _ hrest =>
    have hkey := length_le_of_strText hk
    have hle := size_le_of_valueText hv
    have hle' := sizeFields_le_of_fieldsText hrest
    simp only [sizeFields, List.length_append, length_ascii, List.length_cons, List.length_nil]
    omega

end

end JsonText

/-- A text is at least as long as its value is large. -/
theorem size_le_of_isText {bs : List UInt8} {v : Json} (h : IsText bs v) : size v ≤ bs.length := by
  obtain ⟨l, value, r, -, hvalue, -, rfl⟩ := h
  have hle := size_le_of_valueText hvalue
  rw [List.length_append, List.length_append]
  omega

end Hedge.Common
