import Mathlib.Data.Rat.Defs

/-!
# JSON values

A parsed JSON document with the accessors a hand-written reader uses on it: `get` on an object key
and the typed views, each of which is `none` on a value of another kind. Numbers keep the three
internal forms of the `serde_json` number: a non-negative integer, a negative integer, a float.
-/

namespace Hedge.Common

/-- A JSON number. -/
inductive JsonNumber where
  | posInt (n : UInt64)
  | negInt (n : Int64)
  | float (q : ℚ)
deriving DecidableEq

/-- The JSON number of an `i64`. -/
def JsonNumber.ofI64 (n : Int64) : JsonNumber :=
  if 0 ≤ n then .posInt n.toUInt64 else .negInt n

/-- A JSON value. The fields of an object are kept in a list; the first one of a name counts. -/
inductive Json where
  | null
  | bool (b : Bool)
  | num (n : JsonNumber)
  | str (s : String)
  | arr (elems : List Json)
  | obj (fields : List (String × Json))

namespace Json

/-- `Value::get` with a string key. -/
def get (v : Json) (key : String) : Option Json :=
  match v with
  | obj fields => fields.lookup key
  | _ => none

/-- `Value::as_str`. -/
def asStr : Json → Option String
  | str s => some s
  | _ => none

/-- `Value::as_bool`. -/
def asBool : Json → Option Bool
  | bool b => some b
  | _ => none

/-- `Value::as_u64`. -/
def asU64 : Json → Option UInt64
  | num (.posInt n) => some n
  | _ => none

/-- `Value::as_i64`. -/
def asI64 : Json → Option Int64
  | num (.posInt n) => if n ≤ Int64.maxValue.toUInt64 then some n.toInt64 else none
  | num (.negInt n) => some n
  | _ => none

/-- `Value::as_f64`: the value of any number, before its rounding to the float. -/
def asF64 : Json → Option ℚ
  | num (.posInt n) => some n.toNat
  | num (.negInt n) => some n.toInt
  | num (.float q) => some q
  | _ => none

/-- `json!(n)` for a `u64`. -/
def ofU64 (n : UInt64) : Json := num (.posInt n)

/-- `json!(n)` for an `i64`. -/
def ofI64 (n : Int64) : Json := num (.ofI64 n)

@[simp] theorem get_obj_nil (key : String) : (obj []).get key = none := rfl

@[simp] theorem get_obj_cons (name : String) (v : Json) (fields : List (String × Json))
    (key : String) :
    (obj ((name, v) :: fields)).get key = if key = name then some v else (obj fields).get key := by
  simp only [get, List.lookup_cons]
  by_cases h : key = name
  · rw [if_pos h, h, beq_self_eq_true]
  · rw [if_neg h, beq_eq_false_iff_ne.mpr h]

@[simp] theorem asStr_str (s : String) : (str s).asStr = some s := rfl

@[simp] theorem asBool_bool (b : Bool) : (bool b).asBool = some b := rfl

@[simp] theorem asU64_ofU64 (n : UInt64) : (ofU64 n).asU64 = some n := rfl

@[simp] theorem asI64_null : null.asI64 = none := rfl

/-! ## Derived readers

What a derived `Deserialize` of a struct reads: fields by name in an object, where a field may come
once and unknown ones are ignored, or by position in an array that is no longer than the struct. -/

/-- A field as the reader finds it; `none` is a failed read. -/
def structField (v : Json) (index : ℕ) (name : String) : Option (Option Json) :=
  match v with
  | obj fields => match fields.filter fun field => field.1 = name with
    | [] => some none
    | [field] => some (some field.2)
    | _ => none
  | arr elems => some elems[index]?
  | _ => none

/-- The value has the shape of a struct of `n` fields. -/
def isStruct (v : Json) (n : ℕ) : Bool :=
  match v with
  | obj _ => true
  | arr elems => elems.length ≤ n
  | _ => false

/-- A field that has to be there. -/
def required {α : Type*} (v : Json) (index : ℕ) (name : String) (read : Json → Option α) :
    Option α :=
  (v.structField index name).bind fun found => found.bind read

/-- A field with a default. -/
def defaulted {α : Type*} (v : Json) (index : ℕ) (name : String) (read : Json → Option α)
    (dflt : α) : Option α :=
  (v.structField index name).bind fun found => found.elim (some dflt) read

/-- A `u32`. -/
def asU32 (v : Json) : Option UInt32 :=
  v.asU64.bind fun n => if n.toNat < UInt32.size then some n.toUInt32 else none

/-- `json!(n)` for a `u32`. -/
def ofU32 (n : UInt32) : Json := ofU64 n.toUInt64

@[simp] theorem asU32_ofU32 (n : UInt32) : (ofU32 n).asU32 = some n := by
  have hn : n.toUInt64.toNat < UInt32.size := by
    rw [UInt32.toNat_toUInt64]
    exact n.toNat_lt
  rw [asU32, ofU32, asU64_ofU64, Option.bind_some, if_pos hn, UInt32.toUInt32_toUInt64]

/-- A `u8`. -/
def asU8 (v : Json) : Option UInt8 :=
  v.asU64.bind fun n => if n.toNat < UInt8.size then some n.toUInt8 else none

/-- `json!(n)` for a `u8`. -/
def ofU8 (n : UInt8) : Json := ofU64 n.toUInt64

@[simp] theorem asU8_ofU8 (n : UInt8) : (ofU8 n).asU8 = some n := by
  have hn : n.toUInt64.toNat < UInt8.size := by
    rw [UInt8.toNat_toUInt64]
    exact n.toNat_lt
  rw [asU8, ofU8, asU64_ofU64, Option.bind_some, if_pos hn, UInt8.toUInt8_toUInt64]

/-- Every `i64` reads back. -/
@[simp] theorem asI64_ofI64 (n : Int64) : (ofI64 n).asI64 = some n := by
  rw [ofI64, JsonNumber.ofI64]
  split_ifs with hn
  · have hle : n.toUInt64 ≤ Int64.maxValue.toUInt64 := Int64.toUInt64_le hn (Int64.le_maxValue n)
    rw [asI64, if_pos hle, Int64.toInt64_toUInt64]
  · rfl

end Json

end Hedge.Common
