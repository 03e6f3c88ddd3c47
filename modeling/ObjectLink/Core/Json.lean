import ObjectLink.Core.Types
import Mathlib.Data.Rat.Floor
import Mathlib.Tactic.Linarith

/-!
# JSON values

Model of the part of `nlohmann::json` that the protocol uses. Integers are 64 bits wide and keep
whether they were stored signed or unsigned; a floating point number is its IEEE 754 bits, and
`Double.value` is the rational it denotes. Objects and payloads are carried around unread.

`JsonLibrary` collects what the protocol relies on and the C++ standard or the library leaves
open: the text `dump` produces (or the exception it throws), and the conversion of a floating
point number to an integer, which is truncation where the result fits and undefined otherwise.
-/

namespace ObjectLink

/-- A `double`, by its bits. -/
structure Double where
  bits : UInt64
  deriving DecidableEq, Repr

/-- The number a `double` denotes; `none` for the infinities and NaN. -/
def Double.value (d : Double) : Option ℚ :=
  let b := d.bits.toNat
  let sign : Int := if b / 2 ^ 63 = 1 then -1 else 1
  let exponent : Nat := b / 2 ^ 52 % 2 ^ 11
  let fraction : Nat := b % 2 ^ 52
  if exponent = 2047 then none
  else if exponent = 0 then some (mkRat (sign * (fraction : Int)) (2 ^ 1074))
  else some (mkRat (sign * ((fraction + 2 ^ 52) * 2 ^ exponent : Nat)) (2 ^ 1075))

/-- Rounding towards zero, as `static_cast` to an integer type does. -/
def trunc (q : ℚ) : Int := if q < 0 then ⌈q⌉ else ⌊q⌋

/-- A JSON value. -/
inductive Json where
  | null
  | boolean (b : Bool)
  | integer (i : Int64)
  | unsigned (u : UInt64)
  | float (d : Double)
  | string (s : Bytes)
  | binary (b : Bytes) (subtype : Option UInt64)
  | array (xs : List Json)
  | object (members : List (Bytes × Json))
  | discarded

namespace Json

/-- `is_array()`. -/
def isArray : Json → Bool
  | array _ => true
  | _ => false

/-- `is_string()`. -/
def isString : Json → Bool
  | string _ => true
  | _ => false

/-- `is_number_integer()`: signed or unsigned. -/
def isNumberInteger : Json → Bool
  | integer _ => true
  | unsigned _ => true
  | _ => false

/-- `is_number()`. -/
def isNumber : Json → Bool
  | integer _ => true
  | unsigned _ => true
  | float _ => true
  | _ => false

/-- The elements of an array. -/
def elements : Json → List Json
  | array xs => xs
  | _ => []

/-- `size()` of an array. -/
def size (j : Json) : Nat := j.elements.length

/-- `j[i]` of an array, for an index in range. -/
def item (j : Json) (i : Nat) : Json := j.elements.getD i null

/-- The number a value denotes, whatever type it is stored in. -/
def number? : Json → Option ℚ
  | integer i => some (i.toInt : ℚ)
  | unsigned u => some (u.toNat : ℚ)
  | float d => d.value
  | _ => none

/-- `type_name()`. -/
def typeName : Json → Bytes
  | null => lit "null"
  | boolean _ => lit "boolean"
  | integer _ | unsigned _ | float _ => lit "number"
  | string _ => lit "string"
  | binary _ _ => lit "binary"
  | array _ => lit "array"
  | object _ => lit "object"
  | discarded => lit "discarded"

/-- `get<std::string>()`. -/
def getString : Json → Except Thrown Bytes
  | string s => .ok s
  | j => .error (.json (lit "[json.exception.type_error.302] type must be string, but is " ++
      j.typeName))

end Json

/-- What the protocol uses of the JSON library beyond the data type itself. -/
structure JsonLibrary where
  /-- `dump()`: the serialised text, or the `what()` of the exception (invalid UTF-8). -/
  dump : Json → Except Bytes Bytes
  /-- `static_cast<int>(double)`. -/
  floatToInt : Double → Int32
  /-- `static_cast<unsigned int>(double)`. -/
  floatToUnsigned : Double → UInt32
  floatToInt_trunc : ∀ d q, d.value = some q → -2 ^ 31 ≤ trunc q → trunc q < 2 ^ 31 →
    (floatToInt d).toInt = trunc q
  floatToUnsigned_trunc : ∀ d q, d.value = some q → 0 ≤ trunc q → trunc q < 2 ^ 32 →
    ((floatToUnsigned d).toNat : Int) = trunc q

namespace JsonLibrary

/-- `get<int>()`: `static_cast` from whatever arithmetic type is stored, modulo `2 ^ 32`. -/
def getInt (lib : JsonLibrary) : Json → Except Thrown Int32
  | .unsigned u => .ok u.toUInt32.toInt32
  | .integer i => .ok i.toInt32
  | .float d => .ok (lib.floatToInt d)
  | .boolean b => .ok (if b then 1 else 0)
  | j => .error (.json (lit "[json.exception.type_error.302] type must be number, but is " ++
      j.typeName))

/-- `get<unsigned int>()`. -/
def getUnsigned (lib : JsonLibrary) : Json → Except Thrown UInt32
  | .unsigned u => .ok u.toUInt32
  | .integer i => .ok i.toUInt64.toUInt32
  | .float d => .ok (lib.floatToUnsigned d)
  | .boolean b => .ok (if b then 1 else 0)
  | j => .error (.json (lit "[json.exception.type_error.302] type must be number, but is " ++
      j.typeName))

/-- A library that truncates as the C++ standard asks, with `0` where it leaves the result open.
`dump` gives up on every value: no accepted message is ever serialised by the decoder. -/
def truncating : JsonLibrary where
  dump _ := .error []
  floatToInt d := Int32.ofInt ((d.value.map trunc).getD 0)
  floatToUnsigned d := UInt32.ofNat ((d.value.map trunc).getD 0).toNat
  floatToInt_trunc d q hd hlo hhi := by
    rw [hd, Option.map_some, Option.getD_some]
    exact Int32.toInt_ofInt_of_le hlo hhi
  floatToUnsigned_trunc d q hd hlo hhi := by
    rw [hd, Option.map_some, Option.getD_some, UInt32.toNat_ofNat_of_lt' (by
      have : UInt32.size = 2 ^ 32 := rfl
      omega)]
    exact Int.toNat_of_nonneg hlo

end JsonLibrary

end ObjectLink
