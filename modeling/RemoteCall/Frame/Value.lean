import RemoteCall.Bytes

/-!
Values: what arguments and results are made of.

A value is one of eight variants.  Floating-point numbers are kept as their 64 bits,
so that equality of values is equality of bits; `Value.agrees` compares them as
numbers instead.  `Valued` names the types whose members travel as values.
-/

namespace RemoteCall

/-- A 64-bit floating-point number, kept as its bits. -/
structure Binary64 where
  bits : UInt64
  deriving DecidableEq, Repr, Inhabited

namespace Binary64

/-- The bits without the sign. -/
def magnitude (x : Binary64) : UInt64 := x.bits &&& 0x7FFFFFFFFFFFFFFF

/-- Not a number: the exponent is all ones and the fraction is not zero. -/
def isNaN (x : Binary64) : Bool := decide (0x7FF0000000000000 < x.magnitude)

/-- Equality as numbers: both zeros are equal, and what is not a number equals
nothing. -/
def agrees (x y : Binary64) : Bool :=
  !x.isNaN && !y.isNaN && (x.bits == y.bits || x.magnitude == 0 && y.magnitude == 0)

end Binary64

inductive ValueType where
  | null
  | bool
  | int
  | float
  | str
  | bytes
  | floatList
  | strList
  deriving DecidableEq, Repr, Inhabited

namespace ValueType

/-- The tag that stands for a type in frames and in signatures. -/
def tag : ValueType → Nat
  | null => 0
  | bool => 1
  | int => 2
  | float => 3
  | str => 4
  | bytes => 5
  | floatList => 6
  | strList => 7

def ofTag? : Nat → Option ValueType
  | 0 => some null
  | 1 => some bool
  | 2 => some int
  | 3 => some float
  | 4 => some str
  | 5 => some bytes
  | 6 => some floatList
  | 7 => some strList
  | _ => none

@[simp] theorem ofTag?_tag (t : ValueType) : ofTag? t.tag = some t := by
  cases t <;> rfl

theorem tag_lt (t : ValueType) : t.tag < 8 := by
  cases t <;> decide

def name : ValueType → String
  | null => "Null"
  | bool => "Bool"
  | int => "Int"
  | float => "Float"
  | str => "Str"
  | bytes => "Bytes"
  | floatList => "FloatList"
  | strList => "StrList"

def unknownTag (n : Nat) : String :=
  "No discriminant in enum \x60ValueType\x60 matches the value \x60" ++ toString n ++ "\x60"

/-- A list of types, as messages show it. -/
def showList (ts : List ValueType) : String :=
  "[" ++ ", ".intercalate (ts.map name) ++ "]"

end ValueType

inductive Value where
  | null
  | bool (b : Bool)
  | int (n : Int64)
  | float (x : Binary64)
  | str (s : String)
  | bytes (bs : Bytes)
  | floatList (xs : List Binary64)
  | strList (ss : List String)
  deriving DecidableEq, Repr, Inhabited

namespace Value

def type : Value → ValueType
  | null => .null
  | bool _ => .bool
  | int _ => .int
  | float _ => .float
  | str _ => .str
  | bytes _ => .bytes
  | floatList _ => .floatList
  | strList _ => .strList

/-- Equality with floating-point numbers compared as numbers. -/
def agrees : Value → Value → Bool
  | float x, float y => x.agrees y
  | floatList xs, floatList ys => xs.length == ys.length && (xs.zip ys).all fun p => p.1.agrees p.2
  | v, w => v == w

/-- A value that is not of the type asked for. -/
structure Mismatch where
  expected : ValueType
  found : ValueType
  deriving DecidableEq, Repr, Inhabited

def Mismatch.message (m : Mismatch) : String :=
  "expected a " ++ m.expected.name ++ " value, found " ++ m.found.name

end Value

/-- The types whose members travel as values. -/
class Valued (α : Type) where
  toValue : α → Value
  ofValue : Value → Except Value.Mismatch α

namespace Valued

instance : Valued Unit where
  toValue _ := .null
  ofValue
    | .null => .ok ()
    | v => .error ⟨.null, v.type⟩

instance : Valued Bool where
  toValue := .bool
  ofValue
    | .bool b => .ok b
    | v => .error ⟨.bool, v.type⟩

instance : Valued Int64 where
  toValue := .int
  ofValue
    | .int n => .ok n
    | v => .error ⟨.int, v.type⟩

/-- A 32-bit number travels as a 64-bit one; what does not fit is refused. -/
instance : Valued Int32 where
  toValue n := .int n.toInt64
  ofValue
    | .int n => if n.toInt32.toInt64 = n then .ok n.toInt32 else .error ⟨.int, .int⟩
    | v => .error ⟨.int, v.type⟩

instance : Valued Binary64 where
  toValue := .float
  ofValue
    | .float x => .ok x
    | v => .error ⟨.float, v.type⟩

instance : Valued String where
  toValue := .str
  ofValue
    | .str s => .ok s
    | v => .error ⟨.str, v.type⟩

instance : Valued Bytes where
  toValue := .bytes
  ofValue
    | .bytes bs => .ok bs
    | v => .error ⟨.bytes, v.type⟩

instance : Valued (List Binary64) where
  toValue := .floatList
  ofValue
    | .floatList xs => .ok xs
    | v => .error ⟨.floatList, v.type⟩

instance : Valued (List String) where
  toValue := .strList
  ofValue
    | .strList ss => .ok ss
    | v => .error ⟨.strList, v.type⟩

end Valued

end RemoteCall
