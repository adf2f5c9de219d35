import WasmEmbed.Ieee.Decimal
import WasmEmbed.Text.Hex
import WasmEmbed.Type
/-!
Values as modules exchange them (`Val`: every value has exactly one type, floating point numbers are
bit patterns) and as a host writes them (`HostValue`: integers, floating point numbers, vectors,
null).
-/

namespace WasmEmbed

/-- A value of a module, one constructor per type. References are null: others never leave a
store. -/
inductive Val where
  | i32 (n : BitVec 32)
  | i64 (n : BitVec 64)
  | f32 (bits : BitVec 32)
  | f64 (bits : BitVec 64)
  | v128 (bits : BitVec 128)
  | nullRef (kind : RefKind)
  deriving DecidableEq, Repr, Inhabited

/-- A value of the host. -/
inductive HostValue where
  | int (n : BitVec 64)
  | float (bits : BitVec 64)
  | float32 (bits : BitVec 32)
  | v128 (bits : BitVec 128)
  | null
  deriving DecidableEq, Repr, Inhabited

namespace Val

def type : Val → ValType
  | i32 _ => .i32
  | i64 _ => .i64
  | f32 _ => .f32
  | f64 _ => .f64
  | v128 _ => .v128
  | nullRef kind => .ref kind

/-- The zero or null of a type. -/
def default : ValType → Val
  | .i32 => i32 0
  | .i64 => i64 0
  | .f32 => f32 0
  | .f64 => f64 0
  | .v128 => v128 0
  | .ref kind => nullRef kind

def i32? : Val → Option Int
  | i32 n => some n.toInt
  | _ => none

def i64? : Val → Option Int
  | i64 n => some n.toInt
  | _ => none

def f32? : Val → Option (BitVec 32)
  | f32 b => some b
  | _ => none

def f64? : Val → Option (BitVec 64)
  | f64 b => some b
  | _ => none

/-- A value with its type in front. -/
def text : Val → String
  | i32 n => "i32:" ++ toString n.toInt
  | i64 n => "i64:" ++ toString n.toInt
  | f32 b => "f32:" ++ Ieee.Layout.plain.text Ieee.single b.toNat
  | f64 b => "f64:" ++ Ieee.Layout.plain.text Ieee.double b.toNat
  | v128 b => "v128:0x" ++ Hex.ofNat 32 b.toNat
  | nullRef kind => (ValType.ref kind).text ++ ":null"

@[simp] theorem type_default (t : ValType) : (default t).type = t := by
  cases t <;> rfl

end Val

namespace HostValue

/-- The value that represents a module's value on the host's side. -/
def ofVal : Val → HostValue
  | .i32 n => int (n.signExtend 64)
  | .i64 n => int n
  | .f32 b => float32 b
  | .f64 b => float b
  | .v128 b => v128 b
  | .nullRef _ => null

/-- A signed 32-bit integer as a host value. -/
def ofI32 (n : BitVec 32) : HostValue := int (n.signExtend 64)

/-- An unsigned 32-bit integer as a host value. -/
def ofU32 (n : BitVec 32) : HostValue := int (n.zeroExtend 64)

/-- The same integer with 32 bits, if it fits into them. -/
def narrow? (n : BitVec 64) : Option (BitVec 32) :=
  if -2 ^ (31 : Nat) ≤ n.toInt ∧ n.toInt < 2 ^ (31 : Nat) then some (BitVec.ofInt 32 n.toInt) else none

/-- An integer that fits into 32 bits. -/
def i32? : HostValue → Option Int
  | int n => (narrow? n).map BitVec.toInt
  | _ => none

def i64? : HostValue → Option Int
  | int n => some n.toInt
  | _ => none

def f32? : HostValue → Option (BitVec 32)
  | float32 b => some b
  | _ => none

/-- A single as a double. -/
def widen (b : BitVec 32) : BitVec 64 := BitVec.ofNat 64 (Ieee.single.convert Ieee.double b.toNat)

/-- A number of either width, in double precision. -/
def f64? : HostValue → Option (BitVec 64)
  | float b => some b
  | float32 b => some (widen b)
  | _ => none

def isNull : HostValue → Bool
  | null => true
  | _ => false

/-- The value as a type error shows it. -/
def describe : HostValue → String
  | int n => "integer " ++ toString n.toInt
  | float b => "float " ++ Ieee.Layout.plain.text Ieee.double b.toNat
  | float32 b => "f32 " ++ Ieee.Layout.plain.text Ieee.single b.toNat
  | v128 b => "v128 0x" ++ Hex.ofNat 32 b.toNat
  | null => "null"

/-- Equality as numbers compare: both zeros are equal and a NaN differs from itself. Values of
different kinds differ. -/
def numEq : HostValue → HostValue → Bool
  | int a, int b => a == b
  | float a, float b => Ieee.double.eq a.toNat b.toNat
  | float32 a, float32 b => Ieee.single.eq a.toNat b.toNat
  | v128 a, v128 b => a == b
  | null, null => true
  | _, _ => false

end HostValue

/-- What a call hands back: nothing, one value, or several. -/
inductive Returns where
  | unit
  | single (value : HostValue)
  | multiple (values : List HostValue)
  deriving DecidableEq, Repr, Inhabited

namespace Returns

/-- The shape that fits the number of values. -/
def ofList : List HostValue → Returns
  | [] => unit
  | [v] => single v
  | vs => multiple vs

def toList : Returns → List HostValue
  | unit => []
  | single v => [v]
  | multiple vs => vs

def isUnit : Returns → Bool
  | unit => true
  | _ => false

def single? : Returns → Option HostValue
  | single v => some v
  | _ => none

def length (r : Returns) : Nat := r.toList.length

def isEmpty (r : Returns) : Bool := r.length == 0

@[simp] theorem toList_ofList (vs : List HostValue) : (ofList vs).toList = vs := by
  match vs with
  | [] => rfl
  | [_] => rfl
  | _ :: _ :: _ => rfl

end Returns

end WasmEmbed
