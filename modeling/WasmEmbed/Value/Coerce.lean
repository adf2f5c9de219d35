import WasmEmbed.Error
import WasmEmbed.Value
/-!
From the host's values to a module's types. `coerce` converts a host value where nothing is lost
(and rounds only from double to single precision); `checkType` insists on the exact type.
-/

namespace WasmEmbed

/-- The greatest integer up to which double precision represents every integer. -/
def maxSafeInteger : Nat := 2 ^ (53 : Nat) - 1

namespace HostValue

/-- The signed integer that a double is, if it is no less and no greater than two others and is not
changed by cutting off what is behind its point. -/
def integral? (width low high : Nat) (b : BitVec 64) : Option (BitVec width) :=
  let inRange := Ieee.double.le low b.toNat && Ieee.double.le b.toNat high
  if inRange && Ieee.double.eq (Ieee.double.trunc b.toNat) b.toNat then
    some (Ieee.double.toSigned width b.toNat)
  else none

/-- The integer of 32 bits that a double is. -/
def integralI32? (b : BitVec 64) : Option (BitVec 32) :=
  integral? 32 (Ieee.double.ofInt (-2 ^ (31 : Nat))) (Ieee.double.ofInt (2 ^ (31 : Nat) - 1)) b

/-- The integer of 64 bits that a double is, if no other integer could have been meant. -/
def safeI64? (b : BitVec 64) : Option (BitVec 64) :=
  let limit := Ieee.double.ofInt maxSafeInteger
  integral? 64 (Ieee.double.neg limit) limit b

/-- The pattern of an integer, rounded, if it is that integer again as one of 128 bits. -/
def exactPattern? (f : Ieee.Format) (n : BitVec 64) : Option Nat :=
  let bits := f.ofInt n.toInt
  if f.toSigned 128 bits = n.signExtend 128 then some bits else none

/-- The value of a type that a host value stands for. -/
def toVal? (v : HostValue) (t : ValType) : Option Val :=
  match t, v with
  | .i32, int n => (narrow? n).map .i32
  | .i32, float b => (integralI32? b).map .i32
  | .i32, float32 b => (integralI32? (widen b)).map .i32
  | .i64, int n => some (.i64 n)
  | .i64, float b => (safeI64? b).map .i64
  | .i64, float32 b => (safeI64? (widen b)).map .i64
  | .f32, float32 b => some (.f32 b)
  | .f32, float b => some (.f32 (BitVec.ofNat 32 (Ieee.double.convert Ieee.single b.toNat)))
  | .f32, int n => (exactPattern? Ieee.single n).map fun b => .f32 (BitVec.ofNat 32 b)
  | .f64, float b => some (.f64 b)
  | .f64, float32 b => some (.f64 (widen b))
  | .f64, int n => (exactPattern? Ieee.double n).map fun b => .f64 (BitVec.ofNat 64 b)
  | .v128, v128 b => some (.v128 b)
  | .ref kind, null => some (.nullRef kind)
  | _, _ => none

end HostValue

/-- Converts a host value to a type, or says where and why it does not fit. -/
def coerce (v : HostValue) (t : ValType) (position : Position) (index : Nat) : Except Error Val :=
  match v.toVal? t with
  | some w => .ok w
  | none => .error (.type position index t.text v.describe)

/-- Accepts a value only if it has exactly the type. -/
def checkType (v : Val) (t : ValType) (position : Position) (index : Nat) : Except Error Val :=
  if v.type = t then .ok v else .error (.type position index t.text v.type.text)

end WasmEmbed
