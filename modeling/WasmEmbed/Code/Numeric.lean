import WasmEmbed.Trap
import WasmEmbed.Value
/-!
Numeric operators: for each its operand types, its result type and its meaning. An operator that has
no result for its operands names the trap.
-/

namespace WasmEmbed.Code

/-- The widths of integers, which are those of floating point numbers too. -/
inductive Width where
  | w32
  | w64
  deriving DecidableEq, Repr, Inhabited

namespace Width

def bits : Width → Nat
  | w32 => 32
  | w64 => 64

def intType : Width → ValType
  | w32 => .i32
  | w64 => .i64

def floatType : Width → ValType
  | w32 => .f32
  | w64 => .f64

def format : Width → Ieee.Format
  | w32 => Ieee.single
  | w64 => Ieee.double

/-- An integer of the width. -/
def int (w : Width) (n : BitVec w.bits) : Val :=
  match w, n with
  | w32, n => .i32 n
  | w64, n => .i64 n

/-- A floating point number of the width. -/
def float (w : Width) (bits : Nat) : Val :=
  match w with
  | w32 => .f32 (BitVec.ofNat 32 bits)
  | w64 => .f64 (BitVec.ofNat 64 bits)

end Width

end WasmEmbed.Code

namespace WasmEmbed.Val

/-- The bits of a value of a scalar type; none for vectors and references. -/
def bits? : Val → Option Nat
  | i32 n => some n.toNat
  | i64 n => some n.toNat
  | f32 b => some b.toNat
  | f64 b => some b.toNat
  | _ => none

/-- The bits of a scalar, 0 for other values. -/
def bits (v : Val) : Nat := v.bits?.getD 0

/-- The scalar of a type with given bits; a type that is no scalar gives its zero. -/
def ofBits (t : ValType) (n : Nat) : Val :=
  match t with
  | .i32 => i32 (BitVec.ofNat 32 n)
  | .i64 => i64 (BitVec.ofNat 64 n)
  | .f32 => f32 (BitVec.ofNat 32 n)
  | .f64 => f64 (BitVec.ofNat 64 n)
  | t => default t

@[simp] theorem type_ofBits (t : ValType) (n : Nat) : (ofBits t n).type = t := by
  cases t <;> simp [ofBits] <;> rfl

/-- The integer of a width that a value holds. -/
def asInt (w : Code.Width) (v : Val) : BitVec w.bits := BitVec.ofNat w.bits v.bits

end WasmEmbed.Val

namespace WasmEmbed.Code

inductive IntUnary where
  | clz
  | ctz
  | popcnt
  | extend8
  | extend16
  | extend32
  deriving DecidableEq, Repr, Inhabited

inductive IntBinary where
  | add
  | sub
  | mul
  | divS
  | divU
  | remS
  | remU
  | and
  | or
  | xor
  | shl
  | shrS
  | shrU
  | rotl
  | rotr
  deriving DecidableEq, Repr, Inhabited

inductive IntCompare where
  | eq
  | ne
  | ltS
  | ltU
  | gtS
  | gtU
  | leS
  | leU
  | geS
  | geU
  deriving DecidableEq, Repr, Inhabited

inductive FloatUnary where
  | abs
  | neg
  | ceil
  | floor
  | trunc
  | nearest
  | sqrt
  deriving DecidableEq, Repr, Inhabited

inductive FloatBinary where
  | add
  | sub
  | mul
  | div
  | min
  | max
  | copysign
  deriving DecidableEq, Repr, Inhabited

inductive FloatCompare where
  | eq
  | ne
  | lt
  | gt
  | le
  | ge
  deriving DecidableEq, Repr, Inhabited

/-- The number of zero bits before the highest one bit, counted from bit `k` down. -/
def leadingZeros (n : Nat) : Nat → Nat
  | 0 => 0
  | k + 1 => if n.testBit k then 0 else leadingZeros n k + 1

/-- The number of one bits among the lowest `k`. -/
def popCount (n : Nat) : Nat → Nat
  | 0 => 0
  | k + 1 => (n.testBit k).toNat + popCount n k

/-- The number of zero bits below the lowest one bit, counted from bit `i` up, `k` bits at most. -/
def trailingZeros (n i : Nat) : Nat → Nat
  | 0 => 0
  | k + 1 => if n.testBit i then 0 else trailingZeros n (i + 1) k + 1

namespace IntUnary

def eval {w : Nat} (op : IntUnary) (a : BitVec w) : BitVec w :=
  match op with
  | clz => BitVec.ofNat w (leadingZeros a.toNat w)
  | ctz => BitVec.ofNat w (trailingZeros a.toNat 0 w)
  | popcnt => BitVec.ofNat w (popCount a.toNat w)
  | extend8 => (a.truncate 8).signExtend w
  | extend16 => (a.truncate 16).signExtend w
  | extend32 => (a.truncate 32).signExtend w

end IntUnary

namespace IntBinary

/-- Shift and rotation amounts count modulo the width. -/
def eval {w : Nat} (op : IntBinary) (a b : BitVec w) : Except TrapCode (BitVec w) :=
  match op with
  | add => .ok (a + b)
  | sub => .ok (a - b)
  | mul => .ok (a * b)
  | divS =>
    if b = 0 then .error .integerDivisionByZero
    else if a = BitVec.intMin w ∧ b = BitVec.allOnes w then .error .integerOverflow
    else .ok (a.sdiv b)
  | divU => if b = 0 then .error .integerDivisionByZero else .ok (a / b)
  | remS => if b = 0 then .error .integerDivisionByZero else .ok (a.srem b)
  | remU => if b = 0 then .error .integerDivisionByZero else .ok (a % b)
  | and => .ok (a &&& b)
  | or => .ok (a ||| b)
  | xor => .ok (a ^^^ b)
  | shl => .ok (a <<< (b.toNat % w))
  | shrS => .ok (a.sshiftRight (b.toNat % w))
  | shrU => .ok (a >>> (b.toNat % w))
  | rotl => .ok (a.rotateLeft (b.toNat % w))
  | rotr => .ok (a.rotateRight (b.toNat % w))

end IntBinary

def IntCompare.eval {w : Nat} (op : IntCompare) (a b : BitVec w) : Bool :=
  match op with
  | eq => a == b
  | ne => a != b
  | ltS => a.slt b
  | ltU => a.ult b
  | gtS => b.slt a
  | gtU => b.ult a
  | leS => a.sle b
  | leU => a.ule b
  | geS => b.sle a
  | geU => b.ule a

def FloatUnary.eval (f : Ieee.Format) (op : FloatUnary) (a : Nat) : Nat :=
  match op with
  | abs => f.abs a
  | neg => f.neg a
  | ceil => f.ceil a
  | floor => f.floor a
  | trunc => f.trunc a
  | nearest => f.nearest a
  | sqrt => f.sqrt a

def FloatBinary.eval (f : Ieee.Format) (op : FloatBinary) (a b : Nat) : Nat :=
  match op with
  | add => f.add a b
  | sub => f.sub a b
  | mul => f.mul a b
  | div => f.div a b
  | min => f.min a b
  | max => f.max a b
  | copysign => f.copysign a b

def FloatCompare.eval (f : Ieee.Format) (op : FloatCompare) (a b : Nat) : Bool :=
  match op with
  | eq => f.eq a b
  | ne => !f.eq a b
  | lt => f.lt a b
  | gt => f.lt b a
  | le => f.le a b
  | ge => f.le b a

/-- The least and the greatest integer of a width and signedness. -/
def intBounds (w : Width) (signed : Bool) : Int × Int :=
  if signed then (-2 ^ (w.bits - 1), 2 ^ (w.bits - 1) - 1) else (0, 2 ^ w.bits - 1)

/-- A numeric operator. -/
inductive NumOp where
  | intTest (w : Width)
  | intUnary (w : Width) (op : IntUnary)
  | intBinary (w : Width) (op : IntBinary)
  | intCompare (w : Width) (op : IntCompare)
  | floatUnary (w : Width) (op : FloatUnary)
  | floatBinary (w : Width) (op : FloatBinary)
  | floatCompare (w : Width) (op : FloatCompare)
  /-- From 64 bits to 32. -/
  | wrap
  /-- From 32 bits to 64. -/
  | extend (signed : Bool)
  /-- The integer part of a number; outside the integers of the width it traps. -/
  | truncate (target source : Width) (signed : Bool)
  /-- The integer part of a number, or the nearest integer of the width. -/
  | truncateSat (target source : Width) (signed : Bool)
  | convert (target source : Width) (signed : Bool)
  | demote
  | promote
  /-- The same bits as a floating point number. -/
  | reinterpretInt (w : Width)
  /-- The same bits as an integer. -/
  | reinterpretFloat (w : Width)
  deriving DecidableEq, Repr, Inhabited

namespace NumOp

/-- The operand types, in the order they are pushed. -/
def params : NumOp → List ValType
  | intTest w => [w.intType]
  | intUnary w _ => [w.intType]
  | intBinary w _ => [w.intType, w.intType]
  | intCompare w _ => [w.intType, w.intType]
  | floatUnary w _ => [w.floatType]
  | floatBinary w _ => [w.floatType, w.floatType]
  | floatCompare w _ => [w.floatType, w.floatType]
  | wrap => [.i64]
  | extend _ => [.i32]
  | truncate _ source _ => [source.floatType]
  | truncateSat _ source _ => [source.floatType]
  | convert _ source _ => [source.intType]
  | demote => [.f64]
  | promote => [.f32]
  | reinterpretInt w => [w.intType]
  | reinterpretFloat w => [w.floatType]

def result : NumOp → ValType
  | intTest _ => .i32
  | intUnary w _ => w.intType
  | intBinary w _ => w.intType
  | intCompare _ _ => .i32
  | floatUnary w _ => w.floatType
  | floatBinary w _ => w.floatType
  | floatCompare _ _ => .i32
  | wrap => .i32
  | extend _ => .i64
  | truncate target _ _ => target.intType
  | truncateSat target _ _ => target.intType
  | convert target _ _ => target.floatType
  | demote => .f32
  | promote => .f64
  | reinterpretInt w => w.floatType
  | reinterpretFloat w => w.intType

/-- How many operands there are. -/
def arity (op : NumOp) : Nat := op.params.length

private def truth (b : Bool) : Val := .i32 (if b then 1 else 0)

/-- The result for operands in the order they are pushed; a missing operand counts as zero. -/
def eval (op : NumOp) (args : List Val) : Except TrapCode Val :=
  let a := args.getD 0 (.i32 0)
  let b := args.getD 1 (.i32 0)
  match op with
  | intTest w => .ok (truth (a.asInt w == 0))
  | intUnary w op => .ok (w.int (op.eval (a.asInt w)))
  | intBinary w op => (op.eval (a.asInt w) (b.asInt w)).map w.int
  | intCompare w op => .ok (truth (op.eval (a.asInt w) (b.asInt w)))
  | floatUnary w op => .ok (w.float (op.eval w.format a.bits))
  | floatBinary w op => .ok (w.float (op.eval w.format a.bits b.bits))
  | floatCompare w op => .ok (truth (op.eval w.format a.bits b.bits))
  | wrap => .ok (.i32 (BitVec.ofNat 32 a.bits))
  | extend signed =>
    .ok (.i64 (if signed then (a.asInt .w32).signExtend 64 else BitVec.ofNat 64 a.bits))
  | truncate target source signed =>
    let (lo, hi) := intBounds target signed
    if source.format.isNan a.bits then .error .badConversionToInteger
    else match source.format.truncateWithin lo hi a.bits with
      | some n => .ok (target.int (BitVec.ofInt target.bits n))
      | none => .error .integerOverflow
  | truncateSat target source signed =>
    let (lo, hi) := intBounds target signed
    .ok (target.int (BitVec.ofInt target.bits (source.format.truncateSaturating lo hi a.bits)))
  | convert target source signed =>
    let n : Int := if signed then (a.asInt source).toInt else a.bits
    .ok (target.float (target.format.ofInt n))
  | demote => .ok (.f32 (BitVec.ofNat 32 (Ieee.double.convert Ieee.single a.bits)))
  | promote => .ok (.f64 (BitVec.ofNat 64 (Ieee.single.convert Ieee.double a.bits)))
  | reinterpretInt w => .ok (w.float a.bits)
  | reinterpretFloat w => .ok (w.int (BitVec.ofNat w.bits a.bits))

end NumOp

end WasmEmbed.Code
