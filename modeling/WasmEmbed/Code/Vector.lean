import WasmEmbed.Code.Numeric
/-!
Vector operators. A vector is taken apart into lanes, lowest first, each the bits of one number; an
operator is a function on lanes.
-/

namespace WasmEmbed.Code

/-- What the lanes of a vector hold. -/
inductive Lane where
  | i8
  | i16
  | i32
  | i64
  | f32
  | f64
  deriving DecidableEq, Repr, Inhabited

namespace Lane

def bits : Lane → Nat
  | i8 => 8
  | i16 => 16
  | i32 | f32 => 32
  | i64 | f64 => 64

def count (l : Lane) : Nat := 128 / l.bits

/-- The type of a lane taken out of its vector. -/
def scalar : Lane → ValType
  | i8 | i16 | i32 => .i32
  | i64 => .i64
  | f32 => .f32
  | f64 => .f64

def format : Lane → Ieee.Format
  | f64 => Ieee.double
  | _ => Ieee.single

/-- The lane of twice the width. -/
def twice : Lane → Lane
  | i8 => i16
  | i16 => i32
  | _ => i64

/-- The lane of half the width. -/
def half : Lane → Lane
  | i64 => i32
  | i32 => i16
  | _ => i8

end Lane

/-- The lanes of a vector. -/
def lanes (l : Lane) (v : BitVec 128) : List Nat :=
  (List.range l.count).map fun i => v.toNat / 2 ^ (l.bits * i) % 2 ^ l.bits

/-- The vector of given lanes. -/
def ofLanes (l : Lane) (xs : List Nat) : BitVec 128 :=
  BitVec.ofNat 128 (xs.foldr (fun x acc => x % 2 ^ l.bits + 2 ^ l.bits * acc) 0)

/-- The lane's bits as an integer. -/
def laneInt (l : Lane) (signed : Bool) (x : Nat) : Int :=
  if signed then (BitVec.ofNat l.bits x).toInt else (x % 2 ^ l.bits : Nat)

/-- An integer as lane bits, modulo the width. -/
def wrapLane (l : Lane) (n : Int) : Nat := (n % 2 ^ l.bits).toNat

/-- The integer nearest to `n` among those a lane holds, as bits. -/
def saturate (l : Lane) (signed : Bool) (n : Int) : Nat :=
  let lo : Int := if signed then -2 ^ (l.bits - 1) else 0
  let hi : Int := if signed then 2 ^ (l.bits - 1) - 1 else 2 ^ l.bits - 1
  wrapLane l (max lo (min hi n))

inductive VecBitwise where
  | not
  | and
  | andnot
  | or
  | xor
  | bitselect
  deriving DecidableEq, Repr, Inhabited

inductive VecIntUnary where
  | abs
  | neg
  | popcnt
  deriving DecidableEq, Repr, Inhabited

inductive VecIntBinary where
  | add
  | sub
  | mul
  | min (signed : Bool)
  | max (signed : Bool)
  | addSat (signed : Bool)
  | subSat (signed : Bool)
  /-- The mean, a half rounded up. -/
  | avgr
  deriving DecidableEq, Repr, Inhabited

inductive VecShift where
  | shl
  | shrS
  | shrU
  deriving DecidableEq, Repr, Inhabited

inductive VecFloatBinary where
  | plain (op : FloatBinary)
  /-- The second operand if it is less. -/
  | pmin
  /-- The second operand if it is greater. -/
  | pmax
  deriving DecidableEq, Repr, Inhabited

/-- A vector operator. Those that widen or narrow name the lanes they read. -/
inductive VecOp where
  | shuffle (indices : List Nat)
  | swizzle (relaxed : Bool)
  | splat (l : Lane)
  | extractLane (l : Lane) (signed : Bool) (index : Nat)
  | replaceLane (l : Lane) (index : Nat)
  | bitwise (op : VecBitwise)
  | anyTrue
  | allTrue (l : Lane)
  | bitmask (l : Lane)
  | intCompare (l : Lane) (op : IntCompare)
  | floatCompare (l : Lane) (op : FloatCompare)
  | intUnary (l : Lane) (op : VecIntUnary)
  | shift (l : Lane) (op : VecShift)
  | intBinary (l : Lane) (op : VecIntBinary)
  | floatUnary (l : Lane) (op : FloatUnary)
  | floatBinary (l : Lane) (op : VecFloatBinary) (relaxed : Bool)
  | narrow (source : Lane) (signed : Bool)
  | extend (source : Lane) (high signed : Bool)
  | extAddPairwise (source : Lane) (signed : Bool)
  | extMul (source : Lane) (high signed : Bool)
  | q15mulrSat (relaxed : Bool)
  | dot
  | truncSat (signed relaxed : Bool)
  | truncSatZero (signed relaxed : Bool)
  | convert (signed : Bool)
  | convertLow (signed : Bool)
  | demoteZero
  | promoteLow
  | madd (l : Lane) (negated : Bool)
  | laneselect (l : Lane)
  | dot7
  | dot7Add
  deriving DecidableEq, Repr, Inhabited

namespace VecOp

/-- The operand types, in the order they are pushed. -/
def params : VecOp → List ValType
  | splat l => [l.scalar]
  | replaceLane l _ => [.v128, l.scalar]
  | shift _ _ => [.v128, .i32]
  | bitwise .not => [.v128]
  | bitwise .bitselect => [.v128, .v128, .v128]
  | extractLane .. | anyTrue | allTrue _ | bitmask _ | intUnary .. | floatUnary .. | extend .. | extAddPairwise ..
  | truncSat .. | truncSatZero .. | convert _ | convertLow _ | demoteZero | promoteLow => [.v128]
  | madd .. | laneselect _ | dot7Add => [.v128, .v128, .v128]
  | _ => [.v128, .v128]

def result : VecOp → ValType
  | extractLane l _ _ => l.scalar
  | anyTrue | allTrue _ | bitmask _ => .i32
  | _ => .v128

/-- Whether the lane indices of an operator exist. -/
def indicesInRange : VecOp → Bool
  | shuffle indices => indices.all (· < 32)
  | extractLane l _ index => index < l.count
  | replaceLane l index => index < l.count
  | _ => true

end VecOp

def VecIntUnary.eval (l : Lane) (op : VecIntUnary) (x : Nat) : Nat :=
  match op with
  | abs => wrapLane l (laneInt l true x).natAbs
  | neg => wrapLane l (-laneInt l true x)
  | popcnt => popCount x l.bits

def VecIntBinary.eval (l : Lane) (op : VecIntBinary) (x y : Nat) : Nat :=
  match op with
  | add => wrapLane l (x + y)
  | sub => wrapLane l ((x : Int) - y)
  | mul => wrapLane l (x * y)
  | min s => if laneInt l s x ≤ laneInt l s y then x else y
  | max s => if laneInt l s x ≤ laneInt l s y then y else x
  | addSat s => saturate l s (laneInt l s x + laneInt l s y)
  | subSat s => saturate l s (laneInt l s x - laneInt l s y)
  | avgr => (x + y + 1) / 2

def VecShift.eval (l : Lane) (op : VecShift) (x amount : Nat) : Nat :=
  let k := amount % l.bits
  match op with
  | shl => wrapLane l (x * 2 ^ k)
  | shrS => wrapLane l (Int.fdiv (laneInt l true x) (2 ^ k))
  | shrU => x / 2 ^ k

def VecFloatBinary.eval (f : Ieee.Format) (op : VecFloatBinary) (x y : Nat) : Nat :=
  match op with
  | plain op => op.eval f x y
  | pmin => if f.lt y x then y else x
  | pmax => if f.lt x y then y else x

/-- The lower or upper half of a list of lanes. -/
def halfOf (high : Bool) (xs : List Nat) : List Nat :=
  if high then xs.drop (xs.length / 2) else xs.take (xs.length / 2)

/-- Combines neighbours. -/
def pairwise {α β : Type} (f : α → α → β) : List α → List β
  | a :: b :: rest => f a b :: pairwise f rest
  | _ => []

namespace VecOp

private def mask (l : Lane) (b : Bool) : Nat := if b then 2 ^ l.bits - 1 else 0

private def truth (b : Bool) : Val := .i32 (if b then 1 else 0)

private def bitsOf (v : Val) : BitVec 128 :=
  match v with
  | .v128 b => b
  | _ => 0

private def select (mask a b : BitVec 128) : BitVec 128 := (a &&& mask) ||| (b &&& ~~~mask)

private def map1 (l m : Lane) (f : Nat → Nat) (a : BitVec 128) : Val :=
  .v128 (ofLanes m ((lanes l a).map f))

private def map2 (l : Lane) (f : Nat → Nat → Nat) (a b : BitVec 128) : Val :=
  .v128 (ofLanes l (List.zipWith f (lanes l a) (lanes l b)))

/-- The result for operands in the order they are pushed; a missing operand counts as zero. -/
def eval (op : VecOp) (args : List Val) : Val :=
  let x := args.getD 0 (.i32 0)
  let y := args.getD 1 (.i32 0)
  let z := args.getD 2 (.i32 0)
  let a := bitsOf x
  let b := bitsOf y
  let c := bitsOf z
  match op with
  | shuffle indices =>
    let xs := lanes .i8 a ++ lanes .i8 b
    .v128 (ofLanes .i8 (indices.map fun i => xs.getD i 0))
  | swizzle _ =>
    let xs := lanes .i8 a
    .v128 (ofLanes .i8 ((lanes .i8 b).map fun i => xs.getD i 0))
  | splat l => .v128 (ofLanes l (List.replicate l.count x.bits))
  | extractLane l signed index =>
    let n := laneInt l signed ((lanes l a).getD index 0)
    match l with
    | .f32 | .f64 | .i64 => Val.ofBits l.scalar ((lanes l a).getD index 0)
    | _ => .i32 (BitVec.ofInt 32 n)
  | replaceLane l index => .v128 (ofLanes l ((lanes l a).set index y.bits))
  | bitwise .not => .v128 (~~~a)
  | bitwise .and => .v128 (a &&& b)
  | bitwise .andnot => .v128 (a &&& ~~~b)
  | bitwise .or => .v128 (a ||| b)
  | bitwise .xor => .v128 (a ^^^ b)
  | bitwise .bitselect => .v128 (select c a b)
  | laneselect _ => .v128 (select c a b)
  | anyTrue => truth (a != 0)
  | allTrue l => truth ((lanes l a).all (· != 0))
  | bitmask l =>
    .i32 (BitVec.ofNat 32 ((lanes l a).foldr (fun x acc => (x.testBit (l.bits - 1)).toNat + 2 * acc) 0))
  | intCompare l op =>
    map2 l (fun x y => mask l (op.eval (BitVec.ofNat l.bits x) (BitVec.ofNat l.bits y))) a b
  | floatCompare l op => map2 l (fun x y => mask l (op.eval l.format x y)) a b
  | intUnary l op => map1 l l (op.eval l) a
  | shift l op => map1 l l (fun x => op.eval l x y.bits) a
  | intBinary l op => map2 l (op.eval l) a b
  | floatUnary l op => map1 l l (op.eval l.format) a
  | floatBinary l op _ => map2 l (op.eval l.format) a b
  | narrow source signed =>
    let xs := lanes source a ++ lanes source b
    .v128 (ofLanes source.half (xs.map fun x => saturate source.half signed (laneInt source true x)))
  | extend source high signed =>
    .v128 (ofLanes source.twice
      ((halfOf high (lanes source a)).map fun x => wrapLane source.twice (laneInt source signed x)))
  | extAddPairwise source signed =>
    .v128 (ofLanes source.twice (pairwise
      (fun x y => wrapLane source.twice (laneInt source signed x + laneInt source signed y)) (lanes source a)))
  | extMul source high signed =>
    .v128 (ofLanes source.twice (List.zipWith
      (fun x y => wrapLane source.twice (laneInt source signed x * laneInt source signed y))
      (halfOf high (lanes source a)) (halfOf high (lanes source b))))
  | q15mulrSat _ =>
    map2 .i16 (fun x y =>
      saturate .i16 true (Int.fdiv (laneInt .i16 true x * laneInt .i16 true y + 2 ^ (14 : Nat)) (2 ^ (15 : Nat)))) a b
  | dot =>
    let products := List.zipWith (fun x y => laneInt .i16 true x * laneInt .i16 true y) (lanes .i16 a) (lanes .i16 b)
    .v128 (ofLanes .i32 (pairwise (fun p q => wrapLane .i32 (p + q)) products))
  | truncSat signed _ =>
    let (lo, hi) := intBounds .w32 signed
    map1 .f32 .i32 (fun x => wrapLane .i32 (Ieee.single.truncateSaturating lo hi x)) a
  | truncSatZero signed _ =>
    let (lo, hi) := intBounds .w32 signed
    .v128 (ofLanes .i32 ((lanes .f64 a).map fun x => wrapLane .i32 (Ieee.double.truncateSaturating lo hi x)))
  | convert signed => map1 .i32 .f32 (fun x => Ieee.single.ofInt (laneInt .i32 signed x)) a
  | convertLow signed =>
    .v128 (ofLanes .f64 ((halfOf false (lanes .i32 a)).map fun x => Ieee.double.ofInt (laneInt .i32 signed x)))
  | demoteZero => .v128 (ofLanes .f32 ((lanes .f64 a).map (Ieee.double.convert Ieee.single)))
  | promoteLow =>
    .v128 (ofLanes .f64 ((halfOf false (lanes .f32 a)).map (Ieee.single.convert Ieee.double)))
  | madd l negated =>
    .v128 (ofLanes l (List.zipWith (fun (p : Nat × Nat) z =>
      l.format.add (l.format.mul (if negated then l.format.neg p.1 else p.1) p.2) z)
      (List.zip (lanes l a) (lanes l b)) (lanes l c)))
  | dot7 =>
    let products := List.zipWith (fun x y => laneInt .i8 true x * laneInt .i8 true y) (lanes .i8 a) (lanes .i8 b)
    .v128 (ofLanes .i16 (pairwise (fun p q => saturate .i16 true (p + q)) products))
  | dot7Add =>
    let products := List.zipWith (fun x y => laneInt .i8 true x * laneInt .i8 true y) (lanes .i8 a) (lanes .i8 b)
    let sums := pairwise (fun p q => laneInt .i16 true (saturate .i16 true (p + q))) products
    .v128 (ofLanes .i32 (List.zipWith (fun (s : Int) (z : Nat) => wrapLane .i32 (s + z))
      (pairwise (· + ·) sums) (lanes .i32 c)))

end VecOp

end WasmEmbed.Code
