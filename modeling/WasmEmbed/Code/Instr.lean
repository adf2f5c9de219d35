import WasmEmbed.Code.Vector
/-!
Instructions. Blocks hold their bodies, so a jump names how many enclosing blocks it leaves.
-/

namespace WasmEmbed.Code

/-- The parameters and results of a block: none and at most one, or those of a signature of the
module. -/
inductive BlockType where
  | empty
  | value (t : ValType)
  | index (i : Nat)
  deriving DecidableEq, Repr, Inhabited

/-- Where a memory is accessed: the alignment promised, as a power of two, and what is added to the
address. -/
structure MemArg where
  align : Nat
  offset : Nat
  memory : Nat
  deriving DecidableEq, Repr, Inhabited

/-- A scalar type, loaded from or stored as `bytes` bytes; a load extends them by sign or by
zeros. -/
structure Access where
  type : ValType
  bytes : Nat
  signed : Bool
  deriving DecidableEq, Repr, Inhabited

/-- How a vector is loaded from memory. -/
inductive VecLoad where
  | full
  /-- Eight bytes, as lanes that are widened. -/
  | extend (source : Lane) (signed : Bool)
  | splat (l : Lane)
  /-- The lowest lane, the others being zero. -/
  | zero (l : Lane)
  deriving DecidableEq, Repr, Inhabited

namespace VecLoad

/-- How many bytes are read. -/
def bytes : VecLoad → Nat
  | full => 16
  | extend _ _ => 8
  | splat l | zero l => l.bits / 8

/-- The vector made of the bytes read, given as a number. -/
def make (kind : VecLoad) (n : Nat) : BitVec 128 :=
  match kind with
  | full => BitVec.ofNat 128 n
  | extend source signed =>
    ofLanes source.twice ((halfOf false (lanes source (BitVec.ofNat 128 n))).map fun x =>
      wrapLane source.twice (laneInt source signed x))
  | splat l => ofLanes l (List.replicate l.count n)
  | zero _ => BitVec.ofNat 128 n

end VecLoad

/-- An instruction. -/
inductive Instr where
  | unreachable
  | nop
  | block (type : BlockType) (body : List Instr)
  | loop (type : BlockType) (body : List Instr)
  | ifElse (type : BlockType) (onTrue onFalse : List Instr)
  | br (depth : Nat)
  | brIf (depth : Nat)
  | brTable (depths : List Nat) (default : Nat)
  | ret
  | call (func : Nat)
  | callIndirect (table type : Nat)
  | returnCall (func : Nat)
  | returnCallIndirect (table type : Nat)
  | drop
  | select (type : Option (List ValType))
  | localGet (i : Nat)
  | localSet (i : Nat)
  | localTee (i : Nat)
  | globalGet (i : Nat)
  | globalSet (i : Nat)
  | tableGet (table : Nat)
  | tableSet (table : Nat)
  | tableSize (table : Nat)
  | tableGrow (table : Nat)
  | tableFill (table : Nat)
  | tableCopy (target source : Nat)
  | tableInit (table elem : Nat)
  | elemDrop (elem : Nat)
  | load (access : Access) (at_ : MemArg)
  | store (access : Access) (at_ : MemArg)
  | memorySize (memory : Nat)
  | memoryGrow (memory : Nat)
  | memoryInit (memory data : Nat)
  | dataDrop (data : Nat)
  | memoryCopy (target source : Nat)
  | memoryFill (memory : Nat)
  | const (v : Val)
  | num (op : NumOp)
  | vec (op : VecOp)
  | vecLoad (kind : VecLoad) (at_ : MemArg)
  | vecStore (at_ : MemArg)
  | vecLoadLane (l : Lane) (at_ : MemArg) (index : Nat)
  | vecStoreLane (l : Lane) (at_ : MemArg) (index : Nat)
  | refNull (kind : RefKind)
  | refIsNull
  | refFunc (func : Nat)
  deriving Repr, Inhabited

/-- What executing an instruction costs in fuel. Instructions that only shape control are free. -/
def Instr.cost : Instr → Nat
  | unreachable | nop | block .. | loop .. | ret | drop => 0
  | _ => 1

end WasmEmbed.Code
