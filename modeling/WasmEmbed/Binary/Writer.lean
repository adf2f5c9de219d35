import WasmEmbed.Binary.Module
/-!
Writes the parts of modules as bytes, in the form that the readers accept.
-/

namespace WasmEmbed.Binary

open WasmEmbed.Code

/-- A natural number in groups of seven bits. -/
def putNat (n : Nat) : List UInt8 :=
  if n < 128 then [n.toUInt8] else (n % 128 + 128).toUInt8 :: putNat (n / 128)

/-- An integer in groups of seven bits, at most `groups` of them after the first. -/
def putIntWithin : Nat → Int → List UInt8
  | 0, n => [(n % 128).toNat.toUInt8]
  | groups + 1, n =>
    if -64 ≤ n ∧ n < 64 then [(n % 128).toNat.toUInt8]
    else ((n % 128).toNat + 128).toUInt8 :: putIntWithin groups (Int.fdiv n 128)

/-- An integer of at most 64 bits in groups of seven. -/
def putInt (n : Int) : List UInt8 := putIntWithin 9 n

/-- A list with its length in front. -/
def putVector {α : Type} (put : α → List UInt8) (xs : List α) : List UInt8 :=
  putNat xs.length ++ xs.flatMap put

/-- Bytes with their number in front. -/
def putSized (bs : List UInt8) : List UInt8 := putNat bs.length ++ bs

def putName (s : String) : List UInt8 := putSized s.toUTF8.toList

def putValType : ValType → List UInt8
  | .i32 => [0x7F]
  | .i64 => [0x7E]
  | .f32 => [0x7D]
  | .f64 => [0x7C]
  | .v128 => [0x7B]
  | .ref .func => [0x70]
  | .ref .external => [0x6F]
  | .ref .any => [0x6E]

def putBlockType : BlockType → List UInt8
  | .empty => [0x40]
  | .value t => putValType t
  | .index i => putInt i

def putMemArg (m : MemArg) : List UInt8 :=
  if m.memory = 0 then putNat m.align ++ putNat m.offset
  else putNat (m.align + 64) ++ putNat m.memory ++ putNat m.offset

/-- The number of the first row of a table that satisfies a condition. -/
private def codeOf {α : Type} (table : List (Nat × String × α)) (p : α → Bool) : Nat :=
  ((table.find? fun r => p r.2.2).map (·.1)).getD 0

private def putNumOp (op : NumOp) : List UInt8 :=
  match saturatingOps.findIdx? fun r => r.2 == op with
  | some i => 0xFC :: putNat i
  | none => [(firstNumOp + numOps.findIdx fun r => r.2 == op).toUInt8]

private def putVecOp (op : VecOp) : List UInt8 :=
  match op with
  | .shuffle indices => 0xFD :: putNat 13 ++ indices.map Nat.toUInt8
  | .extractLane _ _ i => 0xFD :: putNat (codeOf laneOps fun make => make i == op) ++ [i.toUInt8]
  | .replaceLane _ i => 0xFD :: putNat (codeOf laneOps fun make => make i == op) ++ [i.toUInt8]
  | op => 0xFD :: putNat (codeOf vecOps (· == op))

private def putConst : Val → List UInt8
  | .i32 n => 0x41 :: putInt n.toInt
  | .i64 n => 0x42 :: putInt n.toInt
  | .f32 b => 0x43 :: Bytes.ofNat 4 b.toNat
  | .f64 b => 0x44 :: Bytes.ofNat 8 b.toNat
  | .v128 b => 0xFD :: putNat 12 ++ Bytes.ofNat 16 b.toNat
  | .nullRef kind => 0xD0 :: putValType (.ref kind)

/-- An instruction without a body. -/
def putPlain : Instr → List UInt8
  | .unreachable => [0x00]
  | .nop => [0x01]
  | .br d => 0x0C :: putNat d
  | .brIf d => 0x0D :: putNat d
  | .brTable ds d => 0x0E :: putVector putNat ds ++ putNat d
  | .ret => [0x0F]
  | .call f => 0x10 :: putNat f
  | .callIndirect table type => 0x11 :: putNat type ++ putNat table
  | .returnCall f => 0x12 :: putNat f
  | .returnCallIndirect table type => 0x13 :: putNat type ++ putNat table
  | .drop => [0x1A]
  | .select none => [0x1B]
  | .select (some types) => 0x1C :: putVector putValType types
  | .localGet i => 0x20 :: putNat i
  | .localSet i => 0x21 :: putNat i
  | .localTee i => 0x22 :: putNat i
  | .globalGet i => 0x23 :: putNat i
  | .globalSet i => 0x24 :: putNat i
  | .tableGet i => 0x25 :: putNat i
  | .tableSet i => 0x26 :: putNat i
  | .tableSize i => 0xFC :: putNat 16 ++ putNat i
  | .tableGrow i => 0xFC :: putNat 15 ++ putNat i
  | .tableFill i => 0xFC :: putNat 17 ++ putNat i
  | .tableCopy target source => 0xFC :: putNat 14 ++ putNat target ++ putNat source
  | .tableInit table elem => 0xFC :: putNat 12 ++ putNat elem ++ putNat table
  | .elemDrop elem => 0xFC :: putNat 13 ++ putNat elem
  | .load access m => (firstLoad + loads.findIdx fun r => r.2 == access).toUInt8 :: putMemArg m
  | .store access m => (firstStore + stores.findIdx fun r => r.2 == access).toUInt8 :: putMemArg m
  | .memorySize i => 0x3F :: putNat i
  | .memoryGrow i => 0x40 :: putNat i
  | .memoryInit memory data => 0xFC :: putNat 8 ++ putNat data ++ putNat memory
  | .dataDrop data => 0xFC :: putNat 9 ++ putNat data
  | .memoryCopy target source => 0xFC :: putNat 10 ++ putNat target ++ putNat source
  | .memoryFill i => 0xFC :: putNat 11 ++ putNat i
  | .const v => putConst v
  | .num op => putNumOp op
  | .vec op => putVecOp op
  | .vecLoad kind m => 0xFD :: putNat (codeOf vecLoads (· == kind)) ++ putMemArg m
  | .vecStore m => 0xFD :: putNat 11 ++ putMemArg m
  | .vecLoadLane l m i => 0xFD :: putNat (codeOf laneLoads (· == l)) ++ putMemArg m ++ [i.toUInt8]
  | .vecStoreLane l m i => 0xFD :: putNat (codeOf laneStores (· == l)) ++ putMemArg m ++ [i.toUInt8]
  | .refNull kind => 0xD0 :: putValType (.ref kind)
  | .refIsNull => [0xD1]
  | .refFunc f => 0xD2 :: putNat f
  | .block .. | .loop .. | .ifElse .. => []

/-- A list whose parts are bytes, with its length in front. -/
def putItems (items : List (List UInt8)) : List UInt8 := putNat items.length ++ items.flatten

def putLimits (minimum : Nat) (maximum : Option Nat) (memory64 : Bool) : List UInt8 :=
  let wide : UInt8 := if memory64 then 4 else 0
  match maximum with
  | none => wide :: putNat minimum
  | some m => (wide + 1) :: (putNat minimum ++ putNat m)

def putFuncType (t : FuncType) : List UInt8 :=
  0x60 :: putVector putValType t.params ++ putVector putValType t.results

def putTableType (t : TableType) : List UInt8 :=
  putValType t.element ++ putLimits t.minimum t.maximum false

def putMemoryType (t : MemoryType) : List UInt8 := putLimits t.minimum t.maximum t.memory64

def putGlobalType (t : GlobalType) : List UInt8 :=
  putValType t.content ++ [if t.isMutable then 1 else 0]

def putImport (i : Import) : List UInt8 :=
  putName i.module ++ putName i.name ++ match i.desc with
    | .func t => 0x00 :: putNat t
    | .table t => 0x01 :: putTableType t
    | .memory t => 0x02 :: putMemoryType t
    | .global t => 0x03 :: putGlobalType t

def putKind : ExternKind → UInt8
  | .function => 0
  | .table => 1
  | .memory => 2
  | .global => 3

def putExport (e : Export) : List UInt8 := putName e.name ++ putKind e.kind :: putNat e.index

/-- The elements of a segment: functions by index, or code for each that ends as code does. -/
inductive WrittenItems where
  | funcs (indices : List Nat)
  | exprs (type : ValType) (codes : List (List UInt8))

/-- When a segment is copied; the offset is given by code that ends as code does. -/
inductive WrittenMode where
  | active (target : Option Nat) (offset : List UInt8)
  | passive
  | declared

/-- Elements of functions have a short form. Only references to functions may leave out the table
with their type. -/
def putElem (mode : WrittenMode) : WrittenItems → List UInt8
  | .funcs indices =>
    let fs := putVector putNat indices
    match mode with
    | .active none offset => 0 :: (offset ++ fs)
    | .passive => 1 :: 0 :: fs
    | .active (some table) offset => 2 :: (putNat table ++ offset ++ 0 :: fs)
    | .declared => 3 :: 0 :: fs
  | .exprs type codes =>
    let items := putItems codes
    match mode with
    | .active target offset =>
      if target.isNone ∧ type = .ref .func then 4 :: (offset ++ items)
      else 6 :: (putNat (target.getD 0) ++ offset ++ putValType type ++ items)
    | .passive => 5 :: (putValType type ++ items)
    | .declared => 7 :: (putValType type ++ items)

/-- The first memory goes without its index. -/
def putData (mode : WrittenMode) (bytes : List UInt8) : List UInt8 :=
  match mode with
  | .active target offset =>
    let memory := target.getD 0
    if memory = 0 then 0 :: (offset ++ putSized bytes) else 2 :: (putNat memory ++ offset ++ putSized bytes)
  | _ => 1 :: putSized bytes

/-- Neighbours of one type as a number of variables of the type. -/
def groupLocals : List ValType → List (Nat × ValType)
  | [] => []
  | t :: rest =>
    match groupLocals rest with
    | (n, u) :: more => if t = u then (n + 1, u) :: more else (1, t) :: (n, u) :: more
    | [] => [(1, t)]

/-- The variables of a function beyond its parameters. -/
def putLocals (types : List ValType) : List UInt8 :=
  putVector (fun g => putNat g.1 ++ putValType g.2) (groupLocals types)

end WasmEmbed.Binary
