import WasmEmbed.Binary.Reader
import WasmEmbed.Code.Artifact
import WasmEmbed.Code.Opcode
/-!
Readers of types and instructions.
-/

namespace WasmEmbed.Binary

open WasmEmbed.Code

/-- The type that a single byte stands for. -/
def valTypeOf? : UInt8 → Option ValType
  | 0x7F => some .i32
  | 0x7E => some .i64
  | 0x7D => some .f32
  | 0x7C => some .f64
  | 0x7B => some .v128
  | 0x70 => some (.ref .func)
  | 0x6F => some (.ref .external)
  | _ => none

/-- What references refer to. -/
def heapKind : Reader RefKind := do
  match ← byte with
  | 0x70 => return .func
  | 0x6F => return .external
  | b => throw (.unknownCode "heap type" b.toNat)

/-- Announces what the references of a type refer to, that may be null. -/
def nullableForm : UInt8 := 0x63

def valType : Reader ValType := do
  let b ← byte
  if b == nullableForm then return .ref (← heapKind)
  match valTypeOf? b with
  | some t => return t
  | none => throw (.unknownCode "type" b.toNat)

def refKind : Reader RefKind := do
  match ← valType with
  | .ref kind => return kind
  | _ => throw (.unknownCode "reference type" 0)

def blockType : Reader BlockType := do
  let b ← peek
  if b == 0x40 then
    let _ ← byte
    return .empty
  if b == nullableForm ∨ (valTypeOf? b).isSome then return .value (← valType)
  let i ← s33
  if i < 0 then throw (.unknownCode "block type" b.toNat)
  return .index i.toNat

/-- An alignment, whose bit 6 announces a memory, and an offset. -/
def memArg : Reader MemArg := do
  let flags ← u32
  let memory ← if 64 ≤ flags ∧ flags < 128 then u32 else pure 0
  let align := if 64 ≤ flags then flags - 64 else flags
  if 64 ≤ align then throw (.unknownCode "alignment" flags)
  let offset ← u32
  return ⟨align, offset, memory⟩

/-- The table of an indirect call: an index, or without reference types a zero byte. -/
def callTable (indices : Bool) : Reader Nat := do
  if indices then u32
  else
    let b ← byte
    if b == 0 then return 0 else throw (.unknownCode "table" b.toNat)

private def bulkInstr (code : Nat) : Reader Instr := do
  match saturatingOps[code]? with
  | some (_, op) => return .num op
  | none =>
    match code with
    | 8 =>
      let data ← u32
      return .memoryInit (← u32) data
    | 9 => return .dataDrop (← u32)
    | 10 =>
      let target ← u32
      return .memoryCopy target (← u32)
    | 11 => return .memoryFill (← u32)
    | 12 =>
      let elem ← u32
      return .tableInit (← u32) elem
    | 13 => return .elemDrop (← u32)
    | 14 =>
      let target ← u32
      return .tableCopy target (← u32)
    | 15 => return .tableGrow (← u32)
    | 16 => return .tableSize (← u32)
    | 17 => return .tableFill (← u32)
    | _ => throw (.unknownCode "instruction" code)

private def vecInstr (code : Nat) : Reader Instr := do
  match lookupNumber vecOps code with
  | some op => return .vec op
  | none =>
  match lookupNumber vecLoads code with
  | some kind => return .vecLoad kind (← memArg)
  | none =>
  match lookupNumber laneOps code with
  | some op => return .vec (op (← byte).toNat)
  | none =>
  match lookupNumber laneLoads code with
  | some l =>
    let at_ ← memArg
    return .vecLoadLane l at_ (← byte).toNat
  | none =>
  match lookupNumber laneStores code with
  | some l =>
    let at_ ← memArg
    return .vecStoreLane l at_ (← byte).toNat
  | none =>
    match code with
    | 11 => return .vecStore (← memArg)
    | 12 => return .const (.v128 (BitVec.ofNat 128 (← littleEndian 16)))
    | 13 => return .vec (.shuffle ((← take 16).map UInt8.toNat))
    | _ => throw (.unknownCode "vector instruction" code)

/-- The most targets of a branch table. -/
def maxBranchTargets : Nat := 7654321

/-- An instruction without a body, whose first byte was read. -/
def plainInstr (referenceTypes : Bool) (b : UInt8) : Reader Instr := do
  match b with
  | 0x00 => return .unreachable
  | 0x01 => return .nop
  | 0x0C => return .br (← u32)
  | 0x0D => return .brIf (← u32)
  | 0x0E =>
    let depths ← vector u32 maxBranchTargets "branch targets"
    return .brTable depths (← u32)
  | 0x0F => return .ret
  | 0x10 => return .call (← u32)
  | 0x11 =>
    let type ← u32
    return .callIndirect (← callTable referenceTypes) type
  | 0x12 => return .returnCall (← u32)
  | 0x13 =>
    let type ← u32
    return .returnCallIndirect (← callTable referenceTypes) type
  | 0x1A => return .drop
  | 0x1B => return .select none
  | 0x1C =>
    let types ← vector valType 1 "selected types"
    return .select (some types)
  | 0x20 => return .localGet (← u32)
  | 0x21 => return .localSet (← u32)
  | 0x22 => return .localTee (← u32)
  | 0x23 => return .globalGet (← u32)
  | 0x24 => return .globalSet (← u32)
  | 0x25 => return .tableGet (← u32)
  | 0x26 => return .tableSet (← u32)
  | 0x3F => return .memorySize (← u32)
  | 0x40 => return .memoryGrow (← u32)
  | 0x41 => return .const (.i32 (BitVec.ofInt 32 (← s32)))
  | 0x42 => return .const (.i64 (BitVec.ofInt 64 (← s64)))
  | 0x43 => return .const (.f32 (BitVec.ofNat 32 (← littleEndian 4)))
  | 0x44 => return .const (.f64 (BitVec.ofNat 64 (← littleEndian 8)))
  | 0xD0 => return .refNull (← heapKind)
  | 0xD1 => return .refIsNull
  | 0xD2 => return .refFunc (← u32)
  | 0xFC => bulkInstr (← u32)
  | 0xFD => vecInstr (← u32)
  | b =>
    let n := b.toNat
    if firstNumOp ≤ n then
      match numOps[n - firstNumOp]? with
      | some (_, op) => return .num op
      | none => throw (.unknownCode "instruction" n)
    else if firstStore ≤ n then
      match stores[n - firstStore]? with
      | some (_, access) => return .store access (← memArg)
      | none => throw (.unknownCode "instruction" n)
    else if firstLoad ≤ n then
      match loads[n - firstLoad]? with
      | some (_, access) => return .load access (← memArg)
      | none => throw (.unknownCode "instruction" n)
    else throw (.unknownCode "instruction" n)

/-- What ends a list of instructions. -/
inductive Closing where
  | ended
  | otherwise
  deriving DecidableEq, Repr, Inhabited

/-- Instructions up to the byte that closes them, at most `fuel` of them and of those inside them.
-/
def instrs (referenceTypes : Bool) : Nat → Reader (List Instr × Closing)
  | 0 => throw .unexpectedEnd
  | fuel + 1 => do
    let b ← byte
    if b == 0x0B then return ([], .ended)
    if b == 0x05 then return ([], .otherwise)
    let i ←
      if b == 0x02 ∨ b == 0x03 ∨ b == 0x04 then do
        let type ← blockType
        let (body, closing) ← instrs referenceTypes fuel
        match closing with
        | .ended =>
          pure (if b == 0x02 then Instr.block type body else if b == 0x03 then .loop type body
            else .ifElse type body [])
        | .otherwise =>
          if b != 0x04 then throw (.unknownCode "instruction" 0x05)
          let (onFalse, closing) ← instrs referenceTypes fuel
          if closing == .otherwise then throw (.unknownCode "instruction" 0x05)
          pure (.ifElse type body onFalse)
      else plainInstr referenceTypes b
    let (rest, closing) ← instrs referenceTypes fuel
    return (i :: rest, closing)

/-- Instructions with the `end` that closes them. -/
def expr (referenceTypes : Bool) : Reader (List Instr) := do
  let left ← get
  let (code, closing) ← instrs referenceTypes (left.length + 1)
  if closing == .otherwise then throw (.unknownCode "instruction" 0x05)
  return code

/-- The most locals of a function, parameters included. -/
def maxLocals : Nat := 50000

/-- Local variables as numbers of variables of one type. -/
def locals : Nat → Nat → Reader (List (Nat × ValType))
  | 0, _ => return []
  | groups + 1, total => do
    let n ← u32
    let t ← valType
    if maxLocals < total + n then throw (.limitExceeded "locals")
    return (n, t) :: (← locals groups (total + n))

/-- A function body. -/
def body (referenceTypes : Bool) : Reader Body := sized "function body" do
  let groups ← locals (← u32) 0
  return ⟨groups, ← expr referenceTypes⟩

end WasmEmbed.Binary
