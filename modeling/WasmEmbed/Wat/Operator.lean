import WasmEmbed.Code.Opcode
import WasmEmbed.Wat.Reader
/-!
Instructions in the text format, blocks apart: their names, and what stands after each name. Some of
them no module here can have; what stands after those has to be right all the same.
-/

namespace WasmEmbed.Wat

open WasmEmbed.Code

/-- How a branch is taken. -/
inductive BranchForm where
  | always
  | conditional
  | table
  deriving DecidableEq, Repr, Inhabited

/-- One step of a flat row of instructions. Blocks and signatures are still meant by name. -/
inductive Op where
  | plain (i : Instr)
  | branch (form : BranchForm) (targets : List Target)
  | indirect (isTail : Bool) (table : Nat) (use : TypeUse)
  /-- The beginning of a block, with its code, unless no module here can have such a block. -/
  | opening (code : Option UInt8) (label : Label) (use : TypeUse)
  | otherwise (name : Option String)
  | ended (name : Option String)
  /-- Ends a block, and names another one. -/
  | delegated (target : Target)
  /-- An instruction that no module here can have, with the blocks that it names. -/
  | foreign (targets : List Target)
  /-- Says whether the branch that comes next is likely. -/
  | hint (value : UInt8)
  deriving Repr, Inhabited

/-- What stands after the name of an instruction. -/
inductive Slot where
  | index (space : Space)
  | optional (space : Space)
  | label
  | count
  /-- A structure type and one of its fields. -/
  | member
  | reference
  /-- The place of an access to memory of a number of bytes. -/
  | place (bytes : Nat)
  /-- How strictly accesses to memory are ordered. -/
  | order
  /-- What is done with each of some exceptions, or when others take over. -/
  | handlers
  deriving DecidableEq, Repr, Inhabited

/-- Instructions without anything after their name. -/
def bareInstrs : List (String × Instr) :=
  [("unreachable", .unreachable), ("nop", .nop), ("return", .ret), ("drop", .drop), ("ref.is_null", .refIsNull)]
    ++ (numOps ++ saturatingOps).map (fun r => (r.1, .num r.2)) ++ vecOps.map (fun r => (r.2.1, .vec r.2.2))

/-- Instructions with an index after their name. -/
def indexInstrs : List (String × Space × (Nat → Instr)) :=
  [("call", .item .function, .call), ("return_call", .item .function, .returnCall),
    ("ref.func", .item .function, .refFunc), ("local.get", .localVar, .localGet), ("local.set", .localVar, .localSet),
    ("local.tee", .localVar, .localTee), ("global.get", .item .global, .globalGet),
    ("global.set", .item .global, .globalSet), ("elem.drop", .elem, .elemDrop), ("data.drop", .data, .dataDrop)]

/-- Instructions with an index after their name that may be left out. -/
def optionalIndexInstrs : List (String × ExternKind × (Nat → Instr)) :=
  [("table.get", .table, .tableGet), ("table.set", .table, .tableSet), ("table.size", .table, .tableSize),
    ("table.grow", .table, .tableGrow), ("table.fill", .table, .tableFill), ("memory.size", .memory, .memorySize),
    ("memory.grow", .memory, .memoryGrow), ("memory.fill", .memory, .memoryFill)]

/-- Instructions with two indices of a space, both of which may be left out. -/
def pairInstrs : List (String × ExternKind × (Nat → Nat → Instr)) :=
  [("table.copy", .table, .tableCopy), ("memory.copy", .memory, .memoryCopy)]

/-- Instructions with the index of a segment, in front of which another index may stand. -/
def segmentInstrs : List (String × ExternKind × Space × (Nat → Nat → Instr)) :=
  [("table.init", .table, .elem, .tableInit), ("memory.init", .memory, .data, .memoryInit)]

/-! ### Instructions that no module here can have -/

/-- Exceptions, in both of their forms. -/
private def exceptionInstrs : List (String × List Slot) :=
  [("throw", [.index .tag]), ("throw_ref", []), ("catch", [.index .tag]), ("catch_all", []), ("rethrow", [.label])]

/-- References to functions with their types. -/
private def referenceInstrs : List (String × List Slot) :=
  [("call_ref", [.index .type]), ("return_call_ref", [.index .type]), ("ref.as_non_null", []),
    ("br_on_null", [.label]), ("br_on_non_null", [.label])]

/-- Structures, arrays, and small numbers as references. -/
private def heapInstrs : List (String × List Slot) :=
  [("ref.eq", []), ("struct.new", [.index .type]), ("struct.new_default", [.index .type]),
    ("struct.get", [.member]), ("struct.get_s", [.member]), ("struct.get_u", [.member]), ("struct.set", [.member]),
    ("array.new", [.index .type]), ("array.new_default", [.index .type]), ("array.new_fixed", [.index .type, .count]),
    ("array.new_data", [.index .type, .index .data]), ("array.new_elem", [.index .type, .index .elem]),
    ("array.get", [.index .type]), ("array.get_s", [.index .type]), ("array.get_u", [.index .type]),
    ("array.set", [.index .type]), ("array.len", []), ("array.fill", [.index .type]),
    ("array.copy", [.index .type, .index .type]), ("array.init_data", [.index .type, .index .data]),
    ("array.init_elem", [.index .type, .index .elem]), ("ref.i31", []), ("i31.get_s", []), ("i31.get_u", []),
    ("ref.test", [.reference]), ("ref.cast", [.reference]), ("br_on_cast", [.label, .reference, .reference]),
    ("br_on_cast_fail", [.label, .reference, .reference]), ("any.convert_extern", []), ("extern.convert_any", []),
    ("struct.new_desc", [.index .type]), ("struct.new_default_desc", [.index .type]), ("ref.get_desc", [.index .type]),
    ("ref.cast_desc_eq", [.reference]), ("br_on_cast_desc_eq", [.label, .reference, .reference]),
    ("br_on_cast_desc_eq_fail", [.label, .reference, .reference])]

/-- Computations that are set aside and taken up again. -/
private def stackInstrs : List (String × List Slot) :=
  [("cont.new", [.index .type]), ("cont.bind", [.index .type, .index .type]), ("suspend", [.index .tag]),
    ("resume", [.index .type, .handlers]), ("resume_throw", [.index .type, .index .tag, .handlers]),
    ("resume_throw_ref", [.index .type, .handlers]), ("switch", [.index .type, .index .tag])]

/-- What is done to memory in one step, with the number of its bytes. -/
private def updates : List String := ["add", "sub", "and", "or", "xor", "xchg", "cmpxchg"]

/-- Accesses to memory that others share. -/
private def atomicInstrs : List (String × List Slot) :=
  let ints : List (String × Nat × List (String × Nat)) :=
    [("i32", 4, [("8", 1), ("16", 2)]), ("i64", 8, [("8", 1), ("16", 2), ("32", 4)])]
  [("memory.atomic.notify", [.place 4]), ("memory.atomic.wait32", [.place 4]), ("memory.atomic.wait64", [.place 8]),
    ("atomic.fence", []), ("pause", [])]
    ++ ints.flatMap fun t =>
      let start := t.1 ++ ".atomic."
      [(start ++ "load", [.place t.2.1]), (start ++ "store", [.place t.2.1])]
        ++ updates.map (fun u => (start ++ "rmw." ++ u, [.place t.2.1]))
        ++ t.2.2.flatMap fun part =>
          [(start ++ "load" ++ part.1 ++ "_u", [Slot.place part.2]), (start ++ "store" ++ part.1, [.place part.2])]
            ++ updates.map fun u => (start ++ "rmw" ++ part.1 ++ "." ++ u ++ "_u", [.place part.2])

/-- Accesses to other things that are shared. -/
private def sharedInstrs : List (String × List Slot) :=
  let forms (start : String) (names : List String) (slots : List Slot) : List (String × List Slot) :=
    names.map fun n => (start ++ ".atomic." ++ n, .order :: slots)
  let changes := "set" :: updates.map ("rmw." ++ ·)
  forms "global" ("get" :: changes) [.index (.item .global)]
    ++ forms "table" ["get", "set", "rmw.xchg", "rmw.cmpxchg"] [.optional (.item .table)]
    ++ forms "struct" (["get", "get_s", "get_u"] ++ changes) [.member]
    ++ forms "array" (["get", "get_s", "get_u"] ++ changes) [.index .type] ++ [("ref.i31_shared", [])]

/-- The instructions that no module here can have, with what stands after their names. -/
def foreignInstrs : List (String × List Slot) :=
  exceptionInstrs ++ referenceInstrs ++ heapInstrs ++ stackInstrs ++ atomicInstrs ++ sharedInstrs
    ++ [("memory.discard", [.optional (.item .memory)]), ("i64.add128", []), ("i64.sub128", []),
      ("i64.mul_wide_s", []), ("i64.mul_wide_u", [])]

namespace Reader

def index (sc : Scope) (space : Space) : Reader Nat := do
  let t ← target
  sc.resolve space t

/-- An index that may be left out if it is 0. -/
def index? (sc : Scope) (space : Space) : Reader (Option Nat) := do
  (← target?).mapM fun t => (sc.resolve space t : Except Fault Nat)

/-- The number after a keyword and an equals sign. -/
def field? (keyword : String) (bits : Nat) : Reader (Option Nat) := do
  let start := keyword.toList ++ ['=']
  match ← accept? fun s => s.word?.filter fun w => start.isPrefixOf w.toList with
  | none => return none
  | some w =>
    return some (← (Wat.natural bits (String.ofList (w.toList.drop start.length)) : Except Fault Nat))

/-- The place of an access to memory of `bytes` bytes. -/
def memArg (sc : Scope) (bytes : Nat) : Reader MemArg := do
  let memory ← index? sc (.item .memory)
  let offset ← field? "offset" 64
  let align ← field? "align" 64
  let align := align.getD bytes
  if align = 0 ∨ 2 ^ align.log2 ≠ align then throw (.unexpected "alignment")
  return ⟨align.log2, offset.getD 0, memory.getD 0⟩

/-- Whether a place precedes the number of a lane: a single number is a lane. -/
def hasMemArg : List Sexpr → Bool
  | lane :: next :: _ =>
    !isInteger lane || isInteger next || (next.word?.any fun w => w.startsWith "offset=" || w.startsWith "align=")
  | [lane] => !isInteger lane
  | [] => true

def laneMemArg (sc : Scope) (l : Lane) : Reader MemArg := do
  let bytes := l.bits / 8
  if hasMemArg (← get) then memArg sc bytes else return ⟨bytes.log2, 0, 0⟩

/-- The shape of a constant vector, and its lanes. -/
def vector : Reader (BitVec 128) := do
  let shape ← expect "a shape" Sexpr.word?
  match [Lane.i8, .i16, .i32, .i64, .f32, .f64].find? (·.shape == shape) with
  | none => throw (.unexpected shape)
  | some l =>
    let value : Reader Nat := match l with
      | .f32 => float Ieee.single
      | .f64 => float Ieee.double
      | _ => do return ((← integer l.bits) % (2 ^ l.bits : Nat)).toNat
    return ofLanes l (← (List.range l.count).mapM fun _ => value)

/-- The parameters and results of a block or an indirect call, the names in which are known. -/
def innerTypeUse (sc : Scope) : Reader TypeUse := do
  let u ← typeUse false
  checkTypes sc u.targets
  return u

/-- An indirect call: perhaps a table, and a signature. -/
def indirect (sc : Scope) (isTail : Bool) : Reader Op := do
  let table ← index? sc (.item .table)
  return .indirect isTail (table.getD 0) (← innerTypeUse sc)

/-- The targets of a branch table, the last of which is the default. -/
def branchTable : Reader Op := do
  let first ← target
  let more ← acceptAll fun s => if isTarget s then some s else none
  return .branch .table (first :: (← more.mapM fun s => within target [s]))

/-- A value type whose names are known, if modules here can have it. -/
private def knownType? (sc : Scope) (t : ValueType) : Reader (Option ValType) := do
  checkTypes sc t.targets
  return t.type?

/-- What an instruction selects from: its operands, or operands of types that are given. -/
def selection (sc : Scope) : Reader Op := do
  let groups ← acceptAll (Sexpr.under? "result")
  if groups.isEmpty then return .plain (.select none)
  let types ← (← groups.mapM (within (acceptAll valType?))).flatten.mapM (knownType? sc)
  return (types.mapM id).elim (.foreign []) fun ts => .plain (.select (some ts))

/-- A null reference. -/
def nullRef (sc : Scope) : Reader Op := do
  let heap ← heapType
  checkTypes sc heap.targets
  return heap.kind?.elim (.foreign []) fun kind => .plain (.refNull kind)

/-- Takes what belongs into a slot; gives the blocks that it names. -/
def slot (sc : Scope) : Slot → Reader (List Target)
  | .index space => do
    let _ ← index sc space
    return []
  | .optional space => do
    let _ ← index? sc space
    return []
  | .label => do return [← target]
  | .count => do
    let _ ← natural 32
    return []
  | .member => do
    let type ← index sc .type
    let _ ← index sc (.field type)
    return []
  | .reference => do
    checkTypes sc (← refType).targets
    return []
  | .place bytes => do
    let _ ← memArg sc bytes
    return []
  | .order => do
    let _ ← expect "an order" fun s => s.word?.filter fun w => w == "seq_cst" || w == "acq_rel"
    return []
  | .handlers => do
    let clauses ← acceptAll (Sexpr.under? "on")
    let targets ← clauses.mapM (within do
      let _ ← index sc .tag
      if ← keyword? "switch" then return none
      return some (← target))
    return targets.filterMap id

/-- The instruction that a name with what follows it stands for, blocks apart. -/
def instr (sc : Scope) (w : String) : Reader Op := do
  if let some i := bareInstrs.lookup w then return .plain i
  if let some (space, make) := indexInstrs.lookup w then return .plain (make (← index sc space))
  if let some (kind, make) := optionalIndexInstrs.lookup w then
    return .plain (make ((← index? sc (.item kind)).getD 0))
  if let some (kind, make) := pairInstrs.lookup w then
    match ← index? sc (.item kind) with
    | some target => return .plain (make target (← index sc (.item kind)))
    | none => return .plain (make 0 0)
  if let some (kind, space, make) := segmentInstrs.lookup w then
    let first ← target
    match ← index? sc space with
    | some segment => return .plain (make (← sc.resolve (.item kind) first) segment)
    | none => return .plain (make 0 (← sc.resolve space first))
  if let some access := loads.lookup w then return .plain (.load access (← memArg sc access.bytes))
  if let some access := stores.lookup w then return .plain (.store access (← memArg sc access.bytes))
  if let some (_, _, kind) := vecLoads.find? (·.2.1 == w) then return .plain (.vecLoad kind (← memArg sc kind.bytes))
  if let some (_, _, make) := laneOps.find? (·.2.1 == w) then return .plain (.vec (make (← lane)))
  if let some (_, _, l) := laneLoads.find? (·.2.1 == w) then
    let m ← laneMemArg sc l
    return .plain (.vecLoadLane l m (← lane))
  if let some (_, _, l) := laneStores.find? (·.2.1 == w) then
    let m ← laneMemArg sc l
    return .plain (.vecStoreLane l m (← lane))
  if let some slots := foreignInstrs.lookup w then return .foreign (← slots.mapM (slot sc)).flatten
  match w with
  | "br" => return .branch .always [← target]
  | "br_if" => return .branch .conditional [← target]
  | "br_table" => branchTable
  | "call_indirect" => indirect sc false
  | "return_call_indirect" => indirect sc true
  | "select" => selection sc
  | "i32.const" => return .plain (.const (.i32 (BitVec.ofInt 32 (← integer 32))))
  | "i64.const" => return .plain (.const (.i64 (BitVec.ofInt 64 (← integer 64))))
  | "f32.const" => return .plain (.const (.f32 (BitVec.ofNat 32 (← float Ieee.single))))
  | "f64.const" => return .plain (.const (.f64 (BitVec.ofNat 64 (← float Ieee.double))))
  | "v128.const" => return .plain (.const (.v128 (← vector)))
  | "v128.store" => return .plain (.vecStore (← memArg sc 16))
  | "i8x16.shuffle" => return .plain (.vec (.shuffle (← (List.range 16).mapM fun _ => natural 8)))
  | "ref.null" => nullRef sc
  | "delegate" => return .delegated (← target)
  | w => throw (.unexpected w)

end Reader

end WasmEmbed.Wat
