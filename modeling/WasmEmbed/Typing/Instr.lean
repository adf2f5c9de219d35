import WasmEmbed.Binary.Reader
import WasmEmbed.Code.Artifact
import WasmEmbed.Config
/-!
Which code is well typed. A list of instructions turns operand types into operand types; a block
does so on operands of its own. After a jump the operands are unknown, and whatever is asked for is
found.
-/

namespace WasmEmbed.Typing

open WasmEmbed.Code
open WasmEmbed.Binary (Fault)

/-- What an instruction may refer to. -/
structure Scope where
  features : Features
  types : List FuncType
  funcs : List FuncType
  tables : List TableType
  memories : List MemoryType
  globals : List GlobalType
  /-- How many of the globals are imported. -/
  importedGlobals : Nat
  elems : List ValType
  dataCount : Option Nat
  /-- The functions that references may be taken of. -/
  referenced : List Nat
  locals : List ValType := []
  results : List ValType := []
  /-- The operands that a jump out of each enclosing block takes, innermost first. -/
  labels : List (List ValType) := []

/-- The types of the operands of a block, last pushed first; `none` is a type that is not known. -/
structure Operands where
  known : List (Option ValType)
  /-- Whether operands of unknown types lie below the known ones. -/
  open_ : Bool
  deriving DecidableEq, Repr, Inhabited

namespace Operands

/-- The operands after a jump. -/
def unreachable : Operands := ⟨[], true⟩

def push (s : Operands) (t : ValType) : Operands := { s with known := some t :: s.known }

/-- Types in the order they are pushed. -/
def pushAll (s : Operands) (ts : List ValType) : Operands := ts.foldl push s

def pop (s : Operands) : Except Fault (Option ValType × Operands) :=
  match s.known with
  | t :: rest => .ok (t, { s with known := rest })
  | [] => if s.open_ then .ok (none, s) else .error .typeMismatch

def popOf (s : Operands) (t : ValType) : Except Fault Operands := do
  let (found, s) ← s.pop
  match found with
  | none => return s
  | some u => if u = t then return s else throw .typeMismatch

/-- Types in the order they were pushed. -/
def popAll (s : Operands) (ts : List ValType) : Except Fault Operands := ts.reverse.foldlM popOf s

end Operands

namespace Scope

def need (enabled : Bool) (what : String) : Except Fault Unit :=
  if enabled then .ok () else .error (.disabled what)

/-- Whether a value type is allowed. -/
def checkValType (features : Features) : ValType → Except Fault Unit
  | .v128 => need features.simd "SIMD"
  | .ref _ => need features.referenceTypes "reference types"
  | _ => .ok ()

def lookup {α : Type} (what : String) (xs : List α) (i : Nat) : Except Fault α :=
  match xs[i]? with
  | some x => .ok x
  | none => .error (.unknownIndex what i)

def func (c : Scope) (i : Nat) : Except Fault FuncType := lookup "function" c.funcs i

def type (c : Scope) (i : Nat) : Except Fault FuncType := lookup "type" c.types i

def table (c : Scope) (i : Nat) : Except Fault ValType :=
  (lookup "table" c.tables i).map (·.element)

def memory (c : Scope) (i : Nat) : Except Fault MemoryType := lookup "memory" c.memories i

def local_ (c : Scope) (i : Nat) : Except Fault ValType := lookup "local" c.locals i

def label (c : Scope) (depth : Nat) : Except Fault (List ValType) := lookup "label" c.labels depth

/-- The parameters and results of a block. -/
def block (c : Scope) : BlockType → Except Fault FuncType
  | .empty => .ok ⟨[], []⟩
  | .value t => do
    checkValType c.features t
    return ⟨[], [t]⟩
  | .index i => do
    need c.features.multiValue "multiple values"
    c.type i

/-- Checks an access to memory of `bytes` bytes: its alignment is at most natural. -/
def access (c : Scope) (at_ : MemArg) (bytes : Nat) : Except Fault Unit := do
  let _ ← c.memory at_.memory
  if bytes < 2 ^ at_.align then throw (.limitExceeded "alignment")

/-- Checks a call with operands on the stack. -/
def callable (c : Scope) (table type : Nat) : Except Fault FuncType := do
  let element ← c.table table
  if element ≠ .ref .func then throw .typeMismatch
  c.type type

/-- A call that ends the function has to return what the function does. -/
def tail (c : Scope) (t : FuncType) : Except Fault Unit :=
  if t.results = c.results then .ok () else .error .typeMismatch

end Scope

open Scope

/-- Operands popped and pushed by an instruction that always continues. -/
def apply (s : Operands) (params results : List ValType) : Except Fault Operands := do
  let s ← s.popAll params
  return s.pushAll results

/-- The operands after an instruction without a body. -/
def plain (c : Scope) (i : Instr) (s : Operands) : Except Fault Operands := do
  match i with
  | .unreachable => return .unreachable
  | .nop => return s
  | .br depth =>
    let _ ← s.popAll (← c.label depth)
    return .unreachable
  | .brIf depth =>
    let s ← s.popOf .i32
    let types ← c.label depth
    apply s types types
  | .brTable depths default =>
    let s ← s.popOf .i32
    let types ← c.label default
    for depth in depths do
      let others ← c.label depth
      if others.length ≠ types.length then throw .typeMismatch
      let _ ← s.popAll others
    let _ ← s.popAll types
    return .unreachable
  | .ret =>
    let _ ← s.popAll c.results
    return .unreachable
  | .call func =>
    let t ← c.func func
    apply s t.params t.results
  | .callIndirect table type =>
    let t ← c.callable table type
    let s ← s.popOf .i32
    apply s t.params t.results
  | .returnCall func =>
    let t ← c.func func
    let _ ← s.popAll t.params
    c.tail t
    return .unreachable
  | .returnCallIndirect table type =>
    let t ← c.callable table type
    let s ← s.popOf .i32
    let _ ← s.popAll t.params
    c.tail t
    return .unreachable
  | .drop =>
    let (_, s) ← s.pop
    return s
  | .select none =>
    let s ← s.popOf .i32
    let (a, s) ← s.pop
    let (b, s) ← s.pop
    match a, b with
    | some (.ref _), _ | _, some (.ref _) => throw .typeMismatch
    | none, t | t, none => return { s with known := t :: s.known }
    | some a, some b => if a = b then return s.push a else throw .typeMismatch
  | .select (some types) =>
    need c.features.referenceTypes "reference types"
    match types with
    | [t] =>
      checkValType c.features t
      apply s [t, t, .i32] [t]
    | _ => throw .typeMismatch
  | .localGet i => return s.push (← c.local_ i)
  | .localSet i => s.popOf (← c.local_ i)
  | .localTee i =>
    let t ← c.local_ i
    apply s [t] [t]
  | .globalGet i => return s.push (← lookup "global" c.globals i).content
  | .globalSet i =>
    let g ← lookup "global" c.globals i
    if !g.isMutable then throw .typeMismatch
    s.popOf g.content
  | .tableGet table =>
    need c.features.referenceTypes "reference types"
    apply s [.i32] [← c.table table]
  | .tableSet table =>
    need c.features.referenceTypes "reference types"
    apply s [.i32, ← c.table table] []
  | .tableSize table =>
    need c.features.referenceTypes "reference types"
    let _ ← c.table table
    return s.push .i32
  | .tableGrow table =>
    need c.features.referenceTypes "reference types"
    apply s [← c.table table, .i32] [.i32]
  | .tableFill table =>
    need c.features.referenceTypes "reference types"
    apply s [.i32, ← c.table table, .i32] []
  | .tableCopy target source =>
    need c.features.bulkMemory "bulk memory"
    if (← c.table target) ≠ (← c.table source) then throw .typeMismatch
    apply s [.i32, .i32, .i32] []
  | .tableInit table elem =>
    need c.features.bulkMemory "bulk memory"
    if (← c.table table) ≠ (← lookup "element segment" c.elems elem) then throw .typeMismatch
    apply s [.i32, .i32, .i32] []
  | .elemDrop elem =>
    need c.features.bulkMemory "bulk memory"
    let _ ← lookup "element segment" c.elems elem
    return s
  | .load access at_ =>
    c.access at_ access.bytes
    apply s [.i32] [access.type]
  | .store access at_ =>
    c.access at_ access.bytes
    apply s [.i32, access.type] []
  | .memorySize memory =>
    let _ ← c.memory memory
    return s.push .i32
  | .memoryGrow memory =>
    let _ ← c.memory memory
    apply s [.i32] [.i32]
  | .memoryInit memory data =>
    need c.features.bulkMemory "bulk memory"
    let _ ← c.memory memory
    if c.dataCount.getD 0 ≤ data then throw (.unknownIndex "data segment" data)
    apply s [.i32, .i32, .i32] []
  | .dataDrop data =>
    need c.features.bulkMemory "bulk memory"
    if c.dataCount.getD 0 ≤ data then throw (.unknownIndex "data segment" data)
    return s
  | .memoryCopy target source =>
    need c.features.bulkMemory "bulk memory"
    let _ ← c.memory target
    let _ ← c.memory source
    apply s [.i32, .i32, .i32] []
  | .memoryFill memory =>
    need c.features.bulkMemory "bulk memory"
    let _ ← c.memory memory
    apply s [.i32, .i32, .i32] []
  | .const v =>
    checkValType c.features v.type
    return s.push v.type
  | .num op => apply s op.params [op.result]
  | .vec op =>
    need c.features.simd "SIMD"
    if !op.indicesInRange then throw (.unknownIndex "lane" 0)
    apply s op.params [op.result]
  | .vecLoad kind at_ =>
    need c.features.simd "SIMD"
    c.access at_ kind.bytes
    apply s [.i32] [.v128]
  | .vecStore at_ =>
    need c.features.simd "SIMD"
    c.access at_ 16
    apply s [.i32, .v128] []
  | .vecLoadLane l at_ index =>
    need c.features.simd "SIMD"
    c.access at_ (l.bits / 8)
    if l.count ≤ index then throw (.unknownIndex "lane" index)
    apply s [.i32, .v128] [.v128]
  | .vecStoreLane l at_ index =>
    need c.features.simd "SIMD"
    c.access at_ (l.bits / 8)
    if l.count ≤ index then throw (.unknownIndex "lane" index)
    apply s [.i32, .v128] []
  | .refNull kind =>
    checkValType c.features (.ref kind)
    return s.push (.ref kind)
  | .refIsNull =>
    need c.features.referenceTypes "reference types"
    let (t, s) ← s.pop
    match t with
    | none | some (.ref _) => return s.push .i32
    | _ => throw .typeMismatch
  | .refFunc func =>
    need c.features.referenceTypes "reference types"
    let _ ← c.func func
    if !c.referenced.contains func then throw (.unknownIndex "declared function" func)
    return s.push (.ref .func)
  | .block .. | .loop .. | .ifElse .. => throw .typeMismatch

/-- Operands at the end of a block: exactly its results. -/
def closed (results : List ValType) (s : Operands) : Except Fault Unit := do
  let s ← s.popAll results
  if s.known.isEmpty then return () else throw .typeMismatch

mutual

/-- The operands after an instruction. -/
def instr (c : Scope) (i : Instr) (s : Operands) : Except Fault Operands :=
  match i with
  | .block type body => do
    let t ← c.block type
    let s ← s.popAll t.params
    let inner ← instrs { c with labels := t.results :: c.labels } body ((⟨[], false⟩ : Operands).pushAll t.params)
    closed t.results inner
    return s.pushAll t.results
  | .loop type body => do
    let t ← c.block type
    let s ← s.popAll t.params
    let inner ← instrs { c with labels := t.params :: c.labels } body ((⟨[], false⟩ : Operands).pushAll t.params)
    closed t.results inner
    return s.pushAll t.results
  | .ifElse type onTrue onFalse => do
    let t ← c.block type
    let s ← s.popOf .i32
    let s ← s.popAll t.params
    let c := { c with labels := t.results :: c.labels }
    let start := (⟨[], false⟩ : Operands).pushAll t.params
    closed t.results (← instrs c onTrue start)
    closed t.results (← instrs c onFalse start)
    return s.pushAll t.results
  | i => plain c i s

/-- The operands after a list of instructions. -/
def instrs (c : Scope) (is : List Instr) (s : Operands) : Except Fault Operands :=
  match is with
  | [] => .ok s
  | i :: rest => do instrs c rest (← instr c i s)

end

/-- A function body: it leaves exactly the results, whose types a jump out of it takes too. -/
def body (c : Scope) (t : FuncType) (b : Body) : Except Fault Unit := do
  for g in b.groups do checkValType c.features g.2
  let c := { c with locals := t.params ++ b.locals, results := t.results, labels := [t.results] }
  closed t.results (← instrs c b.code ⟨[], false⟩)

/-- Whether an instruction may stand in a constant expression. -/
def isConstant (c : Scope) : Instr → Bool
  | .const _ | .refNull _ | .refFunc _ => true
  | .globalGet i => i < c.importedGlobals && (c.globals[i]?.any fun g => !g.isMutable)
  | .num (.intBinary _ op) => op == .add || op == .sub || op == .mul
  | _ => false

/-- An expression that is evaluated at instantiation and has one value. Any function may be referred
to. -/
def constant (c : Scope) (t : ValType) (code : List Instr) : Except Fault Unit := do
  let c := { c with features.referenceTypes := true, referenced := List.range c.funcs.length }
  if !code.all (isConstant c) then throw .notConstant
  closed [t] (← instrs c code ⟨[], false⟩)

end WasmEmbed.Typing
