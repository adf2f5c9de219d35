import WasmEmbed.Binary.Module
import WasmEmbed.Typing.Instr
/-!
Which modules are valid: every index refers to something, limits hold, and all code is well typed.
-/

namespace WasmEmbed.Typing

open WasmEmbed.Code
open WasmEmbed.Binary (Fault)

private def checkLimits (minimum : Nat) (maximum : Option Nat) : Except Fault Unit :=
  match maximum with
  | some m => if minimum ≤ m then .ok () else .error (.limitExceeded "minimum")
  | none => .ok ()

def checkFuncType (features : Features) (t : FuncType) : Except Fault Unit := do
  for v in t.params ++ t.results do Scope.checkValType features v
  if 1 < t.results.length then Scope.need features.multiValue "multiple values"

/-- The element types of tables and segments. Functions have always been allowed. -/
def checkElement (features : Features) (t : ValType) : Except Fault Unit :=
  if t = .ref .func then .ok () else Scope.checkValType features t

def checkTableType (features : Features) (t : TableType) : Except Fault Unit := do
  checkElement features t.element
  checkLimits t.minimum t.maximum

def checkMemoryType (t : MemoryType) : Except Fault Unit := do
  checkLimits t.minimum t.maximum
  if maxPages < t.minimum ∨ maxPages < t.maximum.getD 0 then throw (.limitExceeded "memory size")

/-- The functions that constant expressions, segments and exports refer to. -/
def referenced (a : Artifact) : List Nat :=
  let inCode (code : List Instr) : List Nat := code.filterMap fun i => match i with
    | .refFunc f => some f
    | _ => none
  a.globals.flatMap (fun g => inCode g.init) ++ a.elems.flatMap (fun e => e.items.codes.flatMap inCode)
    ++ a.exports.filterMap fun e => if e.kind = .function then some e.index else none

/-- What the code of a module may refer to. -/
def scopeOf (features : Features) (a : Artifact) : Scope :=
  { features, types := a.types, funcs := a.allFuncs.map a.typeAt, tables := a.allTables, memories := a.allMemories,
    globals := a.allGlobals, importedGlobals := a.importedGlobals.length, elems := a.elems.map (·.items.type),
    dataCount := a.dataCount, referenced := referenced a }

private def checkSegmentMode (c : Scope) (target : Nat → Except Fault Unit) :
    SegmentMode → Except Fault Unit
  | .active i offset => do
    target (i.getD 0)
    constant c .i32 offset
  | _ => .ok ()

private def checkElem (c : Scope) (e : ElemSegment) : Except Fault Unit := do
  let type := e.items.type
  checkElement c.features type
  match e.mode with
  | .active .. => pure ()
  | .passive | .declared => Scope.need c.features.bulkMemory "bulk memory"
  checkSegmentMode c (fun i => do if (← c.table i) ≠ type then throw .typeMismatch) e.mode
  for code in e.items.codes do constant c type code

private def checkData (c : Scope) (d : DataSegment) : Except Fault Unit :=
  checkSegmentMode c (fun i => do let _ ← c.memory i) d.mode

/-- Names that stand twice in a list, in order. -/
def repeated : List String → List String
  | [] => []
  | s :: rest => if rest.contains s then s :: repeated rest else repeated rest

private def checkExport (c : Scope) (e : Export) : Except Fault Unit := do
  match e.kind with
  | .function => let _ ← c.func e.index
  | .table => let _ ← c.table e.index
  | .memory => let _ ← c.memory e.index
  | .global => let _ ← Scope.lookup "global" c.globals e.index

/-- Accepts the valid modules. -/
def checkModule (features : Features) (a : Artifact) : Except Fault Unit := do
  a.types.forM (checkFuncType features)
  for i in a.allFuncs do
    if a.types.length ≤ i then throw (.unknownIndex "type" i)
  a.allTables.forM (checkTableType features)
  a.allMemories.forM checkMemoryType
  a.allGlobals.forM fun g => Scope.checkValType features g.content
  if Binary.maxItems < a.allFuncs.length ∨ Binary.maxItems < a.allGlobals.length then throw (.limitExceeded "items")
  if Binary.maxStorages < a.allTables.length ∨ Binary.maxStorages < a.allMemories.length then
    throw (.limitExceeded "tables or memories")
  if 1 < a.allTables.length then Scope.need features.referenceTypes "reference types"
  let c := scopeOf features a
  a.globals.forM fun g => constant c g.type.content g.init
  match repeated (a.exports.map (·.name)) with
  | s :: _ => throw (.duplicateExport s)
  | [] => pure ()
  a.exports.forM (checkExport c)
  match a.start with
  | some i => if (← c.func i) ≠ ⟨[], []⟩ then throw .typeMismatch
  | none => pure ()
  a.elems.forM (checkElem c)
  a.datas.forM (checkData c)
  for (i, b) in a.funcs.zip a.bodies do
    let t := a.typeAt i
    if Binary.maxLocals < t.params.length + b.locals.length then throw (.limitExceeded "locals")
    body c t b

/-- The valid module that bytes encode. -/
def compile (features : Features) (bs : List UInt8) : Except Fault Artifact := do
  let a ← Binary.readModule features.referenceTypes bs
  checkModule features a
  return a

end WasmEmbed.Typing
