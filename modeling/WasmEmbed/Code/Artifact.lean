import WasmEmbed.Code.Instr
/-!
Compiled modules: everything a binary module declares, in the order of its index spaces.
-/

namespace WasmEmbed.Code

/-- What an import provides, signatures being given by index. -/
inductive ImportDesc where
  | func (type : Nat)
  | table (type : TableType)
  | memory (type : MemoryType)
  | global (type : GlobalType)
  deriving DecidableEq, Repr, Inhabited

structure Import where
  module : String
  name : String
  desc : ImportDesc
  deriving DecidableEq, Repr, Inhabited

structure Export where
  name : String
  kind : ExternKind
  index : Nat
  deriving DecidableEq, Repr, Inhabited

/-- A function body with its locals beyond the parameters, as numbers of variables of one type. -/
structure Body where
  groups : List (Nat × ValType)
  code : List Instr
  deriving Repr, Inhabited

/-- The types of the locals, one by one. -/
def Body.locals (b : Body) : List ValType := b.groups.flatMap fun g => List.replicate g.1 g.2

structure GlobalDef where
  type : GlobalType
  init : List Instr
  deriving Repr, Inhabited

/-- When a segment is copied. -/
inductive SegmentMode where
  /-- At instantiation, to the offset given, of the table or memory given, or of the first one. -/
  | active (target : Option Nat) (offset : List Instr)
  | passive
  /-- Never: the segment only declares functions. -/
  | declared
  deriving Repr, Inhabited

/-- The elements of a segment: functions by index, or references that code gives. -/
inductive ElemItems where
  | funcs (indices : List Nat)
  | exprs (type : ValType) (codes : List (List Instr))
  deriving Repr, Inhabited

/-- The code that gives each element. -/
def ElemItems.codes : ElemItems → List (List Instr)
  | funcs indices => indices.map fun i => [.refFunc i]
  | exprs _ codes => codes

def ElemItems.type : ElemItems → ValType
  | funcs _ => .ref .func
  | exprs type _ => type

structure ElemSegment where
  items : ElemItems
  mode : SegmentMode
  deriving Repr, Inhabited

structure DataSegment where
  bytes : List UInt8
  mode : SegmentMode
  deriving Repr, Inhabited

/-- A compiled module. -/
structure Artifact where
  types : List FuncType := []
  imports : List Import := []
  /-- The signatures, by index, of the functions the module defines. -/
  funcs : List Nat := []
  tables : List TableType := []
  memories : List MemoryType := []
  globals : List GlobalDef := []
  exports : List Export := []
  start : Option Nat := none
  elems : List ElemSegment := []
  bodies : List Body := []
  datas : List DataSegment := []
  /-- The number of data segments, if it was announced before the bodies. -/
  dataCount : Option Nat := none
  /-- Names of functions, the latest first. -/
  names : List (Nat × String) := []
  deriving Repr, Inhabited

namespace Artifact

def typeAt (a : Artifact) (i : Nat) : FuncType := a.types.getD i default

/-- The functions imported, by signature index. -/
def importedFuncs (a : Artifact) : List Nat :=
  a.imports.filterMap fun i => match i.desc with
    | .func t => some t
    | _ => none

def importedTables (a : Artifact) : List TableType :=
  a.imports.filterMap fun i => match i.desc with
    | .table t => some t
    | _ => none

def importedMemories (a : Artifact) : List MemoryType :=
  a.imports.filterMap fun i => match i.desc with
    | .memory t => some t
    | _ => none

def importedGlobals (a : Artifact) : List GlobalType :=
  a.imports.filterMap fun i => match i.desc with
    | .global t => some t
    | _ => none

/-- The function index space, by signature index. -/
def allFuncs (a : Artifact) : List Nat := a.importedFuncs ++ a.funcs

def allTables (a : Artifact) : List TableType := a.importedTables ++ a.tables

def allMemories (a : Artifact) : List MemoryType := a.importedMemories ++ a.memories

def allGlobals (a : Artifact) : List GlobalType := a.importedGlobals ++ a.globals.map (·.type)

/-- The type of the thing of a kind with an index. -/
def externType (a : Artifact) (kind : ExternKind) (i : Nat) : ExternType :=
  match kind with
  | .function => .func (a.typeAt (a.allFuncs.getD i 0))
  | .table => .table (a.allTables.getD i default)
  | .memory => .memory (a.allMemories.getD i default)
  | .global => .global (a.allGlobals.getD i default)

/-- The imports with their types, in order. -/
def importTypes (a : Artifact) : List ImportType :=
  a.imports.map fun i => ⟨i.module, i.name, match i.desc with
    | .func t => .func (a.typeAt t)
    | .table t => .table t
    | .memory t => .memory t
    | .global t => .global t⟩

/-- The exports with their types, in order. -/
def exportTypes (a : Artifact) : List ExportType :=
  a.exports.map fun e => ⟨e.name, a.externType e.kind e.index⟩

/-- The name of a function in messages. -/
def funcName (a : Artifact) (i : Nat) : String :=
  match a.names.find? fun n => n.1 == i with
  | some n => n.2
  | none => "func[" ++ toString i ++ "]"

/-- The parameters and results of a block. -/
def blockType (a : Artifact) : BlockType → FuncType
  | .empty => ⟨[], []⟩
  | .value t => ⟨[], [t]⟩
  | .index i => a.typeAt i

end Artifact

end WasmEmbed.Code
