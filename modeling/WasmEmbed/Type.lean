/-!
The types that cross the boundary between a host and its modules: value types, function signatures,
and the types of the four kinds of things a module imports and exports.
-/

namespace WasmEmbed

/-- The kinds of reference. -/
inductive RefKind where
  | func
  | external
  | any
  deriving DecidableEq, Repr, Inhabited

/-- The type of a value. -/
inductive ValType where
  | i32
  | i64
  | f32
  | f64
  | v128
  | ref (kind : RefKind)
  deriving DecidableEq, Repr, Inhabited

namespace ValType

/-- The name of a type in signatures and messages. -/
def text : ValType → String
  | i32 => "i32"
  | i64 => "i64"
  | f32 => "f32"
  | f64 => "f64"
  | v128 => "v128"
  | ref .func => "funcref"
  | ref .external => "externref"
  | ref .any => "anyref"

/-- Whether values of the type are numbers. -/
def isNum : ValType → Bool
  | i32 | i64 | f32 | f64 => true
  | _ => false

/-- The constructor of a type as a debugging text shows it. -/
def debugText : ValType → String
  | i32 => "I32"
  | i64 => "I64"
  | f32 => "F32"
  | f64 => "F64"
  | v128 => "V128"
  | ref .func => "Ref(Func)"
  | ref .external => "Ref(Extern)"
  | ref .any => "Ref(Any)"

end ValType

/-- A function signature. -/
structure FuncType where
  params : List ValType
  results : List ValType
  deriving DecidableEq, Repr, Inhabited

namespace FuncType

/-- A signature as `(i32 i64) -> (f64)`. -/
def text (t : FuncType) : String :=
  "(" ++ " ".intercalate (t.params.map ValType.text) ++ ") -> ("
    ++ " ".intercalate (t.results.map ValType.text) ++ ")"

/-- A signature as a debugging text shows it. -/
def debugText (t : FuncType) : String :=
  "FuncType \x7b params: [" ++ ", ".intercalate (t.params.map ValType.debugText) ++ "], results: ["
    ++ ", ".intercalate (t.results.map ValType.debugText) ++ "] \x7d"

end FuncType

/-- The type of a global variable. -/
structure GlobalType where
  content : ValType
  isMutable : Bool
  deriving DecidableEq, Repr, Inhabited

/-- The number of bytes in a page of memory. -/
def pageSize : Nat := 65536

/-- The most pages of a memory. -/
def maxPages : Nat := 65536

/-- The type of a linear memory; its limits count pages. -/
structure MemoryType where
  minimum : Nat
  maximum : Option Nat
  memory64 : Bool
  deriving DecidableEq, Repr, Inhabited

/-- The type of a table; its limits count elements. -/
structure TableType where
  element : ValType
  minimum : Nat
  maximum : Option Nat
  deriving DecidableEq, Repr, Inhabited

/-- The four kinds of things that modules import and export. -/
inductive ExternKind where
  | function
  | memory
  | global
  | table
  deriving DecidableEq, Repr, Inhabited

def ExternKind.text : ExternKind → String
  | function => "function"
  | memory => "memory"
  | global => "global"
  | table => "table"

/-- The type of an import or export. -/
inductive ExternType where
  | func (type : FuncType)
  | memory (type : MemoryType)
  | global (type : GlobalType)
  | table (type : TableType)
  deriving DecidableEq, Repr, Inhabited

namespace ExternType

def kind : ExternType → ExternKind
  | func _ => .function
  | memory _ => .memory
  | global _ => .global
  | table _ => .table

/-- The signature of a function type. -/
def func? : ExternType → Option FuncType
  | func t => some t
  | _ => none

/-- A greatest size as a link error shows it. -/
def maximumText : Option Nat → String
  | none => "None"
  | some n => "Some(" ++ toString n ++ ")"

/-- The type as a link error shows it. -/
def describe : ExternType → String
  | func t => "function " ++ t.text
  | global t => "global " ++ (if t.isMutable then "mut " else "") ++ t.content.text
  | memory t => "memory " ++ toString t.minimum ++ ".." ++ maximumText t.maximum
  | table t =>
    "table " ++ t.element.text ++ " " ++ toString t.minimum ++ ".." ++ maximumText t.maximum

end ExternType

/-- One export of a module. -/
structure ExportType where
  name : String
  type : ExternType
  deriving DecidableEq, Repr, Inhabited

/-- One import of a module. -/
structure ImportType where
  module : String
  name : String
  type : ExternType
  deriving DecidableEq, Repr, Inhabited

/-- Both names of an import in one text. Different pairs of names may share it. -/
def ImportType.path (i : ImportType) : String := i.module ++ "::" ++ i.name

end WasmEmbed
