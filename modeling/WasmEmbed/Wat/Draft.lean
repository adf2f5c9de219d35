import WasmEmbed.Bytes
import WasmEmbed.Wat.Annotated
import WasmEmbed.Wat.Code
/-!
The fields of a module in the text format. A draft collects them in order, with every shorthand
written out and every name given its index. What refers to names stays as it is read, since names
may be given later.
-/

namespace WasmEmbed.Wat

open WasmEmbed.Code

/-- What an import provides. -/
inductive DraftImport where
  | func (use : TypeUse)
  | table (form : TableForm)
  | memory (type : Option MemoryType)
  | global (form : GlobalForm)
  | tag (use : TypeUse)
  deriving DecidableEq, Repr, Inhabited

def DraftImport.space : DraftImport → Space
  | func _ => .item .function
  | table _ => .item .table
  | memory _ => .item .memory
  | global _ => .item .global
  | tag _ => .tag

structure DraftFunc where
  use : TypeUse
  locals : List (Label × ValueType)
  code : Written
  deriving Repr, Inhabited

/-- When a segment is copied. -/
inductive DraftMode where
  | active (target : Option Target) (offset : Written)
  | passive
  | declared
  deriving Repr, Inhabited

/-- The elements of a segment: functions, or references that instructions give. -/
inductive DraftItems where
  | funcs (targets : List Target)
  | exprs (type : ValueType) (items : List Written)
  deriving Repr, Inhabited

def DraftItems.length : DraftItems → Nat
  | funcs ts => ts.length
  | exprs _ is => is.length

/-- The fields of a module. -/
structure Draft where
  scope : Scope := []
  /-- What messages call things, in the order of their indices. -/
  titles : List (Space × Nat × String) := []
  types : List TypeDef := []
  imports : List (String × String × DraftImport) := []
  funcs : List DraftFunc := []
  /-- Tables, perhaps with what every element is at first. -/
  tables : List (TableForm × Option Written) := []
  /-- Memories, none where no module here can have it. -/
  memories : List (Option MemoryType) := []
  globals : List (GlobalForm × Written) := []
  tags : List TypeUse := []
  exports : List (String × Space × Target) := []
  starts : List Target := []
  elems : List (DraftMode × DraftItems) := []
  datas : List (DraftMode × List UInt8) := []
  customs : List Binary.CustomSection := []
  /-- Whether something is written in a way that no module here can have. -/
  foreign : Bool := false
  deriving Repr, Inhabited

/-- What stands in front of a thing that may be exported and imported. -/
structure Header where
  label : Label
  exports : List String
  imported : Option (String × String)
  deriving DecidableEq, Repr, Inhabited

/-- The space that a keyword names. -/
def spaceOf? : String → Option Space
  | "func" => some (.item .function)
  | "table" => some (.item .table)
  | "memory" => some (.item .memory)
  | "global" => some (.item .global)
  | "tag" => some .tag
  | _ => none

namespace Reader

def header : Reader Header := do
  let l ← label
  let exports ← acceptAll (Sexpr.under? "export")
  let exports ← exports.mapM (within text)
  let imported ← inList? "import" do
    let module ← text
    return (module, ← text)
  return ⟨l, exports, imported⟩

/-- Variables in lists at the front. -/
def localVars : Reader (List (Label × ValueType)) := do
  let groups ← acceptAll (Sexpr.under? "local")
  return (← groups.mapM (within labelledTypes)).flatten

/-- What is imported into a space. -/
def importOf : Space → Reader DraftImport
  | .item .table => return .table (← tableForm)
  | .item .memory => return .memory (← memoryType?)
  | .item .global => return .global (← globalForm)
  | .tag => return .tag (← typeUse true)
  | _ => return .func (← typeUse true)

/-- The space that a list begins with, and what follows. -/
def spaced : Reader (Space × List Sexpr) :=
  expect "func, table, memory, global or tag" fun s => do
    let (w, items) ← s.headed?
    return (← spaceOf? w, items)

/-- What is imported, in a list of its own: its label, and whether no module here can have it as it
is written. Only functions may have a title other than their name. -/
def importDesc : Reader (Label × DraftImport × Bool) := do
  let (space, items) ← spaced
  within (do
    if space != .item .function then
      let name ← name?
      return ({ name }, ← importOf space, false)
    let l ← label
    match ← inList? "exact" (importOf space) with
    | some i => return (l, i, true)
    | none => return (l, ← importOf space, false)) items

/-- Several imports from one module: each with what it provides, or with what all of them provide
behind them. -/
def importGroup : Reader (List (String × Label × DraftImport)) := do
  let items ← acceptAll (Sexpr.under? "item")
  if items.isEmpty then throw (.expected "a string")
  if ← atEnd then
    items.mapM (within do
      let name ← text
      let (l, i, _) ← importDesc
      return (name, l, i))
  else
    let names ← items.mapM (within text)
    let (l, i, _) ← importDesc
    if l != {} then throw (.misplaced "name")
    return names.map (·, l, i)

/-- A list that holds instructions after a keyword, or is an instruction that holds its operands. -/
def writtenUnder (keyword : String) : Reader Written := do
  let s ← expect "a folded instruction" fun s => if s.headed?.isSome then some s else none
  return (s.under? keyword).elim (.single s) .sequence

/-- The instructions that are left. -/
def sequence : Reader Written := return .sequence (← remaining)

/-- Elements up to the end: functions, or references of a type. -/
def elements : Option ValueType → Reader DraftItems
  | none => return .funcs (← untilEnd target)
  | some type => return .exprs type (← untilEnd (writtenUnder "item"))

/-- The numbers of a list as bytes, the lowest byte first. -/
def numberBytes (keyword : String) : Reader (List UInt8) := do
  let each (bytes : Nat) (r : Reader Nat) : Reader (List UInt8) :=
    return (← untilEnd r).flatMap (Bytes.ofNat bytes)
  let int (bytes : Nat) : Reader (List UInt8) :=
    each bytes do return ((← integer (8 * bytes)) % (2 ^ (8 * bytes) : Nat)).toNat
  match keyword with
  | "i8" => int 1
  | "i16" => int 2
  | "i32" => int 4
  | "i64" => int 8
  | "f32" => each 4 (float Ieee.single)
  | "f64" => each 8 (float Ieee.double)
  | "v128" => each 16 (return (← vector).toNat)
  | w => throw (.unexpected w)

/-- Bytes up to the end, as strings and lists of numbers. -/
def bytes : Reader (List UInt8) := do
  let parts ← untilEnd do
    match ← accept? Sexpr.string? with
    | some bs => return bs
    | none =>
      let (w, items) ← expect "a string" Sexpr.headed?
      within (numberBytes w) items
  return parts.flatten

/-- When a segment is copied that goes to an offset in a thing, which may be left out. -/
def activeMode (target : Option Target) (keyword : String) : Reader DraftMode := do
  let named ← match target with
    | some t => pure (some t)
    | none => inList? keyword Reader.target
  return .active named (← writtenUnder "offset")

/-- When elements are copied, and whether it may be left out that they are functions: it may if the
table is not in a list of its own. -/
def elemMode : Reader (DraftMode × Bool) := do
  if ← keyword? "declare" then return (.declared, false)
  match ← get with
  | s :: _ =>
    if isInteger s then return (← activeMode (some (.number (← natural 32))) "table", true)
    if s.headed?.isSome ∧ (refType? s).isNone then return (← activeMode none "table", (s.under? "table").isNone)
    return (.passive, false)
  | [] => return (.passive, false)

/-- The type of elements that are references, none if they are functions. -/
def elemType? (mayLeaveOut : Bool) : Reader (Option ValueType) := do
  if ← keyword? "func" then return none
  match ← accept? refType? with
  | some t => return some t
  | none => if mayLeaveOut then return none else throw (.expected "func")

/-- Whether a table is given by its elements: then their type comes first, perhaps behind a width.
-/
def isInlineTable : List Sexpr → Bool
  | .word "shared" :: rest => isInlineTable rest
  | .word "i32" :: s :: _ | .word "i64" :: s :: _ | s :: _ => (refType? s).isSome
  | [] => false

/-- Whether a memory is given by its content, perhaps behind a width. -/
def isInlineMemory : List Sexpr → Bool
  | .word w :: .list _ :: _ => w == "i32" || w == "i64"
  | .list _ :: _ => true
  | _ => false

/-- The content of a memory that is given by it, and whether modules here can have the memory. -/
def inlineMemory : Reader (Bool × List UInt8) := do
  let wide ← keyword? "i64"
  if !wide then let _ ← keyword? "i32"
  let paged ← pageSize?
  let content ← within bytes (← expect "data" (Sexpr.under? "data"))
  return (!wide && paged.isNone, content)

end Reader

/-- The offset of what fills a thing from its beginning. -/
private def zeroOffset : Written := .sequence [.word "i32.const", .word "0"]

namespace Draft

/-- How many things of a space there are so far. -/
def count (d : Draft) (space : Space) : Nat :=
  (d.imports.filter fun i => i.2.2.space == space).length + match space with
    | .type => d.types.length
    | .item .function => d.funcs.length
    | .item .table => d.tables.length
    | .item .memory => d.memories.length
    | .item .global => d.globals.length
    | .tag => d.tags.length
    | .elem => d.elems.length
    | .data => d.datas.length
    | .localVar | .field _ => 0

/-- Names the next thing of a space. -/
def declare (d : Draft) (space : Space) (l : Label) : Except Fault Draft := do
  let i := d.count space
  return { d with
    scope := ← d.scope.declare space l.name i
    titles := d.titles ++ l.shown?.toList.map (space, i, ·) }

/-- Names and exports the next thing of a space. -/
def announce (d : Draft) (space : Space) (h : Header) : Except Fault Draft := do
  let i := d.count space
  let d ← d.declare space h.label
  return { d with exports := d.exports ++ h.exports.map (·, space, .number i) }

/-- Adds an import, in front of which nothing but tags may be defined. -/
def addImport (d : Draft) (names : String × String) (i : DraftImport) : Except Fault Draft :=
  if d.funcs.isEmpty && d.tables.isEmpty && d.memories.isEmpty && d.globals.isEmpty then
    .ok { d with imports := d.imports ++ [(names.1, names.2, i)] }
  else .error (.misplaced "import")

/-- Imports with their labels. -/
def addImports (d : Draft) (module : String) (items : List (String × Label × DraftImport)) :
    Except Fault Draft :=
  items.foldlM (fun d i => do (← d.declare i.2.2.space i.2.1).addImport (module, i.1) i.2.2) d

/-- Something imported that stands as a field of its own. Only functions keep a title other than
their name. -/
def importedField (d : Draft) (names : String × String) (space : Space) (h : Header) :
    Reader Draft := do
  let i ← Reader.importOf space
  let l : Label := if space = .item .function then h.label else { name := h.label.name }
  let d ← (d.announce space { h with label := l } : Except Fault Draft)
  (d.addImport names i : Except Fault Draft)

/-- A type with its name. -/
def typeField (d : Draft) (isGrouped : Bool) : Reader Draft := do
  let i := d.types.length
  let l ← Reader.label
  let t ← Reader.typeDef
  let d ← (d.declare .type l : Except Fault Draft)
  let scope ← (t.fields.zipIdx.foldlM (fun sc f => sc.declare (.field i) f.1 f.2) d.scope : Except Fault Scope)
  return { d with scope, types := d.types ++ [{ t with isGrouped }] }

/-- Types up to the end that may mention each other. -/
def groupField (d : Draft) : Reader Draft := do
  let types ← Reader.untilEnd (Reader.expect "type" (Sexpr.under? "type"))
  let d ← types.foldlM (fun d items => Reader.within (d.typeField true) items) d
  return { d with foreign := true }

def funcField (d : Draft) (h : Header) : Reader Draft := do
  let use ← Reader.typeUse true
  let locals ← Reader.localVars
  let code ← Reader.sequence
  let d ← (d.announce (.item .function) h : Except Fault Draft)
  return { d with funcs := d.funcs ++ [⟨use, locals, code⟩] }

/-- A table with limits, or with its elements, which then fill it. -/
def tableField (d : Draft) (h : Header) : Reader Draft := do
  let i := d.count (.item .table)
  let d ← (d.announce (.item .table) h : Except Fault Draft)
  if Reader.isInlineTable (← get) then
    let shared ← Reader.keyword? "shared"
    let wide ← Reader.keyword? "i64"
    if !wide then let _ ← Reader.keyword? "i32"
    let type ← Reader.refType
    let items ← Reader.expect "elem" (Sexpr.under? "elem")
    let exprs := items.head?.any fun s => s matches .list _
    let elems ← Reader.within (Reader.elements (if exprs then some type else none)) items
    let form : TableForm := ⟨type, elems.length, some elems.length, !shared && !wide⟩
    return { d with
      tables := d.tables ++ [(form, none)]
      elems := d.elems ++ [(.active (some (.number i)) zeroOffset, elems)] }
  else
    let form ← Reader.tableForm
    let init ← if ← Reader.atEnd then pure none else some <$> Reader.sequence
    return { d with tables := d.tables ++ [(form, init)] }

/-- A memory with limits, or with its content, which then fills it. -/
def memoryField (d : Draft) (h : Header) : Reader Draft := do
  let i := d.count (.item .memory)
  let d ← (d.announce (.item .memory) h : Except Fault Draft)
  if Reader.isInlineMemory (← get) then
    let (isPlain, bytes) ← Reader.inlineMemory
    let pages := (bytes.length + pageSize - 1) / pageSize
    return { d with
      memories := d.memories ++ [if isPlain then some ⟨pages, some pages, false⟩ else none]
      datas := d.datas ++ [(.active (some (.number i)) zeroOffset, bytes)] }
  else return { d with memories := d.memories ++ [← Reader.memoryType?] }

def globalField (d : Draft) (h : Header) : Reader Draft := do
  let form ← Reader.globalForm
  let code ← Reader.sequence
  let d ← (d.announce (.item .global) h : Except Fault Draft)
  return { d with globals := d.globals ++ [(form, code)] }

def tagField (d : Draft) (h : Header) : Reader Draft := do
  let use ← Reader.typeUse true
  let d ← (d.announce .tag h : Except Fault Draft)
  return { d with tags := d.tags ++ [use] }

/-- A function, table, memory, global or tag. -/
def itemField (d : Draft) (space : Space) : Reader Draft := do
  let h ← Reader.header
  match h.imported with
  | some names => d.importedField names space h
  | none =>
    match space with
    | .item .table => d.tableField h
    | .item .memory => d.memoryField h
    | .item .global => d.globalField h
    | .tag => d.tagField h
    | _ => d.funcField h

def elemField (d : Draft) : Reader Draft := do
  let d ← (d.declare .elem (← Reader.label) : Except Fault Draft)
  let (mode, mayLeaveOut) ← Reader.elemMode
  let type ← Reader.elemType? mayLeaveOut
  return { d with elems := d.elems ++ [(mode, ← Reader.elements type)] }

def dataField (d : Draft) : Reader Draft := do
  let d ← (d.declare .data (← Reader.label) : Except Fault Draft)
  let mode ← match ← get with
    | [] | .string _ :: _ => pure .passive
    | _ => Reader.activeMode ((← Reader.natural? 32).map .number) "memory"
  return { d with datas := d.datas ++ [(mode, ← Reader.bytes)] }

def exportField (d : Draft) : Reader Draft := do
  let name ← Reader.text
  let (space, items) ← Reader.spaced
  let target ← Reader.within Reader.target items
  return { d with exports := d.exports ++ [(name, space, target)] }

def importField (d : Draft) : Reader Draft := do
  let module ← Reader.text
  match ← get with
  | .string _ :: _ =>
    let name ← Reader.text
    let (l, i, foreign) ← Reader.importDesc
    let d ← (d.addImports module [(name, l, i)] : Except Fault Draft)
    return { d with foreign := d.foreign || foreign }
  | _ =>
    let d ← (d.addImports module (← Reader.importGroup) : Except Fault Draft)
    return { d with foreign := true }

/-- A field, the keyword of which was read. -/
def field (d : Draft) (keyword : String) : Reader Draft := do
  match keyword with
  | "type" => d.typeField false
  | "rec" => d.groupField
  | "import" => d.importField
  | "export" => d.exportField
  | "start" => return { d with starts := d.starts ++ [← Reader.target] }
  | "elem" => d.elemField
  | "data" => d.dataField
  | w =>
    match spaceOf? w with
    | some space => d.itemField space
    | none => throw (.unexpected w)

/-- The draft of a module with these fields. -/
def ofFields (fields : List Sexpr) : Except Fault Draft :=
  fields.foldlM (fun d s => match s with
    | .list (.word w :: items) => (Reader.within (d.field w) items).run' []
    | .note id items => return { d with customs := d.customs ++ [← sectionOf id items] }
    | _ => .error (.expected "a field")) {}

end Draft

end WasmEmbed.Wat
