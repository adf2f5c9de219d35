import WasmEmbed.Binary.Code
/-!
Readers of whole modules: a header, then sections in a fixed order, each with its size in front.
Sections of the reader's own choice may stand anywhere; of them only the one that names functions is
looked into, and what is wrong in it only ends the naming.
-/

namespace WasmEmbed.Binary

open WasmEmbed.Code

/-- The bytes that every binary module starts with. -/
def magic : List UInt8 := [0x00, 0x61, 0x73, 0x6D]

/-- The bytes of the format's version. -/
def version : List UInt8 := [0x01, 0x00, 0x00, 0x00]

/-- How many things of the common kinds a module may have. -/
def maxItems : Nat := 1000000

def maxSegments : Nat := 100000

/-- How many tables, and how many memories, a module may have. -/
def maxStorages : Nat := 100

/-- How many elements a segment may have. -/
def maxElements : Nat := 10000000

/-- How many parameters, and how many results, a signature may have. -/
def maxArity : Nat := 1000

/-- A signature, perhaps marked as one that nothing refines, which goes without saying. -/
def funcType : Reader FuncType := do
  let first ← byte
  let form ← if first == 0x4F then do
      let supertypes ← u32
      if supertypes != 0 then throw (.disabled "subtypes")
      byte
    else pure first
  if form != 0x60 then throw (.unknownCode "type form" form.toNat)
  let params ← vector valType maxArity "parameters"
  return ⟨params, ← vector valType maxArity "results"⟩

/-- A least size and perhaps a greatest size. -/
def limits : Reader (Nat × Option Nat) := do
  match ← byte with
  | 0x00 => return (← u32, none)
  | 0x01 =>
    let minimum ← u32
    return (minimum, some (← u32))
  | b => throw (.unknownCode "limits" b.toNat)

def tableType : Reader TableType := do
  let kind ← refKind
  let (minimum, maximum) ← limits
  return ⟨.ref kind, minimum, maximum⟩

def memoryType : Reader MemoryType := do
  let (minimum, maximum) ← limits
  return ⟨minimum, maximum, false⟩

def globalType : Reader GlobalType := do
  let content ← valType
  match ← byte with
  | 0x00 => return ⟨content, false⟩
  | 0x01 => return ⟨content, true⟩
  | b => throw (.unknownCode "mutability" b.toNat)

def importEntry : Reader Import := do
  let module ← name
  let item ← name
  match ← byte with
  | 0x00 => return ⟨module, item, .func (← u32)⟩
  | 0x01 => return ⟨module, item, .table (← tableType)⟩
  | 0x02 => return ⟨module, item, .memory (← memoryType)⟩
  | 0x03 => return ⟨module, item, .global (← globalType)⟩
  | b => throw (.unknownCode "import" b.toNat)

def exportEntry : Reader Export := do
  let item ← name
  match ← byte with
  | 0x00 => return ⟨item, .function, ← u32⟩
  | 0x01 => return ⟨item, .table, ← u32⟩
  | 0x02 => return ⟨item, .memory, ← u32⟩
  | 0x03 => return ⟨item, .global, ← u32⟩
  | b => throw (.unknownCode "export" b.toNat)

def globalDef (referenceTypes : Bool) : Reader GlobalDef := do
  let type ← globalType
  return ⟨type, ← expr referenceTypes⟩

/-- The elements of a segment by index. -/
private def funcItems : Reader ElemItems := .funcs <$> vector u32 maxElements "elements"

/-- The elements of a segment by expression. Without reference types no expression denotes one. -/
private def exprItems (referenceTypes : Bool) (type : ValType) : Reader ElemItems := do
  let items ← vector (expr referenceTypes) maxElements "elements"
  if !referenceTypes ∧ !items.isEmpty then throw (.disabled "reference types")
  return .exprs type items

/-- The elements of a segment behind the only kind of elements that are given by index. -/
private def kindedItems : Reader ElemItems := do
  match ← byte with
  | 0x00 => funcItems
  | b => throw (.unknownCode "element kind" b.toNat)

/-- The elements of a segment behind their type. -/
private def typedItems (referenceTypes : Bool) : Reader ElemItems := do
  let kind ← refKind
  exprItems referenceTypes (.ref kind)

def elemSegment (referenceTypes : Bool) : Reader ElemSegment := do
  let flags ← u32
  match flags with
  | 0 =>
    let offset ← expr referenceTypes
    return ⟨← funcItems, .active none offset⟩
  | 1 => return ⟨← kindedItems, .passive⟩
  | 2 =>
    let table ← u32
    let offset ← expr referenceTypes
    return ⟨← kindedItems, .active (some table) offset⟩
  | 3 => return ⟨← kindedItems, .declared⟩
  | 4 =>
    let offset ← expr referenceTypes
    return ⟨← exprItems referenceTypes (.ref .func), .active none offset⟩
  | 5 => return ⟨← typedItems referenceTypes, .passive⟩
  | 6 =>
    let table ← u32
    let offset ← expr referenceTypes
    return ⟨← typedItems referenceTypes, .active (some table) offset⟩
  | 7 => return ⟨← typedItems referenceTypes, .declared⟩
  | n => throw (.unknownCode "element segment" n)

def dataSegment (referenceTypes : Bool) : Reader DataSegment := do
  let flags ← u32
  match flags with
  | 0 =>
    let offset ← expr referenceTypes
    return ⟨← take (← u32), .active none offset⟩
  | 1 => return ⟨← take (← u32), .passive⟩
  | 2 =>
    let memory ← u32
    let offset ← expr referenceTypes
    return ⟨← take (← u32), .active (some memory) offset⟩
  | n => throw (.unknownCode "data segment" n)

/-! ### Names of functions -/

/-- Names read until the count is reached or something is wrong, the last first. -/
def nameEntries : Nat → List (Nat × String) → List UInt8 → List (Nat × String) × Option (List UInt8)
  | 0, found, bs => (found, some bs)
  | n + 1, found, bs =>
    match (do let i ← u32; return (i, ← name) : Reader (Nat × String)) bs with
    | .ok (entry, rest) => nameEntries n (entry :: found) rest
    | .error _ => (found, none)

/-- The parts of a section of names: number 1 holds the names of functions, the others only must
begin well. Reading stops at the first part that does not. -/
def nameParts : Nat → List (Nat × String) → List UInt8 → List (Nat × String)
  | 0, found, _ => found
  | fuel + 1, found, bs =>
    match (do let id ← byte; let n ← u32; return (id, ← take n) : Reader (UInt8 × List UInt8)) bs with
    | .error _ => found
    | .ok ((id, part), rest) =>
      if 128 ≤ id then found
      else if id == 0 then
        match name part with
        | .ok (_, []) => nameParts fuel found rest
        | _ => found
      else if 12 ≤ id then nameParts fuel found rest
      else
        match u32 part with
        | .error _ => found
        | .ok (n, entries) =>
          if id != 1 then nameParts fuel found rest
          else
            match nameEntries n found entries with
            | (found, some []) => nameParts fuel found rest
            | (found, _) => found

/-- The names in a section of names, the last first. -/
def funcNames (bs : List UInt8) : List (Nat × String) := nameParts bs.length [] bs

/-! ### Sections -/

/-- Names of sections of proposals that were given up; a module with one of them is refused. -/
def withdrawnSections : List String := ["webidl-bindings", "wasm-interface-types"]

/-- Takes a section of the reader's own choice into account. Names are only given to functions known
so far. -/
def customSection (a : Artifact) : Reader Artifact := do
  let title ← name
  let content ← takeAll
  if withdrawnSections.contains title then throw (.disabled title)
  if title != "name" then return a
  let known := a.allFuncs.length
  return { a with names := (funcNames content).filter (fun n => n.1 < known) ++ a.names }

/-- The place of a section in their order. -/
def sectionRank? : UInt8 → Option Nat
  | 1 => some 1
  | 2 => some 2
  | 3 => some 3
  | 4 => some 4
  | 5 => some 5
  | 6 => some 6
  | 7 => some 7
  | 8 => some 8
  | 9 => some 9
  | 12 => some 10
  | 10 => some 11
  | 11 => some 12
  | _ => none

/-- The module with one more section. -/
def sectionContent (referenceTypes : Bool) (id : UInt8) (a : Artifact) : Reader Artifact := do
  match id with
  | 1 => return { a with types := ← vector funcType maxItems "types" }
  | 2 => return { a with imports := ← vector importEntry maxItems "imports" }
  | 3 => return { a with funcs := ← vector u32 maxItems "functions" }
  | 4 => return { a with tables := ← vector tableType maxStorages "tables" }
  | 5 => return { a with memories := ← vector memoryType maxStorages "memories" }
  | 6 => return { a with globals := ← vector (globalDef referenceTypes) maxItems "globals" }
  | 7 => return { a with exports := ← vector exportEntry maxItems "exports" }
  | 8 => return { a with start := some (← u32) }
  | 9 =>
    return { a with elems := ← vector (elemSegment referenceTypes) maxSegments "element segments" }
  | 12 => return { a with dataCount := some (← u32) }
  | 10 => return { a with bodies := ← vector (body referenceTypes) maxItems "bodies" }
  | 11 =>
    return { a with datas := ← vector (dataSegment referenceTypes) maxSegments "data segments" }
  | _ => throw (.unknownCode "section" id.toNat)

/-- All sections left, each of a higher rank than `last`. -/
def sections (referenceTypes : Bool) : Nat → Nat → Artifact → Reader Artifact
  | 0, _, a => return a
  | fuel + 1, last, a => do
    if ← atEnd then return a
    let id ← byte
    if id == 0 then
      let a ← sized "section" (customSection a)
      sections referenceTypes fuel last a
    else
      match sectionRank? id with
      | none => throw (.unknownCode "section" id.toNat)
      | some rank =>
        if rank ≤ last then throw .outOfOrder
        let a ← sized "section" (sectionContent referenceTypes id a)
        sections referenceTypes fuel rank a

/-- The module that bytes encode. Without reference types an indirect call cannot choose its
table. -/
def readModule (referenceTypes : Bool) (bs : List UInt8) : Except Fault Artifact := do
  let (header, rest) ← take 8 bs
  if header.take 4 != magic then throw (.unknownCode "magic number" 0)
  if header.drop 4 != version then throw (.unknownCode "version" 0)
  let (a, _) ← sections referenceTypes (rest.length + 1) 0 {} rest
  if a.funcs.length != a.bodies.length then throw (.inconsistent "function and code section")
  match a.dataCount with
  | some n => if n != a.datas.length then throw (.inconsistent "data count and data section")
  | none => pure ()
  return a

end WasmEmbed.Binary
