import WasmEmbed.Wat.Finish
/-!
Modules in the text format. A text may also hold a binary module in strings, or be correct and yet
stand for no module that can be compiled, since it uses what no module here can have.
-/

namespace WasmEmbed.Wat

/-- The keywords that fields of components begin with, apart from components and what belongs to the
core. -/
def componentFields : List String :=
  ["instance", "alias", "type", "canon", "func", "import", "export", "start", "value"]

/-- The keywords behind `core` in fields of components, apart from modules. -/
def coreFields : List String := ["instance", "type", "func", "rec"]

namespace Reader

/-- The bytes that strings behind a keyword hold. -/
def binary? : Reader (Option (List UInt8)) := do
  if ← keyword? "binary" then some <$> strings else return none

/-- The bytes of the module with the fields that are left. -/
def fields (title : Option String) : Reader (Option (List UInt8)) := do
  let d ← (Draft.ofFields (← remaining) : Except Fault Draft)
  (d.finish title : Except Fault _)

/-- What stands in a list for a module. -/
def module : Reader (Option (List UInt8)) := do
  let l ← label
  match ← binary? with
  | some bytes => return some bytes
  | none => fields l.shown?

/-- A field of a component, of which only the modules and components are looked into, less than
`fuel` deep. -/
def componentField : Nat → Reader Unit
  | 0 => throw .malformedText
  | fuel + 1 => do
    match ← accept? some with
    | some (.list (.word "core" :: .word "module" :: items)) =>
      within (do
        let h ← header
        if h.imported.isSome then let _ ← remaining
        else let _ ← fields none) items
    | some (.list (.word "core" :: .word w :: _)) =>
      if !coreFields.contains w then throw (.unexpected w)
    | some (.list (.word "component" :: items)) =>
      within (do
        let h ← header
        if h.imported.isSome then let _ ← remaining
        else let _ ← untilEnd (componentField fuel)) items
    | some (.list (.word w :: _)) => if !componentFields.contains w then throw (.unexpected w)
    | some (.note id items) => let _ ← (sectionOf id items : Except Fault Binary.CustomSection)
    | _ => throw (.expected "a field")

/-- What stands in a list for a component. No module is one, unless the list holds bytes. -/
def component : Reader (Option (List UInt8)) := do
  let _ ← label
  match ← binary? with
  | some bytes => return some bytes
  | none =>
    let _ ← untilEnd (componentField (1 + weight (← get)))
    return none

/-- What a whole text stands for: a list with a module or a component in it, or the fields of a
module alone. -/
def source : Reader (Option (List UInt8)) := do
  match ← inList? "module" module with
  | some m => return m
  | none =>
    match ← inList? "component" component with
    | some c => return c
    | none => fields none

end Reader

/-- The bytes of a module that no reader accepts: it has a section that declares exceptions, which
no module here can have. -/
def unusable : List UInt8 := Binary.magic ++ Binary.version ++ [13, 0]

/-- The bytes of the module that a text stands for. -/
def assemble (text : String) : Except Fault (List UInt8) := do
  match trees? text with
  | none => throw .malformedText
  | some trees => return (← (Reader.within Reader.source trees).run' []).getD unusable

end WasmEmbed.Wat
