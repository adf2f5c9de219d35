import WasmEmbed.Binary.Writer
/-!
Writes whole modules: the standard sections in their order, and sections of the writer's own choice
around them, such as the one that holds names.
-/

namespace WasmEmbed.Binary

/-- Where a section of the writer's own choice stands. -/
inductive Place where
  | first
  /-- In front of a standard section, or of where it would stand. -/
  | before (id : UInt8)
  | after (id : UInt8)
  | last
  deriving DecidableEq, Repr, Inhabited

/-- A section of the writer's own choice. -/
structure CustomSection where
  title : String
  place : Place
  content : List UInt8
  deriving DecidableEq, Repr, Inhabited

def CustomSection.bytes (s : CustomSection) : List UInt8 :=
  0 :: putSized (putName s.title ++ s.content)

/-- A standard section, which is left out if it has no content. -/
structure Section where
  id : UInt8
  content : Option (List UInt8)
  deriving DecidableEq, Repr, Inhabited

namespace Section

/-- A section that lists things. -/
def ofItems (id : UInt8) (items : List (List UInt8)) : Section :=
  ⟨id, if items.isEmpty then none else some (putItems items)⟩

def bytes (s : Section) : List UInt8 := s.content.elim [] fun content => s.id :: putSized content

end Section

/-- The bytes of the sections that stand in a place. -/
def customsAt (customs : List CustomSection) (place : Place) : List UInt8 :=
  (customs.filter (·.place == place)).flatMap (·.bytes)

/-- A module as bytes. -/
def putModule (customs : List CustomSection) (sections : List Section) : List UInt8 :=
  magic ++ version ++ customsAt customs .first
    ++ sections.flatMap (fun s => customsAt customs (.before s.id) ++ s.bytes ++ customsAt customs (.after s.id))
    ++ customsAt customs .last

/-- Names of things by index. -/
abbrev NameMap := List (Nat × String)

/-- What messages call the things in a module. -/
structure Names where
  module : Option String := none
  funcs : NameMap := []
  /-- Names inside of each function: of its variables and of its blocks, counted from its
  beginning. -/
  locals : List (Nat × NameMap) := []
  labels : List (Nat × NameMap) := []
  types : NameMap := []
  tables : NameMap := []
  memories : NameMap := []
  globals : NameMap := []
  elems : NameMap := []
  datas : NameMap := []
  deriving DecidableEq, Repr, Inhabited

def putNameMap (names : NameMap) : List UInt8 :=
  putVector (fun n => putNat n.1 ++ putName n.2) names

namespace Names

/-- A part with its number in front, unless it names nothing. -/
private def part (id : UInt8) {α : Type} (put : List α → List UInt8) (names : List α) :
    List UInt8 :=
  if names.isEmpty then [] else id :: putSized (put names)

/-- The parts in the order of their numbers. -/
def bytes (n : Names) : List UInt8 :=
  let within := putVector fun f : Nat × NameMap => putNat f.1 ++ putNameMap f.2
  n.module.elim [] (fun s => 0 :: putSized (putName s))
    ++ part 1 putNameMap n.funcs ++ part 2 within (n.locals.filter (! ·.2.isEmpty))
    ++ part 3 within (n.labels.filter (! ·.2.isEmpty)) ++ part 4 putNameMap n.types ++ part 5 putNameMap n.tables
    ++ part 6 putNameMap n.memories ++ part 7 putNameMap n.globals ++ part 8 putNameMap n.elems
    ++ part 9 putNameMap n.datas

/-- The title of the section that holds names. -/
def title : String := "name"

/-- The section that holds the names, behind all others, unless there are none. -/
def customSection? (n : Names) : Option CustomSection :=
  if n.bytes.isEmpty then none else some ⟨title, .last, n.bytes⟩

end Names

/-- The section that says of branches whether they are likely: for each function the places in its
body. -/
def branchHints? (hints : List (Nat × List (Nat × UInt8))) : Option CustomSection :=
  let hints := hints.filter (! ·.2.isEmpty)
  let put (h : Nat × UInt8) : List UInt8 := putNat h.1 ++ [1, h.2]
  if hints.isEmpty then none
  else some ⟨"metadata.code.branch_hint", .before 10, putVector (fun f => putNat f.1 ++ putVector put f.2) hints⟩

end WasmEmbed.Binary
