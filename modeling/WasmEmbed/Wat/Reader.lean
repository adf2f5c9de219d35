import WasmEmbed.Code.Artifact
import WasmEmbed.Wat.Number
import WasmEmbed.Wat.Type
/-!
Readers of trees: each takes what it needs from the front of a list and leaves the rest. Types are
read here, since they mention nothing but names of other types.
-/

namespace WasmEmbed.Wat

/-- Takes trees from the front of a list. -/
abbrev Reader := StateT (List Sexpr) (Except Fault)

namespace Reader

/-- The first tree as what it stands for, if it stands for anything of the kind. -/
def accept? {α : Type} (p : Sexpr → Option α) : Reader (Option α) := do
  match ← get with
  | s :: rest =>
    match p s with
    | some a =>
      set rest
      return some a
    | none => return none
  | [] => return none

/-- What trees at the front stand for, as long as they stand for anything of the kind. -/
def acceptAll {α : Type} (p : Sexpr → Option α) : Reader (List α) := do
  let items ← get
  set (items.dropWhile fun s => (p s).isSome)
  return (items.takeWhile fun s => (p s).isSome).filterMap p

def expect {α : Type} (what : String) (p : Sexpr → Option α) : Reader α := do
  match ← accept? p with
  | some a => return a
  | none => throw (.expected what)

/-- Whether nothing is left. -/
def atEnd : Reader Bool := return (← get).isEmpty

/-- Refuses trees that are left. -/
def done : Reader Unit := do
  if !(← atEnd) then throw (.unexpected "element")

/-- Runs a reader on other trees, which it has to use up. -/
def within {α : Type} (r : Reader α) (items : List Sexpr) : Reader α := do
  let outer ← get
  set items
  let a ← r
  done
  set outer
  return a

/-- The trees that are left. -/
def remaining : Reader (List Sexpr) := do
  let items ← get
  set ([] : List Sexpr)
  return items

/-- Whether the first tree is a keyword, which is taken. -/
def keyword? (w : String) : Reader Bool :=
  return (← accept? fun s => s.word?.filter (· == w)).isSome

/-- What a list that begins with a keyword holds, if it comes first. -/
def inList? {α : Type} (keyword : String) (r : Reader α) : Reader (Option α) := do
  (← accept? (Sexpr.under? keyword)).mapM (within r)

def name? : Reader (Option String) := accept? Sexpr.name?

/-- A string that is text. -/
def text : Reader String := do
  match textOf? (← expect "a string" Sexpr.string?) with
  | some s => return s
  | none => throw .malformedText

/-- What follows the name of a thing, if a title does. -/
def title? : Reader (Option String) := do (← accept? (Sexpr.annotating? "name")).mapM (within text)

def label : Reader Label := do
  let name ← name?
  return ⟨name, ← title?⟩

/-- Strings up to the end, one after the other. -/
def strings : Reader (List UInt8) := do
  match (← remaining).mapM Sexpr.string? with
  | some parts => return parts.flatten
  | none => throw (.expected "a string")

/-- Whether a tree is an integer. -/
def isInteger : Sexpr → Bool
  | .word w => (whole? w).isSome
  | _ => false

def natural? (bits : Nat) : Reader (Option Nat) := do
  match ← accept? fun s => if isInteger s then s.word? else none with
  | some w => return some (← (Wat.natural bits w : Except Fault Nat))
  | none => return none

def natural (bits : Nat) : Reader Nat := do
  match ← natural? bits with
  | some n => return n
  | none => throw (.expected "a number")

/-- The number of a lane, without any sign. -/
def lane : Reader Nat := do
  let w ← expect "a lane" Sexpr.word?
  if w.startsWith "+" then throw (.unexpected w)
  Wat.natural 8 w

def integer (bits : Nat) : Reader Int := do Wat.integer bits (← expect "an integer" Sexpr.word?)

def float (f : Ieee.Format) : Reader Nat := do Wat.float f (← expect "a number" Sexpr.word?)

/-- Whether a tree means a thing, by its index or by its name. -/
def isTarget (s : Sexpr) : Bool := s.name?.isSome || isInteger s

def target? : Reader (Option Target) := do
  match ← name? with
  | some s => return some (.name s)
  | none => return (← natural? 32).map .number

def target : Reader Target := do
  match ← target? with
  | some t => return t
  | none => throw (.expected "an index")

/-- The general kinds of what references refer to, each with the short name of the type of
references to it. -/
def heapNames : List (String × String) :=
  [("func", "funcref"), ("func", "anyfunc"), ("extern", "externref"), ("any", "anyref"), ("eq", "eqref"),
    ("i31", "i31ref"), ("struct", "structref"), ("array", "arrayref"), ("exn", "exnref"), ("cont", "contref"),
    ("none", "nullref"), ("nofunc", "nullfuncref"), ("noextern", "nullexternref"), ("noexn", "nullexnref"),
    ("nocont", "nullcontref")]

/-- The index or the name that a tree is, if the index fits into 32 bits. -/
def targetOf? (s : Sexpr) : Option Target := ((within target [s]).run' []).toOption

/-- What references refer to. -/
def heapType? : Sexpr → Option HeapType
  | .list [.word "shared", .word w] =>
    if heapNames.any (·.1 == w) then some (.general true w) else none
  | .list [.word "exact", s] => (targetOf? s).map (.defined true)
  | s =>
    match targetOf? s, s with
    | some t, _ => some (.defined false t)
    | none, .word w => if heapNames.any (·.1 == w) then some (.general false w) else none
    | none, _ => none

/-- References to the general kind that a word is short for. -/
private def shortRefType? (isShared : Bool) (w : String) : Option ValueType :=
  (heapNames.find? (·.2 == w)).map fun r => .ref true (.general isShared r.1)

def refType? : Sexpr → Option ValueType
  | .word w => shortRefType? false w
  | .list [.word "ref", .word "null", heap] => (heapType? heap).map (.ref true)
  | .list [.word "ref", heap] => (heapType? heap).map (.ref false)
  | .list [.word "shared", .word w] => shortRefType? true w
  | _ => none

def valType? : Sexpr → Option ValueType
  | .word "i32" => some (.number .i32)
  | .word "i64" => some (.number .i64)
  | .word "f32" => some (.number .f32)
  | .word "f64" => some (.number .f64)
  | .word "v128" => some (.number .v128)
  | s => refType? s

def heapType : Reader HeapType := expect "a heap type" heapType?

def refType : Reader ValueType := expect "a reference type" refType?

def valType : Reader ValueType := expect "a value type" valType?

/-- Types up to the end, or one type with a label. -/
def labelledTypes : Reader (List (Label × ValueType)) := do
  let l ← label
  if l = {} then return (← acceptAll valType?).map ({}, ·) else return [(l, ← valType)]

/-- The parameters and results that lists at the front give. No parameters follow a result. -/
def signature? (labelled : Bool) : Reader (Option Signature) := do
  let parts ← acceptAll fun s =>
    ((s.under? "param").map (true, ·)).or ((s.under? "result").map (false, ·))
  if parts.isEmpty then return none
  some <$> parts.foldlM part {}
where
  part (s : Signature) (p : Bool × List Sexpr) : Reader Signature := do
    if p.1 then
      if !s.results.isEmpty then throw (.misplaced "param")
      let ts ← within (if labelled then labelledTypes else do return (← acceptAll valType?).map ({}, ·)) p.2
      return { s with params := s.params ++ ts }
    else return { s with results := s.results ++ (← within (acceptAll valType?) p.2) }

def typeUse (labelled : Bool) : Reader TypeUse := do
  let target ← inList? "type" target
  return ⟨target, ← signature? labelled⟩

/-- A lower and perhaps an upper bound, and whether they are as wide as addresses of 64 bits. -/
def limits : Reader (Bool × Nat × Option Nat) := do
  let wide ← keyword? "i64"
  if !wide then let _ ← keyword? "i32"
  let minimum ← natural 64
  return (wide, minimum, ← natural? 64)

/-- A size of pages, if one is given. -/
def pageSize? : Reader (Option Nat) :=
  inList? "pagesize" do
    let size ← natural 32
    if size = 0 ∨ 2 ^ size.log2 ≠ size then throw (.unexpected "page size")
    return size

end Reader

/-- The limits and the elements of a table. -/
structure TableForm where
  element : ValueType
  minimum : Nat
  maximum : Option Nat
  /-- Whether modules here can have it, apart from its elements. -/
  isPlain : Bool
  deriving DecidableEq, Repr, Inhabited

namespace TableForm

/-- The type of tables, if modules here can have them. -/
def type? (t : TableForm) : Option TableType := do
  if !t.isPlain then failure
  return ⟨← t.element.type?, t.minimum, t.maximum⟩

end TableForm

/-- The content of a variable, and whether it may change. -/
structure GlobalForm where
  content : ValueType
  isMutable : Bool
  isShared : Bool
  deriving DecidableEq, Repr, Inhabited

/-- The type of variables, if modules here can have them. -/
def GlobalForm.type? (g : GlobalForm) : Option GlobalType := do
  if g.isShared then failure
  return ⟨← g.content.type?, g.isMutable⟩

namespace Reader

def tableForm : Reader TableForm := do
  let shared ← keyword? "shared"
  let (wide, minimum, maximum) ← limits
  return ⟨← refType, minimum, maximum, !shared && !wide⟩

/-- The type of a memory, if modules here can have it. -/
def memoryType? : Reader (Option MemoryType) := do
  let (wide, minimum, maximum) ← limits
  let shared ← keyword? "shared"
  let paged ← pageSize?
  return if wide || shared || paged.isSome then none else some ⟨minimum, maximum, false⟩

def globalForm : Reader GlobalForm := do
  match ← accept? fun s => ((s.under? "shared").map (true, ·)).or ((s.under? "mut").map (false, ·)) with
  | some (true, items) =>
    within (do
      let isMutable ← keyword? "mut"
      return ⟨← valType, isMutable, true⟩) items
  | some (false, items) => return ⟨← within valType items, true, false⟩
  | none => return ⟨← valType, false, false⟩

/-- A type of fields, perhaps one that may change. Some types stand only here. -/
def fieldType : Reader (List Target) := do
  match ← accept? (Sexpr.under? "mut") with
  | some items => within storageType items
  | none => storageType
where
  storageType : Reader (List Target) := do
    match ← accept? fun s => s.word?.filter fun w => w == "i8" || w == "i16" with
    | some _ => return []
    | none => return (← valType).targets

/-- Something up to the end. -/
def untilEnd {α : Type} (r : Reader α) : Reader (List α) := do
  let count := (← get).length
  go count
where
  go : Nat → Reader (List α)
    | 0 => return []
    | n + 1 => do
      if ← atEnd then return []
      let a ← r
      return a :: (← go n)

/-- The fields of a structure: their names, with the types that they mention. -/
def structFields : Reader (List (Option String × List Target)) := do
  let parts ← untilEnd do
    match ← accept? (Sexpr.under? "field") with
    | none => return [(none, ← fieldType)]
    | some items =>
      within (do
        match ← name? with
        | some s => return [(some s, ← fieldType)]
        | none => return (← untilEnd fieldType).map (none, ·)) items
  return parts.flatten

/-- The list that comes first as what a type is, `fuel` bounding how deep it is. -/
def composite : Nat → Reader TypeDef
  | 0 => throw .malformedText
  | fuel + 1 => do
    match ← expect "a type" Sexpr.headed? with
    | ("func", items) =>
      let s := (← within (signature? true) items).getD {}
      return { signature := some s, mentioned := s.targets, isPlain := true }
    | ("struct", items) =>
      let fs ← within structFields items
      return { signature := none, fields := fs.map (·.1), mentioned := fs.flatMap (·.2), isPlain := false }
    | ("array", items) =>
      return { signature := none, mentioned := ← within fieldType items, isPlain := false }
    | ("cont", items) =>
      return { signature := none, mentioned := [← within target items], isPlain := false }
    | ("shared", items) => return { (← within (composite fuel) items) with isPlain := false }
    | (w, items) =>
      if w == "descriptor" ∨ w == "describes" then
        within (do
          let other ← target
          let t ← composite fuel
          return { t with mentioned := other :: t.mentioned, isPlain := false }) items
      else throw (.unexpected w)

/-- A type definition behind its name. -/
def typeDef : Reader TypeDef := do
  let fuel := 1 + weight (← get)
  match ← accept? (Sexpr.under? "sub") with
  | none => composite fuel
  | some items =>
    within (do
      let isFinal ← keyword? "final"
      let parent ← target?
      let t ← composite fuel
      return { t with mentioned := parent.toList ++ t.mentioned, isPlain := t.isPlain && isFinal && parent.isNone }) items

end Reader

end WasmEmbed.Wat
