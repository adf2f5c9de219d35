import WasmEmbed.Binary.Section
import WasmEmbed.Wat.Reader
/-!
Annotations that stand for sections: bytes under a title, what a module was made with, and what its
linking at run time needs.
-/

namespace WasmEmbed.Wat

open WasmEmbed.Binary (CustomSection Place putNat putName putItems putSized)

/-- The names of standard sections with their numbers. -/
def sectionNames : List (String × UInt8) :=
  [("type", 1), ("import", 2), ("func", 3), ("table", 4), ("memory", 5), ("tag", 13), ("global", 6), ("export", 7),
    ("start", 8), ("elem", 9), ("code", 10), ("data", 11)]

namespace Reader

/-- Where a section stands: at an end of the module, or beside a standard section. -/
def place : Reader Place := do
  let isBefore ← keyword? "before"
  if !isBefore && !(← keyword? "after") then throw (.expected "before or after")
  if ← keyword? (if isBefore then "first" else "last") then return if isBefore then .first else .last
  let id ← expect "a section" fun s => s.word?.bind fun w => sectionNames.lookup w
  return if isBefore then .before id else .after id

/-- A section with its bytes. -/
def customSection : Reader CustomSection := do
  let title ← text
  let place ← match ← accept? fun s => match s with
      | .list items => some items
      | _ => none with
    | some items => within place items
    | none => pure .last
  return ⟨title, place, ← strings⟩

/-- What a module was made with: languages, kits and tools, each with its version. -/
def producers : Reader CustomSection := do
  let kinds := ["language", "sdk", "processed-by"]
  let uses ← untilEnd do
    let (kind, items) ← expect "a producer" fun s => s.headed?.filter fun h => kinds.contains h.1
    within (do
      let name ← text
      return (kind, putName name ++ putName (← text))) items
  let parts := kinds.filterMap fun kind =>
    let ofKind := (uses.filter (·.1 == kind)).map (·.2)
    if ofKind.isEmpty then none else some (putName kind ++ putItems ofKind)
  return ⟨"producers", .last, putItems parts⟩

/-- The properties of a symbol, each with its bit. -/
def symbolFlags : List (String × Nat) :=
  [("binding-weak", 0), ("binding-local", 1), ("visibility-hidden", 2), ("undefined", 4), ("exported", 5),
    ("explicit-name", 6), ("no-strip", 7), ("tls", 8), ("absolute", 9)]

/-- Properties of a symbol up to the end, as the sum of their bits. -/
def flags : Reader (List UInt8) := do
  let bits ← untilEnd (expect "a property" fun s => s.word?.bind fun w => symbolFlags.lookup w)
  return putNat (bits.foldl (fun n bit => n ||| 1 <<< bit) 0)

/-- What linking needs. What is said of one symbol after the other makes up one part. -/
inductive LinkingPart where
  | whole (id : UInt8) (content : List UInt8)
  | symbol (id : UInt8) (content : List UInt8)
  deriving DecidableEq, Repr, Inhabited

/-- A size and an alignment under a keyword, 0 if they are left out. -/
def extent (keyword : String) : Reader (List UInt8) := do
  let given ← inList? keyword do
    let size ← natural 32
    return putNat size ++ putNat (← natural 32)
  return given.getD [0, 0]

def linkingPart : Reader LinkingPart := do
  let (w, items) ← expect "a part" Sexpr.headed?
  let names : Reader (List UInt8) := return putItems ((← untilEnd text).map putName)
  within (match w with
    | "mem-info" => do
      let memory ← extent "memory"
      return .whole 1 (memory ++ (← extent "table"))
    | "needed" => return .whole 2 (← names)
    | "export-info" => do
      let name ← text
      return .symbol 3 (putName name ++ (← flags))
    | "import-info" => do
      let module ← text
      let name ← text
      return .symbol 4 (putName module ++ putName name ++ (← flags))
    | "runtime-path" => return .whole 5 (← names)
    | w => throw (.unexpected w)) items

/-- Parts as bytes, after the symbols that make up a part so far, the last first. -/
def putLinking : Option (UInt8 × List (List UInt8)) → List LinkingPart → List UInt8
  | waiting, [] => put waiting
  | waiting, .whole id content :: rest =>
    put waiting ++ id :: (putSized content ++ putLinking none rest)
  | some (id, symbols), .symbol other content :: rest =>
    if id = other then putLinking (some (id, content :: symbols)) rest
    else put (some (id, symbols)) ++ putLinking (some (other, [content])) rest
  | none, .symbol id content :: rest => putLinking (some (id, [content])) rest
where
  put (waiting : Option (UInt8 × List (List UInt8))) : List UInt8 :=
    waiting.elim [] fun w => w.1 :: putSized (putItems w.2.reverse)

def linking : Reader CustomSection := do
  return ⟨linkingNote, .first, putLinking none (← untilEnd linkingPart)⟩

end Reader

/-- The section that an annotation stands for. -/
def sectionOf (id : String) (items : List Sexpr) : Except Fault CustomSection :=
  let reader : Option (Reader CustomSection) :=
    if id == "custom" then some Reader.customSection
    else if id == "producers" then some Reader.producers
    else if id == linkingNote then some Reader.linking
    else none
  match reader with
  | some r => (Reader.within r items).run' []
  | none => .error (.unexpected id)

end WasmEmbed.Wat
