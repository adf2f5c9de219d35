import WasmEmbed.Config.Record
import WasmEmbed.Toml.Document
/-!
Configurations as tables of a document. A table gives fields by name and is read in the order of the
document; an array gives the first fields in the order of their declaration, and what it holds
beyond them does not count. A problem knows where in the text it is.
-/

namespace WasmEmbed

open Toml (Node Span Entries)

/-- A problem, and where it is. -/
structure PlacedProblem where
  span : Option Span
  problem : Problem
  deriving Repr, Inhabited

/-- A problem is where it was found, or else where the value around it is. -/
def placing {α : Type} (span : Option Span) (r : Except PlacedProblem α) : Except PlacedProblem α :=
  r.mapError fun p => { p with span := p.span.or span }

namespace Toml.Node

/-- What stands there, for messages. -/
def found : Node → Found
  | string _ s => .string s
  | integer _ n => .integer n
  | float _ bits => .float bits
  | bool _ b => .bool b
  | datetime _ => .map
  | array .. | tables _ => .sequence
  | table .. => .map

private def refuse {α : Type} (n : Node) (p : Problem) : Except PlacedProblem α :=
  .error ⟨n.span?, p⟩

/-- A truth value. -/
def flag (n : Node) : Except PlacedProblem Bool :=
  match n with
  | bool _ b => .ok b
  | n => n.refuse (.invalidType n.found "a boolean")

/-- An unsigned 64-bit integer. -/
def word (expected : String) (n : Node) : Except PlacedProblem Nat :=
  match n with
  | integer span i => (wordOf i expected).mapError fun p => ⟨some span, p⟩
  | n => n.refuse (.invalidType n.found expected)

/-- The contents of a variant: nothing. -/
def nothing (n : Node) : Except PlacedProblem Unit :=
  match n with
  | table _ _ es => if es.isEmpty then .ok () else n.refuse (.notEmpty "table")
  | array _ items => if items.isEmpty then .ok () else n.refuse (.notEmpty "table")
  | tables items => if items.isEmpty then .ok () else n.refuse (.notEmpty "array")
  | n => n.refuse (.notTable n.kind)

/-- A level: its name, or a table whose only key is the name and has nothing below it. -/
def level (n : Node) : Except PlacedProblem OptLevel :=
  match n with
  | string span s => (levelOf s).mapError fun p => ⟨some span, p⟩
  | table _ _ [(key, contents)] => do
    let l ← (levelOf key.name).mapError fun p => ⟨some key.span, p⟩
    let () ← placing n.span? contents.nothing
    return l
  | table _ _ es => n.refuse (.notSingle !es.isEmpty)
  | n => n.refuse .notVariant

/-- How field values are read from documents. -/
def readers : ValueReaders (ReaderT Node (Except PlacedProblem)) where
  flag := flag
  size := word "usize"
  level := level

/-- The field that a date has where a table is expected. -/
def dateField : String := "$__toml_private_datetime"

/-- The settings that entries make, in order. Names stand for fields by `field`, which reads a
value. -/
def settings {β : Type} (field : String → Except Problem (Node → Except PlacedProblem β)) :
    Entries → Except PlacedProblem (List β)
  | [] => .ok []
  | (key, n) :: rest => do
    let read ← (field key.name).mapError fun p => ⟨some key.span, p⟩
    let b ← placing (n.span?.or (some key.span)) (read n)
    return b :: (← settings field rest)

/-- The settings that items make of the leading fields. -/
def settingsOfItems {β : Type} :
    List (Node → Except PlacedProblem β) → List Node → Except PlacedProblem (List β)
  | read :: reads, n :: ns => do
    let b ← read n
    return b :: (← settingsOfItems reads ns)
  | _, _ => .ok []

/-- The settings that a value makes of the fields of a record. -/
def record {β : Type} (expected : String) (fields : List (Node → Except PlacedProblem β))
    (field : String → Except Problem (Node → Except PlacedProblem β)) (n : Node) :
    Except PlacedProblem (List β) :=
  match n with
  | table _ _ es => settings field es
  | array _ items | tables items => settingsOfItems fields items
  | datetime span => do
    let _ ← (field dateField).mapError fun p => (⟨some span, p⟩ : PlacedProblem)
    return []
  | n => n.refuse (.invalidType n.found expected)

end Toml.Node

namespace Config

/-- Reads the value of the field with a name. -/
def tomlField (name : String) : Except Problem (Node → Except PlacedProblem Setting) :=
  match ConfigField.ofName? name with
  | some f => .ok (f.read Node.readers).run
  | none => .error (unknownConfigField name)

/-- Reads a configuration, valid or not. -/
def ofToml (n : Node) : Except PlacedProblem Config := do
  let settings ← n.record "struct Config" (ConfigField.all.map fun f => (f.read Node.readers).run) tomlField
  return ofSettings settings

end Config

namespace StoreConfig

private def readLimit (f : StoreField) (n : Node) : Except PlacedProblem Limit :=
  (f.read (m := ReaderT Node (Except PlacedProblem)) fun expected n => some <$> n.word expected).run n

private def tomlField (name : String) : Except Problem (Node → Except PlacedProblem Limit) :=
  match StoreField.ofName? name with
  | some f => .ok (readLimit f)
  | none => .error (unknownStoreField name)

/-- Reads the limits of a store. -/
def ofToml (n : Node) : Except PlacedProblem StoreConfig := do
  let limits ← n.record "struct StoreConfig" (StoreField.all.map readLimit) tomlField
  return limits.foldl set {}

end StoreConfig

end WasmEmbed
