import WasmEmbed.Module
import WasmEmbed.Store.Item
/-!
Tables of definitions for the imports of modules. A definition stands under a pair of names; a later
one replaces an earlier one. Linking finds a definition of the right type for every import, or says
which have none.
-/

namespace WasmEmbed

/-- What an import may be defined by. -/
inductive Definition (σ : Type) where
  | host (f : HostFunc σ)
  | item (i : Item)

variable {σ : Type}

def Definition.type : Definition σ → ExternType
  | host f => .func f.type
  | item i => i.type

/-- The number of the store that a definition lives in; a function of the host lives in none. -/
def Definition.store? : Definition σ → Option Nat
  | host _ => none
  | item i => some i.store.id

/-- Definitions by the names of a module and of a thing in it. -/
structure Imports (σ : Type) where
  entries : List ((String × String) × Definition σ) := []

namespace Imports

/-- The table with one definition set. -/
def insert (t : Imports σ) (module name : String) (d : Definition σ) : Imports σ :=
  ⟨((module, name), d) :: t.entries.filter fun e => e.1 != (module, name)⟩

def defineFunc (t : Imports σ) (module name : String) (f : HostFunc σ) : Imports σ :=
  t.insert module name (.host f)

def define (t : Imports σ) (module name : String) (i : Item) : Imports σ :=
  t.insert module name (.item i)

/-- Defines several things of one module by their names. -/
def defineAll (t : Imports σ) (module : String) (items : List (String × Item)) : Imports σ :=
  items.foldl (fun t e => t.define module e.1 e.2) t

/-- The definition under a pair of names. -/
def get? (t : Imports σ) (module name : String) : Option (Definition σ) :=
  (t.entries.find? fun e => e.1 == (module, name)).map (·.2)

def size (t : Imports σ) : Nat := t.entries.length

def isEmpty (t : Imports σ) : Bool := t.entries.isEmpty

/-- What linking found so far. -/
structure Links (σ : Type) where
  missing : List String := []
  mismatched : List String := []
  found : List (Definition σ) := []

/-- A type that differs from the one imported. -/
def mismatch (i : ImportType) (found : ExternType) : String :=
  i.path ++ " (expected " ++ i.type.describe ++ ", found " ++ found.describe ++ ")"

/-- Looks the imports up one by one. A definition that lives in another store ends the search. -/
def search (t : Imports σ) (store : Nat) : List ImportType → Except Error (Links σ)
  | [] => .ok {}
  | i :: rest =>
    match t.get? i.module i.name with
    | none => do
      let links ← t.search store rest
      return { links with missing := i.path :: links.missing }
    | some d =>
      if d.store?.any (· ≠ store) then .error (.storeMismatch "import")
      else do
        let links ← t.search store rest
        return if d.type = i.type then { links with found := d :: links.found }
          else { links with mismatched := mismatch i d.type :: links.mismatched }

/-- A definition for each import of a module, in order, for an instance in the store given. -/
def resolve (t : Imports σ) (store : Nat) (m : Module) : Except Error (List (Definition σ)) := do
  let links ← t.search store m.imports
  if links.missing.isEmpty ∧ links.mismatched.isEmpty then return links.found
  else throw (.link links.missing links.mismatched)

end Imports

/-- A function of the host as a debugging text shows it. -/
def HostFunc.debugText (f : HostFunc σ) : String :=
  "HostFunc \x7b ty: " ++ f.type.debugText ++ ", .. \x7d"

end WasmEmbed
