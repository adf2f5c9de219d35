import WasmEmbed.Type
import WasmEmbed.Wat.Sexpr
/-!
Names in the text format: each space of indices has names of its own.
-/

namespace WasmEmbed.Wat

/-- A thing meant by its index or by its name. -/
inductive Target where
  | number (n : Nat)
  | name (s : String)
  deriving DecidableEq, Repr, Inhabited

/-- What names are given to. Each space has its own. -/
inductive Space where
  | type
  | item (kind : ExternKind)
  | tag
  | elem
  | data
  | localVar
  /-- The fields of a structure type, given by its index. -/
  | field (type : Nat)
  deriving DecidableEq, Repr, Inhabited

def Space.text : Space → String
  | type => "type"
  | item kind => kind.text
  | tag => "tag"
  | elem => "elem"
  | data => "data"
  | localVar => "local"
  | field _ => "field"

/-- Names with the indices that they stand for. -/
abbrev Scope := List (Space × String × Nat)

namespace Scope

def find? (sc : Scope) (space : Space) (name : String) : Option Nat :=
  (List.find? (fun r => r.1 == space && r.2.1 == name) sc).map (·.2.2)

/-- Gives an index a name, which no other index of the space may have. -/
def declare (sc : Scope) (space : Space) (name : Option String) (index : Nat) :
    Except Fault Scope :=
  match name with
  | none => .ok sc
  | some s =>
    if (sc.find? space s).isSome then .error (.duplicateName space.text s) else .ok ((space, s, index) :: sc)

/-- The index that is meant. Whether there is anything with a number is not asked. -/
def resolve (sc : Scope) (space : Space) : Target → Except Fault Nat
  | .number n => .ok n
  | .name s =>
    match sc.find? space s with
    | some i => .ok i
    | none => .error (.unknownName space.text s)

/-- The scope of a function, where its parameters and variables have names too. -/
def withVariables (sc : Scope) (names : List (Option String)) : Except Fault Scope :=
  names.zipIdx.foldlM (fun sc n => sc.declare .localVar n.1 n.2) sc

end Scope

end WasmEmbed.Wat
