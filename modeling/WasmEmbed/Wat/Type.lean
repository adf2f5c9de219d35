import WasmEmbed.Wat.Scope
/-!
Types in the text format. There are more of them than modules here can use: they are told apart, and
their names have to be known, but only those of the plain value types become types of values.
-/

namespace WasmEmbed.Wat

/-- What references refer to. -/
inductive HeapType where
  | general (isShared : Bool) (name : String)
  | defined (isExact : Bool) (type : Target)
  deriving DecidableEq, Repr, Inhabited

/-- The type of a variable or an operand. -/
inductive ValueType where
  | number (type : ValType)
  | ref (isNullable : Bool) (heap : HeapType)
  deriving DecidableEq, Repr, Inhabited

/-- The name by which the text refers to a thing, and the title under which messages show it. -/
structure Label where
  name : Option String := none
  title : Option String := none
  deriving DecidableEq, Repr, Inhabited

/-- What messages show a thing as, if anything. -/
def Label.shown? (l : Label) : Option String := l.title.or l.name

/-- The parameters, which may have names, and the results. -/
structure Signature where
  params : List (Label × ValueType) := []
  results : List ValueType := []
  deriving DecidableEq, Repr, Inhabited

/-- A signature given by reference, written out, both, or not at all, which means an empty one. -/
structure TypeUse where
  target : Option Target
  inline : Option Signature
  deriving DecidableEq, Repr, Inhabited

/-- A type that a module defines. -/
structure TypeDef where
  /-- The signature, if it is the type of functions. -/
  signature : Option Signature
  /-- The names of the fields of a structure. -/
  fields : List (Option String) := []
  /-- The other types that it mentions. -/
  mentioned : List Target := []
  /-- Whether it is a signature and nothing else, so that modules here can have it. -/
  isPlain : Bool
  /-- Whether it stands among others that may mention each other. -/
  isGrouped : Bool := false
  deriving Repr, Inhabited

namespace HeapType

/-- The kind of a reference, if modules here can have it. -/
def kind? : HeapType → Option RefKind
  | general false "func" => some .func
  | general false "extern" => some .external
  | _ => none

def targets : HeapType → List Target
  | general .. => []
  | defined _ t => [t]

/-- The type with an index in place of a name that is known. -/
def indexed (sc : Scope) : HeapType → HeapType
  | defined isExact t => defined isExact ((sc.resolve .type t).toOption.elim t .number)
  | t => t

end HeapType

namespace ValueType

/-- The type of values, if modules here can have them. -/
def type? : ValueType → Option ValType
  | number t => some t
  | ref true heap => heap.kind?.map .ref
  | ref false _ => none

/-- The types that it mentions. -/
def targets : ValueType → List Target
  | number _ => []
  | ref _ heap => heap.targets

def indexed (sc : Scope) : ValueType → ValueType
  | number t => number t
  | ref isNullable heap => ref isNullable (heap.indexed sc)

end ValueType

/-- Refuses names of types that are not known. -/
def checkTypes (sc : Scope) (targets : List Target) : Except Fault Unit := do
  for t in targets do let _ ← sc.resolve .type t

namespace Signature

/-- The types of the parameters and of the results. -/
def types (s : Signature) : List ValueType × List ValueType := (s.params.map (·.2), s.results)

/-- The types that it mentions. -/
def targets (s : Signature) : List Target := (s.types.1 ++ s.types.2).flatMap ValueType.targets

/-- The signature without labels, and with indices in place of the names that are known. -/
def indexed (sc : Scope) (s : Signature) : Signature :=
  ⟨s.params.map fun p => ({}, p.2.indexed sc), s.results.map (·.indexed sc)⟩

/-- The type of functions, if modules here can have them. -/
def type? (s : Signature) : Option FuncType := do
  return ⟨← s.params.mapM (·.2.type?), ← s.results.mapM ValueType.type?⟩

end Signature

/-- The types that it mentions beside the signature referred to. -/
def TypeUse.targets (u : TypeUse) : List Target := u.inline.elim [] Signature.targets

/-- The signatures of a module: those of its own types, and those that uses add to them. -/
structure Signatures where
  /-- The module's own types in order, none where there is no signature. -/
  declared : List (Option Signature) := []
  /-- Which of them stand for every use of an equal signature. -/
  shareable : List Bool := []
  added : List Signature := []
  deriving Repr, Inhabited

namespace Signatures

/-- The signature with an index: none if there is nothing with the index, and none inside if it is
not a signature. -/
def at? (ss : Signatures) (i : Nat) : Option (Option Signature) :=
  (ss.declared ++ ss.added.map some)[i]?

/-- The index of the first shareable signature that equals one, which is added if there is none. -/
def index (ss : Signatures) (s : Signature) : Nat × Signatures :=
  match (ss.declared.zip ss.shareable).findIdx? fun d => d.2 && d.1 == some s with
  | some i => (i, ss)
  | none =>
    match ss.added.findIdx? (· == s) with
    | some i => (ss.declared.length + i, ss)
    | none => (ss.declared.length + ss.added.length, { ss with added := ss.added ++ [s] })

end Signatures

/-- The index of the signature that is meant. A signature that is written out too has to be the
same. -/
def TypeUse.resolve (u : TypeUse) (sc : Scope) (ss : Signatures) :
    Except Fault (Nat × Signatures) := do
  checkTypes sc u.targets
  match u.target with
  | none => return ss.index ((u.inline.getD {}).indexed sc)
  | some target =>
    let i ← sc.resolve .type target
    match u.inline, ss.at? i with
    | some s, some declared =>
      if declared = some (s.indexed sc) then return (i, ss) else throw .differentSignature
    | _, _ => return (i, ss)

end WasmEmbed.Wat
