import WasmEmbed.Config
import WasmEmbed.Ieee.Decimal
import WasmEmbed.Text.Quoted
/-!
Configurations as records of named fields, whatever text they are written in: the names, what each
field takes, and what can be wrong with a field.
-/

namespace WasmEmbed

/-- The fields of an engine configuration. -/
inductive ConfigField where
  | referenceTypes
  | simd
  | multiValue
  | bulkMemory
  | debugInfo
  | optLevel
  | consumeFuel
  | maxWasmStack
  | cacheModules
  deriving DecidableEq, Repr, Inhabited

/-- The fields of a store configuration. -/
inductive StoreField where
  | fuel
  | maxMemoryBytes
  deriving DecidableEq, Repr, Inhabited

namespace ConfigField

/-- The fields in the order of their declaration. -/
def all : List ConfigField :=
  [referenceTypes, simd, multiValue, bulkMemory, debugInfo, optLevel, consumeFuel, maxWasmStack, cacheModules]

def name : ConfigField → String
  | referenceTypes => "reference_types"
  | simd => "simd"
  | multiValue => "multi_value"
  | bulkMemory => "bulk_memory"
  | debugInfo => "debug_info"
  | optLevel => "opt_level"
  | consumeFuel => "consume_fuel"
  | maxWasmStack => "max_wasm_stack"
  | cacheModules => "cache_modules"

def ofName? (s : String) : Option ConfigField := all.find? fun f => f.name == s

end ConfigField

namespace StoreField

def all : List StoreField := [fuel, maxMemoryBytes]

def name : StoreField → String
  | fuel => "fuel"
  | maxMemoryBytes => "max_memory_bytes"

def ofName? (s : String) : Option StoreField := all.find? fun f => f.name == s

end StoreField

/-- The least number that no 64-bit field takes. -/
def wordLimit : Nat := 2 ^ (64 : Nat)

/-- What stood where something else was expected. -/
inductive Found where
  | null
  | bool (b : Bool)
  | integer (n : Int)
  | float (bits : BitVec 64)
  | string (s : String)
  | sequence
  | map
  deriving DecidableEq, Repr, Inhabited

/-- What stood there, floating point numbers in a given layout. -/
def Found.text (l : Ieee.Layout) : Found → String
  | null => "null"
  | bool b => "boolean `" ++ toString b ++ "`"
  | integer n => "integer `" ++ toString n ++ "`"
  | float bits => "floating point `" ++ l.text Ieee.double bits.toNat ++ "`"
  | string s => "string " ++ Text.quote s
  | sequence => "sequence"
  | map => "map"

/-- What can be wrong with a record or one of its fields. -/
inductive Problem where
  | unknownField (name : String) (known : List String)
  | unknownVariant (name : String)
  | duplicateField (name : String)
  | invalidType (found : Found) (expected : String)
  | invalidValue (found : Found) (expected : String)
  /-- More items than fields. -/
  | invalidLength (length : Nat)
  /-- Neither a string nor a table names a variant. -/
  | notVariant
  /-- Something else than a table stands for the empty contents of a variant. -/
  | notTable (found : String)
  /-- The contents of a variant are not empty. -/
  | notEmpty (kind : String)
  /-- A table that names no variant, or several. -/
  | notSingle (several : Bool)
  deriving DecidableEq, Repr, Inhabited

/-- A choice among names. -/
def choiceText (names : List String) : String :=
  match names.map fun n => "`" ++ n ++ "`" with
  | [] => "nothing"
  | [a] => a
  | [a, b] => a ++ " or " ++ b
  | quoted => "one of " ++ ", ".intercalate quoted

/-- The text of a problem. -/
def Problem.message (l : Ieee.Layout) : Problem → String
  | unknownField name known => "unknown field `" ++ name ++ "`, expected " ++ choiceText known
  | unknownVariant name =>
    "unknown variant `" ++ name ++ "`, expected " ++ choiceText (OptLevel.all.map OptLevel.name)
  | duplicateField name => "duplicate field `" ++ name ++ "`"
  | invalidType found expected => "invalid type: " ++ found.text l ++ ", expected " ++ expected
  | invalidValue found expected => "invalid value: " ++ found.text l ++ ", expected " ++ expected
  | invalidLength length =>
    "invalid length " ++ toString length ++ ", expected fewer elements in array"
  | notVariant => "wanted string or table"
  | notTable found => "expected table, found " ++ found
  | notEmpty kind => "expected empty " ++ kind
  | notSingle several =>
    "wanted exactly 1 element, " ++ if several then "more than 1 element" else "found 0 elements"

/-- An integer for an unsigned 64-bit field. -/
def wordOf (n : Int) (expected : String) : Except Problem Nat :=
  if 0 ≤ n ∧ n < wordLimit then .ok n.toNat else .error (.invalidValue (.integer n) expected)

/-- The level of a name. -/
def levelOf (name : String) : Except Problem OptLevel :=
  match OptLevel.ofName? name with
  | some l => .ok l
  | none => .error (.unknownVariant name)

/-- How the values of an engine configuration are read from some kind of text. -/
structure ValueReaders (m : Type → Type) where
  flag : m Bool
  size : m Nat
  level : m OptLevel

/-- Reads the value of a field. -/
def ConfigField.read {m : Type → Type} [Functor m] (r : ValueReaders m) : ConfigField → m Setting
  | referenceTypes => Setting.referenceTypes <$> r.flag
  | simd => Setting.simd <$> r.flag
  | multiValue => Setting.multiValue <$> r.flag
  | bulkMemory => Setting.bulkMemory <$> r.flag
  | debugInfo => Setting.debugInfo <$> r.flag
  | optLevel => Setting.optLevel <$> r.level
  | consumeFuel => Setting.consumeFuel <$> r.flag
  | maxWasmStack => Setting.maxWasmStack <$> r.size
  | cacheModules => Setting.cacheModules <$> r.flag

/-- Reads the value of a limit, given how a limit counted in a type of that name is read. -/
def StoreField.read {m : Type → Type} [Functor m] (limit : String → m (Option Nat)) :
    StoreField → m Limit
  | fuel => Limit.fuel <$> limit "u64"
  | maxMemoryBytes => Limit.maxMemoryBytes <$> limit "usize"

def unknownConfigField (name : String) : Problem :=
  .unknownField name (ConfigField.all.map ConfigField.name)

def unknownStoreField (name : String) : Problem :=
  .unknownField name (StoreField.all.map StoreField.name)

end WasmEmbed
