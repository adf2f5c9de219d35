import WasmEmbed.Config.Record
import WasmEmbed.Json.Printer
/-!
Configurations as JSON documents. An object gives fields by name and is read in the order of the
names; an array gives the first fields in the order of their declaration. Fields not given keep
their defaults.
-/

namespace WasmEmbed

/-- The kind of a document. -/
def Json.found : Json → Found
  | .null => .null
  | .bool b => .bool b
  | .number (.integer n) => .integer n
  | .number (.float bits) => .float bits
  | .string s => .string s
  | .array _ => .sequence
  | .object _ => .map

/-- A truth value. -/
def Json.flag : Json → Except Problem Bool
  | .bool b => .ok b
  | v => .error (.invalidType v.found "a boolean")

/-- An unsigned 64-bit integer. -/
def Json.word (expected : String) : Json → Except Problem Nat
  | .number (.integer n) => wordOf n expected
  | v => .error (.invalidType v.found expected)

/-- An unsigned 64-bit integer or null. -/
def Json.limit (expected : String) : Json → Except Problem (Option Nat)
  | .null => .ok none
  | v => some <$> v.word expected

/-- A level: its name, or an object whose only member has that name and is null. -/
def Json.level : Json → Except Problem OptLevel
  | .string s => levelOf s
  | .object members =>
    match Json.sortMembers members with
    | [(name, v)] => do
      let l ← levelOf name
      match v with
      | .null => .ok l
      | v => .error (.invalidType v.found "unit")
    | _ => .error (.invalidValue .map "map with a single key")
  | v => .error (.invalidType v.found "string or map")

/-- How field values are read from documents. -/
def jsonReaders : ValueReaders (ReaderT Json (Except Problem)) where
  flag := Json.flag
  size := Json.word "usize"
  level := Json.level

namespace Config

/-- The setting that one member of an object makes. -/
def settingOfMember (m : String × Json) : Except Problem Setting :=
  match ConfigField.ofName? m.1 with
  | some f => (f.read jsonReaders).run m.2
  | none => .error (unknownConfigField m.1)

/-- The settings that items make of the leading fields. -/
def settingsOfItems : List ConfigField → List Json → Except Problem (List Setting)
  | f :: fs, v :: vs => do
    let s ← (f.read jsonReaders).run v
    return s :: (← settingsOfItems fs vs)
  | _, _ => .ok []

/-- Reads a configuration, valid or not. -/
def ofJson : Json → Except Problem Config
  | .object members => do
    return ofSettings (← (Json.sortMembers members).mapM settingOfMember)
  | .array items => do
    let settings ← settingsOfItems ConfigField.all items
    if items.length ≤ ConfigField.all.length then .ok (ofSettings settings)
    else .error (.invalidLength items.length)
  | v => .error (.invalidType v.found "struct Config")

/-- The valid configuration that a map of options describes. -/
def ofOptions (options : List (String × Json)) : Except Error Config :=
  match ofJson (.object options) with
  | .ok c => c.validate
  | .error p => .error (.invalidConfig (p.message .scientific))

/-- All fields of a configuration in the order of their declaration. -/
def toJson (c : Config) : Json :=
  .object [
    ("reference_types", .bool c.referenceTypes),
    ("simd", .bool c.simd),
    ("multi_value", .bool c.multiValue),
    ("bulk_memory", .bool c.bulkMemory),
    ("debug_info", .bool c.debugInfo),
    ("opt_level", .string c.optLevel.name),
    ("consume_fuel", .bool c.consumeFuel),
    ("max_wasm_stack", .number (.integer c.maxWasmStack)),
    ("cache_modules", .bool c.cacheModules)]

/-- A configuration as text. -/
def text (c : Config) : String := c.toJson.text

end Config

namespace StoreConfig

/-- The limit that one member of an object sets. -/
def limitOfMember (m : String × Json) : Except Problem Limit :=
  match StoreField.ofName? m.1 with
  | some f =>
    (f.read (m := ReaderT Json (Except Problem)) fun expected => Json.limit expected).run m.2
  | none => .error (unknownStoreField m.1)

/-- The limits that items set of the leading fields. -/
def limitsOfItems : List StoreField → List Json → Except Problem (List Limit)
  | f :: fs, v :: vs => do
    let s ← (f.read (m := ReaderT Json (Except Problem)) fun expected => Json.limit expected).run v
    return s :: (← limitsOfItems fs vs)
  | _, _ => .ok []

/-- Reads the limits of a store. -/
def ofJson : Json → Except Problem StoreConfig
  | .object members => do
    return (← (Json.sortMembers members).mapM limitOfMember).foldl set {}
  | .array items => do
    let limits ← limitsOfItems StoreField.all items
    if items.length ≤ StoreField.all.length then .ok (limits.foldl set {})
    else .error (.invalidLength items.length)
  | v => .error (.invalidType v.found "struct StoreConfig")

/-- A limit; an absent one is null. -/
def limitJson : Option Nat → Json
  | none => .null
  | some n => .number (.integer n)

/-- Both limits. -/
def toJson (c : StoreConfig) : Json :=
  .object [("fuel", limitJson c.fuel), ("max_memory_bytes", limitJson c.maxMemoryBytes)]

/-- The limits as text. -/
def text (c : StoreConfig) : String := c.toJson.text

end StoreConfig

end WasmEmbed
