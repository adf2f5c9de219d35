import WasmEmbed.Error
/-!
How an engine compiles and how a store is limited. A configuration is the defaults changed by
settings, one setting for one option; only a configuration that allows some stack is valid. Builders
start from the standard configuration, and readers fill in for each option that is not given; both
come to the same (`ofSettings_eq`).
-/

namespace WasmEmbed

/-- Which events a host records unless it is told otherwise. -/
def defaultLogFilter : String := "info,wasm_host=debug"

/-- How much compiled code is optimised. -/
inductive OptLevel where
  | none
  | speed
  | speedAndSize
  deriving DecidableEq, Repr, Inhabited

namespace OptLevel

def all : List OptLevel := [none, speed, speedAndSize]

/-- The level where none is chosen. -/
def standard : OptLevel := speed

/-- The name of a level in configurations. -/
def name : OptLevel → String
  | none => "none"
  | speed => "speed"
  | speedAndSize => "speed_and_size"

def debugText : OptLevel → String
  | none => "None"
  | speed => "Speed"
  | speedAndSize => "SpeedAndSize"

def ofName? (s : String) : Option OptLevel := all.find? fun l => l.name == s

end OptLevel

namespace Defaults

def referenceTypes : Bool := true

def simd : Bool := true

def multiValue : Bool := true

def bulkMemory : Bool := true

def maxWasmStack : Nat := 512 * 1024

def cacheModules : Bool := true

end Defaults

/-- What an engine accepts and how it runs code. The values here make up the standard configuration. -/
structure Config where
  referenceTypes : Bool := Defaults.referenceTypes
  simd : Bool := Defaults.simd
  multiValue : Bool := Defaults.multiValue
  bulkMemory : Bool := Defaults.bulkMemory
  debugInfo : Bool := false
  optLevel : OptLevel := .standard
  /-- Whether execution is metered. -/
  consumeFuel : Bool := false
  /-- The bytes of stack that a call may use. -/
  maxWasmStack : Nat := Defaults.maxWasmStack
  /-- Whether compiled modules are kept for reuse. -/
  cacheModules : Bool := Defaults.cacheModules
  deriving DecidableEq, Repr, Inhabited

/-- What decides which modules are accepted, and what they compile to. -/
structure Features where
  referenceTypes : Bool
  simd : Bool
  multiValue : Bool
  bulkMemory : Bool
  deriving DecidableEq, Repr, Inhabited

def Config.features (c : Config) : Features :=
  { referenceTypes := c.referenceTypes, simd := c.simd, multiValue := c.multiValue, bulkMemory := c.bulkMemory }

/-- A value for one option. -/
inductive Setting where
  | referenceTypes (enable : Bool)
  | simd (enable : Bool)
  | multiValue (enable : Bool)
  | bulkMemory (enable : Bool)
  | debugInfo (enable : Bool)
  | optLevel (level : OptLevel)
  | consumeFuel (enable : Bool)
  | maxWasmStack (bytes : Nat)
  | cacheModules (enable : Bool)
  deriving DecidableEq, Repr, Inhabited

namespace Config

/-- The configuration with one option changed. -/
def set (c : Config) : Setting → Config
  | .referenceTypes b => { c with referenceTypes := b }
  | .simd b => { c with simd := b }
  | .multiValue b => { c with multiValue := b }
  | .bulkMemory b => { c with bulkMemory := b }
  | .debugInfo b => { c with debugInfo := b }
  | .optLevel l => { c with optLevel := l }
  | .consumeFuel b => { c with consumeFuel := b }
  | .maxWasmStack n => { c with maxWasmStack := n }
  | .cacheModules b => { c with cacheModules := b }

/-- The configuration with several options changed, in order. -/
def setAll (c : Config) (settings : List Setting) : Config := settings.foldl set c

/-- What readers take for the options that are not given, each with a default of its own: the one
declared for it, or else that of its type. -/
def absent : Config where
  referenceTypes := Defaults.referenceTypes
  simd := Defaults.simd
  multiValue := Defaults.multiValue
  bulkMemory := Defaults.bulkMemory
  debugInfo := default
  optLevel := .standard
  consumeFuel := default
  maxWasmStack := Defaults.maxWasmStack
  cacheModules := Defaults.cacheModules

/-- The configuration that a reader makes of the settings it was given. -/
def ofSettings (given : List Setting) : Config := setAll absent given

/-- Readers fill in what the standard configuration has. -/
@[simp] theorem ofSettings_eq (given : List Setting) : ofSettings given = setAll {} given := rfl

/-- Accepts a configuration that allows some stack. -/
def validate (c : Config) : Except Error Config :=
  if c.maxWasmStack = 0 then .error (.invalidConfig "max_wasm_stack must be greater than zero") else .ok c

/-- The valid configuration that settings make of the defaults. -/
def build (settings : List Setting) : Except Error Config := (setAll {} settings).validate

end Config

/-- The limits of a store. -/
structure StoreConfig where
  /-- The fuel to start with. -/
  fuel : Option Nat := none
  /-- The greatest size of each memory. -/
  maxMemoryBytes : Option Nat := none
  deriving DecidableEq, Repr, Inhabited

/-- A value for one limit. -/
inductive Limit where
  | fuel (amount : Option Nat)
  | maxMemoryBytes (bytes : Option Nat)
  deriving DecidableEq, Repr, Inhabited

/-- The limits with one changed. -/
def StoreConfig.set (c : StoreConfig) : Limit → StoreConfig
  | .fuel n => { c with fuel := n }
  | .maxMemoryBytes n => { c with maxMemoryBytes := n }

end WasmEmbed
