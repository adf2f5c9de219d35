import WasmEmbed.Config
import WasmEmbed.Digest.SipHash
import WasmEmbed.Engine.Cache
/-!
Engines: a configuration with the modules compiled under it. Modules and stores belong to an engine,
which they know by its number.
-/

namespace WasmEmbed

/-- How many modules an engine keeps for reuse. -/
def moduleCacheCapacity : Nat := 256

/-- An engine. Its number tells it apart from all other engines. -/
structure Engine where
  id : Nat
  config : Config
  cache : Cache := {}
  /-- How many modules the cache holds at most. -/
  capacity : Nat := moduleCacheCapacity
  /-- What modules are told apart by first. -/
  digest : List UInt8 → String := SipHash.contentDigest

namespace Engine

/-- An engine with a valid configuration. -/
def create (id : Nat) (config : Config := {}) : Except Error Engine := do
  return { id, config := ← config.validate }

/-- Both are the same engine, not only alike. -/
def same (a b : Engine) : Bool := a.id == b.id

def cacheSize (e : Engine) : Nat := e.cache.size

def clearCache (e : Engine) : Engine := { e with cache := e.cache.clear }

/-- The module compiled earlier from these bytes, if the engine keeps modules. -/
def cached? (e : Engine) (digest : String) (bytes : List UInt8) : Option Code.Artifact :=
  if e.config.cacheModules then e.cache.find? digest bytes else none

/-- The engine after it compiled a module, which it keeps if it keeps modules. -/
def keep (e : Engine) (digest : String) (bytes : List UInt8) (artifact : Code.Artifact) : Engine :=
  if e.config.cacheModules ∧ e.capacity ≠ 0 then
    { e with cache := e.cache.insert e.capacity digest bytes artifact }
  else e

/-- An engine as a debugging text shows it. -/
def debugText (e : Engine) (id : String) : String :=
  "Engine \x7b id: " ++ id ++ ", opt_level: " ++ e.config.optLevel.debugText ++ ", consume_fuel: "
    ++ toString e.config.consumeFuel ++ ", cached_modules: " ++ toString e.cacheSize ++ ", .. \x7d"

end Engine

end WasmEmbed
