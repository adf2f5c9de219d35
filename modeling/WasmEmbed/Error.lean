/-!
Why an operation of the host failed. Each constructor is one cause; `Error.message` words them all.
-/

namespace WasmEmbed

/-- Where a value of a wrong type stood. -/
inductive Position where
  | argument
  | result
  | global
  deriving DecidableEq, Repr, Inhabited

def Position.text : Position → String
  | argument => "argument"
  | result => "result"
  | global => "global value"

/-- The causes of failure. -/
inductive Error where
  | invalidConfig (reason : String)
  | engineInit (reason : String)
  /-- The file or text `origin` could not be turned into a binary module. -/
  | load (origin reason : String)
  | compilation (reason : String)
  /-- Imports without a definition, and imports defined with another type. -/
  | link (missing mismatched : List String)
  /-- A wrong number of arguments, or of values returned by a host function. -/
  | arity (expected got : Nat)
  | type (position : Position) (index : Nat) (expected got : String)
  /-- Execution stopped; `code` tells the kind of trap, if it has one. -/
  | trap (code : Option String) (message : String) (instantiation : Bool)
  | resource (reason : String)
  /-- The fuel budget was used up. -/
  | resourceExhausted
  /-- The store of the thing named was destroyed. -/
  | useAfterFree (what : String)
  /-- The thing named belongs to another store. -/
  | storeMismatch (what : String)
  /-- The thing named was created by another engine. -/
  | engineMismatch (what : String)
  | immutableGlobal (name : String)
  | outOfBounds (offset len size : Nat)
  deriving DecidableEq, Repr, Inhabited

namespace Error

/-- The text of an error. -/
def message : Error → String
  | invalidConfig reason => "Invalid configuration: " ++ reason
  | engineInit reason => "Engine initialization failed: " ++ reason
  | load origin reason => "Failed to load module from " ++ origin ++ ": " ++ reason
  | compilation reason => "Compilation failed: " ++ reason
  | link missing mismatched =>
    "Link error: missing [" ++ ", ".intercalate missing ++ "], mismatched ["
      ++ ", ".intercalate mismatched ++ "]"
  | arity expected got =>
    "Arity mismatch: expected " ++ toString expected ++ " arguments, got " ++ toString got
  | type position index expected got =>
    "Type mismatch for " ++ position.text ++ " " ++ toString index ++ ": expected " ++ expected
      ++ ", got " ++ got
  | trap _ message instantiation =>
    "Wasm trap" ++ (if instantiation then " during instantiation" else "") ++ ": " ++ message
  | resource reason => "Resource error: " ++ reason
  | resourceExhausted => "Resource exhausted: fuel budget consumed"
  | useAfterFree what => "Use after free: " ++ what ++ " belongs to a destroyed store"
  | storeMismatch what => "Store mismatch: " ++ what ++ " belongs to a different store"
  | engineMismatch what => "Engine mismatch: " ++ what ++ " was created by a different engine"
  | immutableGlobal name => "Global '" ++ name ++ "' is immutable"
  | outOfBounds offset len size =>
    "Memory access out of bounds: offset " ++ toString offset ++ " + " ++ toString len
      ++ " exceeds " ++ toString size ++ " bytes"

/-- Execution stopped abnormally. -/
def isTrap : Error → Bool
  | trap .. => true
  | _ => false

/-- A limit was reached. -/
def isResourceLimit : Error → Bool
  | resourceExhausted | resource _ => true
  | _ => false

/-- A handle was used with a store that is gone or not its own. -/
def isStaleHandle : Error → Bool
  | useAfterFree _ | storeMismatch _ => true
  | _ => false

end Error

end WasmEmbed
