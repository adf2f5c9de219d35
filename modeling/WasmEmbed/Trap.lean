import WasmEmbed.Error
/-!
Why executing code stops abnormally.
-/

namespace WasmEmbed

/-- The kinds of trap. -/
inductive TrapCode where
  | unreachable
  | stackOverflow
  | memoryOutOfBounds
  | tableOutOfBounds
  | indirectCallToNull
  | badSignature
  | integerOverflow
  | integerDivisionByZero
  | badConversionToInteger
  /-- The run took more steps than the machine performs. -/
  | interrupt
  deriving DecidableEq, Repr, Inhabited

namespace TrapCode

/-- The name of a kind of trap. -/
def name : TrapCode → String
  | unreachable => "UnreachableCodeReached"
  | stackOverflow => "StackOverflow"
  | memoryOutOfBounds => "MemoryOutOfBounds"
  | tableOutOfBounds => "TableOutOfBounds"
  | indirectCallToNull => "IndirectCallToNull"
  | badSignature => "BadSignature"
  | integerOverflow => "IntegerOverflow"
  | integerDivisionByZero => "IntegerDivisionByZero"
  | badConversionToInteger => "BadConversionToInteger"
  | interrupt => "Interrupt"

/-- What happened. -/
def description : TrapCode → String
  | unreachable => "wasm `unreachable` instruction executed"
  | stackOverflow => "call stack exhausted"
  | memoryOutOfBounds => "out of bounds memory access"
  | tableOutOfBounds => "undefined element: out of bounds table access"
  | indirectCallToNull => "uninitialized element"
  | badSignature => "indirect call type mismatch"
  | integerOverflow => "integer overflow"
  | integerDivisionByZero => "integer divide by zero"
  | badConversionToInteger => "invalid conversion to integer"
  | interrupt => "interrupt"

/-- How many frames a trap's message names. -/
def maxFrames : Nat := 4

/-- The message of a trap in calls to the functions named, innermost first. -/
def message (code : TrapCode) (frames : List String) : String :=
  "wasm trap: " ++ code.description ++
    if frames.isEmpty then ""
    else
      " (at " ++ " <- ".intercalate (frames.take maxFrames)
        ++ (if maxFrames < frames.length then ", " ++ toString frames.length ++ " frames total" else "") ++ ")"

end TrapCode

end WasmEmbed
