import WasmEmbed.Machine.Step
/-!
How the end of execution is reported. A trap names its kind and where it happened; a failure of the
host's is a trap without a kind; running out of fuel is no trap.
-/

namespace WasmEmbed

/-- The values that execution gave, or why it gave none. `instantiation` tells whether an instance
was being made. -/
def Stop.report (s : Stop) (instantiation : Bool) : Except Error (List Operand) :=
  match s with
  | .finished values => .ok values
  | .trapped code frames => .error (.trap (some code.name) (code.message frames) instantiation)
  | .hostFailed e => .error (.trap none ("host function failed: " ++ e.message) instantiation)
  | .outOfFuel => .error .resourceExhausted

end WasmEmbed
