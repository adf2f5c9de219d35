import WasmEmbed.Machine.Stop
import WasmEmbed.Store.Item
/-!
Calls from the host. A call is refused, with no effect at all, unless the store is the function's
own and alive, the number of arguments is right, and every argument has or converts to its type;
else the function runs, and the store counts the call, a failure, and the fuel consumed.
-/

namespace WasmEmbed

variable {σ : Type}

/-- What a call leads to: its answer, the state of the handle, the store, and the state of the
host. -/
structure CallOutcome (σ α : Type) where
  result : Except Error α
  state : FuncState
  store : Store σ
  world : σ

/-- Converts arguments to types one by one, from position `i` on; the first that does not fit is
refused. -/
def convertAll {α : Type} (convert : α → ValType → Position → Nat → Except Error Val) :
    Nat → List ValType → List α → Except Error (List Val)
  | i, t :: ts, x :: xs => do
    let v ← convert x t .argument i
    let vs ← convertAll convert (i + 1) ts xs
    return v :: vs
  | _, _, _ => .ok []

/-- The sum of two amounts, at most the greatest amount of fuel. -/
def addFuel (a b : Nat) : Nat := min maxFuel (a + b)

namespace Func

/-- The converted arguments, if a call is not refused. -/
def prepare {α : Type} (f : Func) (s : Store σ) (args : List α)
    (convert : α → ValType → Position → Nat → Except Error Val) : Except Error (List Val) := do
  let _ ← s.contentsFor f.store "function"
  if f.type.params.length ≠ args.length then throw (.arity f.type.params.length args.length)
  convertAll convert 0 f.type.params args

/-- Runs the function in the contents of its store. -/
def run (f : Func) (s : Store σ) (c : Contents σ) (world : σ) (args : List Val) :
    CallOutcome σ (List Val) :=
  let (stop, r) := (c.resources world).call s.maxFrames f.addr (args.map .val)
  let consumed := match c.fuel, r.fuel with
    | some before, some left => before - left
    | _, _ => 0
  let metrics := { c.metrics with
    calls := c.metrics.calls + 1, fuelConsumed := addFuel c.metrics.fuelConsumed consumed }
  match stop.report false with
  | .error e =>
    ⟨.error e, .faulted,
      s.withContents { c.after r with metrics := { metrics with traps := metrics.traps + 1 } },
      r.world⟩
  | .ok values =>
    let s := s.withContents { c.after r with metrics }
    match leaveAll .result 0 values with
    | .ok values => ⟨.ok values, .bound, s, r.world⟩
    | .error e => ⟨.error e, .faulted, s, r.world⟩

/-- Runs the function with arguments that are accepted. The store is checked again. -/
def invoke (f : Func) (s : Store σ) (world : σ) (args : List Val) : CallOutcome σ (List Val) :=
  match s.contentsFor f.store "function" with
  | .error e => ⟨.error e, f.state, s, world⟩
  | .ok c => f.run s c world args

/-- Calls with arguments of any form. -/
def callWith {α : Type} (convert : α → ValType → Position → Nat → Except Error Val) (f : Func)
    (s : Store σ) (world : σ) (args : List α) : CallOutcome σ (List Val) :=
  match f.prepare s args convert with
  | .error e => ⟨.error e, f.state, s, world⟩
  | .ok args => f.invoke s world args

/-- Calls with values that have exactly the types of the parameters. -/
def callTyped (f : Func) (s : Store σ) (world : σ) (args : List Val) : CallOutcome σ (List Val) :=
  f.callWith checkType s world args

/-- Calls with values of the host. -/
def call (f : Func) (s : Store σ) (world : σ) (args : List HostValue) : CallOutcome σ Returns :=
  let o := f.callWith coerce s world args
  { o with result := o.result.map fun values => .ofList (values.map .ofVal) }

end Func

end WasmEmbed
