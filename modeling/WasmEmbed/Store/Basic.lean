import WasmEmbed.Engine.Basic
import WasmEmbed.Heap.Basic
/-!
Stores: what instances live in. A store counts the calls made in it; destroying it ends everything
that lives in it, and whoever uses such a thing afterwards, or uses it with another store, is told
so.
-/

namespace WasmEmbed

/-- What a store counts. -/
structure Metrics where
  calls : Nat := 0
  traps : Nat := 0
  fuelConsumed : Nat := 0
  deriving DecidableEq, Repr, Inhabited

/-- What a store holds until it is destroyed. -/
structure Contents (σ : Type) where
  heap : Heap σ
  /-- The fuel left, if the engine meters execution. -/
  fuel : Option Nat
  metrics : Metrics := {}
  /-- The number of the next instance. -/
  nextInstance : Nat := 0

/-- How a thing knows the store that it lives in: by the store's number, and by the token that the
store holds as long as it is alive. Knowing a store does not keep it. -/
structure StoreRef where
  id : Nat
  token : Nat
  deriving DecidableEq, Repr, Inhabited

/-- A store. Its number tells it apart from all other stores. -/
structure Store (σ : Type) where
  id : Nat
  /-- The number of the engine. -/
  engine : Nat
  /-- The configuration of the engine. -/
  config : Config
  contents : Option (Contents σ)
  /-- What the store's things watch to know whether it is alive. No other store ever holds it. -/
  token : Option Nat

/-- The greatest amount of fuel. -/
def maxFuel : Nat := 2 ^ (64 : Nat) - 1

/-- The bytes of stack that a function entered takes. -/
def frameBytes : Nat := 64

namespace Store

variable {σ : Type}

/-- A store of an engine. Without a budget a metered store starts with as much fuel as there can
be. -/
def create (id token : Nat) (e : Engine) (limits : StoreConfig := {}) : Except Error (Store σ) :=
  if limits.fuel.isSome ∧ ¬ e.config.consumeFuel then
    .error (.invalidConfig "a fuel budget requires an engine with consume_fuel enabled")
  else
    let fuel := if e.config.consumeFuel then some (limits.fuel.getD maxFuel) else none
    .ok ⟨id, e.id, e.config, some { heap := { limit := limits.maxMemoryBytes }, fuel }, some token⟩

def isAlive (s : Store σ) : Bool := s.contents.isSome

/-- Whether the store holds the token that a thing watches. -/
def holds (s : Store σ) (token : Nat) : Bool := s.token == some token

/-- The store without its contents and its token. -/
def destroy (s : Store σ) : Store σ := { s with contents := none, token := none }

/-- How the things made in the store know it. -/
def ref (s : Store σ) : Except Error StoreRef :=
  match s.token with
  | some token => .ok ⟨s.id, token⟩
  | none => .error (.useAfterFree "store")

/-- The contents of a store that was not destroyed. -/
def live (s : Store σ) : Except Error (Contents σ) :=
  match s.contents with
  | some c => .ok c
  | none => .error (.useAfterFree "store")

/-- Whether a thing that knows its store so lives in this one. -/
def owns (s : Store σ) (owner : StoreRef) : Bool := owner.id == s.id

/-- The contents of a store, for the use of a thing that lives in the store `owner`. -/
def contentsFor (s : Store σ) (owner : StoreRef) (what : String) : Except Error (Contents σ) :=
  if !s.owns owner then .error (.storeMismatch what)
  else
    match s.contents with
    | some c => .ok c
    | none => .error (.useAfterFree what)

/-- The store with other contents. -/
def withContents (s : Store σ) (c : Contents σ) : Store σ := { s with contents := some c }

private def unmetered : Error :=
  .invalidConfig "Fuel is not enabled: fuel is not configured in this store"

/-- The fuel left. -/
def fuel (s : Store σ) : Except Error Nat := do
  match (← s.live).fuel with
  | some n => return n
  | none => throw unmetered

/-- The store with another amount of fuel left. -/
def setFuel (s : Store σ) (amount : Nat) : Except Error (Store σ) := do
  let c ← s.live
  match c.fuel with
  | some _ => return s.withContents { c with fuel := some amount }
  | none => throw unmetered

def metrics (s : Store σ) : Except Error Metrics := do
  return (← s.live).metrics

/-- How many functions may be entered at once. -/
def maxFrames (s : Store σ) : Nat := s.config.maxWasmStack / frameBytes

/-- A store as a debugging text shows it. -/
def debugText (s : Store σ) (id engineId : String) : String :=
  "Store \x7b id: " ++ id ++ ", engine_id: " ++ engineId ++ ", alive: " ++ toString s.isAlive ++ ", .. \x7d"

end Store

/-- What code that runs in a store works on. -/
def Contents.resources {σ : Type} (c : Contents σ) (world : σ) : Resources σ :=
  ⟨c.heap, c.fuel, world⟩

/-- The contents after code ran. -/
def Contents.after {σ : Type} (c : Contents σ) (r : Resources σ) : Contents σ :=
  { c with heap := r.heap, fuel := r.fuel }

end WasmEmbed
