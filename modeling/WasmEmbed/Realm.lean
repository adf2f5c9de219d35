import WasmEmbed.Instance
/-!
All engines and stores of a host, by numbers that are given out once, with the state of the host's
functions. Handles are plain values; what they refer to is looked up here. A store that is dropped
is gone, and its things with it.
-/

namespace WasmEmbed

structure Realm (σ : Type) where
  engines : List Engine := []
  stores : List (Store σ) := []
  /-- The next number to give out. -/
  next : Nat := 0
  world : σ

namespace Realm

variable {σ : Type}

def engine? (r : Realm σ) (id : Nat) : Option Engine := r.engines.find? fun e => e.id == id

def store? (r : Realm σ) (id : Nat) : Option (Store σ) := r.stores.find? fun s => s.id == id

/-- The realm in which an engine has changed. -/
def setEngine (r : Realm σ) (e : Engine) : Realm σ :=
  { r with engines := r.engines.map fun x => if x.id = e.id then e else x }

/-- The realm in which a store has changed. -/
def setStore (r : Realm σ) (s : Store σ) : Realm σ :=
  { r with stores := r.stores.map fun x => if x.id = s.id then s else x }

/-- Whether some store holds the token that the things of a store watch. -/
def isAlive (r : Realm σ) (owner : StoreRef) : Bool := r.stores.any fun s => s.holds owner.token

/-- A new engine, by its number. -/
def newEngine (r : Realm σ) (config : Config) : Except Error (Nat × Realm σ) := do
  let e ← Engine.create r.next config
  return (r.next, { r with engines := e :: r.engines, next := r.next + 1 })

/-- A new store, by its number. Its token is another number. -/
def newStore (r : Realm σ) (e : Engine) (limits : StoreConfig) : Except Error (Nat × Realm σ) := do
  let s ← Store.create r.next (r.next + 1) e limits
  return (r.next, { r with stores := s :: r.stores, next := r.next + 2 })

/-- Compiles a module by any of the ways to do so. -/
def compile (r : Realm σ) (e : Engine) (load : Engine → Except Error Module × Engine) :
    Except Error Module × Realm σ :=
  let (m, e) := load e
  (m, r.setEngine e)

def clearCache (r : Realm σ) (e : Engine) : Realm σ := r.setEngine e.clearCache

def destroy (r : Realm σ) (s : Store σ) : Realm σ := r.setStore s.destroy

/-- The realm without a store. -/
def drop (r : Realm σ) (store : Nat) : Realm σ :=
  { r with stores := r.stores.filter fun s => s.id != store }

/-- Makes an instance in a store. -/
def instantiate (r : Realm σ) (s : Store σ) (m : Module) (imports : Imports σ) :
    Except Error Instance × Realm σ :=
  let o := Instance.create s r.world m imports
  (o.result, { r.setStore o.store with world := o.world })

/-- Calls a function: the answer, the state of the handle, and the realm afterwards. -/
def call (r : Realm σ) (f : Func) (s : Store σ) (args : List HostValue) :
    Except Error Returns × FuncState × Realm σ :=
  let o := f.call s r.world args
  (o.result, o.state, { r.setStore o.store with world := o.world })

/-- Calls a function with values of exactly its parameters' types. -/
def callTyped (r : Realm σ) (f : Func) (s : Store σ) (args : List Val) :
    Except Error (List Val) × FuncState × Realm σ :=
  let o := f.callTyped s r.world args
  (o.result, o.state, { r.setStore o.store with world := o.world })

end Realm

end WasmEmbed
