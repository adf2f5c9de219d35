import WasmEmbed.Module.Load
import WasmEmbed.Realm
/-!
All that a host asks of engines and stores, as data, and what it is answered. Engines and stores are
named by their numbers; modules, instances and the things they export are values that the host
holds.
-/

namespace WasmEmbed

variable {σ : Type}

/-- What is done with a store. -/
inductive Use (σ : Type) where
  | instantiate (m : Module) (imports : Imports σ)
  | lookup (i : Instance) (name : String)
  | call (f : Func) (args : List HostValue)
  | callTyped (f : Func) (args : List Val)
  | getGlobal (g : Global)
  | setGlobal (g : Global) (value : HostValue)
  | memorySize (m : Memory)
  | memoryBytes (m : Memory)
  | readMemory (m : Memory) (offset len : Nat)
  | writeMemory (m : Memory) (offset : Nat) (bytes : List UInt8)
  | growMemory (m : Memory) (delta : Nat)
  | tableSize (t : Table)
  | fuel
  | setFuel (amount : Nat)
  | metrics
  | destroy

/-- What a request that succeeds gives. -/
inductive Reply where
  | done
  | engine (id : Nat)
  | store (id : Nat)
  | module (m : Module)
  | instance (i : Instance)
  | item (found : Option Item)
  | returns (r : Returns)
  | values (vs : List Val)
  | value (v : Val)
  | number (n : Nat)
  | bytes (bs : List UInt8)
  | metrics (m : Metrics)
  deriving Repr, Inhabited

/-- What using a store leads to: the answer, the state of the handle if a function was called, the
store, and the state of the host. -/
structure UseOutcome (σ : Type) where
  result : Except Error Reply
  state : Option FuncState
  store : Store σ
  world : σ

namespace Store

/-- A use that only looks at the store. -/
def observe (s : Store σ) (world : σ) (result : Except Error Reply) : UseOutcome σ :=
  ⟨result, none, s, world⟩

/-- A use that changes the store if it succeeds. -/
def update (s : Store σ) (world : σ) (result : Except Error (Reply × Store σ)) : UseOutcome σ :=
  match result with
  | .ok (reply, s) => ⟨.ok reply, none, s, world⟩
  | .error e => ⟨.error e, none, s, world⟩

/-- A call, as a use of the store. -/
def called {α : Type} (o : CallOutcome σ α) (reply : α → Reply) : UseOutcome σ :=
  ⟨o.result.map reply, some o.state, o.store, o.world⟩

/-- Does with the store what is asked. -/
def perform (s : Store σ) (world : σ) : Use σ → UseOutcome σ
  | .instantiate m imports =>
    let o := Instance.create s world m imports
    ⟨o.result.map .instance, none, o.store, o.world⟩
  | .lookup i name => s.observe world (.ok (.item (i.get? s name)))
  | .call f args => called (f.call s world args) .returns
  | .callTyped f args => called (f.callTyped s world args) .values
  | .getGlobal g => s.observe world ((g.get s).map .value)
  | .setGlobal g value => s.update world ((g.set s value).map fun s => (.done, s))
  | .memorySize m => s.observe world ((m.size s).map .number)
  | .memoryBytes m => s.observe world ((m.dataSize s).map .number)
  | .readMemory m offset len => s.observe world ((m.read s offset len).map .bytes)
  | .writeMemory m offset bytes => s.update world ((m.write s offset bytes).map fun s => (.done, s))
  | .growMemory m delta => s.update world ((m.grow s delta).map fun p => (.number p.1, p.2))
  | .tableSize t => s.observe world ((t.size s).map .number)
  | .fuel => s.observe world (s.fuel.map .number)
  | .setFuel amount => s.update world ((s.setFuel amount).map fun s => (.done, s))
  | .metrics => s.observe world (s.metrics.map .metrics)
  | .destroy => ⟨.ok .done, none, s.destroy, world⟩

end Store

/-- What is asked of a realm. -/
inductive Request (σ : Type) where
  | newEngine (config : Config)
  | compile (engine : Nat) (source : Source)
  | clearCache (engine : Nat)
  | newStore (engine : Nat) (limits : StoreConfig)
  | use (store : Nat) (u : Use σ)
  | drop (store : Nat)

/-- The answer to a request. -/
inductive Answer where
  /-- There is no such engine or store. -/
  | missing
  /-- With the state of the handle, if a function was called. -/
  | reply (result : Except Error Reply) (state : Option FuncState)
  deriving Inhabited

namespace Realm

/-- The realm after one of its stores was used. -/
def after (r : Realm σ) (o : UseOutcome σ) : Realm σ := { r.setStore o.store with world := o.world }

/-- Answers a request. -/
def perform (r : Realm σ) : Request σ → Answer × Realm σ
  | .newEngine config =>
    match r.newEngine config with
    | .ok (id, r) => (.reply (.ok (.engine id)) none, r)
    | .error e => (.reply (.error e) none, r)
  | .compile engine source =>
    match r.engine? engine with
    | none => (.missing, r)
    | some e =>
      let (m, r) := r.compile e source.load
      (.reply (m.map .module) none, r)
  | .clearCache engine =>
    match r.engine? engine with
    | none => (.missing, r)
    | some e => (.reply (.ok .done) none, r.clearCache e)
  | .newStore engine limits =>
    match r.engine? engine with
    | none => (.missing, r)
    | some e =>
      match r.newStore e limits with
      | .ok (id, r) => (.reply (.ok (.store id)) none, r)
      | .error e => (.reply (.error e) none, r)
  | .use store u =>
    match r.store? store with
    | none => (.missing, r)
    | some s =>
      let o := s.perform r.world u
      (.reply o.result o.state, r.after o)
  | .drop store =>
    match r.store? store with
    | none => (.missing, r)
    | some _ => (.reply (.ok .done) none, r.drop store)

/-- Answers requests one after the other. -/
def performAll (r : Realm σ) : List (Request σ) → List Answer × Realm σ
  | [] => ([], r)
  | q :: rest =>
    let (answer, r) := r.perform q
    let (answers, r) := r.performAll rest
    (answer :: answers, r)

end Realm

end WasmEmbed
