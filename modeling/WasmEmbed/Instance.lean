import WasmEmbed.Heap.Instantiate
import WasmEmbed.Store.Call
/-!
Instances: a module at work in a store. Making one is refused without effect if the store is
destroyed, the module is of another engine, or linking fails; any later failure has used up a number
and may have changed imported things.
-/

namespace WasmEmbed

open WasmEmbed.Code

variable {σ : Type}

/-- An instance, with handles for its exports in the order in which the module declares them. -/
structure Instance where
  store : StoreRef
  id : Nat
  module : Module
  exports : List (String × Item)
  deriving Repr, Inhabited

/-- The address that an index of a kind stands for in an instance. -/
def Link.addr (l : Link) (kind : ExternKind) (i : Nat) : Nat :=
  match kind with
  | .function => l.funcs.getD i 0
  | .memory => l.memories.getD i 0
  | .global => l.globals.getD i 0
  | .table => l.tables.getD i 0

/-- Makes an instance of a module whose imports are `imported`. -/
def Resources.instantiate (r : Resources σ) (bulkMemory : Bool) (maxFrames : Nat) (a : Artifact)
    (imported : Link) : Except Error Link × Resources σ :=
  match r.heap.allocate a imported with
  | .error e => (.error e, r)
  | .ok (heap, addr) =>
    let r := { r with heap }
    let l := heap.link addr
    match if bulkMemory then .ok () else heap.checkSegments a l with
    | .error e => (.error e, r)
    | .ok () =>
      match r.copyActive a l with
      | (some code, r) => (.error (.trap (some code.name) (code.message []) true), r)
      | (none, r) =>
        match a.start with
        | none => (.ok l, r)
        | some i =>
          let (stop, r) := r.call maxFrames (l.funcs.getD i 0) []
          ((stop.report true).map fun _ => l, r)

/-- What making an instance leads to. -/
structure InstanceOutcome (σ : Type) where
  result : Except Error Instance
  store : Store σ
  world : σ

namespace Instance

/-- Handles for the exports of a module. -/
def handles (store : StoreRef) (id : Nat) (a : Artifact) (l : Link) : List (String × Item) :=
  a.exports.mapIdx fun i e =>
    (e.name, Item.ofType store id i e.name (l.addr e.kind e.index) (a.externType e.kind e.index))

/-- Makes an instance in contents of a store, with linked imports. -/
def build (s : Store σ) (ref : StoreRef) (c : Contents σ) (world : σ) (m : Module)
    (ds : List (Definition σ)) : InstanceOutcome σ :=
  let id := c.nextInstance
  let c := { c with nextInstance := id + 1 }
  let (heap, imported) := c.heap.provideAll {} ds
  let (result, r) :=
    ({ c.resources world with heap }).instantiate s.config.bulkMemory s.maxFrames m.artifact imported
  let c := c.after r
  match result with
  | .error e =>
    let traps := if e.isTrap then c.metrics.traps + 1 else c.metrics.traps
    ⟨.error e, s.withContents { c with metrics := { c.metrics with traps } }, r.world⟩
  | .ok l => ⟨.ok ⟨ref, id, m, handles ref id m.artifact l⟩, s.withContents c, r.world⟩

/-- Makes an instance in a store. -/
def create (s : Store σ) (world : σ) (m : Module) (imports : Imports σ := {}) : InstanceOutcome σ :=
  match s.ref with
  | .error e => ⟨.error e, s, world⟩
  | .ok ref =>
    if m.engine ≠ s.engine then ⟨.error (.engineMismatch "module"), s, world⟩
    else
      match imports.resolve s.id m with
      | .error e => ⟨.error e, s, world⟩
      | .ok ds =>
        match s.live with
        | .error e => ⟨.error e, s, world⟩
        | .ok c => build s ref c world m ds

/-- The export with a name, if the store is the instance's own and alive. -/
def get? (i : Instance) (s : Store σ) (name : String) : Option Item :=
  if !s.owns i.store ∨ !s.holds i.store.token then none else (i.exports.find? fun e => e.1 == name).map (·.2)

def func? (i : Instance) (s : Store σ) (name : String) : Option Func :=
  (i.get? s name).bind Item.func?

def global? (i : Instance) (s : Store σ) (name : String) : Option Global :=
  (i.get? s name).bind Item.global?

def memory? (i : Instance) (s : Store σ) (name : String) : Option Memory :=
  (i.get? s name).bind Item.memory?

def table? (i : Instance) (s : Store σ) (name : String) : Option Table :=
  (i.get? s name).bind Item.table?

end Instance

/-- The table with all exports of an instance defined under one module name. -/
def Imports.defineInstance (t : Imports σ) (module : String) (i : Instance) : Imports σ :=
  t.defineAll module i.exports

end WasmEmbed
