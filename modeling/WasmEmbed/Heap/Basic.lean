import WasmEmbed.Heap.Object
/-!
The heap of a store: all things that live in it, by address. Code and host change it only by writes;
a write never removes a thing, never changes its type, and leaves the heap as it is where it does
not apply.
-/

namespace WasmEmbed

/-- All things of a store, whose memories may have at most `limit` bytes each. -/
structure Heap (σ : Type) where
  limit : Option Nat
  funcs : Array (FuncObj σ) := #[]
  tables : Array TableObj := #[]
  memories : Array (MemoryObj limit) := #[]
  globals : Array GlobalObj := #[]
  links : Array Link := #[]

/-- A change of one thing. -/
inductive Write where
  | global (addr : Nat) (value : Operand)
  | bytes (memory offset : Nat) (bs : List UInt8)
  | growMemory (memory delta : Nat)
  | elements (table offset : Nat) (xs : List (Option Nat))
  | growTable (table delta : Nat) (x : Option Nat)
  | dropElem (link i : Nat)
  | dropData (link i : Nat)
  deriving Repr, Inhabited

namespace Heap

variable {σ : Type}

/-- The heap with one thing changed. -/
def perform (h : Heap σ) : Write → Heap σ
  | .global addr value => { h with globals := h.globals.modify addr (·.set value) }
  | .bytes memory offset bs => { h with memories := h.memories.modify memory (·.write offset bs) }
  | .growMemory memory delta =>
    { h with memories := h.memories.modify memory fun m => (m.grow? delta).getD m }
  | .elements table offset xs => { h with tables := h.tables.modify table (·.write offset xs) }
  | .growTable table delta x =>
    { h with tables := h.tables.modify table fun t => (t.grow? delta x).getD t }
  | .dropElem link i =>
    { h with links := h.links.modify link fun l => { l with elems := l.elems.set i [] } }
  | .dropData link i =>
    { h with links := h.links.modify link fun l => { l with datas := l.datas.set i [] } }

/-- The heap after several changes in order. -/
def performAll (h : Heap σ) (ws : List Write) : Heap σ := ws.foldl perform h

@[simp] theorem limit_perform (h : Heap σ) (w : Write) : (h.perform w).limit = h.limit := by
  cases w <;> rfl

@[simp] theorem funcs_perform (h : Heap σ) (w : Write) : (h.perform w).funcs = h.funcs := by
  cases w <;> rfl

@[simp] theorem limit_performAll (h : Heap σ) (ws : List Write) :
    (h.performAll ws).limit = h.limit := by
  induction ws generalizing h with
  | nil => rfl
  | cons w ws ih => exact (ih _).trans (limit_perform h w)

@[simp] theorem funcs_performAll (h : Heap σ) (ws : List Write) :
    (h.performAll ws).funcs = h.funcs := by
  induction ws generalizing h with
  | nil => rfl
  | cons w ws ih => exact (ih _).trans (funcs_perform h w)

/-- The instance with an address. -/
def link (h : Heap σ) (addr : Nat) : Link := h.links.getD addr {}

end Heap

/-- What executing code reads and changes: the things of the store, the fuel left if it is metered,
and the state of the host. -/
structure Resources (σ : Type) where
  heap : Heap σ
  fuel : Option Nat
  world : σ

end WasmEmbed
