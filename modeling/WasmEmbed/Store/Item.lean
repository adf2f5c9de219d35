import WasmEmbed.Store.Basic
/-!
Handles for things that live in a store: functions, global variables, memories, tables. A handle
names its store and knows the type that was declared; using it takes the store.
-/

namespace WasmEmbed

/-- What became of the last call through a function handle. -/
inductive FuncState where
  | bound
  | calling
  | faulted
  deriving DecidableEq, Repr, Inhabited

def FuncState.text : FuncState → String
  | bound => "Bound"
  | calling => "Calling"
  | faulted => "Faulted"

/-- A function exported by an instance. -/
structure Func where
  store : StoreRef
  /-- The number of the instance. -/
  instanceId : Nat
  /-- The position among the exports. -/
  index : Nat
  name : String
  type : FuncType
  addr : Nat
  state : FuncState := .bound
  deriving Repr, Inhabited

/-- A global variable exported by an instance. -/
structure Global where
  store : StoreRef
  name : String
  type : GlobalType
  addr : Nat
  deriving Repr, Inhabited

/-- A memory exported by an instance. -/
structure Memory where
  store : StoreRef
  name : String
  type : MemoryType
  addr : Nat
  deriving Repr, Inhabited

/-- A table exported by an instance. -/
structure Table where
  store : StoreRef
  name : String
  type : TableType
  addr : Nat
  deriving Repr, Inhabited

/-- A thing exported by an instance. -/
inductive Item where
  | func (f : Func)
  | global (g : Global)
  | memory (m : Memory)
  | table (t : Table)
  deriving Repr, Inhabited

namespace Item

def type : Item → ExternType
  | func f => .func f.type
  | global g => .global g.type
  | memory m => .memory m.type
  | table t => .table t.type

def store : Item → StoreRef
  | func f => f.store
  | global g => g.store
  | memory m => m.store
  | table t => t.store

/-- The name under which it was exported. -/
def name : Item → String
  | func f => f.name
  | global g => g.name
  | memory m => m.name
  | table t => t.name

/-- The address in the heap of its store. -/
def addr : Item → Nat
  | func f => f.addr
  | global g => g.addr
  | memory m => m.addr
  | table t => t.addr

def func? : Item → Option Func
  | func f => some f
  | _ => none

def global? : Item → Option Global
  | global g => some g
  | _ => none

def memory? : Item → Option Memory
  | memory m => some m
  | _ => none

def table? : Item → Option Table
  | table t => some t
  | _ => none

/-- A handle for the thing of a type with an address. -/
def ofType (store : StoreRef) (instanceId index : Nat) (name : String) (addr : Nat) :
    ExternType → Item
  | .func type => func { store, instanceId, index, name, type, addr }
  | .global type => global { store, name, type, addr }
  | .memory type => memory { store, name, type, addr }
  | .table type => table { store, name, type, addr }

@[simp] theorem type_ofType (store : StoreRef) (instanceId index : Nat) (name : String)
    (addr : Nat) (t : ExternType) : (ofType store instanceId index name addr t).type = t := by
  cases t <;> rfl

end Item

variable {σ : Type}

namespace Global

/-- The present value. -/
def get (g : Global) (s : Store σ) : Except Error Val := do
  let c ← s.contentsFor g.store "global"
  match c.heap.globals[g.addr]? with
  | some v => v.value.leave .global 0
  | none => return .default g.type.content

/-- The store in which the variable has another value. -/
def set (g : Global) (s : Store σ) (value : HostValue) : Except Error (Store σ) := do
  let c ← s.contentsFor g.store "global"
  if !g.type.isMutable then throw (.immutableGlobal g.name)
  let v ← coerce value g.type.content .global 0
  return s.withContents { c with heap := c.heap.perform (.global g.addr (.val v)) }

end Global

/-- The sum of two 64-bit numbers, if it is one. -/
def addWords? (a b : Nat) : Option Nat := if a + b < 2 ^ (64 : Nat) then some (a + b) else none

/-- Accepts a range of bytes whose end is a 64-bit number and not behind the bytes that there are. -/
def checkRange (offset len size : Nat) : Except Error Unit :=
  if (addWords? offset len).any (· ≤ size) then .ok () else .error (.outOfBounds offset len size)

/-- Where there are no more bytes than a 64-bit number tells, no range is lost for the size of its
end. -/
theorem checkRange_eq {size : Nat} (h : size < 2 ^ (64 : Nat)) (offset len : Nat) :
    checkRange offset len size =
      if offset + len ≤ size then .ok () else .error (.outOfBounds offset len size) := by
  unfold checkRange addWords?
  by_cases hword : offset + len < 2 ^ (64 : Nat)
  · rw [if_pos hword, Option.any_some]
    simp only [decide_eq_true_eq]
  · -- the end is no word, and so it is behind all bytes too
    rw [if_neg hword, Option.any_none, if_neg Bool.false_ne_true, if_neg (by omega)]

theorem le_of_checkRange {offset len size : Nat} (h : checkRange offset len size = .ok ()) :
    offset + len ≤ size := by
  unfold checkRange addWords? at h
  by_cases hword : offset + len < 2 ^ (64 : Nat)
  · rw [if_pos hword, Option.any_some] at h
    split at h
    · rename_i hle
      exact of_decide_eq_true hle
    · contradiction
  · rw [if_neg hword, Option.any_none, if_neg Bool.false_ne_true] at h
    contradiction

namespace Memory

/-- The memory in the heap of its store. -/
def find (m : Memory) (s : Store σ) :
    Except Error ((c : Contents σ) × Option (MemoryObj c.heap.limit)) := do
  let c ← s.contentsFor m.store "memory"
  return ⟨c, c.heap.memories[m.addr]?⟩

/-- The number of pages. -/
def size (m : Memory) (s : Store σ) : Except Error Nat := do
  let ⟨_, found⟩ ← m.find s
  return (found.map (·.pages)).getD 0

/-- The number of bytes. -/
def dataSize (m : Memory) (s : Store σ) : Except Error Nat := do
  let ⟨_, found⟩ ← m.find s
  return (found.map (·.size)).getD 0

/-- `len` bytes from an offset on. -/
def read (m : Memory) (s : Store σ) (offset len : Nat) : Except Error (List UInt8) := do
  let ⟨_, found⟩ ← m.find s
  checkRange offset len ((found.map (·.size)).getD 0)
  return (found.map (·.bytes.slice offset len)).getD []

/-- Reads as many bytes as a buffer has, and the buffer afterwards: these bytes, or what it was if they
cannot be read. -/
def readInto (m : Memory) (s : Store σ) (offset : Nat) (buffer : List UInt8) :
    Except Error Unit × List UInt8 :=
  match m.read s offset buffer.length with
  | .ok bytes => (.ok (), bytes)
  | .error e => (.error e, buffer)

/-- The store in which the bytes from an offset on are others. -/
def write (m : Memory) (s : Store σ) (offset : Nat) (bytes : List UInt8) :
    Except Error (Store σ) := do
  let ⟨c, found⟩ ← m.find s
  checkRange offset bytes.length ((found.map (·.size)).getD 0)
  return s.withContents { c with heap := c.heap.perform (.bytes m.addr offset bytes) }

/-- The number of pages before, and the store in which there are more. -/
def grow (m : Memory) (s : Store σ) (delta : Nat) : Except Error (Nat × Store σ) := do
  let ⟨c, found⟩ ← m.find s
  match found.bind fun o => (o.grow? delta).map fun _ => o.pages with
  | some previous =>
    return (previous, s.withContents { c with heap := c.heap.perform (.growMemory m.addr delta) })
  | none =>
    throw (.resource ("Memory '" ++ m.name ++ "' cannot grow: failed to grow memory by `"
      ++ toString delta ++ "`"))

end Memory

/-- The number of elements. -/
def Table.size (t : Table) (s : Store σ) : Except Error Nat := do
  let c ← s.contentsFor t.store "table"
  return (c.heap.tables[t.addr]?.map (·.size)).getD 0

end WasmEmbed
