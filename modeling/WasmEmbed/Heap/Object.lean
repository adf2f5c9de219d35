import WasmEmbed.Code.Artifact
import WasmEmbed.Heap.Limiter
import WasmEmbed.Heap.Sparse
import WasmEmbed.Value.Coerce
/-!
The things that live in a store: functions, memories, tables and global variables. What never
changes about a thing, such as the type of a variable or the bounds of a memory, is part of its type
here.
-/

namespace WasmEmbed

open WasmEmbed.Code

/-- A value inside a store: one that may leave it, or a reference to a function. -/
inductive Operand where
  | val (v : Val)
  | func (addr : Nat)
  deriving DecidableEq, Repr, Inhabited

namespace Operand

def type : Operand → ValType
  | val v => v.type
  | func _ => .ref .func

/-- The zero or null of a type. -/
def default (t : ValType) : Operand := val (.default t)

/-- The operand as one of a type: itself if it is, and the zero of the type otherwise. -/
def fit (t : ValType) (o : Operand) : Operand := if o.type = t then o else default t

/-- The value that leaves the store. A reference to a function does not. -/
def leave (o : Operand) (position : Position) (index : Nat) : Except Error Val :=
  match o with
  | val v => .ok v
  | func _ => .error (.type position index "null reference" "non-null reference to a function")

/-- The number that an operand of a scalar type holds. -/
def bits : Operand → Nat
  | val v => v.bits
  | func _ => 0

/-- The value of an operand, if it is no reference to a function. -/
def toVal : Operand → Val
  | val v => v
  | func _ => .nullRef .func

/-- The function referred to, or none for null. -/
def func? : Operand → Option Nat
  | func addr => some addr
  | val _ => none

def ofI32 (n : Nat) : Operand := val (.i32 (BitVec.ofNat 32 n))

@[simp] theorem type_default (t : ValType) : (default t).type = t := Val.type_default t

@[simp] theorem type_fit (t : ValType) (o : Operand) : (o.fit t).type = t := by
  unfold fit
  split
  · assumption
  · exact type_default t

theorem fit_of_type {t : ValType} {o : Operand} (h : o.type = t) : o.fit t = o := if_pos h

end Operand

/-- A function of the host. It may depend on and change a state of the host's. -/
structure HostFunc (σ : Type) where
  type : FuncType
  callback : List Val → σ → Except Error (List Val) × σ

/-- Operands as values that leave the store, or the error for the first that does not. -/
def leaveAll (position : Position) : Nat → List Operand → Except Error (List Val)
  | _, [] => .ok []
  | i, o :: rest => do
    let v ← o.leave position i
    let vs ← leaveAll position (i + 1) rest
    return v :: vs

/-- Accepts values that have exactly the types given, from position `i` on. -/
def checkTypes (position : Position) : Nat → List Val → List ValType → Except Error (List Val)
  | i, v :: vs, t :: ts => do
    let v ← checkType v t position i
    let vs ← checkTypes position (i + 1) vs ts
    return v :: vs
  | _, _, _ => .ok []

/-- Calls a function of the host: it sees only values that may leave the store, and its answer
counts only if it has the number and the types of the declared results. -/
def HostFunc.call {σ : Type} (f : HostFunc σ) (args : List Operand) (world : σ) :
    Except Error (List Val) × σ :=
  match leaveAll .argument 0 args with
  | .error e => (.error e, world)
  | .ok args =>
    match f.callback args world with
    | (.error e, world) => (.error e, world)
    | (.ok returned, world) =>
      if returned.length ≠ f.type.results.length then
        (.error (.arity f.type.results.length returned.length), world)
      else (checkTypes .result 0 returned f.type.results, world)

/-- A function of a module, in the instance `link`. -/
structure Closure where
  type : FuncType
  locals : List ValType
  code : List Instr
  name : String
  link : Nat
  deriving Inhabited

inductive FuncObj (σ : Type) where
  | code (c : Closure)
  | host (f : HostFunc σ)

def FuncObj.type {σ : Type} : FuncObj σ → FuncType
  | code c => c.type
  | host f => f.type

/-- A global variable. -/
structure GlobalObj where
  type : GlobalType
  value : Operand
  typed : value.type = type.content

namespace GlobalObj

/-- A variable with a first value. -/
def ofType (t : GlobalType) (o : Operand) : GlobalObj := ⟨t, o.fit t.content, Operand.type_fit _ _⟩

/-- The variable with another value. Only a mutable one changes, and only to a value of its type. -/
def set (g : GlobalObj) (o : Operand) : GlobalObj :=
  if h : g.type.isMutable = true ∧ o.type = g.type.content then { g with value := o, typed := h.2 } else g

@[simp] theorem type_set (g : GlobalObj) (o : Operand) : (g.set o).type = g.type := by
  unfold set
  split <;> rfl

end GlobalObj

/-- A memory in a store with a limit on the bytes of each. -/
structure MemoryObj (limit : Option Nat) where
  type : MemoryType
  pages : Nat
  bytes : Sparse UInt8
  size_eq : bytes.size = pages * pageSize
  minimum_le : type.minimum ≤ pages
  admitted : type.Admits limit pages

namespace MemoryObj

variable {limit : Option Nat}

/-- A memory of the least size, if the store grants it. -/
def ofType? (limit : Option Nat) (t : MemoryType) : Option (MemoryObj limit) :=
  if h : t.grants limit (saturatingMul t.minimum pageSize) = true then
    some ⟨t, t.minimum, .ofSize (t.minimum * pageSize), rfl, Nat.le_refl _, grants_minimum_iff.mp h⟩
  else none

/-- The memory with consecutive bytes changed; unchanged if they are not all within it. -/
def write (m : MemoryObj limit) (offset : Nat) (bs : List UInt8) : MemoryObj limit :=
  { m with bytes := m.bytes.write offset bs, size_eq := by rw [Sparse.size_write, m.size_eq] }

/-- The number of bytes. -/
def size (m : MemoryObj limit) : Nat := m.bytes.size

theorem ext {m n : MemoryObj limit} (htype : m.type = n.type) (hpages : m.pages = n.pages)
    (hbytes : m.bytes = n.bytes) : m = n := by
  cases m
  cases n
  simp only [MemoryObj.mk.injEq]
  exact ⟨htype, hpages, hbytes⟩

theorem size_lt (m : MemoryObj limit) : m.size < 2 ^ (64 : Nat) := by
  have hpages : m.pages ≤ 65536 := m.admitted.2.1
  have hsize : m.size = m.pages * 65536 := m.size_eq
  omega

/-- The memory with more pages. The new bytes are zero. -/
def lengthen (m : MemoryObj limit) (delta : Nat) (h : m.type.Admits limit (m.pages + delta)) :
    MemoryObj limit where
  type := m.type
  pages := m.pages + delta
  bytes := m.bytes.grow (delta * pageSize)
  size_eq := by rw [Sparse.size_grow, m.size_eq, Nat.add_mul]
  minimum_le := Nat.le_trans m.minimum_le (Nat.le_add_right _ _)
  admitted := h

variable {m : MemoryObj limit} {delta : Nat}

theorem admits_of_grants (h : m.type.grants limit (desiredBytes m.size delta) = true) :
    m.type.Admits limit (m.pages + delta) := by
  rw [size, m.size_eq] at h
  exact grants_iff.mp h

theorem desiredBytes_of_grants (h : m.type.grants limit (desiredBytes m.size delta) = true) :
    desiredBytes m.size delta = (m.pages + delta) * pageSize := by
  have hpages := (admits_of_grants h).2.1
  rw [size, m.size_eq]
  exact desiredBytes_eq (Or.inr hpages)

/-- The memory with the size in bytes that growing by `delta` pages asks for, once that is granted. -/
def resize (m : MemoryObj limit) (delta : Nat)
    (h : m.type.grants limit (desiredBytes m.size delta) = true) : MemoryObj limit where
  type := m.type
  pages := desiredBytes m.size delta / pageSize
  bytes := m.bytes.grow (desiredBytes m.size delta - m.size)
  size_eq := by
    have hgranted := desiredBytes_of_grants h
    have hsize : m.size ≤ desiredBytes m.size delta := by
      rw [hgranted, size, m.size_eq]
      exact Nat.mul_le_mul_right _ (Nat.le_add_right _ _)
    rw [Sparse.size_grow]
    change m.size + _ = _
    rw [Nat.add_sub_cancel' hsize, hgranted, Nat.mul_div_cancel _ (by decide)]
  minimum_le := by
    rw [desiredBytes_of_grants h, Nat.mul_div_cancel _ (by decide)]
    exact Nat.le_trans m.minimum_le (Nat.le_add_right _ _)
  admitted := by
    rw [desiredBytes_of_grants h, Nat.mul_div_cancel _ (by decide)]
    exact admits_of_grants h

/-- The memory with more pages, if they are granted. No more pages are always granted, without asking. -/
def grow? (m : MemoryObj limit) (delta : Nat) : Option (MemoryObj limit) :=
  if delta = 0 then some m
  else if h : m.type.grants limit (desiredBytes m.size delta) = true then some (m.resize delta h)
  else none

theorem resize_eq (h : m.type.grants limit (desiredBytes m.size delta) = true) :
    m.resize delta h = m.lengthen delta (admits_of_grants h) := by
  apply ext
  · rfl
  · change desiredBytes m.size delta / pageSize = m.pages + delta
    rw [desiredBytes_of_grants h, Nat.mul_div_cancel _ (by decide)]
  · change m.bytes.grow (desiredBytes m.size delta - m.size) = m.bytes.grow (delta * pageSize)
    rw [desiredBytes_of_grants h, size, m.size_eq, Nat.add_mul, Nat.add_sub_cancel_left]

/-- What the sizes in bytes of 64 bits come to: a memory grows exactly if it may have the sum of the
pages, whatever the sum. -/
theorem grow?_eq (m : MemoryObj limit) (delta : Nat) :
    m.grow? delta =
      if h : m.type.Admits limit (m.pages + delta) then some (m.lengthen delta h) else none := by
  unfold grow?
  split
  · rename_i hzero
    subst hzero
    have hadmits : m.type.Admits limit (m.pages + 0) := m.admitted
    rw [dif_pos hadmits]
    refine congrArg some (ext rfl rfl ?_)
    change m.bytes = m.bytes.grow (0 * pageSize)
    rw [Nat.zero_mul, Sparse.grow_zero]
  · split
    · rename_i hgranted
      rw [resize_eq hgranted, dif_pos (admits_of_grants hgranted)]
    · rename_i hrefused
      rw [dif_neg]
      intro hadmits
      apply hrefused
      rw [size, m.size_eq]
      exact grants_iff.mpr hadmits

end MemoryObj

/-- A table of references to functions, or of null references only. -/
structure TableObj where
  type : TableType
  elements : Sparse (Option Nat)

namespace TableObj

def ofType (t : TableType) : TableObj := ⟨t, .ofSize t.minimum⟩

def size (t : TableObj) : Nat := t.elements.size

/-- The element at an index. -/
def get (t : TableObj) (i : Nat) : Operand :=
  match t.type.element, t.elements.get i with
  | .ref .func, some addr => .func addr
  | element, _ => .default element

@[simp] theorem type_get (t : TableObj) (i : Nat) : (t.get i).type = t.type.element := by
  unfold get
  split
  · rename_i h _
    exact h.symm
  · exact Operand.type_default _

/-- Whether a table may have a size. -/
def admits (t : TableObj) (size : Nat) : Bool :=
  size < 2 ^ (32 : Nat) && t.type.maximum.all (size ≤ ·)

/-- The table with more elements, all the same, if it may have them. -/
def grow? (t : TableObj) (delta : Nat) (x : Option Nat) : Option TableObj :=
  if t.admits (t.size + delta) then
    let elements := t.elements.grow delta
    some { t with elements := match x with
      | none => elements
      | some _ => elements.write t.size (List.replicate delta x) }
  else none

def write (t : TableObj) (offset : Nat) (xs : List (Option Nat)) : TableObj :=
  { t with elements := t.elements.write offset xs }

end TableObj

/-- What the indices in an instance's code stand for, and what is left of its segments. -/
structure Link where
  types : List FuncType := []
  funcs : List Nat := []
  tables : List Nat := []
  memories : List Nat := []
  globals : List Nat := []
  elems : List (List (Option Nat)) := []
  datas : List (List UInt8) := []
  deriving Repr, Inhabited

end WasmEmbed
