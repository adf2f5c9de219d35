import WasmEmbed.Imports
import WasmEmbed.Machine.Step
/-!
Making an instance in a heap: its own things are allocated beside those it imports, its segments are
copied to tables and memories, and its start function runs. What happened before a failure stays.
-/

namespace WasmEmbed

open WasmEmbed.Code

variable {σ : Type}

namespace Heap

/-- The operand that a constant expression denotes, in the instance `l`. -/
def constant (h : Heap σ) (l : Link) (code : List Instr) : Operand :=
  (code.foldl (fun stack i => step stack i) []).headD (.ofI32 0)
where
  step (stack : List Operand) : Instr → List Operand
    | .const v => .val v :: stack
    | .globalGet i =>
      ((l.globals[i]?.bind fun addr => h.globals[addr]?).elim (.ofI32 0) (·.value)) :: stack
    | .refNull kind => .val (.nullRef kind) :: stack
    | .refFunc i => (l.funcs[i]?.elim (.val (.nullRef .func)) .func) :: stack
    | .num op =>
      match op.eval ((stack.take op.arity).reverse.map Operand.toVal) with
      | .ok v => .val v :: stack.drop op.arity
      | .error _ => stack
    | _ => stack

/-- The heap with what an import is defined by, and the instance's index spaces with its address. -/
def provide (h : Heap σ) (l : Link) : Definition σ → Heap σ × Link
  | .host f =>
    ({ h with funcs := h.funcs.push (.host f) }, { l with funcs := l.funcs ++ [h.funcs.size] })
  | .item (.func f) => (h, { l with funcs := l.funcs ++ [f.addr] })
  | .item (.global g) => (h, { l with globals := l.globals ++ [g.addr] })
  | .item (.memory m) => (h, { l with memories := l.memories ++ [m.addr] })
  | .item (.table t) => (h, { l with tables := l.tables ++ [t.addr] })

/-- The heap with what all imports are defined by. -/
def provideAll (h : Heap σ) (l : Link) (ds : List (Definition σ)) : Heap σ × Link :=
  ds.foldl (fun p d => provide p.1 p.2 d) (h, l)

/-- Memories of their least sizes, unless one is too large for the store. -/
def newMemories (limit : Option Nat) : List MemoryType → Except Error (List (MemoryObj limit))
  | [] => .ok []
  | t :: rest =>
    match MemoryObj.ofType? limit t with
    | some m => do
      let ms ← newMemories limit rest
      return m :: ms
    | none => .error (.resource ("Instantiation failed: memory minimum size of " ++ toString t.minimum
        ++ " pages exceeds memory limits"))

/-- The addresses of `count` things added after `size` others. -/
private def fresh (size count : Nat) : List Nat := (List.range count).map (size + ·)

/-- The functions that a module defines, for the instance with address `link`. -/
def closures (a : Artifact) (link : Nat) : List Closure :=
  (a.funcs.zip a.bodies).mapIdx fun i f =>
    { type := a.typeAt f.1, locals := f.2.locals, code := f.2.code, link,
      name := a.funcName (a.importedFuncs.length + i) }

/-- Adds the variables that a module defines; each may depend on those before it. -/
def addGlobals (h : Heap σ) (l : Link) : List GlobalDef → Heap σ × Link
  | [] => (h, l)
  | g :: rest =>
    let v := GlobalObj.ofType g.type (h.constant l g.init)
    addGlobals { h with globals := h.globals.push v } { l with globals := l.globals ++ [h.globals.size] } rest

/-- The contents that are left of a segment once an instance is made: passive ones. -/
private def remaining {α : Type} (mode : SegmentMode) (xs : List α) : List α :=
  match mode with
  | .passive => xs
  | _ => []

/-- The elements of a segment. -/
def items (h : Heap σ) (l : Link) (e : ElemSegment) : List (Option Nat) :=
  e.items.codes.map fun code => (h.constant l code).func?

/-- Adds a module's own things, of which `imported` holds those that it imports; gives the
instance's address. -/
def allocate (h : Heap σ) (a : Artifact) (imported : Link) : Except Error (Heap σ × Nat) := do
  let memories ← newMemories h.limit a.memories
  let link := h.links.size
  let cs := closures a link
  let l := { imported with
    types := a.types
    funcs := imported.funcs ++ fresh h.funcs.size cs.length
    tables := imported.tables ++ fresh h.tables.size a.tables.length
    memories := imported.memories ++ fresh h.memories.size memories.length }
  let h := { h with
    funcs := h.funcs ++ (cs.map .code).toArray
    tables := h.tables ++ (a.tables.map .ofType).toArray
    memories := h.memories ++ memories.toArray }
  let (h, l) := addGlobals h l a.globals
  let l := { l with
    elems := a.elems.map fun e => remaining e.mode (h.items l e)
    datas := a.datas.map fun d => remaining d.mode d.bytes }
  return ({ h with links := h.links.push l }, link)

/-- The write that an active segment of elements asks for, and whether it fits. -/
def elemWrite? (h : Heap σ) (l : Link) (e : ElemSegment) : Option (Write × Bool) :=
  match e.mode with
  | .active table offset =>
    let offset := (h.constant l offset).bits
    let xs := h.items l e
    match h.table? l (table.getD 0) with
    | some (addr, t) => some (.elements addr offset xs, offset + xs.length ≤ t.size)
    | none => none
  | _ => none

/-- The write that an active segment of data asks for, and whether it fits. -/
def dataWrite? (h : Heap σ) (l : Link) (d : DataSegment) : Option (Write × Bool) :=
  match d.mode with
  | .active memory offset =>
    let offset := (h.constant l offset).bits
    match h.memory? l (memory.getD 0) with
    | some (addr, m) => some (.bytes addr offset d.bytes, offset + d.bytes.length ≤ m.size)
    | none => none
  | _ => none

/-- Performs writes up to the first that does not fit. -/
def copySegments (code : TrapCode) (h : Heap σ) : List (Write × Bool) → Option TrapCode × Heap σ
  | [] => (none, h)
  | (w, true) :: rest => copySegments code (h.perform w) rest
  | (_, false) :: _ => (some code, h)

end Heap

/-- Copies the active segments of an instance, elements first. -/
def Resources.copyActive (r : Resources σ) (a : Artifact) (l : Link) :
    Option TrapCode × Resources σ :=
  match r.heap.copySegments .tableOutOfBounds (a.elems.filterMap (r.heap.elemWrite? l)) with
  | (some code, heap) => (some code, { r with heap })
  | (none, heap) =>
    let (failed, heap) := heap.copySegments .memoryOutOfBounds (a.datas.filterMap (heap.dataWrite? l))
    (failed, { r with heap })

/-- Refuses an instance of which some segment does not fit. -/
def Heap.checkSegments (h : Heap σ) (a : Artifact) (l : Link) : Except Error Unit :=
  if (a.elems.filterMap (h.elemWrite? l)).any fun w => !w.2 then
    .error (.resource "Instantiation failed: table out of bounds: elements segment does not fit")
  else if (a.datas.filterMap (h.dataWrite? l)).any fun w => !w.2 then
    .error (.resource "Instantiation failed: memory out of bounds: data segment does not fit")
  else .ok ()

end WasmEmbed
