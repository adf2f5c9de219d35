import WasmEmbed.Bytes
import WasmEmbed.Machine.Basic
/-!
Instructions that do not change the flow of control: each pops operands, pushes operands, sets local
variables and asks for writes to the heap, or traps.
-/

namespace WasmEmbed

open WasmEmbed.Code

/-- What an instruction does. -/
structure Effect where
  stack : List Operand
  locals : List Operand
  writes : List Write := []
  deriving Repr, Inhabited

variable {σ : Type}

/-- What comes of a thing that an instance knows, if it does and the thing passes a check; else a trap. -/
def checked {α ρ : Type} (found : Option α) (code : TrapCode) (fits : α → Bool) (result : α → ρ) :
    Except TrapCode ρ :=
  match found with
  | some x => if fits x then .ok (result x) else .error code
  | none => .error code

theorem checked_ok {α ρ : Type} {found : Option α} {code : TrapCode} {fits : α → Bool}
    {result : α → ρ} {r : ρ} (h : checked found code fits result = .ok r) :
    ∃ x, found = some x ∧ fits x = true ∧ r = result x := by
  unfold checked at h
  split at h
  · rename_i x
    split at h
    · rename_i hfits
      exact ⟨x, rfl, hfits, (Except.ok.inj h).symm⟩
    · contradiction
  · contradiction

/-- Two things, if there are both. -/
def both {α β : Type} (a : Option α) (b : Option β) : Option (α × β) := a.bind fun x => b.map (x, ·)

theorem both_some {α β : Type} {a : Option α} {b : Option β} {p : α × β} (h : both a b = some p) :
    a = some p.1 ∧ b = some p.2 := by
  obtain ⟨x, ha, hb⟩ := Option.bind_eq_some_iff.mp h
  obtain ⟨y, hy, rfl⟩ := Option.map_eq_some_iff.mp hb
  exact ⟨ha, hy⟩

namespace Heap

/-- The memory that an instance knows by an index, with its address. -/
def memory? (h : Heap σ) (l : Link) (i : Nat) : Option (Nat × MemoryObj h.limit) := do
  let addr ← l.memories[i]?
  return (addr, ← h.memories[addr]?)

/-- The table that an instance knows by an index, with its address. -/
def table? (h : Heap σ) (l : Link) (i : Nat) : Option (Nat × TableObj) := do
  let addr ← l.tables[i]?
  return (addr, ← h.tables[addr]?)

/-- The variable that an instance knows by an index, with its address. -/
def global? (h : Heap σ) (l : Link) (i : Nat) : Option (Nat × GlobalObj) := do
  let addr ← l.globals[i]?
  return (addr, ← h.globals[addr]?)

/-- The number in `count` consecutive bytes of memory. -/
def readNumber (h : Heap σ) (l : Link) (at_ : MemArg) (base : Operand) (count : Nat) :
    Except TrapCode Nat :=
  let offset := base.bits + at_.offset
  checked (h.memory? l at_.memory) .memoryOutOfBounds (fun (_, m) => offset + count ≤ m.size)
    fun (_, m) => Bytes.toNat (m.bytes.slice offset count)

/-- The write of a number to `count` consecutive bytes of memory. -/
def writeNumber (h : Heap σ) (l : Link) (at_ : MemArg) (base : Operand) (count n : Nat) :
    Except TrapCode Write :=
  let offset := base.bits + at_.offset
  checked (h.memory? l at_.memory) .memoryOutOfBounds (fun (_, m) => offset + count ≤ m.size)
    fun (addr, _) => .bytes addr offset (Bytes.ofNat count n)

end Heap

/-- A list from position `offset` on, `len` long, if it is that long. -/
def sublist? {α : Type} (xs : List α) (offset len : Nat) : Option (List α) :=
  if offset + len ≤ xs.length then some ((xs.drop offset).take len) else none

/-- The scalar of a type that loaded bytes stand for. -/
def Code.Access.value (a : Access) (n : Nat) : Val :=
  Val.ofBits a.type (if a.signed then ((BitVec.ofNat (8 * a.bytes) n).signExtend 64).toNat else n)

private def vecBits : Operand → BitVec 128
  | .val (.v128 b) => b
  | _ => 0

/-- Pushes a truth value. -/
private def truth (b : Bool) : Operand := .ofI32 (if b then 1 else 0)

/-- The effect of an instruction that does not change the flow of control, in the instance
`linkAddr`. -/
def plainEffect (h : Heap σ) (linkAddr : Nat) (locals stack : List Operand) (i : Instr) :
    Except TrapCode Effect :=
  let l := h.link linkAddr
  let top (n : Nat) : Operand := stack.getD n (.ofI32 0)
  let push (popped : Nat) (o : Operand) : Effect := ⟨o :: stack.drop popped, locals, []⟩
  let writing (popped : Nat) (ws : List Write) : Effect := ⟨stack.drop popped, locals, ws⟩
  match i with
  | .drop => .ok (writing 1 [])
  | .select _ => .ok (push 3 (if (top 0).bits = 0 then top 1 else top 2))
  | .localGet i => .ok (push 0 (locals.getD i (.ofI32 0)))
  | .localSet i => .ok ⟨stack.drop 1, locals.set i (top 0), []⟩
  | .localTee i => .ok ⟨stack, locals.set i (top 0), []⟩
  | .globalGet i =>
    match h.global? l i with
    | some (_, g) => .ok (push 0 g.value)
    | none => .ok (push 0 (.ofI32 0))
  | .globalSet i =>
    match h.global? l i with
    | some (addr, _) => .ok (writing 1 [.global addr (top 0)])
    | none => .ok (writing 1 [])
  | .tableGet table =>
    checked (h.table? l table) .tableOutOfBounds (fun (_, t) => (top 0).bits < t.size)
      fun (_, t) => push 1 (t.get (top 0).bits)
  | .tableSet table =>
    checked (h.table? l table) .tableOutOfBounds (fun (_, t) => (top 1).bits < t.size)
      fun (addr, _) => writing 2 [.elements addr (top 1).bits [(top 0).func?]]
  | .tableSize table =>
    match h.table? l table with
    | some (_, t) => .ok (push 0 (.ofI32 t.size))
    | none => .ok (push 0 (.ofI32 0))
  | .tableGrow table =>
    match h.table? l table with
    | some (addr, t) =>
      match t.grow? (top 0).bits (top 1).func? with
      | some _ =>
        .ok ⟨.ofI32 t.size :: stack.drop 2, locals, [.growTable addr (top 0).bits (top 1).func?]⟩
      | none => .ok (push 2 (.ofI32 (2 ^ (32 : Nat) - 1)))
    | none => .ok (push 2 (.ofI32 (2 ^ (32 : Nat) - 1)))
  | .tableFill table =>
    checked (h.table? l table) .tableOutOfBounds (fun (_, t) => (top 2).bits + (top 0).bits ≤ t.size)
      fun (addr, _) => writing 3 [.elements addr (top 2).bits (List.replicate (top 0).bits (top 1).func?)]
  | .tableCopy target source =>
    checked (both (h.table? l target) (h.table? l source)) .tableOutOfBounds
      (fun ((_, t), (_, u)) =>
        (top 2).bits + (top 0).bits ≤ t.size && (top 1).bits + (top 0).bits ≤ u.size)
      fun ((addr, _), (_, u)) =>
        writing 3 [.elements addr (top 2).bits (u.elements.slice (top 1).bits (top 0).bits)]
  | .tableInit table elem =>
    checked (both (h.table? l table) (sublist? (l.elems.getD elem []) (top 1).bits (top 0).bits))
      .tableOutOfBounds (fun ((_, t), xs) => (top 2).bits + xs.length ≤ t.size)
      fun ((addr, _), xs) => writing 3 [.elements addr (top 2).bits xs]
  | .elemDrop elem => .ok (writing 0 [.dropElem linkAddr elem])
  | .load access at_ => do
    let n ← h.readNumber l at_ (top 0) access.bytes
    return push 1 (.val (access.value n))
  | .store access at_ => do
    let w ← h.writeNumber l at_ (top 1) access.bytes (top 0).bits
    return writing 2 [w]
  | .memorySize memory =>
    match h.memory? l memory with
    | some (_, m) => .ok (push 0 (.ofI32 m.pages))
    | none => .ok (push 0 (.ofI32 0))
  | .memoryGrow memory =>
    match h.memory? l memory with
    | some (addr, m) =>
      match m.grow? (top 0).bits with
      | some _ => .ok ⟨.ofI32 m.pages :: stack.drop 1, locals, [.growMemory addr (top 0).bits]⟩
      | none => .ok (push 1 (.ofI32 (2 ^ (32 : Nat) - 1)))
    | none => .ok (push 1 (.ofI32 (2 ^ (32 : Nat) - 1)))
  | .memoryInit memory data =>
    checked (both (h.memory? l memory) (sublist? (l.datas.getD data []) (top 1).bits (top 0).bits))
      .memoryOutOfBounds (fun ((_, m), bs) => (top 2).bits + bs.length ≤ m.size)
      fun ((addr, _), bs) => writing 3 [.bytes addr (top 2).bits bs]
  | .dataDrop data => .ok (writing 0 [.dropData linkAddr data])
  | .memoryCopy target source =>
    checked (both (h.memory? l target) (h.memory? l source)) .memoryOutOfBounds
      (fun ((_, m), (_, n)) =>
        (top 2).bits + (top 0).bits ≤ m.size && (top 1).bits + (top 0).bits ≤ n.size)
      fun ((addr, _), (_, n)) =>
        writing 3 [.bytes addr (top 2).bits (n.bytes.slice (top 1).bits (top 0).bits)]
  | .memoryFill memory =>
    checked (h.memory? l memory) .memoryOutOfBounds (fun (_, m) => (top 2).bits + (top 0).bits ≤ m.size)
      fun (addr, _) =>
        writing 3 [.bytes addr (top 2).bits (List.replicate (top 0).bits (top 1).bits.toUInt8)]
  | .const v => .ok (push 0 (.val v))
  | .num op => do
    let v ← op.eval ((stack.take op.arity).reverse.map Operand.toVal)
    return push op.arity (.val v)
  | .vec op =>
    let arity := op.params.length
    .ok (push arity (.val (op.eval ((stack.take arity).reverse.map Operand.toVal))))
  | .vecLoad kind at_ => do
    let n ← h.readNumber l at_ (top 0) kind.bytes
    return push 1 (.val (.v128 (kind.make n)))
  | .vecStore at_ => do
    let w ← h.writeNumber l at_ (top 1) 16 (vecBits (top 0)).toNat
    return writing 2 [w]
  | .vecLoadLane lane at_ index => do
    let n ← h.readNumber l at_ (top 1) (lane.bits / 8)
    return push 2 (.val (.v128 (ofLanes lane ((lanes lane (vecBits (top 0))).set index n))))
  | .vecStoreLane lane at_ index => do
    let w ← h.writeNumber l at_ (top 1) (lane.bits / 8) ((lanes lane (vecBits (top 0))).getD index 0)
    return writing 2 [w]
  | .refNull kind => .ok (push 0 (.val (.nullRef kind)))
  | .refIsNull => .ok (push 1 (truth (match top 0 with
    | .val (.nullRef _) => true
    | _ => false)))
  | .refFunc func =>
    match l.funcs[func]? with
    | some addr => .ok (push 0 (.func addr))
    | none => .ok (push 0 (.val (.nullRef .func)))
  | _ => .ok (writing 0 [])

end WasmEmbed
