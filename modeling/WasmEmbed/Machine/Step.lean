import WasmEmbed.Machine.Plain
/-!
One step of execution, and whole runs. Fuel is checked where a function is entered and where a loop
begins again; what a function consumed is charged when it calls, returns, or reaches `unreachable`.
-/

namespace WasmEmbed

open WasmEmbed.Code

variable {σ : Type}

/-- The address of the function that a table has at an index, if it has the type expected. -/
def Heap.target (h : Heap σ) (l : Link) (table type i : Nat) : Except TrapCode Nat :=
  match h.table? l table with
  | none => .error .tableOutOfBounds
  | some (_, t) =>
    if t.size ≤ i then .error .tableOutOfBounds
    else
      match (t.get i).func? with
      | none => .error .indirectCallToNull
      | some addr =>
        match h.funcs[addr]? with
        | none => .error .indirectCallToNull
        | some f => if some f.type = l.types[type]? then .ok addr else .error .badSignature

namespace Machine

/-- Goes on after a function with its results, in the order they were pushed. -/
def resume (r : Resources σ) (maxFrames : Nat) (callers : List Frame) (values : List Operand) :
    Progress σ :=
  match callers with
  | [] => .stopped (.finished values) r
  | f :: rest => .running ⟨r, maxFrames, { f with stack := values.reverse ++ f.stack }, rest⟩

/-- Leaves the present function. -/
def leave (m : Machine σ) : Progress σ :=
  resume m.settle.resources m.maxFrames m.callers (topOf m.frame.results m.frame.stack)

/-- Enters a function. Entering costs one unit of fuel. -/
def enter (r : Resources σ) (maxFrames : Nat) (callers : List Frame) (c : Closure)
    (args : List Operand) : Progress σ :=
  let m : Machine σ := ⟨r, maxFrames,
    { name := c.name, link := c.link, results := c.type.results,
      locals := args ++ c.locals.map .default, stack := [], labels := [], code := c.code,
      pending := 1 }, callers⟩
  if maxFrames < callers.length + 1 then m.trap .stackOverflow else m.meter

/-- Calls the function with an address. Its arguments are the operands on top of `stack`. -/
def invoke (r : Resources σ) (maxFrames : Nat) (callers : List Frame) (addr : Nat)
    (stack : List Operand) : Progress σ :=
  match r.heap.funcs[addr]? with
  | none => .stopped (.trapped .indirectCallToNull (callers.map (·.name))) r
  | some (.code c) => enter r maxFrames callers c (topOf c.type.params stack)
  | some (.host f) =>
    match f.call (topOf f.type.params stack) r.world with
    | (.error e, world) => .stopped (.hostFailed e) { r with world }
    | (.ok values, world) => resume { r with world } maxFrames callers (values.map .val)

/-- The operands that the function with an address takes from the stack. -/
def arityAt (m : Machine σ) (addr : Nat) : Nat :=
  match m.resources.heap.funcs[addr]? with
  | some f => f.type.params.length
  | none => 0

/-- Calls a function that returns to the present one, or in its place. -/
def call (m : Machine σ) (addr : Nat) (inPlace : Bool) : Progress σ :=
  let m := m.settle
  let caller := { m.frame with stack := m.frame.stack.drop (m.arityAt addr) }
  invoke m.resources m.maxFrames (if inPlace then m.callers else caller :: m.callers) addr m.frame.stack

/-- Calls the function that a table has at the index on top of the stack. -/
def callTable (m : Machine σ) (table type : Nat) (inPlace : Bool) : Progress σ :=
  let m := m.settle
  match m.resources.heap.target m.link table type (m.frame.stack.getD 0 (.ofI32 0)).bits with
  | .error code => m.trap code
  | .ok addr => { m with frame := { m.frame with stack := m.frame.stack.drop 1 } }.call addr inPlace

/-- Jumps to an enclosing block: to its end, or to the beginning of a loop. A jump beyond all blocks
returns. -/
def jump (m : Machine σ) (depth : Nat) : Progress σ :=
  match m.frame.labels.drop depth with
  | [] => m.leave
  | l :: outer =>
    let operands := m.frame.stack.take l.arity
    match l.again with
    | none =>
      .running { m with frame := { m.frame with stack := operands ++ l.below, labels := outer, code := l.rest } }
    | some body =>
      { m with frame := { m.frame with stack := operands, labels := l :: outer, code := body } }.meter

/-- The parameters and results of a block. -/
def blockType (m : Machine σ) : BlockType → FuncType
  | .empty => ⟨[], []⟩
  | .value t => ⟨[], [t]⟩
  | .index i => m.link.types.getD i default

/-- Enters a block, which the rest of the code follows. -/
def block (m : Machine σ) (type : BlockType) (body : List Instr) (isLoop : Bool) : Machine σ :=
  let t := m.blockType type
  let label : Label :=
    { results := t.results.length, arity := if isLoop then t.params.length else t.results.length,
      again := if isLoop then some body else none, rest := m.frame.code,
      below := m.frame.stack.drop t.params.length }
  { m with frame := { m.frame with
    stack := m.frame.stack.take t.params.length, labels := label :: m.frame.labels, code := body } }

/-- Goes on after the innermost block, or after the function. -/
def finish (m : Machine σ) : Progress σ :=
  match m.frame.labels with
  | [] => m.leave
  | l :: outer =>
    let stack := m.frame.stack.take l.results ++ l.below
    .running { m with frame := { m.frame with stack, labels := outer, code := l.rest } }

/-- Executes an instruction that does not change the flow of control. -/
def plain (m : Machine σ) (i : Instr) : Progress σ :=
  match plainEffect m.resources.heap m.frame.link m.frame.locals m.frame.stack i with
  | .error code => m.trap code
  | .ok e => .running { m with
      resources := { m.resources with heap := m.resources.heap.performAll e.writes }
      frame := { m.frame with stack := e.stack, locals := e.locals } }

/-- Executes an instruction that was taken off the code. -/
def execute (m : Machine σ) (i : Instr) : Progress σ :=
  let top := (m.frame.stack.getD 0 (.ofI32 0)).bits
  let popped := { m with frame := { m.frame with stack := m.frame.stack.drop 1 } }
  match i with
  | .unreachable => m.settle.trap .unreachable
  | .nop => .running m
  | .block type body => .running (m.block type body false)
  | .loop type body => (m.block type body true).meter
  | .ifElse type onTrue onFalse =>
    .running (popped.block type (if top = 0 then onFalse else onTrue) false)
  | .br depth => m.jump depth
  | .brIf depth => if top = 0 then .running popped else popped.jump depth
  | .brTable depths default => popped.jump (depths.getD top default)
  | .ret => m.leave
  | .call func => m.call (m.link.funcs.getD func 0) false
  | .callIndirect table type => m.callTable table type false
  | .returnCall func => m.call (m.link.funcs.getD func 0) true
  | .returnCallIndirect table type => m.callTable table type true
  | i => m.plain i

/-- One step. -/
def step (m : Machine σ) : Progress σ :=
  match m.frame.code with
  | [] => m.finish
  | i :: rest =>
    { m with frame := { m.frame with code := rest, pending := m.frame.pending + i.cost } }.execute i

/-- Steps until execution stops, at most `bound` of them. -/
def run (bound : Nat) (m : Machine σ) : Stop × Resources σ :=
  match bound with
  | 0 => (.trapped .interrupt m.frameNames, m.resources)
  | bound + 1 =>
    match m.step with
    | .running m => run bound m
    | .stopped s r => (s, r)

end Machine

/-- How many steps a run may take. -/
def maxSteps : Nat := 2 ^ (40 : Nat)

namespace Resources

/-- Calls the function with an address from outside. -/
def call (r : Resources σ) (maxFrames addr : Nat) (args : List Operand) : Stop × Resources σ :=
  match Machine.invoke r maxFrames [] addr args.reverse with
  | .running m => m.run maxSteps
  | .stopped s r => (s, r)

end Resources

end WasmEmbed
