import WasmEmbed.Heap.Basic
/-!
The state of executing code: a frame for each function entered, and in it the operands of the
innermost block, what waits for that block's end, and the fuel consumed since it was last charged.
-/

namespace WasmEmbed

open WasmEmbed.Code

/-- What waits for the end of a block, and for jumps to it. -/
structure Label where
  /-- How many operands the block leaves at its end. -/
  results : Nat
  /-- How many operands a jump takes along. -/
  arity : Nat
  /-- The body to execute again after a jump, if the block is a loop. -/
  again : Option (List Instr)
  /-- The code after the block. -/
  rest : List Instr
  /-- The operands below the block's own. -/
  below : List Operand
  deriving Repr, Inhabited

/-- A function that was entered and did not return yet. Operands are listed last pushed first. -/
structure Frame where
  name : String
  link : Nat
  results : List ValType
  locals : List Operand
  stack : List Operand
  labels : List Label
  code : List Instr
  /-- The fuel consumed that is not yet charged. -/
  pending : Nat
  deriving Repr, Inhabited

structure Machine (σ : Type) where
  resources : Resources σ
  /-- How many frames there may be. -/
  maxFrames : Nat
  frame : Frame
  /-- The functions that wait for the present one, the latest caller first. -/
  callers : List Frame

/-- How execution ends. -/
inductive Stop where
  | finished (values : List Operand)
  /-- With the names of the functions entered, innermost first. -/
  | trapped (code : TrapCode) (frames : List String)
  /-- A function of the host failed or was not used as declared. -/
  | hostFailed (e : Error)
  | outOfFuel
  deriving Repr, Inhabited

/-- What one step leads to. -/
inductive Progress (σ : Type) where
  | running (m : Machine σ)
  | stopped (s : Stop) (r : Resources σ)

/-- Operands made to fit types one by one; missing ones are zeros. -/
def fitAll : List ValType → List Operand → List Operand
  | [], _ => []
  | t :: ts, [] => .default t :: fitAll ts []
  | t :: ts, o :: os => o.fit t :: fitAll ts os

@[simp] theorem map_type_fitAll (ts : List ValType) (os : List Operand) :
    (fitAll ts os).map Operand.type = ts := by
  induction ts generalizing os with
  | nil => rfl
  | cons t ts ih => cases os <;> simp [fitAll, ih]

theorem fitAll_of_types {ts : List ValType} {os : List Operand} (h : os.map Operand.type = ts) :
    fitAll ts os = os := by
  induction os generalizing ts with
  | nil => subst h; rfl
  | cons o os ih =>
    subst h
    simp [fitAll, Operand.fit_of_type rfl, ih rfl]

/-- Operands of given types from the top of a stack, in the order they were pushed. -/
def topOf (ts : List ValType) (stack : List Operand) : List Operand :=
  fitAll ts (stack.take ts.length).reverse

/-- The fuel left after a charge. -/
def charge (fuel : Option Nat) (amount : Nat) : Option Nat := fuel.map (· - amount)

/-- Whether consuming `amount` leaves no fuel. -/
def exhausts (fuel : Option Nat) (amount : Nat) : Bool := fuel.any (· ≤ amount)

namespace Machine

variable {σ : Type}

/-- The names of the functions entered, innermost first. -/
def frameNames (m : Machine σ) : List String := m.frame.name :: m.callers.map (·.name)

/-- Stops with a trap. What was not charged yet never is. -/
def trap (m : Machine σ) (code : TrapCode) : Progress σ :=
  .stopped (.trapped code m.frameNames) m.resources

/-- Charges what the present function consumed. -/
def settle (m : Machine σ) : Machine σ :=
  { m with
    resources := { m.resources with fuel := charge m.resources.fuel m.frame.pending }
    frame := { m.frame with pending := 0 } }

/-- Goes on if fuel is left. -/
def meter (m : Machine σ) : Progress σ :=
  if exhausts m.resources.fuel m.frame.pending then .stopped .outOfFuel { m.resources with fuel := some 0 }
  else .running m

/-- The instance whose code is executed. -/
def link (m : Machine σ) : Link := m.resources.heap.link m.frame.link

end Machine

end WasmEmbed
