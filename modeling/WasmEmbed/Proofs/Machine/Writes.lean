import WasmEmbed.Instance
import WasmEmbed.Proofs.Machine.Resources

/-! Code changes a heap only by writes. Each step performs those that one instruction asks for, so
that a run comes down to the list of its writes, however it ends, and whatever every write keeps is
kept by whole runs. -/
namespace WasmEmbed
open WasmEmbed.Code
variable {σ : Type}

/-- Writes are performed one after the other. -/
theorem performAll_append (h : Heap σ) (ws vs : List Write) :
    h.performAll (ws ++ vs) = (h.performAll ws).performAll vs := List.foldl_append

/-- A step performs what it asks for, and no other write. -/
theorem step_asks (m : Machine σ) :
    m.step.resources.heap = m.resources.heap.performAll m.asks := by
  obtain ⟨_, hleaves, _⟩ := step_leaves m
  exact hleaves.heap

theorem step_heap (m : Machine σ) :
    ∃ ws, m.step.resources.heap = m.resources.heap.performAll ws := ⟨m.asks, step_asks m⟩

/-- Entering a function writes nothing; its first instruction may. -/
theorem invoke_heap (r : Resources σ) (maxFrames : Nat) (callers : List Frame) (addr : Nat)
    (stack : List Operand) :
    (Machine.invoke r maxFrames callers addr stack).resources.heap = r.heap := by
  obtain ⟨_, hleaves, _⟩ := invoke_leaves r maxFrames callers addr stack
  exact hleaves.heap

/-- The writes of a number of steps, in order. -/
def Machine.log : Nat → Machine σ → List Write
  | 0, _ => []
  | bound + 1, m =>
    m.asks ++ match m.step with
      | .running m' => log bound m'
      | .stopped _ _ => []

/-- A whole run performs the writes of its first step, then those of the steps that follow. -/
theorem machine_run_heap (bound : Nat) (m : Machine σ) :
    (m.run bound).2.heap = m.resources.heap.performAll (m.log bound) := by
  induction bound generalizing m with
  | zero => rfl
  | succ bound ih =>
    have hasks := step_asks m
    rw [Machine.run, Machine.log, performAll_append, ← hasks]
    cases m.step with
    | running m' => exact ih m'
    | stopped s r => rfl

/-- The writes of a call from outside. -/
def Resources.log (r : Resources σ) (maxFrames addr : Nat) (args : List Operand) : List Write :=
  match Machine.invoke r maxFrames [] addr args.reverse with
  | .running m => m.log maxSteps
  | .stopped _ _ => []

/-- A call from outside ends, in whatever way, with the heap it found changed by writes alone. There
are none if a host function was called, or the stack was too small for the first frame. -/
theorem call_heap (r : Resources σ) (maxFrames addr : Nat) (args : List Operand) :
    (r.call maxFrames addr args).2.heap = r.heap.performAll (r.log maxFrames addr args) := by
  have hinvoke := invoke_heap r maxFrames [] addr args.reverse
  unfold Resources.call Resources.log
  cases h : Machine.invoke r maxFrames [] addr args.reverse with
  | running m =>
    rw [h] at hinvoke
    rw [← hinvoke]
    exact machine_run_heap maxSteps m
  | stopped s r' =>
    rw [h] at hinvoke
    exact hinvoke

/-- Of the writes that segments ask for, those that come before any that does not fit. -/
def fittingWrites (ws : List (Write × Bool)) : List Write := (ws.takeWhile (·.2)).map (·.1)

/-- Segments that fit are written, up to the first that does not. -/
theorem copySegments_heap (code : TrapCode) (h : Heap σ) (ws : List (Write × Bool)) :
    (h.copySegments code ws).2 = h.performAll (fittingWrites ws) := by
  induction ws generalizing h with
  | nil => rfl
  | cons w rest ih =>
    obtain ⟨w, fits⟩ := w
    cases fits with
    | false => rfl
    | true => exact ih (h.perform w)

/-- The writes of the active segments of an instance. -/
def Resources.copyLog (r : Resources σ) (a : Artifact) (l : Link) : List Write :=
  let elems := a.elems.filterMap (r.heap.elemWrite? l)
  fittingWrites elems ++
    match r.heap.copySegments .tableOutOfBounds elems with
    | (some _, _) => []
    | (none, heap) => fittingWrites (a.datas.filterMap (heap.dataWrite? l))

/-- Memories are filled only after all elements were copied, in the heap that this left. -/
theorem copyActive_heap (r : Resources σ) (a : Artifact) (l : Link) :
    (r.copyActive a l).2.heap = r.heap.performAll (r.copyLog a l) := by
  have helems :=
    copySegments_heap .tableOutOfBounds r.heap (a.elems.filterMap (r.heap.elemWrite? l))
  unfold Resources.copyActive Resources.copyLog
  dsimp only
  rw [performAll_append, ← helems]
  cases r.heap.copySegments .tableOutOfBounds (a.elems.filterMap (r.heap.elemWrite? l)) with
  | mk failed heap =>
    cases failed with
    | some code => rfl
    | none =>
      exact copySegments_heap .memoryOutOfBounds heap (a.datas.filterMap (heap.dataWrite? l))

end WasmEmbed
