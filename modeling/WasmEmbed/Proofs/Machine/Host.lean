import WasmEmbed.Proofs.Machine.Writes

/-! Code that calls only host functions whose answers depend on nothing but their arguments. It runs
in the same way whatever the state of the host is; what becomes of that state does not come back to
it. -/
namespace WasmEmbed
open WasmEmbed.Code
variable {σ : Type} {r : Resources σ} {m : Machine σ}

/-- The answer of the function depends only on its arguments. What it does to the state of the host
is free. -/
def HostFunc.Pure (f : HostFunc σ) : Prop :=
  ∀ args world world', (f.callback args world).1 = (f.callback args world').1

/-- All host functions that code can reach are pure. -/
def Heap.Pure (h : Heap σ) : Prop :=
  ∀ (addr : Nat) (f : HostFunc σ), h.funcs[addr]? = some (.host f) → f.Pure

theorem pure_of_funcs {h k : Heap σ} (hk : k.Pure) (he : h.funcs = k.funcs) : h.Pure := by
  intro addr f hf
  rw [he] at hf
  exact hk addr f hf

theorem pure_performAll {h : Heap σ} (hh : h.Pure) (ws : List Write) : (h.performAll ws).Pure :=
  pure_of_funcs hh (Heap.funcs_performAll h ws)

def Progress.inWorld (p : Progress σ) (world : σ) : Progress σ :=
  match p with
  | .running m => .running (m.inWorld world)
  | .stopped s r => .stopped s (r.inWorld world)

/-- Both callbacks answer alike, so both answers are checked alike. -/
theorem host_call_pure {f : HostFunc σ} (hf : f.Pure) (args : List Operand) (world world' : σ) :
    (f.call args world).1 = (f.call args world').1 := by
  unfold HostFunc.call
  cases leaveAll .argument 0 args with
  | error e => rfl
  | ok vs =>
    have hanswer := hf vs world world'
    cases h : f.callback vs world with
    | mk answer after =>
      cases h' : f.callback vs world' with
      | mk answer' after' =>
        rw [h, h'] at hanswer
        have hanswer : answer = answer' := hanswer
        subst hanswer
        cases answer with
        | error e =>
          simp only [h, h']
        | ok returned =>
          simp only [h, h']
          split
          · rfl
          · rfl

theorem resume_inWorld (r : Resources σ) (maxFrames : Nat) (callers : List Frame)
    (values : List Operand) (world : σ) :
    Machine.resume (r.inWorld world) maxFrames callers values =
      (Machine.resume r maxFrames callers values).inWorld world := by
  cases callers with
  | nil => rfl
  | cons f rest => rfl

theorem meter_inWorld (m : Machine σ) (world : σ) :
    (m.inWorld world).meter = m.meter.inWorld world := by
  unfold Machine.meter
  change (if exhausts m.resources.fuel m.frame.pending then _ else _) = _
  split
  · rfl
  · rfl

theorem leave_inWorld (m : Machine σ) (world : σ) :
    (m.inWorld world).leave = m.leave.inWorld world :=
  resume_inWorld m.settle.resources m.maxFrames m.callers _ world

theorem enter_inWorld (r : Resources σ) (maxFrames : Nat) (callers : List Frame) (c : Closure)
    (args : List Operand) (world : σ) :
    Machine.enter (r.inWorld world) maxFrames callers c args =
      (Machine.enter r maxFrames callers c args).inWorld world := by
  unfold Machine.enter
  dsimp only
  split
  · rfl
  · exact meter_inWorld (Machine.mk r maxFrames _ callers) world

/-- Only here does the state of the host matter; the answer of a pure function does not show it.
What the function left of the host goes into the machine, and nothing reads it there. -/
theorem invoke_inWorld (hr : r.heap.Pure) (maxFrames : Nat) (callers : List Frame) (addr : Nat)
    (stack : List Operand) (world : σ) :
    ∃ world', Machine.invoke (r.inWorld world) maxFrames callers addr stack =
      (Machine.invoke r maxFrames callers addr stack).inWorld world' := by
  unfold Machine.invoke
  have hheap : (r.inWorld world).heap = r.heap := rfl
  rw [hheap]
  cases hf : r.heap.funcs[addr]? with
  | none => exact ⟨world, rfl⟩
  | some f =>
    cases f with
    | code c => exact ⟨world, enter_inWorld r maxFrames callers c _ world⟩
    | host f =>
      have hanswer := host_call_pure (hr addr f hf) (topOf f.type.params stack) world r.world
      refine ⟨(f.call (topOf f.type.params stack) world).2, ?_⟩
      dsimp only
      have hworld : (r.inWorld world).world = world := rfl
      rw [hworld]
      cases h : f.call (topOf f.type.params stack) world with
      | mk answer after =>
        cases h' : f.call (topOf f.type.params stack) r.world with
        | mk answer' after' =>
          rw [h, h'] at hanswer
          have hanswer : answer = answer' := hanswer
          subst hanswer
          cases answer with
          | error e => rfl
          | ok values => exact resume_inWorld { r with world := after' } maxFrames callers _ after

/-- A move comes to the same wherever the host is. -/
theorem make_inWorld (hm : m.resources.heap.Pure) (v : Move) (world : σ) :
    ∃ world', (m.inWorld world).make v = (m.make v).inWorld world' := by
  cases v with
  | stays frame ws => exact ⟨world, rfl⟩
  | repeats frame => exact ⟨world, meter_inWorld { m with frame } world⟩
  | returns frame => exact ⟨world, leave_inWorld { m with frame } world⟩
  | calls frame addr inPlace =>
    exact invoke_inWorld (r := { m with frame }.settle.resources) hm m.maxFrames _ addr _ world
  | traps frame code charged => exact ⟨world, rfl⟩

theorem step_inWorld (hm : m.resources.heap.Pure) (world : σ) :
    ∃ world', (m.inWorld world).step = m.step.inWorld world' := by
  obtain ⟨v, hv⟩ := exists_decides m
  have hstep : m.step = m.make v := hv.step m.resources.world
  rw [hv.step world, hstep]
  exact make_inWorld hm v world

/-- Two runs that begin alike but for the state of the host go on alike, step by step. By induction
on the bound; a step only writes to the heap, so its functions stay pure. -/
theorem machine_run_inWorld (bound : Nat) (hm : m.resources.heap.Pure) (world : σ) :
    ∃ world', (m.inWorld world).run bound = ((m.run bound).1, (m.run bound).2.inWorld world') := by
  induction bound generalizing m world with
  | zero => exact ⟨world, rfl⟩
  | succ bound ih =>
    obtain ⟨after, hstep⟩ := step_inWorld hm world
    obtain ⟨ws, hws⟩ := step_heap m
    rw [Machine.run, Machine.run, hstep]
    cases h : m.step with
    | running m' =>
      rw [h] at hws
      have hm' : m'.resources.heap.Pure := by
        have hheap : m'.resources.heap = m.resources.heap.performAll ws := hws
        rw [hheap]
        exact pure_performAll hm ws
      exact ih hm' after
    | stopped s r => exact ⟨after, rfl⟩

theorem call_inWorld (hr : r.heap.Pure) (maxFrames addr : Nat) (args : List Operand) (world : σ) :
    ∃ world', (r.inWorld world).call maxFrames addr args =
      ((r.call maxFrames addr args).1, (r.call maxFrames addr args).2.inWorld world') := by
  obtain ⟨after, hinvoke⟩ := invoke_inWorld hr maxFrames [] addr args.reverse world
  have hheap := invoke_heap r maxFrames [] addr args.reverse
  unfold Resources.call
  rw [hinvoke]
  cases h : Machine.invoke r maxFrames [] addr args.reverse with
  | running m =>
    rw [h] at hheap
    have hm : m.resources.heap.Pure := pure_of_funcs hr (congrArg Heap.funcs hheap)
    exact machine_run_inWorld maxSteps hm after
  | stopped s r' => exact ⟨after, rfl⟩

theorem pure_call (hr : r.heap.Pure) (maxFrames addr : Nat) (args : List Operand) :
    (r.call maxFrames addr args).2.heap.Pure := by
  rw [call_heap]
  exact pure_performAll hr _

end WasmEmbed
