import WasmEmbed.Proofs.Machine.Moves
import Mathlib.Data.Option.Basic

/-! What a step leaves of the resources: the heap after the writes that were asked for, no more fuel
than before, and the host where it is unless one of its functions is called. Main statement:
`step_leaves`. -/
namespace WasmEmbed
variable {σ : Type}

/-- What is left of the resources: with a machine that goes on, or where it stopped. -/
def Progress.resources : Progress σ → Resources σ
  | .running m => m.resources
  | .stopped _ r => r

/-- The fuel that is left afterwards is no more than before, or is not metered at either time. -/
def Burns (before after : Option Nat) : Prop := Option.Rel (fun n k => k ≤ n) before after

section Burns
variable {before between after : Option Nat}

theorem burns_refl (fuel : Option Nat) : Burns fuel fuel := by
  cases fuel with
  | none => exact .none
  | some n => exact .some (Nat.le_refl n)

theorem burns_trans (h : Burns before between) (h' : Burns between after) :
    Burns before after := by
  cases h with
  | none => exact h'
  | some hle =>
    cases h' with
    | some hle' => exact .some (Nat.le_trans hle' hle)

theorem burns_charge (fuel : Option Nat) (amount : Nat) : Burns fuel (charge fuel amount) := by
  cases fuel with
  | none => exact .none
  | some n => exact .some (Nat.sub_le n amount)

theorem burns_zero {n : Nat} : Burns (some n) (some 0) := .some (Nat.zero_le n)

theorem isSome_of_burns (h : Burns before after) : after.isSome = before.isSome := by
  cases h with
  | none => rfl
  | some hle => rfl

end Burns

/-- What goes on or stops has the heap and the host of the resources, has burnt fuel, and stops for want
of it only with nothing left. -/
structure Progress.Leaves (p : Progress σ) (r : Resources σ) : Prop where
  heap : p.resources.heap = r.heap
  world : p.resources.world = r.world
  burnt : Burns r.fuel p.resources.fuel
  starved : ∀ r', p = .stopped .outOfFuel r' → r'.fuel = some 0

variable {p : Progress σ} {m : Machine σ} {r : Resources σ} {addr : Nat} {v : Move}

section Parts

/-- What was burnt before counts as well. -/
theorem leaves_of_burns {fuel : Option Nat} (hfuel : Burns fuel r.fuel) (hp : p.Leaves r) :
    p.Leaves { r with fuel } := { hp with burnt := burns_trans hfuel hp.burnt }

theorem running_leaves (m : Machine σ) : (Progress.running m).Leaves m.resources :=
  ⟨rfl, rfl, burns_refl _, nofun⟩

theorem stopped_leaves {s : Stop} (hs : s ≠ .outOfFuel) (r : Resources σ) :
    (Progress.stopped s r).Leaves r :=
  ⟨rfl, rfl, burns_refl _, fun _ h => absurd (Progress.stopped.inj h).1 hs⟩

theorem trap_leaves (m : Machine σ) (code : TrapCode) : (m.trap code).Leaves m.resources :=
  stopped_leaves (fun h => by contradiction) m.resources

/-- This is the one place where execution stops for want of fuel. Without a meter nothing is ever
exhausted. -/
theorem meter_leaves (m : Machine σ) : m.meter.Leaves m.resources := by
  unfold Machine.meter
  split
  · rename_i hexhausts
    refine ⟨rfl, rfl, ?_, ?_⟩
    · cases hfuel : m.resources.fuel with
      | none =>
        rw [hfuel] at hexhausts
        contradiction
      | some n => exact burns_zero
    · intro r' h
      rw [← (Progress.stopped.inj h).2]
  · exact running_leaves m

theorem resume_leaves (r : Resources σ) (maxFrames : Nat) (callers : List Frame)
    (values : List Operand) : (Machine.resume r maxFrames callers values).Leaves r := by
  cases callers with
  | nil => exact stopped_leaves (fun h => by contradiction) r
  | cons f rest => exact running_leaves _

theorem leave_leaves (m : Machine σ) : m.leave.Leaves m.resources :=
  leaves_of_burns (r := m.settle.resources) (burns_charge _ _) (resume_leaves _ _ _ _)

theorem enter_leaves (r : Resources σ) (maxFrames : Nat) (callers : List Frame) (c : Closure)
    (args : List Operand) : (Machine.enter r maxFrames callers c args).Leaves r := by
  unfold Machine.enter
  dsimp only
  split
  · exact trap_leaves _ _
  · exact meter_leaves _

/-- Only a function of the host changes where the host is, and it has no part in the fuel. -/
theorem invoke_leaves (r : Resources σ) (maxFrames : Nat) (callers : List Frame) (addr : Nat)
    (stack : List Operand) :
    ∃ world, (Machine.invoke r maxFrames callers addr stack).Leaves (r.inWorld world) ∧
      ((∀ f, r.heap.funcs[addr]? ≠ some (.host f)) → world = r.world) := by
  unfold Machine.invoke
  split
  · exact ⟨r.world, stopped_leaves (fun h => by contradiction) r, fun _ => rfl⟩
  · exact ⟨r.world, enter_leaves r _ _ _ _, fun _ => rfl⟩
  · rename_i f hf
    split
    · rename_i e world _
      exact ⟨world, stopped_leaves (fun h => by contradiction) (r.inWorld world), fun hno => absurd hf (hno f)⟩
    · rename_i values world _
      exact ⟨world, resume_leaves (r.inWorld world) _ _ _, fun hno => absurd hf (hno f)⟩

end Parts

theorem make_leaves (m : Machine σ) (v : Move) :
    ∃ world, (m.make v).Leaves ⟨m.resources.heap.performAll v.writes, m.resources.fuel, world⟩ ∧
      ((∀ f addr inPlace, v = .calls f addr inPlace →
        ∀ g, m.resources.heap.funcs[addr]? ≠ some (.host g)) → world = m.resources.world) := by
  cases v with
  | stays frame ws => exact ⟨m.resources.world, running_leaves _, fun _ => rfl⟩
  | repeats frame => exact ⟨m.resources.world, meter_leaves _, fun _ => rfl⟩
  | returns frame => exact ⟨m.resources.world, leave_leaves { m with frame }, fun _ => rfl⟩
  | calls frame addr inPlace =>
    obtain ⟨world, hleaves, hworld⟩ :=
      invoke_leaves { m with frame }.settle.resources m.maxFrames _ addr _
    refine ⟨world, leaves_of_burns (burns_charge _ _) hleaves, fun hno => ?_⟩
    exact hworld (hno frame addr inPlace rfl)
  | traps frame code charged =>
    let charged : Resources σ := { m.resources with fuel := charge m.resources.fuel charged }
    have htrap := trap_leaves { m with resources := charged, frame } code
    exact ⟨m.resources.world, leaves_of_burns (r := charged) (burns_charge _ _) htrap, fun _ => rfl⟩

/-- A step performs the writes that its instruction asks for, burns fuel, and leaves the host where it
is if it calls none of its functions. -/
theorem step_leaves (m : Machine σ) :
    ∃ world, m.step.Leaves ⟨m.resources.heap.performAll m.asks, m.resources.fuel, world⟩ ∧
      ((∀ addr stack inPlace f, m.Calls addr stack inPlace →
        m.resources.heap.funcs[addr]? ≠ some (.host f)) → world = m.resources.world) := by
  obtain ⟨v, hv⟩ := exists_decides m
  obtain ⟨world, hleaves, hworld⟩ := make_leaves m v
  have hstep : m.step = m.make v := hv.step m.resources.world
  rw [← hstep, hv.writes] at hleaves
  refine ⟨world, hleaves, fun hno => hworld fun frame addr inPlace hcalls g => ?_⟩
  exact hno addr frame.stack inPlace g (hv.calls frame addr inPlace hcalls)

end WasmEmbed
