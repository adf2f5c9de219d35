import WasmEmbed.Proofs.Machine.Writes

/-! Fuel while code is executed. No step adds to what is left of it, and execution is stopped for want
of fuel only where nothing is left. -/
namespace WasmEmbed
open WasmEmbed.Code
variable {σ : Type}

/-- Each step has burnt fuel, and so have all of them. -/
theorem run_burns (bound : Nat) (m : Machine σ) :
    Burns m.resources.fuel (m.run bound).2.fuel ∧
      ((m.run bound).1 = .outOfFuel → (m.run bound).2.fuel = some 0) := by
  induction bound generalizing m with
  | zero => exact ⟨burns_refl _, fun h => by contradiction⟩
  | succ bound ih =>
    obtain ⟨_, hstep, _⟩ := step_leaves m
    rw [Machine.run]
    cases h : m.step with
    | running m' =>
      obtain ⟨hburnt, hstarved⟩ := ih m'
      rw [h] at hstep
      exact ⟨burns_trans hstep.burnt hburnt, hstarved⟩
    | stopped s r =>
      rw [h] at hstep
      exact ⟨hstep.burnt, fun hs => hstep.starved r (congrArg (Progress.stopped · r) hs)⟩

/-- A call from outside burns fuel, and all of it if that is what stops the code. -/
theorem call_burns (r : Resources σ) (maxFrames addr : Nat) (args : List Operand) :
    Burns r.fuel (r.call maxFrames addr args).2.fuel ∧
      ((r.call maxFrames addr args).1 = .outOfFuel →
        (r.call maxFrames addr args).2.fuel = some 0) := by
  obtain ⟨_, hinvoke, _⟩ := invoke_leaves r maxFrames [] addr args.reverse
  unfold Resources.call
  cases h : Machine.invoke r maxFrames [] addr args.reverse with
  | running m =>
    obtain ⟨hburnt, hstarved⟩ := run_burns maxSteps m
    rw [h] at hinvoke
    exact ⟨burns_trans hinvoke.burnt hburnt, hstarved⟩
  | stopped s r' =>
    rw [h] at hinvoke
    exact ⟨hinvoke.burnt, fun hs => hinvoke.starved r' (congrArg (Progress.stopped · r') hs)⟩

theorem copyActive_fuel (r : Resources σ) (a : Artifact) (l : Link) :
    (r.copyActive a l).2.fuel = r.fuel := by
  unfold Resources.copyActive
  split
  · rfl
  · rfl

end WasmEmbed
