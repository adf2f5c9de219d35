import WasmEmbed.Proofs.Heap.Thing
import WasmEmbed.Proofs.Machine.Consulting
import WasmEmbed.Proofs.Machine.Effects

/-! The writes of code. An instruction writes only to what its instance knows by an index, and a run
comes down to its writes: whatever code has come to, its heap is the one that it began with, after
the writes of the steps until then. -/
namespace WasmEmbed
open WasmEmbed.Code
variable {σ : Type} {h : Heap σ} {addr place n : Nat} {m m' : Machine σ} {w : Write}
  {stack : List Operand} {instr : Instr}

/-- A write is asked for alone, by the next instruction. The flow of control writes nothing, so that
the write is of the effect of the instruction. -/
theorem asks_of_mem (hw : w ∈ m.asks) :
    m.asks = [w] ∧ ∃ instr rest, m.frame.code = instr :: rest ∧
      w.Proper m.resources.heap m.frame.link m.frame.stack instr := by
  unfold Machine.asks at hw ⊢
  split at hw
  · contradiction
  · rename_i instr rest hcode
    unfold Frame.asks at hw ⊢
    split at hw
    · rename_i e he
      have hwrites := plainEffect_writes he
      generalize e.writes = ws at hw hwrites ⊢
      cases hwrites with
      | none => contradiction
      | one hproper =>
        rw [List.mem_singleton.mp hw]
        exact ⟨rfl, instr, rest, hcode, hproper⟩
    · contradiction

/-- What code writes to, its instance knows. -/
theorem known_of_proper (hw : w.Proper h place stack instr) {kind : ExternKind}
    (htarget : w.target = some (kind, addr)) :
    ∃ i : Nat, ((h.link place).addrs kind)[i]? = some addr := by
  cases hw with
  | dropElem i => contradiction
  | dropData i => contradiction
  | global known found =>
    obtain ⟨rfl, rfl⟩ := Prod.mk.inj (Option.some.inj htarget)
    exact ⟨_, known⟩
  | bytes known found fits =>
    obtain ⟨rfl, rfl⟩ := Prod.mk.inj (Option.some.inj htarget)
    exact ⟨_, known⟩
  | growMemory known found admits =>
    obtain ⟨rfl, rfl⟩ := Prod.mk.inj (Option.some.inj htarget)
    exact ⟨_, known⟩
  | elements known =>
    obtain ⟨rfl, rfl⟩ := Prod.mk.inj (Option.some.inj htarget)
    exact ⟨_, known⟩
  | growTable known =>
    obtain ⟨rfl, rfl⟩ := Prod.mk.inj (Option.some.inj htarget)
    exact ⟨_, known⟩

section Steps

theorem log_of_step (hstep : m.step = .running m') (bound : Nat) :
    m.log (bound + 1) = m.asks ++ m'.log bound := by rw [Machine.log, hstep]

/-- What is written until code has come somewhere, and what is written from there on. By induction
on the steps until then, with the writes from there on left as they are. -/
theorem log_of_steps (h : Machine.Steps n m m') (bound : Nat) :
    m.log (n + bound) = m.log n ++ m'.log bound := by
  induction h with
  | zero m =>
    rw [Nat.zero_add]
    rfl
  | @succ n m m₁ m' hstep h ih =>
    rw [log_of_step hstep n, List.append_assoc, ← ih, Nat.add_right_comm]
    exact log_of_step hstep (n + bound)

/-- Each step does what it asks for, as `step_asks` says. -/
theorem steps_log (h : Machine.Steps n m m') :
    m'.resources.heap = m.resources.heap.performAll (m.log n) := by
  induction h with
  | zero m => rfl
  | @succ n m m₁ m' hstep h ih =>
    have hasks := step_asks m
    rw [hstep] at hasks
    have hasks : m₁.resources.heap = m.resources.heap.performAll m.asks := hasks
    rw [ih, log_of_step hstep, performAll_append, ← hasks]

end Steps

end WasmEmbed
