import WasmEmbed.Proofs.Machine.Moves

/-! When code is stopped by the host. Code ends with the failure of a host function exactly if it
comes to calling one, at once or after some steps, and that one fails. -/
namespace WasmEmbed
open WasmEmbed.Code
variable {σ : Type}

/-- The machine goes on for a number of steps, to another one. -/
inductive Machine.Steps : Nat → Machine σ → Machine σ → Prop where
  | zero (m : Machine σ) : Steps 0 m m
  | succ {n : Nat} {m m' m'' : Machine σ} (hstep : m.step = .running m') (h : Steps n m' m'') :
    Steps (n + 1) m m''

/-- Calling the function with an address comes to calling a host function with operands, in a state
of the host. -/
inductive Resources.Consults (r : Resources σ) (maxFrames addr : Nat) (args : List Operand) :
    HostFunc σ → List Operand → σ → Prop where
  /-- The function is itself one of the host's. -/
  | atOnce {f : HostFunc σ} (hf : r.heap.funcs[addr]? = some (.host f)) :
    Consults r maxFrames addr args f (topOf f.type.params args.reverse) r.world
  | later {n callee : Nat} {m m' : Machine σ} {stack : List Operand} {inPlace : Bool}
    {f : HostFunc σ} (hm : Machine.invoke r maxFrames [] addr args.reverse = .running m)
    (hsteps : Machine.Steps n m m') (hn : n < maxSteps) (hcall : m'.Calls callee stack inPlace)
    (hf : m'.resources.heap.funcs[callee]? = some (.host f)) :
    Consults r maxFrames addr args f (topOf f.type.params stack) m'.resources.world

variable {m m' : Machine σ} {r r' : Resources σ} {s : Stop} {e : Error} {maxFrames addr : Nat}
  {callers : List Frame} {stack args : List Operand} {inPlace : Bool}

/-- The functions that wait for one that is called: the present one too, without the operands that it
hands over, unless the call takes its place. -/
def Machine.waiting (m : Machine σ) (taken : Nat) (stack : List Operand) (inPlace : Bool) :
    List Frame :=
  if inPlace then m.callers
  else { m.frame with code := m.frame.code.tail, stack := stack.drop taken, pending := 0 } :: m.callers

/-- A step that calls a function invokes it where the heap and the host are as they were. -/
theorem step_of_calls (h : m.Calls addr stack inPlace) :
    ∃ fuel, m.step = Machine.invoke { m.resources with fuel } m.maxFrames
      (m.waiting (m.arityAt addr) stack inPlace) addr stack := by
  cases h with
  | call hcode =>
    unfold Machine.step Machine.waiting
    rw [hcode]
    exact ⟨_, rfl⟩
  | callIndirect hcode htarget =>
    unfold Machine.step Machine.waiting
    rw [hcode]
    exact ⟨_, callTable_of_target (m := m.taken _ _) htarget _⟩
  | returnCall hcode =>
    unfold Machine.step
    rw [hcode]
    exact ⟨_, rfl⟩
  | returnCallIndirect hcode htarget =>
    unfold Machine.step
    rw [hcode]
    exact ⟨_, callTable_of_target (m := m.taken _ _) htarget _⟩

theorem resume_not_hostFailed (r : Resources σ) (maxFrames : Nat) (callers : List Frame)
    (values : List Operand) :
    Machine.resume r maxFrames callers values ≠ .stopped (.hostFailed e) r' := by
  cases callers with
  | nil => exact fun h => nomatch h
  | cons f rest => exact fun h => nomatch h

theorem meter_not_hostFailed (m : Machine σ) : m.meter ≠ .stopped (.hostFailed e) r' := by
  unfold Machine.meter
  split
  · exact fun h => nomatch h
  · exact fun h => nomatch h

theorem enter_not_hostFailed (r : Resources σ) (maxFrames : Nat) (callers : List Frame)
    (c : Closure) (args : List Operand) :
    Machine.enter r maxFrames callers c args ≠ .stopped (.hostFailed e) r' := by
  unfold Machine.enter
  dsimp only
  split
  · exact fun h => nomatch h
  · exact meter_not_hostFailed _

/-- Invoking a function ends with a failure of the host exactly if it is a host function that
fails. -/
theorem invoke_hostFailed_iff :
    (∃ r', Machine.invoke r maxFrames callers addr stack = .stopped (.hostFailed e) r') ↔
      ∃ f, r.heap.funcs[addr]? = some (.host f) ∧
        (f.call (topOf f.type.params stack) r.world).1 = .error e := by
  unfold Machine.invoke
  constructor
  · rintro ⟨r', h⟩
    split at h
    · -- no function is there
      exact nomatch (Progress.stopped.inj h).1
    · exact absurd h (enter_not_hostFailed _ _ _ _ _)
    · rename_i f hf
      split at h
      · rename_i e' world hcall
        refine ⟨f, hf, ?_⟩
        rw [hcall]
        have hstop := (Progress.stopped.inj h).1
        rw [Stop.hostFailed.inj hstop]
      · exact absurd h (resume_not_hostFailed _ _ _ _)
  · rintro ⟨f, hf, hcall⟩
    rw [hf]
    dsimp only
    cases hout : f.call (topOf f.type.params stack) r.world with
    | mk answer world =>
      rw [hout] at hcall
      have hanswer : answer = .error e := hcall
      subst hanswer
      exact ⟨_, rfl⟩

/-- A step ends with a failure of the host exactly if it calls a host function that fails: of all moves
only calls can end in this way. -/
theorem step_hostFailed_iff :
    (∃ r', m.step = .stopped (.hostFailed e) r') ↔
      ∃ addr stack inPlace f, m.Calls addr stack inPlace ∧
        m.resources.heap.funcs[addr]? = some (.host f) ∧
        (f.call (topOf f.type.params stack) m.resources.world).1 = .error e := by
  constructor
  · rintro ⟨r', h⟩
    obtain ⟨v, hv⟩ := exists_decides m
    have hstep : m.step = m.make v := hv.step m.resources.world
    rw [hstep] at h
    cases v with
    | stays frame ws => exact nomatch h
    | repeats frame => exact absurd h (meter_not_hostFailed _)
    | returns frame => exact absurd h (resume_not_hostFailed _ _ _ _)
    | calls frame addr inPlace =>
      obtain ⟨f, hf, hcall⟩ := invoke_hostFailed_iff.mp ⟨r', h⟩
      exact ⟨addr, frame.stack, inPlace, f, hv.calls frame addr inPlace rfl, hf, hcall⟩
    | traps frame code charged => exact nomatch h
  · rintro ⟨addr, stack, inPlace, f, hcalls, hf, hcall⟩
    obtain ⟨fuel, hstep⟩ := step_of_calls hcalls
    rw [hstep]
    exact invoke_hostFailed_iff.mpr ⟨f, hf, hcall⟩

/-- A run ends with a failure of the host exactly if a machine that it comes to steps into it. -/
theorem run_hostFailed_iff (bound : Nat) :
    (m.run bound).1 = .hostFailed e ↔
      ∃ n m', n < bound ∧ Machine.Steps n m m' ∧ ∃ r', m'.step = .stopped (.hostFailed e) r' := by
  induction bound generalizing m with
  | zero =>
    constructor
    · exact fun h => nomatch h
    · rintro ⟨n, m', hn, _⟩
      exact absurd hn (Nat.not_lt_zero n)
  | succ bound ih =>
    rw [Machine.run]
    constructor
    · intro h
      cases hstep : m.step with
      | running m₁ =>
        rw [hstep] at h
        obtain ⟨n, m', hn, hsteps, hstop⟩ := ih.mp h
        exact ⟨n + 1, m', Nat.succ_lt_succ hn, .succ hstep hsteps, hstop⟩
      | stopped s r =>
        rw [hstep] at h
        have hs : s = .hostFailed e := h
        subst hs
        exact ⟨0, m, Nat.succ_pos bound, .zero m, r, hstep⟩
    · rintro ⟨n, m', hn, hsteps, r', hstop⟩
      cases hsteps with
      | zero =>
        rw [hstop]
      | @succ n _ m₁ _ hstep hsteps =>
        rw [hstep]
        exact ih.mpr ⟨n, m', Nat.lt_of_succ_lt_succ hn, hsteps, r', hstop⟩

/-- Calling a function from outside ends with a failure of the host exactly if that comes to calling
a host function that fails. A host function that is called at once is consulted without any step. -/
theorem call_hostFailed_iff :
    (r.call maxFrames addr args).1 = .hostFailed e ↔
      ∃ f operands world, r.Consults maxFrames addr args f operands world ∧
        (f.call operands world).1 = .error e := by
  unfold Resources.call
  constructor
  · intro h
    cases hm : Machine.invoke r maxFrames [] addr args.reverse with
    | running m =>
      rw [hm] at h
      obtain ⟨n, m', hn, hsteps, hstop⟩ := (run_hostFailed_iff maxSteps).mp h
      obtain ⟨callee, stack, inPlace, f, hcalls, hf, hcall⟩ := step_hostFailed_iff.mp hstop
      exact ⟨f, _, _, .later hm hsteps hn hcalls hf, hcall⟩
    | stopped s r' =>
      rw [hm] at h
      have hs : s = .hostFailed e := h
      subst hs
      obtain ⟨f, hf, hcall⟩ := invoke_hostFailed_iff.mp ⟨r', hm⟩
      exact ⟨f, _, _, .atOnce hf, hcall⟩
  · rintro ⟨f, operands, world, hconsults, hcall⟩
    cases hconsults with
    | atOnce hf =>
      obtain ⟨r', hstop⟩ : ∃ r', Machine.invoke r maxFrames [] addr args.reverse =
          .stopped (.hostFailed e) r' := invoke_hostFailed_iff.mpr ⟨f, hf, hcall⟩
      rw [hstop]
    | later hm hsteps hn hcalls hf =>
      rw [hm]
      have hstop := step_hostFailed_iff.mpr ⟨_, _, _, f, hcalls, hf, hcall⟩
      exact (run_hostFailed_iff maxSteps).mpr ⟨_, _, hn, hsteps, hstop⟩

end WasmEmbed
