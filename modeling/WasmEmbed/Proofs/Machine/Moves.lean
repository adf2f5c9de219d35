import WasmEmbed.Machine.Step

/-! What one step can do. It comes down to one of five moves: the present function goes on, or goes on
if fuel is left, or returns, or calls another, or traps. Which of them it is, is decided by the function
and the heap alone (`exists_decides`), so that what is true of the moves is true of every step. -/
namespace WasmEmbed
open WasmEmbed.Code
variable {σ : Type}

/-- The next instruction calls the function with an address, which takes its arguments from a stack;
in the last two cases it does so in the place of the present function. -/
inductive Machine.Calls (m : Machine σ) : Nat → List Operand → Bool → Prop where
  | call {i : Nat} {rest : List Instr} (h : m.frame.code = .call i :: rest) :
    Calls m (m.link.funcs.getD i 0) m.frame.stack false
  | callIndirect {table type addr : Nat} {rest : List Instr}
    (h : m.frame.code = .callIndirect table type :: rest)
    (htarget : m.resources.heap.target m.link table type
      (m.frame.stack.getD 0 (.ofI32 0)).bits = .ok addr) :
    Calls m addr (m.frame.stack.drop 1) false
  | returnCall {i : Nat} {rest : List Instr} (h : m.frame.code = .returnCall i :: rest) :
    Calls m (m.link.funcs.getD i 0) m.frame.stack true
  | returnCallIndirect {table type addr : Nat} {rest : List Instr}
    (h : m.frame.code = .returnCallIndirect table type :: rest)
    (htarget : m.resources.heap.target m.link table type
      (m.frame.stack.getD 0 (.ofI32 0)).bits = .ok addr) :
    Calls m addr (m.frame.stack.drop 1) true

/-- The writes that an instruction asks for where a function has come to, if it does not trap. Those
that change the flow of control ask for none. -/
def Frame.asks (f : Frame) (h : Heap σ) (i : Instr) : List Write :=
  match plainEffect h f.link f.locals f.stack i with
  | .ok e => e.writes
  | .error _ => []

/-- The writes that the next step performs. -/
def Machine.asks (m : Machine σ) : List Write :=
  match m.frame.code with
  | [] => []
  | i :: _ => m.frame.asks m.resources.heap i

/-- What a step does, with the present function as it has become by then. -/
inductive Move where
  /-- The function goes on, after some writes. -/
  | stays (f : Frame) (ws : List Write)
  /-- The function goes on if fuel is left, at the beginning of a loop. -/
  | repeats (f : Frame)
  | returns (f : Frame)
  /-- The function calls the one with an address, with operands of its own, perhaps in its place. -/
  | calls (f : Frame) (addr : Nat) (inPlace : Bool)
  /-- The function traps, when some fuel was charged. -/
  | traps (f : Frame) (code : TrapCode) (charged : Nat)

def Move.writes : Move → List Write
  | .stays _ ws => ws
  | _ => []

/-- The move is no call and writes nothing. -/
structure Move.Quiet (v : Move) : Prop where
  writes : v.writes = []
  calls : ∀ f addr inPlace, v ≠ .calls f addr inPlace

/-- Makes a move. -/
def Machine.make (m : Machine σ) : Move → Progress σ
  | .stays frame ws =>
    .running { m with
      resources := { m.resources with heap := m.resources.heap.performAll ws }
      frame }
  | .repeats frame => { m with frame }.meter
  | .returns frame => { m with frame }.leave
  | .calls frame addr inPlace => { m with frame }.call addr inPlace
  | .traps frame code charged =>
    { m with resources := { m.resources with fuel := charge m.resources.fuel charged }, frame }.trap code

/-- The same resources where the host is in another state. -/
def Resources.inWorld (r : Resources σ) (world : σ) : Resources σ := { r with world }

def Machine.inWorld (m : Machine σ) (world : σ) : Machine σ :=
  { m with resources := m.resources.inWorld world }

/-- The move is the next one of the machine, wherever the host is. -/
structure Machine.Decides (m : Machine σ) (v : Move) : Prop where
  step : ∀ world, (m.inWorld world).step = (m.inWorld world).make v
  writes : v.writes = m.asks
  calls : ∀ f addr inPlace, v = .calls f addr inPlace → m.Calls addr f.stack inPlace

/-- The machine once its first instruction is taken off the code. -/
def Machine.taken (m : Machine σ) (i : Instr) (rest : List Instr) : Machine σ :=
  { m with frame := { m.frame with code := rest, pending := m.frame.pending + i.cost } }

/-- The machine without the topmost operand. -/
def Machine.popped (m : Machine σ) : Machine σ :=
  { m with frame := { m.frame with stack := m.frame.stack.drop 1 } }

variable {m n : Machine σ} {i : Instr} {rest : List Instr} {v : Move} {addr table type : Nat}
  {fuel : Option Nat}

theorem step_of_cons (hcode : m.frame.code = i :: rest) : m.step = (m.taken i rest).execute i := by
  unfold Machine.step
  rw [hcode]
  rfl

@[simp] theorem charge_zero (fuel : Option Nat) : charge fuel 0 = fuel := by
  cases fuel with
  | none => rfl
  | some n => rfl

/-- What was charged once is not charged again. -/
theorem settle_settle (m : Machine σ) : m.settle.settle = m.settle := by
  unfold Machine.settle
  simp only [charge_zero]

section Plain
variable {e : Effect} {code : TrapCode}

theorem plain_of_ok
    (he : plainEffect m.resources.heap m.frame.link m.frame.locals m.frame.stack i = .ok e) :
    m.plain i = .running { m with
      resources := { m.resources with heap := m.resources.heap.performAll e.writes }
      frame := { m.frame with stack := e.stack, locals := e.locals } } := by rw [Machine.plain, he]

theorem plain_of_error
    (he : plainEffect m.resources.heap m.frame.link m.frame.locals m.frame.stack i = .error code) :
    m.plain i = m.trap code := by rw [Machine.plain, he]

end Plain

section Tables

/-- A call through a table that leads to no function of the right type is a trap. -/
theorem callTable_of_error {code : TrapCode}
    (h : m.resources.heap.target m.link table type (m.frame.stack.getD 0 (.ofI32 0)).bits =
      .error code) (inPlace : Bool) : m.callTable table type inPlace = m.settle.trap code := by
  unfold Machine.callTable
  dsimp only
  split
  · rename_i found hfound
    rw [Except.error.inj (hfound.symm.trans h)]
  · rename_i found hfound
    exact nomatch hfound.symm.trans h

/-- A call through a table is the call of the function that is found there. -/
theorem callTable_of_target
    (h : m.resources.heap.target m.link table type (m.frame.stack.getD 0 (.ofI32 0)).bits = .ok addr)
    (inPlace : Bool) : m.callTable table type inPlace = m.popped.call addr inPlace := by
  have hsettled : m.settle.popped.call addr inPlace = m.popped.call addr inPlace := by
    unfold Machine.call
    have hpopped : m.settle.popped.settle = m.popped.settle :=
      congrArg Machine.popped (settle_settle m)
    rw [hpopped]
  rw [← hsettled]
  unfold Machine.callTable
  dsimp only
  split
  · rename_i code hcode
    exact nomatch hcode.symm.trans h
  · rename_i found hfound
    rw [Except.ok.inj (hfound.symm.trans h)]
    rfl

end Tables

section Deciding

/-- A move replaces the function, so that what it was before does not matter. -/
theorem make_frame (m : Machine σ) (frame : Frame) (v : Move) : { m with frame }.make v = m.make v := by
  cases v <;> rfl

/-- A jump leaves the function or goes on in it, at the end of a block or at the beginning of a loop. -/
theorem jump_decided (m : Machine σ) (depth : Nat) :
    ∃ v : Move, v.Quiet ∧ ∀ world, (m.inWorld world).jump depth = (m.inWorld world).make v := by
  cases hlabels : m.frame.labels.drop depth with
  | nil =>
    refine ⟨.returns m.frame, ⟨rfl, nofun⟩, fun world => ?_⟩
    have hdrop : (m.inWorld world).frame.labels.drop depth = [] := hlabels
    rw [Machine.jump, hdrop]
    rfl
  | cons l outer =>
    cases hagain : l.again with
    | none =>
      refine ⟨.stays { m.frame with
        stack := m.frame.stack.take l.arity ++ l.below, labels := outer, code := l.rest } [],
        ⟨rfl, nofun⟩, fun world => ?_⟩
      have hdrop : (m.inWorld world).frame.labels.drop depth = l :: outer := hlabels
      simp only [Machine.jump, hdrop, hagain]
      rfl
    | some body =>
      refine ⟨.repeats { m.frame with
        stack := m.frame.stack.take l.arity, labels := l :: outer, code := body },
        ⟨rfl, nofun⟩, fun world => ?_⟩
      have hdrop : (m.inWorld world).frame.labels.drop depth = l :: outer := hlabels
      simp only [Machine.jump, hdrop, hagain]
      rfl

/-- At the end of its code a function returns, or goes on after the innermost block. -/
theorem finish_decided (m : Machine σ) :
    ∃ v : Move, v.Quiet ∧ ∀ world, (m.inWorld world).finish = (m.inWorld world).make v := by
  cases hlabels : m.frame.labels with
  | nil =>
    refine ⟨.returns m.frame, ⟨rfl, nofun⟩, fun world => ?_⟩
    have hnil : (m.inWorld world).frame.labels = [] := hlabels
    rw [Machine.finish, hnil]
    rfl
  | cons l outer =>
    refine ⟨.stays { m.frame with
      stack := m.frame.stack.take l.results ++ l.below, labels := outer, code := l.rest } [],
      ⟨rfl, nofun⟩, fun world => ?_⟩
    have hcons : (m.inWorld world).frame.labels = l :: outer := hlabels
    rw [Machine.finish, hcons]
    rfl

theorem decides_of_cons (hcode : m.frame.code = i :: rest)
    (hexecute : ∀ world, ((m.taken i rest).inWorld world).execute i = (m.inWorld world).make v)
    (hwrites : v.writes = m.frame.asks m.resources.heap i)
    (hcalls : ∀ f addr inPlace, v = .calls f addr inPlace → m.Calls addr f.stack inPlace) :
    m.Decides v where
  step world := (step_of_cons (m := m.inWorld world) hcode).trans (hexecute world)
  writes := by rw [hwrites, Machine.asks, hcode]
  calls := hcalls

/-- An instruction that jumps, perhaps without the topmost operand, makes the move of the jump. -/
theorem exists_decides_of_jump (hcode : m.frame.code = i :: rest)
    (hasks : m.frame.asks m.resources.heap i = []) (frame : Frame) (depth : Nat)
    (hexecute : ∀ world, ((m.taken i rest).inWorld world).execute i =
      ({ m with frame }.inWorld world).jump depth) : ∃ v, m.Decides v := by
  obtain ⟨v, hquiet, hjump⟩ := jump_decided { m with frame } depth
  refine ⟨v, decides_of_cons hcode (fun world => ?_) ?_ fun f addr inPlace hv => ?_⟩
  · rw [hexecute, hjump]
    exact make_frame (m.inWorld world) frame v
  · rw [hquiet.writes, hasks]
  · exact absurd hv (hquiet.calls f addr inPlace)

theorem exists_decides_of_callTable (hcode : m.frame.code = i :: rest)
    (hasks : m.frame.asks m.resources.heap i = []) (inPlace : Bool)
    (hexecute : ∀ world, ((m.taken i rest).inWorld world).execute i =
      ((m.taken i rest).inWorld world).callTable table type inPlace)
    (hcalls : ∀ addr, m.resources.heap.target m.link table type
      (m.frame.stack.getD 0 (.ofI32 0)).bits = .ok addr →
        m.Calls addr (m.frame.stack.drop 1) inPlace) : ∃ v, m.Decides v := by
  cases htarget : m.resources.heap.target m.link table type
      (m.frame.stack.getD 0 (.ofI32 0)).bits with
  | error code =>
    refine ⟨.traps (m.taken i rest).frame code (m.taken i rest).frame.pending,
      decides_of_cons hcode (fun world => ?_) hasks.symm nofun⟩
    exact (hexecute world).trans
      (callTable_of_error (m := (m.taken i rest).inWorld world) htarget inPlace)
  | ok addr =>
    refine ⟨.calls (m.taken i rest).popped.frame addr inPlace,
      decides_of_cons hcode (fun world => ?_) hasks.symm ?_⟩
    · exact (hexecute world).trans
        (callTable_of_target (m := (m.taken i rest).inWorld world) htarget inPlace)
    · rintro _ _ _ ⟨⟩
      exact hcalls addr htarget

theorem exists_decides_of_plain (hcode : m.frame.code = i :: rest)
    (hexecute : ∀ world, ((m.taken i rest).inWorld world).execute i =
      ((m.taken i rest).inWorld world).plain i) : ∃ v, m.Decides v := by
  cases he : plainEffect m.resources.heap m.frame.link m.frame.locals m.frame.stack i with
  | error code =>
    refine ⟨.traps (m.taken i rest).frame code 0,
      decides_of_cons hcode (fun world => ?_) ?_ nofun⟩
    · rw [hexecute, plain_of_error (m := (m.taken i rest).inWorld world) he, Machine.make, charge_zero]
      rfl
    · rw [Frame.asks, he]
      rfl
  | ok e =>
    refine ⟨.stays { (m.taken i rest).frame with stack := e.stack, locals := e.locals } e.writes,
      decides_of_cons hcode (fun world => ?_) ?_ nofun⟩
    · exact (hexecute world).trans (plain_of_ok (m := (m.taken i rest).inWorld world) he)
    · rw [Frame.asks, he]
      rfl

/-- Every instruction comes down to a move, and so does the end of the code. -/
theorem exists_decides (m : Machine σ) : ∃ v, m.Decides v := by
  cases hcode : m.frame.code with
  | nil =>
    obtain ⟨v, hquiet, hfinish⟩ := finish_decided m
    refine ⟨v, fun world => ?_, ?_, fun f addr inPlace hv => absurd hv (hquiet.calls f addr inPlace)⟩
    · have hnil : (m.inWorld world).frame.code = [] := hcode
      rw [Machine.step, hnil]
      exact hfinish world
    · rw [hquiet.writes, Machine.asks, hcode]
  | cons i rest =>
    have hstays (frame : Frame) (hasks : m.frame.asks m.resources.heap i = [])
        (hexecute : ∀ world, ((m.taken i rest).inWorld world).execute i =
          .running { m.inWorld world with frame }) : ∃ v, m.Decides v :=
      ⟨.stays frame [], decides_of_cons hcode hexecute hasks.symm nofun⟩
    cases i with
    | unreachable =>
      exact ⟨.traps (m.taken .unreachable rest).frame .unreachable
        (m.taken .unreachable rest).frame.pending,
        decides_of_cons hcode (fun _ => rfl) rfl nofun⟩
    | nop => exact hstays (m.taken .nop rest).frame rfl fun _ => rfl
    | block type body =>
      exact hstays ((m.taken (.block type body) rest).block type body false).frame rfl fun _ => rfl
    | loop type body =>
      exact ⟨.repeats ((m.taken (.loop type body) rest).block type body true).frame,
        decides_of_cons hcode (fun _ => rfl) rfl nofun⟩
    | ifElse type onTrue onFalse =>
      exact hstays ((m.taken (.ifElse type onTrue onFalse) rest).popped.block type
        (if (m.frame.stack.getD 0 (.ofI32 0)).bits = 0 then onFalse else onTrue) false).frame rfl
        fun _ => rfl
    | br depth => exact exists_decides_of_jump hcode rfl (m.taken _ rest).frame depth fun _ => rfl
    | brIf depth =>
      by_cases hzero : (m.frame.stack.getD 0 (.ofI32 0)).bits = 0
      · exact hstays (m.taken (.brIf depth) rest).popped.frame rfl fun _ => if_pos hzero
      · exact exists_decides_of_jump hcode rfl (m.taken _ rest).popped.frame depth
          fun _ => if_neg hzero
    | brTable depths default =>
      exact exists_decides_of_jump hcode rfl (m.taken _ rest).popped.frame
        (depths.getD (m.frame.stack.getD 0 (.ofI32 0)).bits default) fun _ => rfl
    | ret =>
      exact ⟨.returns (m.taken .ret rest).frame, decides_of_cons hcode (fun _ => rfl) rfl nofun⟩
    | call func =>
      refine ⟨.calls (m.taken (.call func) rest).frame (m.link.funcs.getD func 0) false,
        decides_of_cons hcode (fun _ => rfl) rfl ?_⟩
      rintro _ _ _ ⟨⟩
      exact .call hcode
    | callIndirect table type =>
      exact exists_decides_of_callTable hcode rfl false (fun _ => rfl) fun _ => .callIndirect hcode
    | returnCall func =>
      refine ⟨.calls (m.taken (.returnCall func) rest).frame (m.link.funcs.getD func 0) true,
        decides_of_cons hcode (fun _ => rfl) rfl ?_⟩
      rintro _ _ _ ⟨⟩
      exact .returnCall hcode
    | returnCallIndirect table type =>
      exact exists_decides_of_callTable hcode rfl true (fun _ => rfl)
        fun _ => .returnCallIndirect hcode
    | _ => exact exists_decides_of_plain hcode fun _ => rfl

end Deciding

end WasmEmbed
