import WasmEmbed.Ledger
import WasmEmbed.Proofs.Call.Passing
import WasmEmbed.Proofs.Machine.Consulting
import WasmEmbed.Proofs.Machine.Host

/-! Where code meets the host. A callback sees the operands of its function just as they are, or is
not invoked; code goes on with just what it answers, or does not go on. No other step touches the
state of the host. -/
namespace WasmEmbed
open WasmEmbed.Code
variable {σ : Type}

/-- The ways in which calling a host function can go: the answer, and the state that the host is left
in. Only in the first of them the callback is not invoked. -/
inductive HostFunc.Answers (f : HostFunc σ) (operands : List Operand) (w : σ) :
    Except Error (List Val) → σ → Prop where
  | kept {before : List Val} {addr : Nat} {rest : List Operand}
    (h : operands = before.map .val ++ .func addr :: rest) :
    Answers f operands w (.error (.type .argument before.length "null reference"
      "non-null reference to a function")) w
  | failed {vs : List Val} {e : Error} {after : σ} (h : operands = vs.map .val)
    (hback : f.callback vs w = (.error e, after)) : Answers f operands w (.error e) after
  | miscounted {vs ws : List Val} {after : σ} (h : operands = vs.map .val)
    (hback : f.callback vs w = (.ok ws, after)) (hcount : ws.length ≠ f.type.results.length) :
    Answers f operands w (.error (.arity f.type.results.length ws.length)) after
  /-- The values before the one that is of a wrong type are of the right ones. -/
  | mistyped {vs before rest : List Val} {v : Val} {t : ValType} {ts : List ValType} {after : σ}
    (h : operands = vs.map .val) (hback : f.callback vs w = (.ok (before ++ v :: rest), after))
    (hresults : f.type.results = before.map Val.type ++ t :: ts) (hcount : rest.length = ts.length)
    (hv : v.type ≠ t) :
    Answers f operands w (.error (.type .result before.length t.text v.type.text)) after
  | answered {vs ws : List Val} {after : σ} (h : operands = vs.map .val)
    (hback : f.callback vs w = (.ok ws, after)) (htypes : ws.map Val.type = f.type.results) :
    Answers f operands w (.ok ws) after

section Types
variable {position : Position} {i : Nat} {before rest : List Val} {v : Val} {t : ValType}
  {ts : List ValType}

/-- The first value of a wrong type is the one that is told of. The values before it pass, and each
of them moves the index on by one. -/
theorem checkTypes_mistyped (hv : v.type ≠ t) :
    checkTypes position i (before ++ v :: rest) (before.map Val.type ++ t :: ts) =
      .error (.type position (i + before.length) t.text v.type.text) := by
  induction before generalizing i with
  | nil =>
    have hrefused : checkType v t position i = .error (.type position i t.text v.type.text) :=
      if_neg hv
    rw [List.nil_append, List.map_nil, List.nil_append, checkTypes, hrefused]
    rfl
  | cons u before ih =>
    have hplace : i + 1 + before.length = i + (u :: before).length := by
      rw [List.length_cons]
      omega
    rw [List.cons_append, List.map_cons, List.cons_append, checkTypes, checkType_type, ih, hplace]
    rfl

/-- As many values as types are of these, or some value is the first that is not. -/
theorem types_or_mistyped {ws : List Val} (hcount : ws.length = ts.length) :
    ws.map Val.type = ts ∨ ∃ (before rest : List Val) (v : Val) (t : ValType) (us : List ValType),
      ws = before ++ v :: rest ∧ ts = before.map Val.type ++ t :: us ∧ rest.length = us.length ∧
        v.type ≠ t := by
  induction ws generalizing ts with
  | nil => exact Or.inl (List.length_eq_zero_iff.mp hcount.symm).symm
  | cons w ws ih =>
    cases ts with
    | nil => exact absurd hcount (Nat.succ_ne_zero _)
    | cons t ts =>
      have hrest : ws.length = ts.length := Nat.succ.inj hcount
      by_cases hw : w.type = t
      · rcases ih hrest with htypes | ⟨before, rest, v, u, us, rfl, rfl, hcount, hv⟩
        · left
          rw [List.map_cons, hw, htypes]
        · exact Or.inr ⟨w :: before, rest, v, u, us, rfl, by rw [List.map_cons, hw]; rfl, hcount, hv⟩
      · exact Or.inr ⟨[], ws, w, t, ts, rfl, rfl, hrest, hw⟩

end Types

section Answers
variable {f : HostFunc σ} {operands : List Operand} {vs ws : List Val} {w after : σ}
  {answer : Except Error (List Val)} {e : Error}

theorem host_call_failed (hback : f.callback vs w = (.error e, after)) :
    f.call (vs.map .val) w = (.error e, after) := by
  rw [HostFunc.call, leaveAll_vals]
  dsimp only
  rw [hback]

theorem host_call_returned (hback : f.callback vs w = (.ok ws, after)) :
    f.call (vs.map .val) w =
      if ws.length ≠ f.type.results.length then
        (.error (.arity f.type.results.length ws.length), after)
      else (checkTypes .result 0 ws f.type.results, after) := by
  rw [HostFunc.call, leaveAll_vals]
  dsimp only
  rw [hback]

theorem host_call_of_answers (h : f.Answers operands w answer after) :
    f.call operands w = (answer, after) := by
  cases h with
  | kept h =>
    rw [h, HostFunc.call, leaveAll_kept, Nat.zero_add]
  | failed h hback => rw [h, host_call_failed hback]
  | miscounted h hback hcount => rw [h, host_call_returned hback, if_pos hcount]
  | @mistyped vs before rest v t ts after h hback hresults hcount hv =>
    have hlength : (before ++ v :: rest).length = f.type.results.length := by
      simp [hresults, hcount]
    rw [h, host_call_returned hback, if_neg (Decidable.not_not.mpr hlength), hresults,
      checkTypes_mistyped hv, Nat.zero_add]
  | @answered vs ws after h hback htypes =>
    have hlength : ws.length = f.type.results.length := by rw [← htypes, List.length_map]
    rw [h, host_call_returned hback, if_neg (Decidable.not_not.mpr hlength), ← htypes, checkTypes_types]

/-- There is no other way for the call of a host function to go. The cases are those of the call:
first the operands, then the answer, its length and its types. -/
theorem answers_host_call (f : HostFunc σ) (operands : List Operand) (w : σ) :
    f.Answers operands w (f.call operands w).1 (f.call operands w).2 := by
  suffices h : ∃ answer after, f.Answers operands w answer after by
    obtain ⟨answer, after, h⟩ := h
    rw [host_call_of_answers h]
    exact h
  rcases vals_or_func operands with ⟨vs, hvals⟩ | ⟨before, addr, rest, hkept⟩
  · cases hback : f.callback vs w with
    | mk returned after =>
      cases returned with
      | error e => exact ⟨_, _, .failed hvals hback⟩
      | ok ws =>
        by_cases hcount : ws.length = f.type.results.length
        · rcases types_or_mistyped hcount with htypes | ⟨before, rest, v, t, us, rfl, hus, hrest, hv⟩
          · exact ⟨_, _, .answered hvals hback htypes⟩
          · exact ⟨_, _, .mistyped hvals hback hus hrest hv⟩
        · exact ⟨_, _, .miscounted hvals hback hcount⟩
  · exact ⟨_, _, .kept hkept⟩

/-- What a callback does to the state of the host stays done, also if its answer is refused. -/
theorem host_call_world (f : HostFunc σ) (vs : List Val) (w : σ) :
    (f.call (vs.map .val) w).2 = (f.callback vs w).2 := by
  cases hback : f.callback vs w with
  | mk returned after =>
    cases returned with
    | error e => rw [host_call_failed hback]
    | ok ws =>
      rw [host_call_returned hback]
      split
      · rfl
      · rfl

end Answers

section Ledger
variable (number : Nat) (path : String) (type : FuncType) (b : Behaviour)

/-- A call that reaches a recorded function is told of last, whatever comes of its answer. -/
theorem takeCalls_host_call (vs : List Val) (l : Ledger) :
    ((Ledger.func number path type b).call (vs.map .val) l).2.takeCalls.1 =
      l.takeCalls.1 ++ [⟨path, vs⟩] := by
  rw [host_call_world]
  exact List.reverse_cons

/-- The count that the callback reads after `n` calls includes the one that is made. -/
theorem callback_counted (n : Nat) :
    ((Ledger.func number path type b).callback []
      { counts := Array.replicate (number + 1) n }).1 = b.answer (n + 1) [] := by
  have hcount : (Array.replicate (number + 1) n |>.modify number (· + 1)).getD number 0 = n + 1 := by
    rw [Array.getD_eq_getD_getElem?, Array.getElem?_modify, if_pos rfl, Array.getElem?_replicate,
      if_pos (Nat.lt_succ_self number)]
    rfl
  exact congrArg (b.answer · []) hcount

/-- A recorded function is pure exactly if its answer does not depend on how often it was called. -/
theorem ledger_func_pure_iff :
    (Ledger.func number path type b).Pure ↔
      b ≠ .count ∧ ∀ (e : Error) (after : Nat), b ≠ .fail e after := by
  constructor
  · intro hpure
    have hsame (n : Nat) : b.answer 0 [] = b.answer (n + 1) [] := by
      rw [← callback_counted number path type b n]
      exact hpure [] {} _
    refine ⟨?_, ?_⟩
    · rintro rfl
      exact nomatch hsame 0
    · rintro e after rfl
      have hrefused := hsame after
      rw [Behaviour.answer, Behaviour.answer, if_pos (Nat.zero_le after),
        if_neg (Nat.not_succ_le_self after)] at hrefused
      exact nomatch hrefused
  · rintro ⟨hcount, hfail⟩ args l l'
    cases b with
    | count => exact absurd rfl hcount
    | fail e after => exact absurd rfl (hfail e after)
    | _ => rfl

end Ledger

/-- The next instruction calls a host function, which takes its arguments from a stack. -/
def Machine.CallsHost (m : Machine σ) (f : HostFunc σ) (stack : List Operand) (inPlace : Bool) :
    Prop :=
  ∃ addr, m.Calls addr stack inPlace ∧ m.resources.heap.funcs[addr]? = some (.host f)

/-- What execution comes to by the answer of a host function. -/
def Machine.heed (r : Resources σ) (maxFrames : Nat) (callers : List Frame) :
    Except Error (List Val) → Progress σ
  | .error e => .stopped (.hostFailed e) r
  | .ok values => Machine.resume r maxFrames callers (values.map .val)

section Machine
variable {m : Machine σ} {r : Resources σ} {maxFrames addr : Nat} {callers : List Frame}
  {stack : List Operand} {inPlace : Bool} {f : HostFunc σ} {answer : Except Error (List Val)}
  {after : σ}

theorem invoke_host (maxFrames : Nat) (callers : List Frame)
    (hf : r.heap.funcs[addr]? = some (.host f))
    (h : f.Answers (topOf f.type.params stack) r.world answer after) :
    Machine.invoke r maxFrames callers addr stack =
      Machine.heed { r with world := after } maxFrames callers answer := by
  rw [Machine.invoke, hf]
  dsimp only
  rw [host_call_of_answers h]
  cases answer with
  | error e => rfl
  | ok values => rfl

theorem step_callsHost (hcalls : m.CallsHost f stack inPlace)
    (h : f.Answers (topOf f.type.params stack) m.resources.world answer after) :
    ∃ fuel, m.step = Machine.heed ⟨m.resources.heap, fuel, after⟩ m.maxFrames
      (m.waiting f.type.params.length stack inPlace) answer := by
  obtain ⟨addr, hcall, hf⟩ := hcalls
  obtain ⟨fuel, hstep⟩ := step_of_calls hcall
  have harity : m.arityAt addr = f.type.params.length := by
    rw [Machine.arityAt, hf]
    rfl
  rw [harity] at hstep
  exact ⟨fuel, hstep.trans (invoke_host (r := { m.resources with fuel }) _ _ hf h)⟩

/-- A step that calls no host function leaves the host where it is. -/
theorem step_world (hno : ∀ f stack inPlace, ¬ m.CallsHost f stack inPlace) :
    m.step.resources.world = m.resources.world := by
  obtain ⟨world, hleaves, hworld⟩ := step_leaves m
  rw [hleaves.world]
  exact hworld fun addr stack inPlace f hcalls hf => hno f stack inPlace ⟨addr, hcalls, hf⟩

/-- A run ends where one of its machines stops. Each step that was taken takes one off the bound. -/
theorem run_of_steps {n bound : Nat} {m' : Machine σ} {s : Stop} (hsteps : Machine.Steps n m m')
    (hn : n < bound) (hstop : m'.step = .stopped s r) : m.run bound = (s, r) := by
  induction hsteps generalizing bound with
  | zero m =>
    obtain ⟨bound, rfl⟩ : ∃ b, bound = b + 1 := ⟨bound - 1, by omega⟩
    rw [Machine.run, hstop]
  | succ hstep _ ih =>
    obtain ⟨bound, rfl⟩ : ∃ b, bound = b + 1 := ⟨bound - 1, by omega⟩
    rw [Machine.run, hstep]
    exact ih (Nat.lt_of_succ_lt_succ hn) hstop

end Machine

end WasmEmbed
