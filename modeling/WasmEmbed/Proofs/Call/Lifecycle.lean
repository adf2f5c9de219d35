import WasmEmbed.Handles
import WasmEmbed.Proofs.Call.Gate
import WasmEmbed.Proofs.Call.Passing
import WasmEmbed.Proofs.Instance.Stages
import WasmEmbed.Proofs.Realm.Opening

/-! What is done with function handles, one thing after the other. A call that comes to code sets the
state of its handle by its answer; all else leaves the handle alone, and no call goes otherwise for
the state of its handle. -/
namespace WasmEmbed
variable {σ : Type}

/-- A refusal of a call, for the store, the number of the arguments, or one of them. -/
inductive Error.RefusesCall : Error → Prop where
  | storeMismatch : RefusesCall (.storeMismatch "function")
  | useAfterFree : RefusesCall (.useAfterFree "function")
  | arity (expected got : Nat) : RefusesCall (.arity expected got)
  | argument (index : Nat) (expected got : String) :
    RefusesCall (.type .argument index expected got)

/-- The way in which code that was run fails: it is stopped, or a result does not leave the store. -/
inductive Error.FailsCall : Error → Prop where
  | stopped {e : Error} (h : e.Stops false) : FailsCall e
  | result (index : Nat) (expected got : String) : FailsCall (.type .result index expected got)

/-- What is done is a call through the handle at a place, which is `f`, and its arguments are
converted to these values, or refused. -/
inductive Deed.Calls (d : Deed σ) (k : Nat) (f : Func) : Except Error (List Val) → Prop where
  | call {store : Nat} {args : List HostValue} {s : Store σ} (hact : d.act = .call k store args)
    (hf : d.host.handles[k]? = some f) (hs : d.host.realm.store? store = some s) :
    Calls d k f (f.prepare s args coerce)
  | callTyped {store : Nat} {args : List Val} {s : Store σ} (hact : d.act = .callTyped k store args)
    (hf : d.host.handles[k]? = some f) (hs : d.host.realm.store? store = some s) :
    Calls d k f (f.prepare s args checkType)

/-- What is done is a call through the handle at a place, and it comes to code. -/
def Deed.Reaches (d : Deed σ) (k : Nat) : Prop := ∃ f vs, d.Calls k f (.ok vs)

/-- What is done is answered with an error. -/
def Deed.Fails (d : Deed σ) : Prop := ∃ e, d.answer.result? = some (.error e)

/-- The last of the calls through the handle at a place that came to code has failed. -/
def LastFailed (k : Nat) (deeds : List (Deed σ)) : Prop :=
  ∃ earlier d later, deeds = earlier ++ d :: later ∧ d.Reaches k ∧ d.Fails ∧
    ∀ d' ∈ later, ¬ d'.Reaches k

/-- The deed is that a function is looked up, and it is found. -/
def Deed.Finds (d : Deed σ) (f : Func) : Prop :=
  (∃ store i name, d.act = .lookup store i name) ∧ d.answer.func? = some f

/-- The handle at a place was got by looking a function up. -/
def LookedUp (k : Nat) (deeds : List (Deed σ)) : Prop :=
  ∃ d ∈ deeds, d.host.handles.length = k ∧ ∃ f, d.Finds f

variable {deeds : List (Deed σ)} {d : Deed σ} {h : Host σ} {k : Nat} {f g : Func}
  {decided : Except Error (List Val)} {e : Error} {vs : List Val}

section Outcome

/-- How a call goes, by what its arguments are converted to: its answer, and the state that its handle
is left in. -/
inductive Func.Outcome (f : Func) :
    Except Error (List Val) → Except Error Reply → FuncState → Prop where
  | refused {e : Error} (h : e.RefusesCall) : Outcome f (.error e) (.error e) f.state
  | failed {vs : List Val} {e : Error} (h : e.FailsCall) : Outcome f (.ok vs) (.error e) .faulted
  | returned (vs : List Val) (reply : Reply) : Outcome f (.ok vs) (.ok reply) .bound

/-- A call that is not let through fails with a refusal. -/
theorem prepare_refusesCall {α : Type} {convert : α → ValType → Position → Nat → Except Error Val}
    (hconvert : Refuses convert) {s : Store σ} {args : List α}
    (h : f.prepare s args convert = .error e) : e.RefusesCall := by
  have hgate := gate_prepare hconvert f s args
  rw [h] at hgate
  cases hgate with
  | foreign _ => exact .storeMismatch
  | destroyed _ _ => exact .useAfterFree
  | arity _ _ _ => exact .arity _ _
  | argument _ _ _ _ _ _ _ => exact .argument _ _ _

/-- A call also fails where the code has finished, but one of its results is a function and cannot
leave the store. -/
theorem run_failsCall {s : Store σ} {c : Contents σ} {world : σ}
    (h : (f.run s c world vs).result = .error e) : e.FailsCall := by
  rw [(run_result f s c world vs).1] at h
  cases hreport : ((c.resources world).call s.maxFrames f.addr (vs.map .val)).1.report false with
  | error e' =>
    rw [hreport] at h
    rw [← Except.error.inj h]
    exact .stopped (report_error hreport)
  | ok values =>
    rw [hreport] at h
    obtain ⟨index, expected, got, rfl⟩ := leaveAll_error h
    exact .result index expected got

/-- What a call is answered and the state it leaves of its handle go together. -/
theorem callWith_outcome {α : Type} {convert : α → ValType → Position → Nat → Except Error Val}
    (hconvert : Refuses convert) (f : Func) (s : Store σ) (world : σ) (args : List α)
    (reply : List Val → Reply) :
    f.Outcome (f.prepare s args convert) ((f.callWith convert s world args).result.map reply)
      (f.callWith convert s world args).state := by
  rcases callWith_cases convert f s args with ⟨e, hp, hrefused⟩ | ⟨c, vs, _, hp, hrun⟩
  · rw [hp, hrefused]
    exact .refused (prepare_refusesCall hconvert hp)
  · rw [hp, hrun, (run_result f s c world vs).2]
    cases hresult : (f.run s c world vs).result with
    | error e => exact .failed (run_failsCall hresult)
    | ok values => exact .returned vs (reply values)

end Outcome

section Deeds

theorem answer_of_request {q : Request σ} (hq : d.act.request? d.host.handles = some q) :
    d.answer = (d.host.realm.perform q).1 := by
  rw [Deed.answer, Host.perform, hq]

/-- The handles afterwards are told by what is done and by its answer. -/
theorem after_handles (d : Deed σ) : d.after.handles = d.act.handles d.host.handles d.answer := rfl

/-- A call through a handle sets the state of that handle. The store is there, so that the answer is
that of the call itself. -/
theorem calls_outcome (h : d.Calls k f decided) :
    ∃ result state, d.answer = .reply result (some state) ∧ f.Outcome decided result state ∧
      d.after.handles = d.host.handles.modify k fun g => { g with state } := by
  cases h with
  | @call store args s hact hf hs =>
    have hq : d.act.request? d.host.handles = some (.use store (.call f args)) := by
      rw [hact, Act.request?, hf]
      rfl
    have hanswer := answer_of_request hq
    rw [perform_use hs] at hanswer
    refine ⟨_, _, hanswer, ?_, ?_⟩
    · rw [perform_call_result]
      exact callWith_outcome refuses_coerce f s d.host.realm.world args _
    · rw [after_handles, hact, hanswer]
      rfl
  | @callTyped store args s hact hf hs =>
    have hq : d.act.request? d.host.handles = some (.use store (.callTyped f args)) := by
      rw [hact, Act.request?, hf]
      rfl
    have hanswer := answer_of_request hq
    rw [perform_use hs] at hanswer
    refine ⟨_, _, hanswer, ?_, ?_⟩
    · exact callWith_outcome refuses_checkType f s d.host.realm.world args .values
    · rw [after_handles, hact, hanswer]
      rfl

/-- A call comes to code just if its store is there and its arguments pass. -/
theorem reaches_of_call {store : Nat} {args : List HostValue} {s : Store σ}
    (hact : d.act = .call k store args) (hf : d.host.handles[k]? = some f)
    (hs : d.host.realm.store? store = some s) (hargs : f.prepare s args coerce = .ok vs) :
    d.Reaches k :=
  ⟨f, vs, hargs ▸ .call hact hf hs⟩

theorem not_reaches_other {j store : Nat} {args : List HostValue}
    (hact : d.act = .call j store args) (hjk : j ≠ k) : ¬ d.Reaches k := by
  rintro ⟨f, vs, hcalls⟩
  generalize Except.ok vs = decided at hcalls
  cases hcalls with
  | call hact' hf hs => exact hjk (Act.call.inj (hact.symm.trans hact')).1
  | callTyped hact' hf hs => exact nomatch hact.symm.trans hact'

theorem handle_of_calls (h : d.Calls k f decided) : d.host.handles[k]? = some f := by
  cases h with
  | call hact hf hs => exact hf
  | callTyped hact hf hs => exact hf

/-- What is not a call through a handle leaves it as it is. -/
theorem handle_kept (hf : d.host.handles[k]? = some f) (hno : ∀ decided, ¬ d.Calls k f decided) :
    d.after.handles[k]? = some f := by
  obtain ⟨hk, _⟩ := List.getElem?_eq_some_iff.mp hf
  have hmissing {j store : Nat} {u : Func → Use σ}
      (hq : d.act.request? d.host.handles = d.host.handles[j]?.map fun f => .use store (u f))
      (hj : j = k → d.host.realm.store? store = none) :
      ((Act.call (σ := σ) j store []).handles d.host.handles d.answer)[k]? = some f := by
    by_cases hjk : j = k
    · rw [hjk, hf] at hq
      rw [answer_of_request hq, perform_use_missing (hj hjk)]
      exact hf
    · rw [Act.handles]
      cases d.answer.state? with
      | none => exact hf
      | some state =>
        dsimp only
        rw [List.getElem?_modify_ne _ _ hjk]
        exact hf
  rw [after_handles]
  cases hact : d.act with
  | ask q => exact hf
  | lookup store i name =>
    change (d.host.handles ++ _)[k]? = _
    rw [List.getElem?_append_left hk]
    exact hf
  | copy j =>
    change (d.host.handles ++ _)[k]? = _
    rw [List.getElem?_append_left hk]
    exact hf
  | call j store args =>
    refine hmissing (u := (.call · args)) (by rw [hact]; rfl) ?_
    rintro rfl
    cases hs : d.host.realm.store? store with
    | none => rfl
    | some s => exact absurd (.call hact hf hs) (hno _)
  | callTyped j store args =>
    refine hmissing (u := (.callTyped · args)) (by rw [hact]; rfl) ?_
    rintro rfl
    cases hs : d.host.realm.store? store with
    | none => rfl
    | some s => exact absurd (.callTyped hact hf hs) (hno _)

/-- What does not come to code through a handle leaves it as it is. A call that is refused sets the
state to what it was. -/
theorem handle_unreached (hf : d.host.handles[k]? = some f) (hno : ¬ d.Reaches k) :
    d.after.handles[k]? = some f := by
  by_cases hcalls : ∃ decided, d.Calls k f decided
  · obtain ⟨decided, hcalls⟩ := hcalls
    obtain ⟨result, state, _, houtcome, hafter⟩ := calls_outcome hcalls
    have hsame : state = f.state := by
      cases houtcome with
      | refused he => rfl
      | failed he => exact absurd ⟨f, _, hcalls⟩ hno
      | returned vs reply => exact absurd ⟨f, vs, hcalls⟩ hno
    rw [hafter, List.getElem?_modify_eq, hf, hsame]
    rfl
  · exact handle_kept hf fun decided hd => hcalls ⟨decided, hd⟩

/-- What comes to code through a handle sets its state by its answer. -/
theorem handle_reached (hf : d.host.handles[k]? = some f) (hreach : d.Reaches k) :
    (d.Fails ∧ d.after.handles[k]? = some { f with state := .faulted }) ∨
      (¬ d.Fails ∧ d.after.handles[k]? = some { f with state := .bound }) := by
  obtain ⟨g, vs, hcalls⟩ := hreach
  obtain ⟨result, state, hanswer, houtcome, hafter⟩ := calls_outcome hcalls
  rw [hafter, List.getElem?_modify_eq, hf, Deed.Fails, hanswer]
  cases houtcome with
  | failed he => exact Or.inl ⟨⟨_, rfl⟩, rfl⟩
  | returned vs reply =>
    right
    refine ⟨?_, rfl⟩
    rintro ⟨e, he⟩
    exact nomatch Option.some.inj he

/-- Where a handle comes from that is at a place after something was done. -/
inductive Deed.Leaves (d : Deed σ) (k : Nat) : Func → Prop where
  | kept {f : Func} (hf : d.host.handles[k]? = some f) (hno : ¬ d.Reaches k) : Leaves d k f
  | failed {f : Func} (hf : d.host.handles[k]? = some f) (hreach : d.Reaches k) (hfails : d.Fails) :
    Leaves d k { f with state := .faulted }
  | returned {f : Func} (hf : d.host.handles[k]? = some f) (hreach : d.Reaches k)
    (hfails : ¬ d.Fails) : Leaves d k { f with state := .bound }
  | found {f : Func} (hk : d.host.handles.length = k) (hfinds : d.Finds f) : Leaves d k f
  | copied {f : Func} {j : Nat} (hk : d.host.handles.length = k) (hact : d.act = .copy j)
    (hf : d.host.handles[j]? = some f) : Leaves d k f

theorem eq_of_appended {α : Type} {xs : List α} {new : Option α} {x : α} (hk : xs.length ≤ k)
    (h : (xs ++ new.toList)[k]? = some x) : xs.length = k ∧ new = some x := by
  rw [List.getElem?_append_right hk] at h
  cases new with
  | none => contradiction
  | some y =>
    obtain ⟨hlt, hy⟩ := List.getElem?_eq_some_iff.mp h
    have hzero : k - xs.length < 1 := hlt
    refine ⟨by omega, ?_⟩
    rw [← hy]
    exact congrArg some (List.getElem_singleton hlt).symm

/-- A handle that is there afterwards was there before, or it is the one that is new. -/
theorem leaves_of_after (h : d.after.handles[k]? = some f) : d.Leaves k f := by
  cases hbefore : d.host.handles[k]? with
  | some g =>
    by_cases hreach : d.Reaches k
    · rcases handle_reached hbefore hreach with ⟨hfails, hafter⟩ | ⟨hfails, hafter⟩
      · rw [← Option.some.inj (hafter.symm.trans h)]
        exact .failed hbefore hreach hfails
      · rw [← Option.some.inj (hafter.symm.trans h)]
        exact .returned hbefore hreach hfails
    · rw [← Option.some.inj ((handle_unreached hbefore hreach).symm.trans h)]
      exact .kept hbefore hreach
  | none =>
    have hk := List.getElem?_eq_none_iff.mp hbefore
    have hmodified {j : Nat} {state : FuncState} :
        (d.host.handles.modify j fun g => { g with state })[k]? = none := by
      rw [List.getElem?_eq_none_iff, List.length_modify]
      exact hk
    rw [after_handles] at h
    cases hact : d.act with
    | ask q =>
      rw [hact] at h
      exact nomatch hbefore.symm.trans h
    | lookup store i name =>
      rw [hact] at h
      obtain ⟨hk, hnew⟩ := eq_of_appended hk h
      exact .found hk ⟨⟨store, i, name, hact⟩, hnew⟩
    | copy j =>
      rw [hact] at h
      obtain ⟨hk, hnew⟩ := eq_of_appended hk h
      exact .copied hk hact hnew
    | call j store args =>
      rw [hact, Act.handles] at h
      split at h
      · exact nomatch hmodified.symm.trans h
      · exact nomatch hbefore.symm.trans h
    | callTyped j store args =>
      rw [hact, Act.handles] at h
      split at h
      · exact nomatch hmodified.symm.trans h
      · exact nomatch hbefore.symm.trans h

end Deeds

section Last

/-- Of the calls that came to code, the one that was just made is the last. -/
theorem lastFailed_of_reaches (hreach : d.Reaches k) :
    LastFailed k (deeds ++ [d]) ↔ d.Fails := by
  constructor
  · -- if the last one to reach code were an earlier one, this one would come after it
    rintro ⟨earlier, d', later, hsplit, _, hfails, hnone⟩
    rcases split_snoc hsplit with ⟨_, rfl⟩ | ⟨rest, rfl, _⟩
    · exact hfails
    · exact absurd hreach (hnone d (List.mem_append_right rest (List.mem_singleton_self d)))
  · intro hfails
    exact ⟨deeds, d, [], rfl, hreach, hfails, fun _ h => absurd h List.not_mem_nil⟩

/-- What does not come to code through a handle leaves the last call as it was. -/
theorem lastFailed_of_not_reaches (hno : ¬ d.Reaches k) :
    LastFailed k (deeds ++ [d]) ↔ LastFailed k deeds := by
  constructor
  · rintro ⟨earlier, d', later, hsplit, hreach, hfails, hnone⟩
    rcases split_snoc hsplit with ⟨_, rfl⟩ | ⟨rest, rfl, rfl⟩
    · exact absurd hreach hno
    · exact ⟨earlier, d', rest, rfl, hreach, hfails, fun x hx =>
        hnone x (List.mem_append_left _ hx)⟩
  · rintro ⟨earlier, d', later, rfl, hreach, hfails, hnone⟩
    refine ⟨earlier, d', later ++ [d], ?_, hreach, hfails, ?_⟩
    · rw [List.append_assoc]
      rfl
    · intro x hx
      rcases List.mem_append.mp hx with hx | hx
      · exact hnone x hx
      · rw [List.mem_singleton.mp hx]
        exact hno

theorem not_lastFailed (hno : ∀ d ∈ deeds, ¬ d.Reaches k) : ¬ LastFailed k deeds := by
  rintro ⟨earlier, d, later, rfl, hreach, _⟩
  exact hno d (List.mem_append_right _ List.mem_cons_self) hreach

theorem lookedUp_last (hk : d.host.handles.length = k) (hfinds : d.Finds f) :
    LookedUp k (deeds ++ [d]) :=
  ⟨d, List.mem_append_right _ List.mem_cons_self, hk, f, hfinds⟩

theorem lookedUp_snoc (h : LookedUp k deeds) : LookedUp k (deeds ++ [d]) := by
  obtain ⟨d', hd', h⟩ := h
  exact ⟨d', List.mem_append_left _ hd', h⟩

end Last

section Irrelevant
variable {s : Store σ} {world : σ} {state : FuncState}

/-- The state of a handle has no influence on the calls through it. -/
theorem callWith_withState {α : Type}
    (convert : α → ValType → Position → Nat → Except Error Val) (f : Func) (state : FuncState)
    (s : Store σ) (world : σ) (args : List α) :
    let o := Func.callWith convert { f with state } s world args
    let o' := f.callWith convert s world args
    o.result = o'.result ∧ o.store = o'.store ∧ o.world = o'.world := by
  have hprepare : Func.prepare { f with state } s args convert = f.prepare s args convert := rfl
  unfold Func.callWith
  rw [hprepare]
  cases f.prepare s args convert with
  | error e => exact ⟨rfl, rfl, rfl⟩
  | ok vs =>
    change (Func.invoke { f with state } s world vs).result = _ ∧ _
    unfold Func.invoke
    dsimp only
    cases s.contentsFor f.store "function" with
    | error e => exact ⟨rfl, rfl, rfl⟩
    | ok c => exact ⟨rfl, rfl, rfl⟩

/-- The uses differ at most in the state of the handle that is called. -/
inductive Use.SameCall : Use σ → Use σ → Prop where
  | call (f : Func) (state : FuncState) (args : List HostValue) :
    SameCall (.call { f with state } args) (.call f args)
  | callTyped (f : Func) (state : FuncState) (args : List Val) :
    SameCall (.callTyped { f with state } args) (.callTyped f args)

/-- The state of its handle plays no part in a call. -/
theorem perform_sameCall {u v : Use σ} (h : u.SameCall v) (r : Realm σ) (store : Nat) :
    (r.perform (.use store u)).1.result? = (r.perform (.use store v)).1.result? ∧
      (r.perform (.use store u)).2 = (r.perform (.use store v)).2 := by
  cases hs : r.store? store with
  | none => rw [perform_use_missing hs, perform_use_missing hs]; exact ⟨rfl, rfl⟩
  | some s =>
    rw [perform_use hs, perform_use hs]
    cases h with
    | call f state args =>
      obtain ⟨hresult, hstore, hworld⟩ := callWith_withState coerce f state s r.world args
      constructor
      · rw [perform_call_result, perform_call_result, hresult]
        rfl
      · change { r.setStore (Func.callWith coerce { f with state } s r.world args).store with
          world := (Func.callWith coerce { f with state } s r.world args).world } = _
        rw [hstore, hworld]
        rfl
    | callTyped f state args =>
      obtain ⟨hresult, hstore, hworld⟩ := callWith_withState checkType f state s r.world args
      constructor
      · change some ((Func.callWith checkType { f with state } s r.world args).result.map _) = _
        rw [hresult]
        rfl
      · change { r.setStore (Func.callWith checkType { f with state } s r.world args).store with
          world := (Func.callWith checkType { f with state } s r.world args).world } = _
        rw [hstore, hworld]
        rfl

end Irrelevant

end WasmEmbed
