import WasmEmbed.Proofs.Realm.Consistency

/-! What decides a call. The store comes first, then the number of arguments, then the arguments
from the first on; a call that is refused by any of these leaves no trace, and any other reaches the
code with what the arguments convert to. -/
namespace WasmEmbed
variable {σ : Type}

section Convert
variable {α : Type} {convert : α → ValType → Position → Nat → Except Error Val}

/-- What becomes of a call whose arguments are converted by `convert`: of the cases, each of which
excludes those before it, the one that holds. -/
inductive Func.Gate (f : Func) (s : Store σ)
    (convert : α → ValType → Position → Nat → Except Error Val) (args : List α) :
    Except Error (List Val) → Prop where
  | foreign (h : f.store.id ≠ s.id) : Gate f s convert args (.error (.storeMismatch "function"))
  | destroyed (h : f.store.id = s.id) (hc : s.isAlive = false) :
    Gate f s convert args (.error (.useAfterFree "function"))
  | arity (h : f.store.id = s.id) (hc : s.isAlive = true)
    (hn : f.type.params.length ≠ args.length) :
    Gate f s convert args (.error (.arity f.type.params.length args.length))
  /-- The argument at `i` does not convert, and all before it do. -/
  | argument (h : f.store.id = s.id) (hc : s.isAlive = true)
    (hn : f.type.params.length = args.length) {i : Nat} {t : ValType} {x : α} {got : String}
    (ht : f.type.params[i]? = some t) (hx : args[i]? = some x)
    (hfails : convert x t .argument i = .error (.type .argument i t.text got))
    (hbefore : ∀ j < i, ∀ t x, f.type.params[j]? = some t → args[j]? = some x →
      ∃ v, convert x t .argument j = .ok v) :
    Gate f s convert args (.error (.type .argument i t.text got))
  /-- The value at each place is what the argument there converts to. -/
  | accepted (h : f.store.id = s.id) (hc : s.isAlive = true)
    (hn : f.type.params.length = args.length) {vs : List Val} (hlength : vs.length = args.length)
    (hvs : ∀ i t x v, f.type.params[i]? = some t → args[i]? = some x → vs[i]? = some v →
      convert x t .argument i = .ok v) :
    Gate f s convert args (.ok vs)

/-- Whatever `convert` refuses, it refuses for its type, and says where. -/
def Refuses (convert : α → ValType → Position → Nat → Except Error Val) : Prop :=
  ∀ x t position i e, convert x t position i = .error e → ∃ got, e = .type position i t.text got

/-- By induction on the types, with the index of the first of the rest moved on by one. -/
theorem convertAll_values {i : Nat} {ts : List ValType} {xs : List α} {vs : List Val}
    (hn : ts.length = xs.length) (hlength : vs.length = xs.length)
    (hvs : ∀ j t x v, ts[j]? = some t → xs[j]? = some x → vs[j]? = some v →
      convert x t .argument (i + j) = .ok v) : convertAll convert i ts xs = .ok vs := by
  induction ts generalizing i xs vs with
  | nil =>
    have hxs : xs = [] := List.length_eq_zero_iff.mp hn.symm
    rw [hxs] at hlength
    rw [List.length_eq_zero_iff.mp hlength]
    rfl
  | cons t ts ih =>
    cases xs with
    | nil => exact absurd hn (by simp)
    | cons x xs =>
      cases vs with
      | nil => exact absurd hlength (by simp)
      | cons v vs =>
        have hfirst : convert x t .argument i = .ok v := hvs 0 t x v rfl rfl rfl
        have hrest : convertAll convert (i + 1) ts xs = .ok vs := by
          apply ih (Nat.succ.inj hn) (Nat.succ.inj hlength)
          intro j t' x' v' ht hx hv
          have hj : i + 1 + j = i + (j + 1) := by omega
          rw [hj]
          exact hvs (j + 1) t' x' v' ht hx hv
        rw [convertAll, hfirst, hrest]
        rfl

/-- Either the first argument is the one that is refused, or it is among the rest. -/
theorem convertAll_refused {i j : Nat} {ts : List ValType} {xs : List α} {t : ValType} {x : α}
    {e : Error} (ht : ts[j]? = some t) (hx : xs[j]? = some x)
    (hfails : convert x t .argument (i + j) = .error e)
    (hbefore : ∀ k < j, ∀ t x, ts[k]? = some t → xs[k]? = some x →
      ∃ v, convert x t .argument (i + k) = .ok v) : convertAll convert i ts xs = .error e := by
  induction ts generalizing i j xs with
  | nil => contradiction
  | cons t' ts ih =>
    cases xs with
    | nil => contradiction
    | cons x' xs =>
      cases j with
      | zero =>
        rw [← Option.some.inj ht, ← Option.some.inj hx, Nat.add_zero] at hfails
        rw [convertAll, hfails]
        rfl
      | succ j =>
        obtain ⟨v, hv⟩ := hbefore 0 (Nat.succ_pos j) t' x' rfl rfl
        have hv : convert x' t' .argument i = .ok v := hv
        have hshift (k : Nat) : i + 1 + k = i + (k + 1) := by omega
        have hrest : convertAll convert (i + 1) ts xs = .error e := by
          apply ih ht hx
          · rw [hshift]
            exact hfails
          · intro k hk
            rw [hshift]
            exact hbefore (k + 1) (Nat.succ_lt_succ hk)
        rw [convertAll, hv, hrest]
        rfl

/-- Either all values convert, or there is a first that does not. The first argument decides, unless
it converts; then the rest does. -/
theorem values_or_refused (hconvert : Refuses convert) (i : Nat) (ts : List ValType) (xs : List α)
    (hn : ts.length = xs.length) :
    (∃ vs : List Val, vs.length = xs.length ∧
      ∀ j t x v, ts[j]? = some t → xs[j]? = some x → vs[j]? = some v →
        convert x t .argument (i + j) = .ok v) ∨
    ∃ j t x got, ts[j]? = some t ∧ xs[j]? = some x ∧
      convert x t .argument (i + j) = .error (.type .argument (i + j) t.text got) ∧
      ∀ k < j, ∀ t x, ts[k]? = some t → xs[k]? = some x →
        ∃ v, convert x t .argument (i + k) = .ok v := by
  induction ts generalizing i xs with
  | nil =>
    refine Or.inl ⟨[], hn, ?_⟩
    intro j t x v ht
    contradiction
  | cons t ts ih =>
    cases xs with
    | nil => exact absurd hn (by simp)
    | cons x xs =>
      have hshift (k : Nat) : i + (k + 1) = i + 1 + k := by omega
      cases hc : convert x t .argument i with
      | error e =>
        obtain ⟨got, rfl⟩ := hconvert x t .argument i e hc
        refine Or.inr ⟨0, t, x, got, rfl, rfl, hc, ?_⟩
        intro k hk
        exact absurd hk (Nat.not_lt_zero k)
      | ok v =>
        rcases ih (i + 1) xs (Nat.succ.inj hn) with
          ⟨vs, hlength, hvs⟩ | ⟨j, t', x', got, ht, hx, hfails, hbefore⟩
        · refine Or.inl ⟨v :: vs, congrArg Nat.succ hlength, ?_⟩
          intro j t' x' v' ht hx hv
          cases j with
          | zero =>
            rw [← Option.some.inj ht, ← Option.some.inj hx, ← Option.some.inj hv]
            exact hc
          | succ j =>
            rw [hshift]
            exact hvs j t' x' v' ht hx hv
        · refine Or.inr ⟨j + 1, t', x', got, ht, hx, ?_, ?_⟩
          · rw [hshift]
            exact hfails
          · intro k hk t' x' ht hx
            cases k with
            | zero =>
              rw [← Option.some.inj ht, ← Option.some.inj hx]
              exact ⟨v, hc⟩
            | succ k =>
              rw [hshift]
              exact hbefore k (Nat.lt_of_succ_lt_succ hk) t' x' ht hx

/-- A store that is not there for the handle is told before anything about the arguments. -/
theorem prepare_of_contentsFor {f : Func} {s : Store σ} {e : Error}
    (h : s.contentsFor f.store "function" = .error e) (args : List α) :
    f.prepare s args convert = .error e := by
  rw [Func.prepare, h]
  rfl

/-- Where the store is there, the number of arguments is told before their types. -/
theorem prepare_live {f : Func} {s : Store σ} (h : f.store.id = s.id) (hc : s.isAlive = true)
    (args : List α) :
    f.prepare s args convert =
      if f.type.params.length ≠ args.length then .error (.arity f.type.params.length args.length)
      else convertAll convert 0 f.type.params args := by
  obtain ⟨c, hc⟩ := (isAlive_iff s).mp hc
  rw [Func.prepare, contentsFor_live h hc]
  change (if _ then _ else _) = _
  split
  · rfl
  · rfl

/-- The gate leaves nothing open: what it decides is what the call does. -/
theorem gate_decides {f : Func} {s : Store σ} {args : List α} {d : Except Error (List Val)}
    (hg : f.Gate s convert args d) : f.prepare s args convert = d := by
  cases hg with
  | foreign h => exact prepare_of_contentsFor (contentsFor_foreign h _) args
  | destroyed h hc =>
    have hnone := (isAlive_eq_false_iff s).mp hc
    exact prepare_of_contentsFor (contentsFor_destroyed h hnone _) args
  | arity h hc hn => rw [prepare_live h hc, if_pos hn]
  | argument h hc hn ht hx hfails hbefore =>
    rw [prepare_live h hc, if_neg (not_not.mpr hn)]
    apply convertAll_refused ht hx
    · rw [Nat.zero_add]
      exact hfails
    · simpa only [Nat.zero_add] using hbefore
  | accepted h hc hn hlength hvs =>
    rw [prepare_live h hc, if_neg (not_not.mpr hn)]
    apply convertAll_values hn hlength
    simpa only [Nat.zero_add] using hvs

/-- One of the cases of the gate holds. -/
theorem gate_total (hconvert : Refuses convert) (f : Func) (s : Store σ) (args : List α) :
    ∃ d, f.Gate s convert args d := by
  by_cases h : f.store.id = s.id
  · cases hc : s.isAlive with
    | false => exact ⟨_, .destroyed h hc⟩
    | true =>
      by_cases hn : f.type.params.length = args.length
      · rcases values_or_refused hconvert 0 f.type.params args hn with
          ⟨vs, hlength, hvs⟩ | ⟨i, t, x, got, ht, hx, hfails, hbefore⟩
        · simp only [Nat.zero_add] at hvs
          exact ⟨_, .accepted h hc hn hlength hvs⟩
        · simp only [Nat.zero_add] at hfails hbefore
          exact ⟨_, .argument h hc hn ht hx hfails hbefore⟩
      · exact ⟨_, .arity h hc hn⟩
  · exact ⟨_, .foreign h⟩

/-- The gate decides as the call does. -/
theorem gate_prepare (hconvert : Refuses convert) (f : Func) (s : Store σ) (args : List α) :
    f.Gate s convert args (f.prepare s args convert) := by
  obtain ⟨d, hd⟩ := gate_total hconvert f s args
  rw [gate_decides hd]
  exact hd

end Convert

theorem refuses_coerce : Refuses coerce := by
  intro v t position i e h
  unfold coerce at h
  split at h
  · contradiction
  · exact ⟨_, (Except.error.inj h).symm⟩

theorem refuses_checkType : Refuses checkType := by
  intro v t position i e h
  unfold checkType at h
  split at h
  · contradiction
  · exact ⟨_, (Except.error.inj h).symm⟩

/-- The back end ran the function once, with the values `vs`, on what the store holds: the answer is
its report, the store and the host have what it left of its resources, and the store has counted the
call. -/
def Func.Ran (f : Func) (s : Store σ) (vs : List Val) (reply : List Val → Reply) (r : Realm σ)
    (out : Answer × Realm σ) : Prop :=
  ∃ c d : Contents σ, s.contents = some c ∧
    let back := (c.resources r.world).call s.maxFrames f.addr (vs.map .val)
    let values := back.1.report false >>= leaveAll .result 0
    out.1 = .reply (values.map reply) (some (bif values.isOk then .bound else .faulted)) ∧
      out.2 = { r.setStore (s.withContents d) with world := back.2.world } ∧
      d.resources back.2.world = back.2 ∧ d.nextInstance = c.nextInstance ∧
      d.metrics.calls = c.metrics.calls + 1

/-- What is decided is done: a refusal is the answer, and all else is as it was. -/
def Func.Decided (f : Func) (s : Store σ) (d : Except Error (List Val))
    (reply : List Val → Reply) (r : Realm σ) (out : Answer × Realm σ) : Prop :=
  match d with
  | .error e => out = (.reply (.error e) (some f.state), r)
  | .ok vs => f.Ran s vs reply r out

/-- What code leaves of its store and host is put back, whatever the call is answered. -/
theorem run_ran (f : Func) {s : Store σ} {c : Contents σ} (hc : s.contents = some c) (r : Realm σ)
    (vs : List Val) (reply : List Val → Reply) :
    let o := f.run s c r.world vs
    f.Ran s vs reply r (.reply (o.result.map reply) (some o.state),
      { r.setStore o.store with world := o.world }) := by
  intro o
  obtain ⟨d, hstore, hresources, hnext, hcalls⟩ := run_store f s c r.world vs
  have hworld := congrArg Resources.world hresources
  refine ⟨c, d, hc, ?_, ?_, ?_, hnext, hcalls⟩
  · obtain ⟨hresult, hstate⟩ := run_result f s c r.world vs
    rw [hstate, hresult]
  · rw [hstore, ← hworld]
    rfl
  · rw [← hworld]
    exact hresources

/-- A call through the gate, by either entry point, answered by what `reply` makes of the values. -/
theorem callWith_decided {α : Type} {convert : α → ValType → Position → Nat → Except Error Val}
    (hconvert : Refuses convert) {r : Realm σ} (hr : r.Consistent) {s : Store σ}
    (hs : s ∈ r.stores) (f : Func) (args : List α) (reply : List Val → Reply) :
    let o := f.callWith convert s r.world args
    ∃ d, (∀ d', f.Gate s convert args d' ↔ d' = d) ∧
      f.Decided s d reply r (.reply (o.result.map reply) (some o.state),
        { r.setStore o.store with world := o.world }) := by
  intro o
  refine ⟨f.prepare s args convert, ?_, ?_⟩
  · intro d
    constructor
    · intro h
      exact (gate_decides h).symm
    · intro h
      rw [h]
      exact gate_prepare hconvert f s args
  · rcases callWith_cases convert f s args with ⟨e, hp, h⟩ | ⟨c, vs, hc, hp, h⟩
    · -- the store is put back as it was found
      have ho : o = ⟨.error e, f.state, s, r.world⟩ := h r.world
      rw [hp, ho]
      change (_, { r.setStore s with world := r.world }) = (_, r)
      rw [setStore_self hr hs]
      rfl
    · have ho : o = f.run s c r.world vs := h r.world
      rw [hp, ho]
      exact run_ran f hc r vs reply

/-- A call with values of the host is answered with what its results are to the host. -/
theorem perform_call_result (s : Store σ) (world : σ) (f : Func) (args : List HostValue) :
    (s.perform world (.call f args)).result =
      (f.callWith coerce s world args).result.map fun vs => .returns (.ofList (vs.map .ofVal)) := by
  change ((f.callWith coerce s world args).result.map _).map _ = _
  cases (f.callWith coerce s world args).result with
  | error e => rfl
  | ok vs => rfl

/-- In every state that a host can come to, and for every function and store, a call with host
values or with typed ones is decided by the gate alone: by one of the four refusals, which leave
everything as it was, or by one list of values, with which the function runs. -/
theorem call_decided_by_gate {history : List (Event σ)} {r : Realm σ} (hr : Run history r)
    {s : Store σ} (hs : s ∈ r.stores) (f : Func) :
    (∀ args : List HostValue, ∃ d, (∀ d', f.Gate s coerce args d' ↔ d' = d) ∧
      f.Decided s d (fun vs => .returns (.ofList (vs.map .ofVal))) r
        (r.perform (.use s.id (.call f args)))) ∧
    ∀ args : List Val, ∃ d, (∀ d', f.Gate s checkType args d' ↔ d' = d) ∧
      f.Decided s d .values r (r.perform (.use s.id (.callTyped f args))) := by
  have hcons := consistent_of_run hr
  have hfound := store?_of_mem hcons hs
  constructor
  · intro args
    obtain ⟨d, hd, hdecided⟩ := callWith_decided refuses_coerce hcons hs f args
      fun vs => .returns (.ofList (vs.map .ofVal))
    refine ⟨d, hd, ?_⟩
    rw [perform_use hfound, perform_call_result]
    exact hdecided
  · intro args
    obtain ⟨d, hd, hdecided⟩ := callWith_decided refuses_checkType hcons hs f args .values
    refine ⟨d, hd, ?_⟩
    rw [perform_use hfound]
    exact hdecided

/-- A function of one store is called with another, and with an argument too many: the store comes
first. -/
theorem call_with_other_store :
    Realm.pair.perform (.use 1 (.callTyped ⟨⟨3, 4⟩, 0, 0, "f", ⟨[], []⟩, 0, .bound⟩ [.i32 0])) =
      (.reply (.error (.storeMismatch "function")) (some .bound), Realm.pair) := by
  obtain ⟨d, hd, hdecided⟩ := (call_decided_by_gate run_pair (s := Realm.pair.stores[1])
    (List.getElem_mem _) ⟨⟨3, 4⟩, 0, 0, "f", ⟨[], []⟩, 0, .bound⟩).2 [.i32 0]
  have hforeign := (hd _).mp (.foreign (by decide))
  rw [← hforeign] at hdecided
  exact hdecided

end WasmEmbed
