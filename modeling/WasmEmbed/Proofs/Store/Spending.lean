import WasmEmbed.Proofs.Failure.Taxonomy
import WasmEmbed.Proofs.Machine.Fuel

/-! What one use does to the counters of a store and to its fuel. Calls that pass all checks are
counted with the fuel that they burn; what fails while code is executed is counted as a trap, and at
that a call counts running out of fuel, which the making of an instance does not. -/
namespace WasmEmbed
open WasmEmbed.Code
variable {σ : Type}

/-- The fuel that is gone, where it is metered. -/
def spent : Option Nat → Option Nat → Nat
  | some before, some left => before - left
  | _, _ => 0

/-- The use calls a function and passes all checks. -/
def Store.admits (s : Store σ) : Use σ → Bool
  | .call f args => (f.prepare s args coerce).isOk
  | .callTyped f args => (f.prepare s args checkType).isOk
  | _ => false

def Error.isExhausted : Error → Bool
  | resourceExhausted => true
  | _ => false

/-- There is an error, and it is one of these. -/
def failsBy {α : Type} (p : Error → Bool) : Except Error α → Bool
  | .error e => p e
  | .ok _ => false

/-- The use is a call or makes an instance, and its answer is a trap. -/
def Use.traps (result : Except Error Reply) : Use σ → Bool
  | .call _ _ | .callTyped _ _ | .instantiate _ _ => failsBy Error.isTrap result
  | _ => false

/-- The use is a call, and its answer is that fuel ran out. -/
def Use.starves (result : Except Error Reply) : Use σ → Bool
  | .call _ _ | .callTyped _ _ => failsBy Error.isExhausted result
  | _ => false

/-- What a use that is answered so leaves of the fuel. -/
inductive Use.Leaves (result : Except Error Reply) :
    Use σ → Option Nat → Option Nat → Prop where
  | set (amount : Nat) (fuel : Option Nat) :
    Leaves result (.setFuel amount) fuel (fuel.map fun _ => amount)
  | executed {u : Use σ} {instantiation : Bool} {before after : Option Nat}
    (hu : u.Executes instantiation) (hburns : Burns before after)
    (hstarved : result = .error .resourceExhausted → after = some 0) :
    Leaves result u before after
  | other {u : Use σ} (hset : ∀ amount, u ≠ .setFuel amount)
    (hu : ∀ instantiation, ¬ u.Executes instantiation) (fuel : Option Nat) :
    Leaves result u fuel fuel

/-- What the contents `d` have counted since they were `c`. -/
structure Contents.Counts (c d : Contents σ) (called : Bool) (traps : Nat) : Prop where
  calls : d.metrics.calls = c.metrics.calls + if called then 1 else 0
  consumed : d.metrics.fuelConsumed =
    if called then addFuel c.metrics.fuelConsumed (spent c.fuel d.fuel) else c.metrics.fuelConsumed
  traps : d.metrics.traps = c.metrics.traps + traps

variable {s t : Store σ} {c d : Contents σ} {world : σ} {u : Use σ} {e : Error}

theorem counts_refl (c : Contents σ) : c.Counts c false 0 := ⟨rfl, rfl, rfl⟩

section Answers
variable {α β : Type} {p : Error → Bool} {x : Except Error α}

theorem failsBy_map (f : α → β) : failsBy p (x.map f) = failsBy p x := by
  cases x with
  | error e => rfl
  | ok a => rfl

theorem trapsOf_eq : trapsOf x = if failsBy Error.isTrap x then 1 else 0 := by
  cases x with
  | error e => rfl
  | ok a => rfl

theorem not_trap_of_refused (he : e.OfCall) (hstops : ¬ e.Stops false) :
    e.isTrap = false ∧ e.isExhausted = false := by
  cases he with
  | trap code message => exact absurd (.trap code message) hstops
  | resourceExhausted => exact absurd .outOfFuel hstops
  | _ => exact ⟨rfl, rfl⟩

end Answers

section Call

/-- A run counts one call, with the fuel burnt, and a trap if the back end does not finish. -/
theorem run_counts (f : Func) (s : Store σ) (c : Contents σ) (world : σ) (args : List Val) :
    let back := (c.resources world).call s.maxFrames f.addr (args.map .val)
    ∃ d, (f.run s c world args).store = s.withContents d ∧ d.fuel = back.2.fuel ∧
      c.Counts d true (if (back.1.report false).isOk then 0 else 1) := by
  unfold Func.run
  generalize (c.resources world).call s.maxFrames f.addr (args.map .val) = back
  obtain ⟨stop, r⟩ := back
  dsimp only
  cases stop.report false with
  | error e => exact ⟨_, rfl, rfl, rfl, rfl, rfl⟩
  | ok values =>
    dsimp only
    cases leaveAll .result 0 values with
    | error e => exact ⟨_, rfl, rfl, rfl, rfl, rfl⟩
    | ok vs => exact ⟨_, rfl, rfl, rfl, rfl, rfl⟩

/-- The back end does not finish exactly if the answer is a trap or that fuel ran out, since results
that cannot leave the store are neither. -/
theorem unfinished_eq (stop : Stop) :
    (if (stop.report false).isOk then 0 else 1) =
      (if failsBy Error.isTrap (stop.report false >>= leaveAll .result 0) then 1 else 0) +
        if failsBy Error.isExhausted (stop.report false >>= leaveAll .result 0) then 1 else 0 := by
  cases hreport : stop.report false with
  | error e =>
    cases report_error hreport with
    | trap code message => rfl
    | outOfFuel => rfl
  | ok values =>
    change 0 = (if failsBy Error.isTrap (leaveAll .result 0 values) then 1 else 0) +
      if failsBy Error.isExhausted (leaveAll .result 0 values) then 1 else 0
    cases hleave : leaveAll .result 0 values with
    | error e =>
      obtain ⟨index, expected, got, rfl⟩ := leaveAll_error hleave
      rfl
    | ok vs => rfl

/-- Only the back end reports that fuel ran out; nothing that comes after it does. -/
theorem callWith_counts {α : Type} {convert : α → ValType → Position → Nat → Except Error Val}
    (hconvert : Refuses convert) (f : Func) (args : List α)
    (hd : (f.callWith convert s world args).store.contents = some d) :
    let result := (f.callWith convert s world args).result
    ∃ c, s.contents = some c ∧ Burns c.fuel d.fuel ∧
      (result = .error .resourceExhausted → d.fuel = some 0) ∧
      c.Counts d (f.prepare s args convert).isOk ((if failsBy Error.isTrap result then 1 else 0) +
        if failsBy Error.isExhausted result then 1 else 0) := by
  intro result
  rcases callWith_cases convert f s args with ⟨e, hp, hrefused⟩ | ⟨c, vs, hc, hp, hrun⟩
  · -- a refusal leaves the store alone, and is no failure of the kinds that count
    obtain ⟨hcall, hstops⟩ := prepare_error hconvert hp
    obtain ⟨htrap, hexhausted⟩ := not_trap_of_refused hcall hstops
    have hresult : result = .error e := congrArg CallOutcome.result (hrefused world)
    rw [hrefused] at hd
    refine ⟨d, hd, burns_refl d.fuel, fun h => ?_, ?_⟩
    · rw [Except.error.inj (hresult.symm.trans h)] at hexhausted
      contradiction
    · rw [hp, hresult, failsBy, failsBy, htrap, hexhausted]
      exact counts_refl d
  · obtain ⟨d', hstore, hfuel, hcounts⟩ := run_counts f s c world vs
    have hresult : result = _ := (congrArg CallOutcome.result (hrun world)).trans
      (run_result f s c world vs).1
    rw [hrun, hstore] at hd
    obtain rfl := Option.some.inj hd
    obtain ⟨hburns, hstarved⟩ :=
      call_burns (c.resources world) s.maxFrames f.addr (vs.map .val)
    rw [← hfuel] at hburns hstarved
    refine ⟨c, hc, hburns, fun h => ?_, ?_⟩
    · apply hstarved
      rw [hresult] at h
      cases hreport : ((c.resources world).call s.maxFrames f.addr (vs.map .val)).1.report false with
      | error e =>
        rw [hreport] at h
        rw [Except.error.inj h] at hreport
        exact report_exhausted_iff.mp hreport
      | ok values =>
        rw [hreport] at h
        obtain ⟨_, _, _, he⟩ := leaveAll_error h
        contradiction
    · rw [hp, hresult, ← unfinished_eq]
      exact hcounts

end Call

section Instantiate
variable {r : Resources σ} {bulkMemory : Bool} {maxFrames : Nat} {a : Artifact} {imported : Link}
  {out : Except Error Link × Resources σ}

theorem not_exhausted_of_resource (he : e.IsResource) : e ≠ .resourceExhausted := by
  obtain ⟨reason, rfl⟩ := he
  exact fun h => by contradiction

/-- Only a start function burns fuel; allocating and copying does not. -/
theorem made_burns (h : r.Made bulkMemory maxFrames a imported out) :
    Burns r.fuel out.2.fuel ∧ (out.1 = .error .resourceExhausted → out.2.fuel = some 0) := by
  have hcopied {heap : Heap σ} {l : Link} {failed : Option TrapCode} {after : Resources σ}
      (hcopy : Resources.copyActive { r with heap } a l = (failed, after)) :
      after.fuel = r.fuel := by
    have hfuel := copyActive_fuel { r with heap } a l
    rw [hcopy] at hfuel
    exact hfuel
  cases h with
  | unallocated halloc =>
    refine ⟨burns_refl r.fuel, fun h => ?_⟩
    exact absurd (Except.error.inj h) (not_exhausted_of_resource (allocate_error halloc))
  | unfit halloc hbulk hcheck =>
    refine ⟨burns_refl r.fuel, fun h => ?_⟩
    exact absurd (Except.error.inj h) (not_exhausted_of_resource (checkSegments_error hcheck))
  | overrun halloc hfits hcopy =>
    rw [hcopied hcopy]
    exact ⟨burns_refl r.fuel, fun h => nomatch Except.error.inj h⟩
  | idle halloc hfits hcopy hstart =>
    rw [hcopied hcopy]
    exact ⟨burns_refl r.fuel, fun h => by contradiction⟩
  | @started heap addr i copied after stop halloc hfits hcopy hstart hcall =>
    obtain ⟨hburns, hstarved⟩ := call_burns copied maxFrames ((heap.link addr).funcs.getD i 0) []
    rw [hcall, hcopied hcopy] at hburns
    rw [hcall] at hstarved
    refine ⟨hburns, fun h => hstarved ?_⟩
    exact report_exhausted_iff.mp (except_map_error_iff.mp h)

/-- An attempt to make an instance counts no call and burns no fuel that is counted. -/
theorem create_counts {m : Module} {imports : Imports σ}
    (hd : (Instance.create s world m imports).store.contents = some d) :
    let result := (Instance.create s world m imports).result
    ∃ c, s.contents = some c ∧ Burns c.fuel d.fuel ∧
      (result = .error .resourceExhausted → d.fuel = some 0) ∧
      c.Counts d false (if failsBy Error.isTrap result then 1 else 0) := by
  intro result
  rcases create_linked_or_refused s world m imports with ⟨r, imported, hlinked⟩ | ⟨e, h, he, hstops⟩
  · obtain @⟨ref, c, ds, heap, imported, href, hc, hm, hds, hprovided⟩ := hlinked
    have hcreate := (create_of_resolve href hc hm imports world).2 ds hds
    have hmade := instantiate_made (Resources.mk heap c.fuel world) s.config.bulkMemory s.maxFrames
      m.artifact imported
    generalize hout : (Resources.mk heap c.fuel world).instantiate s.config.bulkMemory s.maxFrames
      m.artifact imported = out at hmade
    obtain ⟨answer, after⟩ := out
    obtain ⟨d', hstore, _, hfuel, _, hmetrics, hresult⟩ :=
      build_made s ref c world m ds hprovided hout
    have hresult : result = _ := (congrArg InstanceOutcome.result hcreate).trans hresult
    rw [hcreate, hstore] at hd
    obtain rfl := Option.some.inj hd
    obtain ⟨hburns, hstarved⟩ := made_burns hmade
    refine ⟨c, hc, ?_, fun h => ?_, ?_⟩
    · rw [hfuel]
      exact hburns
    · rw [hresult, except_map_error_iff] at h
      rw [hfuel]
      exact hstarved h
    · -- of what is counted only the traps change here
      rw [hresult, failsBy_map, ← trapsOf_eq]
      constructor
      all_goals rw [hmetrics]
      all_goals rfl
  · have hresult : result = .error e := congrArg InstanceOutcome.result h
    rw [h] at hd
    have htrap : e.isTrap = false := by
      cases he with
      | trap code message => exact absurd (.trap code message) hstops
      | _ => rfl
    refine ⟨d, hd, burns_refl d.fuel, fun h => ?_, ?_⟩
    · rw [Except.error.inj (hresult.symm.trans h)] at hstops
      exact absurd .outOfFuel hstops
    · rw [hresult, failsBy, htrap]
      exact counts_refl d

end Instantiate

section Perform

theorem perform_edited (hset : ∀ amount, u ≠ .setFuel amount)
    (hu : ∀ instantiation, ¬ u.Executes instantiation) (hdestroy : u ≠ .destroy) :
    (s.perform world u).store = s ∨ s.Edited (s.perform world u).store := by
  cases u with
  | «instantiate» m imports => exact absurd (.instantiate m imports) (hu true)
  | call f args => exact absurd (.call f args) (hu false)
  | callTyped f args => exact absurd (.callTyped f args) (hu false)
  | setFuel amount => exact absurd rfl (hset amount)
  | destroy => exact absurd rfl hdestroy
  | setGlobal g value => exact update_store _ world fun _ h => setGlobal_edited h
  | writeMemory m offset bytes => exact update_store _ world fun _ h => writeMemory_edited h
  | growMemory m delta => exact update_store _ world fun _ h => growMemory_edited h
  | _ => exact Or.inl rfl

theorem counts_edited (h : s.Edited t) (hd : t.contents = some d) :
    ∃ c, s.contents = some c ∧ d.fuel = c.fuel ∧ c.Counts d false 0 := by
  obtain ⟨c, ws, hc, rfl⟩ := h
  obtain rfl := Option.some.inj hd
  exact ⟨c, hc, rfl, rfl, rfl, rfl⟩

/-- Without a meter, there is no fuel to set. -/
theorem counts_setFuel {amount : Nat}
    (hd : (s.perform world (.setFuel amount)).store.contents = some d) :
    ∃ c, s.contents = some c ∧ d.fuel = (c.fuel.map fun _ => amount) ∧ c.Counts d false 0 := by
  change (s.update world ((s.setFuel amount).map _)).store.contents = some d at hd
  cases h : s.setFuel amount with
  | error e =>
    rw [h] at hd
    have hd : s.contents = some d := hd
    refine ⟨d, hd, ?_, counts_refl d⟩
    cases hfuel : d.fuel with
    | none => rfl
    | some n =>
      rw [Store.setFuel, Store.live, hd] at h
      dsimp only [bind, Except.bind] at h
      rw [hfuel] at h
      contradiction
  | ok t =>
    rw [h] at hd
    obtain ⟨c, hlive, h⟩ := except_bind_ok h
    split at h
    · rename_i n hfuel
      rw [← Except.ok.inj h] at hd
      rw [← Option.some.inj hd]
      refine ⟨c, live_ok hlive, ?_, rfl, rfl, rfl⟩
      rw [hfuel]
      rfl
    · contradiction

/-- The use and its answer tell what is counted, and what is left of the fuel. -/
theorem perform_counts (hd : (s.perform world u).store.contents = some d) :
    let result := (s.perform world u).result
    ∃ c, s.contents = some c ∧ u.Leaves result c.fuel d.fuel ∧
      c.Counts d (s.admits u)
        ((if u.traps result then 1 else 0) + if u.starves result then 1 else 0) := by
  have hplain (hset : ∀ amount, u ≠ .setFuel amount)
      (hu : ∀ instantiation, ¬ u.Executes instantiation) (hdestroy : u ≠ .destroy) :
      ∃ c, s.contents = some c ∧ u.Leaves (s.perform world u).result c.fuel d.fuel ∧
        c.Counts d false 0 := by
    rcases perform_edited hset hu hdestroy with h | h
    · rw [h] at hd
      exact ⟨d, hd, .other hset hu d.fuel, counts_refl d⟩
    · obtain ⟨c, hc, hfuel, hcounts⟩ := counts_edited h hd
      rw [hfuel]
      exact ⟨c, hc, .other hset hu c.fuel, hcounts⟩
  cases u with
  | call f args =>
    obtain ⟨c, hc, hburns, hstarved, hcounts⟩ := callWith_counts refuses_coerce f args hd
    refine ⟨c, hc, .executed (.call f args) hburns fun h => ?_, ?_⟩
    · exact hstarved (except_map_error_iff.mp (except_map_error_iff.mp h))
    · have hfails (p : Error → Bool) : failsBy p (s.perform world (.call f args)).result =
          failsBy p (f.callWith coerce s world args).result :=
        (failsBy_map _).trans (failsBy_map _)
      rw [← hfails, ← hfails] at hcounts
      exact hcounts
  | callTyped f args =>
    obtain ⟨c, hc, hburns, hstarved, hcounts⟩ := callWith_counts refuses_checkType f args hd
    refine ⟨c, hc, .executed (.callTyped f args) hburns fun h => ?_, ?_⟩
    · exact hstarved (except_map_error_iff.mp h)
    · have hfails (p : Error → Bool) : failsBy p (s.perform world (.callTyped f args)).result =
          failsBy p (f.callWith checkType s world args).result := failsBy_map _
      rw [← hfails, ← hfails] at hcounts
      exact hcounts
  | «instantiate» m imports =>
    obtain ⟨c, hc, hburns, hstarved, hcounts⟩ := create_counts hd
    refine ⟨c, hc, .executed (.instantiate m imports) hburns fun h => ?_, ?_⟩
    · exact hstarved (except_map_error_iff.mp h)
    · have hfails (p : Error → Bool) : failsBy p (s.perform world (.instantiate m imports)).result =
          failsBy p (Instance.create s world m imports).result := failsBy_map _
      rw [← hfails] at hcounts
      exact hcounts
  | setFuel amount =>
    obtain ⟨c, hc, hfuel, hcounts⟩ := counts_setFuel hd
    rw [hfuel]
    exact ⟨c, hc, .set amount c.fuel, hcounts⟩
  | destroy => contradiction
  | _ => exact hplain (fun _ h => nomatch h) (fun _ h => nomatch h) (fun h => nomatch h)

end Perform

end WasmEmbed
