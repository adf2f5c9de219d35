import WasmEmbed.Proofs.Machine.Instantiate

/-! Uses of a store in which only pure host functions are reached. Answer and store afterwards are
the same whatever the state of the host is, and the store stays one of that sort. -/
namespace WasmEmbed
variable {σ : Type} {s t : Store σ} {c : Contents σ} {u : Use σ}

/-- Code in the store reaches pure host functions only. -/
def Store.Pure (s : Store σ) : Prop := ∀ c, s.contents = some c → c.heap.Pure

/-- The use brings no host function into the store that is not pure. -/
def Use.Pure : Use σ → Prop
  | .instantiate _ imports => imports.Pure
  | _ => True

theorem pure_withContents (hc : c.heap.Pure) : (s.withContents c).Pure := by
  intro d hd
  rw [← Option.some.inj hd]
  exact hc

theorem pure_wrote (hs : s.Pure) (h : s.Wrote t) : t.Pure := by
  obtain ⟨c, ws, fuel, hc, rfl⟩ := h
  exact pure_withContents (pure_performAll (hs c hc) ws)

/-- All that the call does after the run reads the report and the resources, never the host. -/
theorem run_inWorld (f : Func) (s : Store σ) (hc : c.heap.Pure) (args : List Val)
    (world world' : σ) :
    (f.run s c world args).store.Pure ∧
      ∃ after, f.run s c world' args = { f.run s c world args with world := after } := by
  constructor
  · obtain ⟨d, hstore, hresources, _⟩ := run_store f s c world args
    have hheap := congrArg Resources.heap hresources
    have hd : d.heap.Pure := by
      have hd : d.heap = ((c.resources world).call s.maxFrames f.addr (args.map .val)).2.heap :=
        hheap
      rw [hd]
      exact pure_call (r := c.resources world) hc s.maxFrames f.addr (args.map .val)
    rw [hstore]
    exact pure_withContents hd
  · obtain ⟨after, hcall⟩ :=
      call_inWorld (r := c.resources world) hc s.maxFrames f.addr (args.map .val) world'
    have hworld : (c.resources world).inWorld world' = c.resources world' := rfl
    rw [hworld] at hcall
    refine ⟨after, ?_⟩
    unfold Func.run
    rw [hcall]
    generalize (c.resources world).call s.maxFrames f.addr (args.map .val) = back
    obtain ⟨stop, r⟩ := back
    dsimp only
    cases stop.report false with
    | error e => rfl
    | ok values =>
      dsimp only
      cases leaveAll .result 0 values with
      | error e => rfl
      | ok vs => rfl

/-- Calling a function of a pure store goes alike whatever the state of the host is. -/
theorem callWith_inWorld {α : Type} (convert : α → ValType → Position → Nat → Except Error Val)
    (f : Func) (hs : s.Pure) (args : List α) (world world' : σ) :
    (f.callWith convert s world args).store.Pure ∧
      ∃ after, f.callWith convert s world' args =
        { f.callWith convert s world args with world := after } := by
  rcases callWith_cases convert f s args with ⟨e, _, h⟩ | ⟨c, vs, hc, _, h⟩
  · rw [h, h]
    exact ⟨hs, world', rfl⟩
  · rw [h, h]
    exact run_inWorld f s (hs c hc) vs world world'

/-- Making an instance with pure functions goes alike whatever the state of the host is. -/
theorem create_inWorld (hs : s.Pure) (m : Module) {imports : Imports σ} (himports : imports.Pure)
    (world world' : σ) :
    (Instance.create s world m imports).store.Pure ∧
      ∃ after, Instance.create s world' m imports =
        { Instance.create s world m imports with world := after } := by
  rcases create_cases s m imports with ⟨e, h⟩ | ⟨ref, c, ds, _, hc, hds, h⟩
  · rw [h, h]
    exact ⟨hs, world', rfl⟩
  · rw [h, h]
    have hprovided := provideAll_pure (hs c hc) {} (resolve_pure himports hds)
    unfold Instance.build
    dsimp only
    generalize c.heap.provideAll {} ds = provided at hprovided ⊢
    obtain ⟨heap, imported⟩ := provided
    obtain ⟨hpure, after, hmake⟩ := instantiate_inWorld (r := ⟨heap, c.fuel, world⟩) hprovided
      s.config.bulkMemory s.maxFrames m.artifact imported world'
    have hworld : (Resources.mk heap c.fuel world).inWorld world' = ⟨heap, c.fuel, world'⟩ := rfl
    rw [hworld] at hmake
    simp only [Contents.resources, hmake]
    generalize (Resources.mk heap c.fuel world).instantiate s.config.bulkMemory s.maxFrames
      m.artifact imported = back at hpure ⊢
    obtain ⟨result, r⟩ := back
    cases result with
    | error e => exact ⟨pure_withContents hpure, after, rfl⟩
    | ok l => exact ⟨pure_withContents hpure, after, rfl⟩

/-- What is pure stays pure under uses that are. -/
theorem pure_perform (hs : s.Pure) (hu : u.Pure) (world : σ) : (s.perform world u).store.Pure := by
  rcases perform_store_cases s world u with (h | h) | rfl | ⟨m, imports, rfl⟩ | ⟨f, args, rfl⟩ |
    ⟨f, args, rfl⟩
  · rw [h]
    exact hs
  · exact pure_wrote hs h
  · intro c hc
    contradiction
  · exact (create_inWorld hs m hu world world).1
  · exact (callWith_inWorld coerce f hs args world world).1
  · exact (callWith_inWorld checkType f hs args world world).1

/-- A use that changes only the store leaves the host as it found it. -/
theorem update_inWorld (s : Store σ) (x : Except Error (Reply × Store σ)) (world world' : σ) :
    s.update world' x = { s.update world x with world := world' } := by
  cases x with
  | error e => rfl
  | ok p => rfl

/-- What a use gives and makes of its store depends on nothing but the store and what is asked. -/
theorem perform_inWorld (hs : s.Pure) (hu : u.Pure) (world world' : σ) :
    ∃ after, s.perform world' u = { s.perform world u with world := after } := by
  cases u with
  | instantiate m imports =>
    obtain ⟨_, after, h⟩ := create_inWorld hs m hu world world'
    refine ⟨after, ?_⟩
    simp only [Store.perform, h]
  | call f args =>
    obtain ⟨_, after, h⟩ := callWith_inWorld coerce f hs args world world'
    refine ⟨after, ?_⟩
    simp only [Store.perform, Store.called, Func.call, h]
  | callTyped f args =>
    obtain ⟨_, after, h⟩ := callWith_inWorld checkType f hs args world world'
    refine ⟨after, ?_⟩
    simp only [Store.perform, Store.called, Func.callTyped, h]
  | setGlobal g value => exact ⟨world', update_inWorld s _ world world'⟩
  | writeMemory m offset bytes => exact ⟨world', update_inWorld s _ world world'⟩
  | growMemory m delta => exact ⟨world', update_inWorld s _ world world'⟩
  | setFuel amount => exact ⟨world', update_inWorld s _ world world'⟩
  | _ => exact ⟨world', rfl⟩

end WasmEmbed
