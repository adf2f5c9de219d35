import WasmEmbed.Proofs.Failure.Except
import WasmEmbed.Proofs.Machine.Writes
import WasmEmbed.Proofs.Store.Access

/-! All that the use of a store can do to it. A use that fails before anything runs changes nothing,
any other changes the contents alone, and only destruction takes the contents and the token away. -/
namespace WasmEmbed
variable {σ : Type} {s t : Store σ} {c : Contents σ}

/-- The two stores are the same but for what is in the contents. -/
structure Store.Alike (s t : Store σ) : Prop where
  id : s.id = t.id
  engine : s.engine = t.engine
  config : s.config = t.config
  token : s.token = t.token
  alive : s.isAlive = t.isAlive

theorem store_alike_refl (s : Store σ) : s.Alike s := ⟨rfl, rfl, rfl, rfl, rfl⟩

theorem store_alike_withContents (hc : s.contents = some c) (d : Contents σ) :
    (s.withContents d).Alike s := by
  refine ⟨rfl, rfl, rfl, rfl, ?_⟩
  rw [Store.isAlive, Store.isAlive, hc]
  rfl

theorem live_ok (h : s.live = .ok c) : s.contents = some c := by
  unfold Store.live at h
  split at h
  · rename_i d hd
    rw [hd, Except.ok.inj h]
  · contradiction

/-- A store is used through handles of its own, and as long as it has contents. -/
theorem contentsFor_ok {owner : StoreRef} {what : String} (h : s.contentsFor owner what = .ok c) :
    owner.id = s.id ∧ s.contents = some c := by
  rcases contentsFor_cases s owner what with ⟨_, he⟩ | ⟨_, _, he⟩ | ⟨d, ho, hd, he⟩
  · rw [he] at h
    contradiction
  · rw [he] at h
    contradiction
  · rw [he] at h
    rw [hd, Except.ok.inj h]
    exact ⟨ho, rfl⟩

/-- A run replaces the contents by what is left of its resources, and counts one call. -/
theorem run_store (f : Func) (s : Store σ) (c : Contents σ) (world : σ) (args : List Val) :
    ∃ d, (f.run s c world args).store = s.withContents d ∧
      d.resources (f.run s c world args).world =
        ((c.resources world).call s.maxFrames f.addr (args.map .val)).2 ∧
      d.nextInstance = c.nextInstance ∧ d.metrics.calls = c.metrics.calls + 1 := by
  unfold Func.run
  dsimp only
  split
  · exact ⟨_, rfl, rfl, rfl, rfl⟩
  · split
    · exact ⟨_, rfl, rfl, rfl, rfl⟩
    · exact ⟨_, rfl, rfl, rfl, rfl⟩

/-- The answer is the report of the run, with values that may leave the store; the handle tells
whether it is good. -/
theorem run_result (f : Func) (s : Store σ) (c : Contents σ) (world : σ) (args : List Val) :
    (f.run s c world args).result =
        ((c.resources world).call s.maxFrames f.addr (args.map .val)).1.report false >>=
          leaveAll .result 0 ∧
      (f.run s c world args).state =
        bif (f.run s c world args).result.isOk then .bound else .faulted := by
  unfold Func.run
  generalize (c.resources world).call s.maxFrames f.addr (args.map .val) = back
  obtain ⟨stop, r⟩ := back
  dsimp only
  cases stop.report false with
  | error e => exact ⟨rfl, rfl⟩
  | ok values =>
    change _ = leaveAll .result 0 values ∧ _
    dsimp only
    cases leaveAll .result 0 values with
    | error e => exact ⟨rfl, rfl⟩
    | ok vs => exact ⟨rfl, rfl⟩

/-- A call is refused whatever the state of the host is, or runs with the converted arguments. The
store that runs is the one that was checked, so checking it again cannot fail. -/
theorem callWith_cases {α : Type} (convert : α → ValType → Position → Nat → Except Error Val)
    (f : Func) (s : Store σ) (args : List α) :
    (∃ e, f.prepare s args convert = .error e ∧
        ∀ world, f.callWith convert s world args = ⟨.error e, f.state, s, world⟩) ∨
      ∃ c vs, s.contents = some c ∧ f.prepare s args convert = .ok vs ∧
        ∀ world, f.callWith convert s world args = f.run s c world vs := by
  cases hp : f.prepare s args convert with
  | error e =>
    refine Or.inl ⟨e, rfl, ?_⟩
    intro world
    rw [Func.callWith, hp]
  | ok vs =>
    obtain ⟨c, hfor, _⟩ := except_bind_ok hp
    refine Or.inr ⟨c, vs, (contentsFor_ok hfor).2, rfl, ?_⟩
    intro world
    rw [Func.callWith, hp]
    change f.invoke s world vs = _
    rw [Func.invoke, hfor]

/-- A call that is not refused answers with the values that the back end reports. -/
theorem callWith_result {α : Type} (convert : α → ValType → Position → Nat → Except Error Val)
    {f : Func} {args : List α} {vs : List Val} (hc : s.contentsFor f.store "function" = .ok c)
    (hargs : f.prepare s args convert = .ok vs) (world : σ) :
    (f.callWith convert s world args).result =
      ((c.resources world).call s.maxFrames f.addr (vs.map .val)).1.report false >>=
        leaveAll .result 0 := by
  rcases callWith_cases convert f s args with ⟨e, hp, _⟩ | ⟨d, ws, hd, hp, hrun⟩
  · exact nomatch hp.symm.trans hargs
  · have hcd : c = d := Option.some.inj ((contentsFor_ok hc).2.symm.trans hd)
    rw [hrun, Except.ok.inj (hargs.symm.trans hp), hcd]
    exact (run_result f s d world ws).1

theorem callWith_alike {α : Type} (convert : α → ValType → Position → Nat → Except Error Val)
    (f : Func) (s : Store σ) (world : σ) (args : List α) :
    (f.callWith convert s world args).store.Alike s := by
  rcases callWith_cases convert f s args with ⟨e, _, h⟩ | ⟨c, vs, hc, _, h⟩
  · rw [h]
    exact store_alike_refl s
  · obtain ⟨d, hd, _⟩ := run_store f s c world vs
    rw [h, hd]
    exact store_alike_withContents hc d

/-- Making an instance is refused whatever the state of the host is, or begins with linked imports
in a live store. -/
theorem create_cases (s : Store σ) (m : Module) (imports : Imports σ) :
    (∃ e, ∀ world, Instance.create s world m imports = ⟨.error e, s, world⟩) ∨
      ∃ ref c ds, s.ref = .ok ref ∧ s.contents = some c ∧ imports.resolve s.id m = .ok ds ∧
        ∀ world, Instance.create s world m imports = Instance.build s ref c world m ds := by
  unfold Instance.create
  cases hr : s.ref with
  | error e => exact Or.inl ⟨e, fun _ => rfl⟩
  | ok ref =>
    by_cases hm : m.engine ≠ s.engine
    · exact Or.inl ⟨_, fun _ => if_pos hm⟩
    · simp only [if_neg hm]
      cases hd : imports.resolve s.id m with
      | error e => exact Or.inl ⟨e, fun _ => rfl⟩
      | ok ds =>
        cases hl : s.live with
        | error e => exact Or.inl ⟨e, fun _ => rfl⟩
        | ok c => exact Or.inr ⟨ref, c, ds, rfl, live_ok hl, rfl, fun _ => rfl⟩

theorem build_store (s : Store σ) (ref : StoreRef) (c : Contents σ) (world : σ) (m : Module)
    (ds : List (Definition σ)) :
    ∃ d, (Instance.build s ref c world m ds).store = s.withContents d := by
  unfold Instance.build
  dsimp only
  split
  · exact ⟨_, rfl⟩
  · exact ⟨_, rfl⟩

theorem create_alike (s : Store σ) (world : σ) (m : Module) (imports : Imports σ) :
    (Instance.create s world m imports).store.Alike s := by
  rcases create_cases s m imports with ⟨e, h⟩ | ⟨ref, c, ds, _, hc, _, h⟩
  · rw [h]
    exact store_alike_refl s
  · obtain ⟨d, hd⟩ := build_store s ref c world m ds
    rw [h, hd]
    exact store_alike_withContents hc d

/-- The host wrote to things in the store. -/
def Store.Edited (s t : Store σ) : Prop :=
  ∃ c ws, s.contents = some c ∧ t = s.withContents { c with heap := c.heap.performAll ws }

/-- The host wrote to things in the store, or gave it other fuel. -/
def Store.Wrote (s t : Store σ) : Prop :=
  ∃ c ws fuel, s.contents = some c ∧
    t = s.withContents { c with heap := c.heap.performAll ws, fuel }

theorem wrote_of_edited (h : s.Edited t) : s.Wrote t := by
  obtain ⟨c, ws, hc, rfl⟩ := h
  exact ⟨c, ws, c.fuel, hc, rfl⟩

theorem wrote_alike (h : s.Wrote t) : t.Alike s := by
  obtain ⟨c, ws, fuel, hc, rfl⟩ := h
  exact store_alike_withContents hc _

/-- A variable of the store that may change takes a value that was made of its type. -/
theorem setGlobal_ok {g : Global} {value : HostValue} (ht : g.set s value = .ok t) :
    ∃ c v, g.store.id = s.id ∧ s.contents = some c ∧ g.type.isMutable = true ∧
      coerce value g.type.content .global 0 = .ok v ∧
      t = s.withContents { c with heap := c.heap.perform (.global g.addr (.val v)) } := by
  obtain ⟨c, hfor, ht⟩ := except_bind_ok ht
  dsimp only at ht
  split at ht
  · contradiction
  · rename_i hmutable
    obtain ⟨v, hv, ht⟩ := except_bind_ok ht
    obtain ⟨hown, hc⟩ := contentsFor_ok hfor
    exact ⟨c, v, hown, hc, by simpa using hmutable, hv, (Except.ok.inj ht).symm⟩

/-- Bytes are written only within the memory. -/
theorem writeMemory_ok {m : Memory} {offset : Nat} {bytes : List UInt8}
    (ht : m.write s offset bytes = .ok t) :
    ∃ c, m.store.id = s.id ∧ s.contents = some c ∧
      offset + bytes.length ≤ (c.heap.memories[m.addr]?.map (·.size)).getD 0 ∧
      t = s.withContents { c with heap := c.heap.perform (.bytes m.addr offset bytes) } := by
  obtain ⟨p, hfind, ht⟩ := except_bind_ok ht
  obtain ⟨c, hfor, hp⟩ := except_bind_ok hfind
  obtain rfl := Except.ok.inj hp
  obtain ⟨_, hfits, ht⟩ := except_bind_ok ht
  obtain ⟨hown, hc⟩ := contentsFor_ok hfor
  exact ⟨c, hown, hc, le_of_checkRange hfits, (Except.ok.inj ht).symm⟩

/-- A memory grows only to sizes that its type and the limit admit. -/
theorem growMemory_ok {m : Memory} {delta : Nat} {grown : Nat × Store σ}
    (ht : m.grow s delta = .ok grown) :
    ∃ c o, m.store.id = s.id ∧ s.contents = some c ∧ c.heap.memories[m.addr]? = some o ∧
      o.type.Admits c.heap.limit (o.pages + delta) ∧ grown.1 = o.pages ∧
      grown.2 = s.withContents { c with heap := c.heap.perform (.growMemory m.addr delta) } := by
  obtain ⟨p, hfind, ht⟩ := except_bind_ok ht
  obtain ⟨c, hfor, hp⟩ := except_bind_ok hfind
  obtain rfl := Except.ok.inj hp
  dsimp only at ht
  split at ht
  · rename_i pages hgrown
    obtain ⟨o, ho, hgrown⟩ := Option.bind_eq_some_iff.mp hgrown
    obtain ⟨o', hgrows, rfl⟩ := Option.map_eq_some_iff.mp hgrown
    obtain ⟨hown, hc⟩ := contentsFor_ok hfor
    rw [← Except.ok.inj ht]
    refine ⟨c, o, hown, hc, ho, ?_, rfl, rfl⟩
    rw [MemoryObj.grow?_eq] at hgrows
    split at hgrows
    · assumption
    · contradiction
  · contradiction

theorem setFuel_ok {amount : Nat} (ht : s.setFuel amount = .ok t) :
    ∃ c, s.contents = some c ∧ t = s.withContents { c with fuel := some amount } := by
  obtain ⟨c, hlive, ht⟩ := except_bind_ok ht
  split at ht
  · exact ⟨c, live_ok hlive, (Except.ok.inj ht).symm⟩
  · contradiction

theorem setGlobal_edited {g : Global} {value : HostValue} (h : g.set s value = .ok t) :
    s.Edited t := by
  obtain ⟨c, v, _, hc, _, _, rfl⟩ := setGlobal_ok h
  exact ⟨c, [.global g.addr (.val v)], hc, rfl⟩

theorem writeMemory_edited {m : Memory} {offset : Nat} {bytes : List UInt8}
    (h : m.write s offset bytes = .ok t) : s.Edited t := by
  obtain ⟨c, _, hc, _, rfl⟩ := writeMemory_ok h
  exact ⟨c, [.bytes m.addr offset bytes], hc, rfl⟩

theorem growMemory_edited {m : Memory} {delta : Nat} {grown : Nat × Store σ}
    (h : m.grow s delta = .ok grown) : s.Edited grown.2 := by
  obtain ⟨c, _, _, hc, _, _, _, hstore⟩ := growMemory_ok h
  exact ⟨c, [.growMemory m.addr delta], hc, hstore⟩

/-- Nothing is written to the heap, so the list of writes is empty. -/
theorem setFuel_wrote {amount : Nat} (h : s.setFuel amount = .ok t) : s.Wrote t := by
  obtain ⟨c, hc, rfl⟩ := setFuel_ok h
  exact ⟨c, [], some amount, hc, rfl⟩

/-- A use that fails leaves the store, and another one what it made of it. -/
theorem update_store {α : Type} {P : Store σ → Prop} {x : Except Error α}
    (f : α → Reply × Store σ) (world : σ) (h : ∀ a, x = .ok a → P (f a).2) :
    (s.update world (x.map f)).store = s ∨ P (s.update world (x.map f)).store := by
  cases x with
  | error e => exact Or.inl rfl
  | ok a => exact Or.inr (h a rfl)

/-- All that becomes of a store by a use: it stays, the host writes to it, or one of four things
that do more is done. -/
theorem perform_store_cases (s : Store σ) (world : σ) (u : Use σ) :
    ((s.perform world u).store = s ∨ s.Wrote (s.perform world u).store) ∨ u = .destroy ∨
      (∃ m imports, u = .instantiate m imports) ∨ (∃ f args, u = .call f args) ∨
      ∃ f args, u = .callTyped f args := by
  cases u with
  | instantiate m imports => exact Or.inr (Or.inr (Or.inl ⟨m, imports, rfl⟩))
  | call f args => exact Or.inr (Or.inr (Or.inr (Or.inl ⟨f, args, rfl⟩)))
  | callTyped f args => exact Or.inr (Or.inr (Or.inr (Or.inr ⟨f, args, rfl⟩)))
  | destroy => exact Or.inr (Or.inl rfl)
  | setGlobal g value =>
    exact Or.inl (update_store _ world fun _ h => wrote_of_edited (setGlobal_edited h))
  | writeMemory m offset bytes =>
    exact Or.inl (update_store _ world fun _ h => wrote_of_edited (writeMemory_edited h))
  | growMemory m delta =>
    exact Or.inl (update_store _ world fun _ h => wrote_of_edited (growMemory_edited h))
  | setFuel amount => exact Or.inl (update_store _ world fun _ h => setFuel_wrote h)
  | _ => exact Or.inl (Or.inl rfl)

/-- No use but destruction does more to a store than to change its contents. -/
theorem perform_alike {world : σ} {u : Use σ} (hu : u ≠ .destroy) :
    (s.perform world u).store.Alike s := by
  rcases perform_store_cases s world u with (h | h) | rfl | ⟨m, imports, rfl⟩ | ⟨f, args, rfl⟩ |
    ⟨f, args, rfl⟩
  · rw [h]
    exact store_alike_refl s
  · exact wrote_alike h
  · exact absurd rfl hu
  · exact create_alike s world m imports
  · exact callWith_alike coerce f s world args
  · exact callWith_alike checkType f s world args

/-- No use changes the number of its store. -/
theorem perform_id (s : Store σ) (world : σ) (u : Use σ) : (s.perform world u).store.id = s.id := by
  by_cases hu : u = .destroy
  · rw [hu]
    rfl
  · exact (perform_alike hu).id

theorem perform_engine (s : Store σ) (world : σ) (u : Use σ) :
    (s.perform world u).store.engine = s.engine := by
  by_cases hu : u = .destroy
  · rw [hu]
    rfl
  · exact (perform_alike hu).engine

/-- Unless it makes an instance, a use leaves the contents that there were, with writes to the heap,
and the number of the next instance as it was. -/
theorem perform_contents {world : σ} {u : Use σ} {d : Contents σ}
    (hu : ∀ m imports, u ≠ .instantiate m imports)
    (hd : (s.perform world u).store.contents = some d) :
    ∃ c ws, s.contents = some c ∧ d.heap = c.heap.performAll ws ∧
      d.nextInstance = c.nextInstance := by
  have hcall {α : Type} (convert : α → ValType → Position → Nat → Except Error Val) (f : Func)
      (args : List α) (h : (f.callWith convert s world args).store.contents = some d) :
      ∃ c ws, s.contents = some c ∧ d.heap = c.heap.performAll ws ∧
        d.nextInstance = c.nextInstance := by
    rcases callWith_cases convert f s args with ⟨e, _, hrefused⟩ | ⟨c, vs, hc, _, hrun⟩
    · rw [hrefused] at h
      exact ⟨d, [], h, rfl, rfl⟩
    · obtain ⟨d', hstore, hleft, hnext, _⟩ := run_store f s c world vs
      rw [hrun, hstore] at h
      rw [← Option.some.inj h]
      have hws := call_heap (c.resources world) s.maxFrames f.addr (vs.map .val)
      rw [← hleft] at hws
      exact ⟨c, _, hc, hws, hnext⟩
  rcases perform_store_cases s world u with (h | h) | rfl | ⟨m, imports, rfl⟩ | ⟨f, args, rfl⟩ |
    ⟨f, args, rfl⟩
  · rw [h] at hd
    exact ⟨d, [], hd, rfl, rfl⟩
  · obtain ⟨c, ws, fuel, hc, hstore⟩ := h
    rw [hstore] at hd
    rw [← Option.some.inj hd]
    exact ⟨c, ws, hc, rfl, rfl⟩
  · contradiction
  · exact absurd rfl (hu m imports)
  · exact hcall coerce f args hd
  · exact hcall checkType f args hd

end WasmEmbed
