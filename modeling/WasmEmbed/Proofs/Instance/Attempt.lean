import WasmEmbed.Proofs.Imports.Linking
import WasmEmbed.Proofs.Instance.Stages
import WasmEmbed.Proofs.Realm.Consistency

/-! Attempts to make an instance. One that is refused leaves everything as it was. One that passes
linking uses up a number, whether or not it gives an instance, and takes nothing away from what is
in the store. -/
namespace WasmEmbed
variable {σ : Type}

/-- The reasons for which an attempt to make an instance is refused. -/
def Error.isRefusal : Error → Bool
  | useAfterFree _ | engineMismatch _ | storeMismatch _ | link _ _ => true
  | _ => false

/-- What is left of the contents of a store by an attempt that passed linking: one number is used
up, and of what is counted only traps have changed. -/
structure Contents.Attempted (c d : Contents σ) (traps : Nat) : Prop where
  heap : c.heap.Grows d.heap
  next : d.nextInstance = c.nextInstance + 1
  metrics : d.metrics = { c.metrics with traps := c.metrics.traps + traps }

/-- Whatever could be used with the one store can be used with the other: handles are alive and
exports are found as before, and each handle leads to the thing that it led to. -/
structure Store.Serves (s t : Store σ) : Prop where
  alive : ∀ token, t.holds token = s.holds token
  found : ∀ (i : Instance) (name : String), i.get? t name = i.get? s name
  usable : ∀ owner what c, s.contentsFor owner what = .ok c →
    ∃ d, t.contentsFor owner what = .ok d ∧ c.heap.Grows d.heap

/-- What an attempt to make an instance comes to: of the cases, each of which excludes those before
it, the one that holds. -/
inductive Instance.Attempt (s : Store σ) (m : Module) (imports : Imports σ) (r : Realm σ) :
    Answer × Realm σ → Prop where
  | destroyed (h : s.isAlive = false) :
    Attempt s m imports r (.reply (.error (.useAfterFree "store")) none, r)
  | otherEngine (h : s.isAlive = true) (hm : m.engine ≠ s.engine) :
    Attempt s m imports r (.reply (.error (.engineMismatch "module")) none, r)
  | foreign (h : s.isAlive = true) (hm : m.engine = s.engine)
    (hforeign : imports.Foreign s.id m.imports) :
    Attempt s m imports r (.reply (.error (.storeMismatch "import")) none, r)
  | unlinked (h : s.isAlive = true) (hm : m.engine = s.engine)
    (hown : ¬ imports.Foreign s.id m.imports) (hs : ¬ imports.Satisfies m.imports) :
    Attempt s m imports r (.reply (.error (.link ((imports.undefined m.imports).map ImportType.path)
      ((imports.mistyped m.imports).map fun p => Imports.mismatch p.1 p.2))) none, r)
  /-- The attempt passed linking and no instance was made. -/
  | failed {c d : Contents σ} {e : Error} {world : σ} (hc : s.contents = some c)
    (hm : m.engine = s.engine) (hown : ¬ imports.Foreign s.id m.imports)
    (hs : imports.Satisfies m.imports) (he : e.isRefusal = false)
    (hd : c.Attempted d (if e.isTrap then 1 else 0)) (hserves : s.Serves (s.withContents d)) :
    Attempt s m imports r
      (.reply (.error e) none, { r.setStore (s.withContents d) with world })
  | made {c d : Contents σ} {i : Instance} {world : σ} (hc : s.contents = some c)
    (hm : m.engine = s.engine) (hown : ¬ imports.Foreign s.id m.imports)
    (hs : imports.Satisfies m.imports) (hi : i.id = c.nextInstance) (hd : c.Attempted d 0)
    (hserves : s.Serves (s.withContents d)) :
    Attempt s m imports r
      (.reply (.ok (.instance i)) none, { r.setStore (s.withContents d) with world })

variable {s : Store σ} {m : Module} {imports : Imports σ} {c d : Contents σ} {r : Realm σ}

theorem serves_withContents (hc : s.contents = some c) (h : c.heap.Grows d.heap) :
    s.Serves (s.withContents d) where
  alive := fun _ => rfl
  found := fun _ _ => rfl
  usable := by
    intro owner what c' hfor
    obtain ⟨hown, hc'⟩ := contentsFor_ok hfor
    rw [hc] at hc'
    rw [← Option.some.inj hc']
    exact ⟨d, contentsFor_live (s := s.withContents d) hown rfl what, h⟩

theorem isRefusal_of_stops {e : Error} {instantiation : Bool}
    (h : e.Stops instantiation ∨ e.IsResource) : e.isRefusal = false := by
  rcases h with h | ⟨reason, rfl⟩
  · cases h with
    | trap code message => rfl
    | outOfFuel => rfl
  · rfl

/-- The contents that an attempt leaves, and its answer. -/
theorem build_attempted (s : Store σ) (ref : StoreRef) (c : Contents σ) (world : σ) (m : Module)
    (ds : List (Definition σ)) :
    ∃ d, (Instance.build s ref c world m ds).store = s.withContents d ∧
      ((∃ i, (Instance.build s ref c world m ds).result = .ok i ∧ i.id = c.nextInstance ∧
          c.Attempted d 0) ∨
        ∃ e, (Instance.build s ref c world m ds).result = .error e ∧
          (e.Stops true ∨ e.IsResource) ∧ c.Attempted d (if e.isTrap then 1 else 0)) := by
  have hgrows := grows_provideAll c.heap {} ds
  cases hprovided : c.heap.provideAll {} ds with
  | mk heap imported =>
    rw [hprovided] at hgrows
    have hmade := instantiate_made (Resources.mk heap c.fuel world) s.config.bulkMemory s.maxFrames
      m.artifact imported
    cases hout : (Resources.mk heap c.fuel world).instantiate s.config.bulkMemory s.maxFrames
      m.artifact imported with
    | mk result after =>
      obtain ⟨d, hstore, hheap, _, hnext, hmetrics, hresult⟩ :=
        build_made s ref c world m ds hprovided hout
      rw [hout] at hmade
      have hleft : c.heap.Grows d.heap := by
        rw [hheap]
        exact grows_trans hgrows (grows_made hmade)
      refine ⟨d, hstore, ?_⟩
      cases result with
      | error e => exact Or.inr ⟨e, hresult, made_error hmade, hleft, hnext, hmetrics⟩
      | ok l => exact Or.inl ⟨_, hresult, rfl, hleft, hnext, hmetrics⟩

/-- Whatever is done with a store that lives on, all that was in its heap is there afterwards. -/
theorem perform_grows {world : σ} {u : Use σ} (hd : (s.perform world u).store.contents = some d) :
    ∃ c, s.contents = some c ∧ c.heap.Grows d.heap := by
  by_cases hmakes : ∃ m imports, u = .instantiate m imports
  · obtain ⟨m, imports, rfl⟩ := hmakes
    change (Instance.create s world m imports).store.contents = some d at hd
    have hbuilds := create_builds hd
    generalize (Instance.create s world m imports).result = result at hbuilds
    cases hbuilds with
    | refused hd => exact ⟨d, hd, grows_refl d.heap⟩
    | @built c _ ref ds heap imported out hc hds hprovided hmade hheap =>
      have hgrows := grows_provideAll c.heap {} ds
      rw [hprovided] at hgrows
      rw [hheap]
      exact ⟨c, hc, grows_trans hgrows (grows_made hmade)⟩
  · obtain ⟨c, ws, hc, hleft, _⟩ := perform_contents (fun m imports h => hmakes ⟨m, imports, h⟩) hd
    rw [hleft]
    exact ⟨c, hc, grows_performAll c.heap ws⟩

/-- Every attempt comes to one of the cases. The checks are taken in the order in which they are
made. -/
theorem create_attempt (hr : r.Consistent) (hs : s ∈ r.stores) (m : Module)
    (imports : Imports σ) :
    Instance.Attempt s m imports r (r.perform (.use s.id (.instantiate m imports))) := by
  have hself : ({ r.setStore s with world := r.world } : Realm σ) = r := by rw [setStore_self hr hs]
  have hwatched := hr.watched s hs
  unfold Store.Watched at hwatched
  rw [perform_use (store?_of_mem hr hs)]
  change Instance.Attempt s m imports r (.reply
    ((Instance.create s r.world m imports).result.map Reply.instance) none,
    { r.setStore (Instance.create s r.world m imports).store with
      world := (Instance.create s r.world m imports).world })
  cases hc : s.contents with
  | none =>
    have halive := (isAlive_eq_false_iff s).mpr hc
    rw [halive] at hwatched
    have hcreate : Instance.create s r.world m imports =
        ⟨.error (.useAfterFree "store"), s, r.world⟩ := by
      rw [Instance.create, Store.ref, hwatched]
      rfl
    rw [hcreate, hself]
    exact .destroyed halive
  | some c =>
    have halive := (isAlive_iff s).mpr ⟨c, hc⟩
    rw [halive] at hwatched
    have href : s.ref = .ok ⟨s.id, s.id + 1⟩ := by
      rw [Store.ref, hwatched]
      rfl
    by_cases hm : m.engine = s.engine
    · obtain ⟨hrefused, hbuilt⟩ := create_of_resolve href hc hm imports r.world
      rcases resolve_cases imports s.id m with ⟨hf, h⟩ | ⟨hf, hsat, h⟩ | ⟨hf, hsat, h⟩
      · rw [hrefused _ h, hself]
        exact .foreign halive hm hf
      · rw [hrefused _ h, hself]
        exact .unlinked halive hm hf hsat
      · rw [hbuilt _ h]
        obtain ⟨d, hstore, hresult⟩ := build_attempted s ⟨s.id, s.id + 1⟩ c r.world m
          (imports.fitting m.imports)
        rw [hstore]
        rcases hresult with ⟨i, hi, hid, hd⟩ | ⟨e, he, hstops, hd⟩
        · rw [hi]
          exact .made hc hm hf hsat hid hd (serves_withContents hc hd.heap)
        · rw [he]
          exact .failed hc hm hf hsat (isRefusal_of_stops hstops) hd
            (serves_withContents hc hd.heap)
    · have hcreate : Instance.create s r.world m imports =
          ⟨.error (.engineMismatch "module"), s, r.world⟩ := by
        simp only [Instance.create, href]
        exact if_pos hm
      rw [hcreate, hself]
      exact .otherEngine halive hm

end WasmEmbed
