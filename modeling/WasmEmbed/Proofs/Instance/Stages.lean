import WasmEmbed.Proofs.Heap.Growth

/-! How far the making of an instance gets: its things are allocated, its segments are copied, and
its start function runs. Each stage may fail in its own way, and none takes anything away. -/
namespace WasmEmbed
open WasmEmbed.Code
variable {σ : Type}

/-- The store has no room for something. -/
def Error.IsResource (e : Error) : Prop := ∃ reason, e = .resource reason

/-- Code was stopped: a trap, at instantiation or not, or no fuel left. -/
inductive Error.Stops (instantiation : Bool) : Error → Prop where
  | trap (code : Option String) (message : String) :
    Stops instantiation (.trap code message instantiation)
  | outOfFuel : Stops instantiation .resourceExhausted

/-- All that making an instance can come to, stage by stage. -/
inductive Resources.Made (r : Resources σ) (bulkMemory : Bool) (maxFrames : Nat) (a : Artifact)
    (imported : Link) : Except Error Link × Resources σ → Prop where
  | unallocated {e : Error} (halloc : r.heap.allocate a imported = .error e) :
    Made r bulkMemory maxFrames a imported (.error e, r)
  /-- Without operations on bulk memory, segments are checked before any is copied. -/
  | unfit {heap : Heap σ} {addr : Nat} {e : Error}
    (halloc : r.heap.allocate a imported = .ok (heap, addr)) (hbulk : bulkMemory = false)
    (hcheck : heap.checkSegments a (heap.link addr) = .error e) :
    Made r bulkMemory maxFrames a imported (.error e, { r with heap })
  | overrun {heap : Heap σ} {addr : Nat} {code : TrapCode} {after : Resources σ}
    (halloc : r.heap.allocate a imported = .ok (heap, addr))
    (hfits : bulkMemory = true ∨ heap.checkSegments a (heap.link addr) = .ok ())
    (hcopy : Resources.copyActive { r with heap } a (heap.link addr) = (some code, after)) :
    Made r bulkMemory maxFrames a imported
      (.error (.trap (some code.name) (code.message []) true), after)
  | idle {heap : Heap σ} {addr : Nat} {after : Resources σ}
    (halloc : r.heap.allocate a imported = .ok (heap, addr))
    (hfits : bulkMemory = true ∨ heap.checkSegments a (heap.link addr) = .ok ())
    (hcopy : Resources.copyActive { r with heap } a (heap.link addr) = (none, after))
    (hstart : a.start = none) :
    Made r bulkMemory maxFrames a imported (.ok (heap.link addr), after)
  | started {heap : Heap σ} {addr i : Nat} {copied after : Resources σ} {stop : Stop}
    (halloc : r.heap.allocate a imported = .ok (heap, addr))
    (hfits : bulkMemory = true ∨ heap.checkSegments a (heap.link addr) = .ok ())
    (hcopy : Resources.copyActive { r with heap } a (heap.link addr) = (none, copied))
    (hstart : a.start = some i)
    (hcall : copied.call maxFrames ((heap.link addr).funcs.getD i 0) [] = (stop, after)) :
    Made r bulkMemory maxFrames a imported
      ((stop.report true).map fun _ => heap.link addr, after)

variable {r : Resources σ} {bulkMemory : Bool} {maxFrames : Nat} {a : Artifact} {imported : Link}
  {out : Except Error Link × Resources σ}

/-- Instantiating goes through the stages in order, up to the first that fails. -/
theorem instantiate_made (r : Resources σ) (bulkMemory : Bool) (maxFrames : Nat) (a : Artifact)
    (imported : Link) :
    r.Made bulkMemory maxFrames a imported (r.instantiate bulkMemory maxFrames a imported) := by
  unfold Resources.instantiate
  cases halloc : r.heap.allocate a imported with
  | error e => exact .unallocated halloc
  | ok p =>
    obtain ⟨heap, addr⟩ := p
    dsimp only
    cases hcheck : (if bulkMemory then .ok () else heap.checkSegments a (heap.link addr) :
      Except Error Unit) with
    | error e =>
      cases bulkMemory with
      | true => contradiction
      | false => exact .unfit halloc rfl hcheck
    | ok _ =>
      have hfits : bulkMemory = true ∨ heap.checkSegments a (heap.link addr) = .ok () := by
        cases bulkMemory with
        | true => exact Or.inl rfl
        | false => exact Or.inr hcheck
      dsimp only
      cases hcopy : Resources.copyActive { r with heap } a (heap.link addr) with
      | mk failed copied =>
        cases failed with
        | some code => exact .overrun halloc hfits hcopy
        | none =>
          dsimp only
          cases hstart : a.start with
          | none => exact .idle halloc hfits hcopy hstart
          | some i => exact .started halloc hfits hcopy hstart rfl

/-- Memories can only fail for want of room. -/
theorem newMemories_error {limit : Option Nat} {ts : List MemoryType} {e : Error}
    (h : Heap.newMemories limit ts = .error e) : e.IsResource := by
  induction ts with
  | nil => contradiction
  | cons t rest ih =>
    unfold Heap.newMemories at h
    split at h
    · cases hrest : Heap.newMemories limit rest with
      | error e' =>
        rw [hrest] at h
        have he : e' = e := Except.error.inj h
        exact ih (he ▸ hrest)
      | ok ms =>
        rw [hrest] at h
        contradiction
    · exact ⟨_, (Except.error.inj h).symm⟩

/-- Allocation can only fail for want of room. -/
theorem allocate_error {h : Heap σ} {e : Error} (halloc : h.allocate a imported = .error e) :
    e.IsResource := by
  unfold Heap.allocate at halloc
  cases hm : Heap.newMemories h.limit a.memories with
  | error e' =>
    rw [hm] at halloc
    have he : e' = e := Except.error.inj halloc
    exact he ▸ newMemories_error hm
  | ok memories =>
    rw [hm] at halloc
    contradiction

theorem checkSegments_error {h : Heap σ} {l : Link} {e : Error}
    (hcheck : h.checkSegments a l = .error e) : e.IsResource := by
  unfold Heap.checkSegments at hcheck
  split at hcheck
  · exact ⟨_, (Except.error.inj hcheck).symm⟩
  · split at hcheck
    · exact ⟨_, (Except.error.inj hcheck).symm⟩
    · contradiction

/-- What the back end stopped with is told as such. -/
theorem report_error {stop : Stop} {instantiation : Bool} {e : Error}
    (h : stop.report instantiation = .error e) : e.Stops instantiation := by
  cases stop with
  | finished values => contradiction
  | trapped code frames =>
    rw [← Except.error.inj h]
    exact .trap _ _
  | hostFailed e' =>
    rw [← Except.error.inj h]
    exact .trap _ _
  | outOfFuel =>
    rw [← Except.error.inj h]
    exact .outOfFuel

/-- An instance that is not made is stopped by code, or by the store. -/
theorem made_error {e : Error} {after : Resources σ}
    (h : r.Made bulkMemory maxFrames a imported (.error e, after)) :
    e.Stops true ∨ e.IsResource := by
  generalize hout : (Except.error e, after) = out at h
  cases h with
  | unallocated halloc =>
    rw [Except.error.inj (congrArg Prod.fst hout)]
    exact Or.inr (allocate_error halloc)
  | unfit halloc hbulk hcheck =>
    rw [Except.error.inj (congrArg Prod.fst hout)]
    exact Or.inr (checkSegments_error hcheck)
  | overrun halloc hfits hcopy =>
    rw [Except.error.inj (congrArg Prod.fst hout)]
    exact Or.inl (.trap _ _)
  | idle halloc hfits hcopy hstart =>
    have hresult := congrArg Prod.fst hout
    contradiction
  | @started heap addr i copied after stop halloc hfits hcopy hstart hcall =>
    have hresult : .error e = (stop.report true).map fun _ => heap.link addr :=
      congrArg Prod.fst hout
    cases hreport : stop.report true with
    | ok values =>
      rw [hreport] at hresult
      contradiction
    | error e' =>
      rw [hreport] at hresult
      rw [Except.error.inj hresult]
      exact Or.inl (report_error hreport)

/-- However far it gets, the heap that is left is the one that was allocated, with writes; an
instance that is made is the one at the address that was given to it. The writes of the start
function come after those of the segments. -/
theorem made_heap (h : r.Made bulkMemory maxFrames a imported out) :
    (out.2 = r ∧ ∀ l, out.1 ≠ .ok l) ∨
      ∃ heap addr ws, r.heap.allocate a imported = .ok (heap, addr) ∧
        out.2.heap = heap.performAll ws ∧ ∀ l, out.1 = .ok l → l = heap.link addr := by
  have hcopied (heap : Heap σ) (addr : Nat) {failed : Option TrapCode} {after : Resources σ}
      (hcopy : Resources.copyActive { r with heap } a (heap.link addr) = (failed, after)) :
      ∃ ws, after.heap = heap.performAll ws := by
    have hws := copyActive_heap { r with heap } a (heap.link addr)
    rw [hcopy] at hws
    exact ⟨_, hws⟩
  cases h with
  | unallocated halloc => exact Or.inl ⟨rfl, fun l hl => by contradiction⟩
  | unfit halloc hbulk hcheck =>
    exact Or.inr ⟨_, _, [], halloc, rfl, fun l hl => by contradiction⟩
  | @overrun heap addr code after halloc hfits hcopy =>
    obtain ⟨ws, hws⟩ := hcopied heap addr hcopy
    exact Or.inr ⟨heap, addr, ws, halloc, hws, fun l hl => by contradiction⟩
  | @idle heap addr after halloc hfits hcopy hstart =>
    obtain ⟨ws, hws⟩ := hcopied heap addr hcopy
    exact Or.inr ⟨heap, addr, ws, halloc, hws, fun l hl => (Except.ok.inj hl).symm⟩
  | @started heap addr i copied after stop halloc hfits hcopy hstart hcall =>
    obtain ⟨ws, hws⟩ := hcopied heap addr hcopy
    have hvs := call_heap copied maxFrames ((heap.link addr).funcs.getD i 0) []
    rw [hcall, hws, ← performAll_append] at hvs
    refine Or.inr ⟨heap, addr, _, halloc, hvs, fun l hl => ?_⟩
    cases hreport : stop.report true with
    | error e =>
      rw [hreport] at hl
      contradiction
    | ok values =>
      rw [hreport] at hl
      exact (Except.ok.inj hl).symm

/-- All that was in the heap before is there afterwards. -/
theorem grows_made (h : r.Made bulkMemory maxFrames a imported out) : r.heap.Grows out.2.heap := by
  rcases made_heap h with ⟨hsame, _⟩ | ⟨heap, addr, ws, halloc, hleft, _⟩
  · rw [hsame]
    exact grows_refl r.heap
  · rw [hleft]
    exact grows_trans (grows_allocate halloc) (grows_performAll heap ws)

/-- The number of traps that an answer counts as. -/
def trapsOf {α : Type} : Except Error α → Nat
  | .error e => if e.isTrap then 1 else 0
  | .ok _ => 0

/-- An instance is built of what the back end makes of the module, with its imports in the heap. -/
theorem build_made (s : Store σ) (ref : StoreRef) (c : Contents σ) (world : σ) (m : Module)
    (ds : List (Definition σ)) {heap : Heap σ} {result : Except Error Link} {after : Resources σ}
    (hprovided : c.heap.provideAll {} ds = (heap, imported))
    (hmade : Resources.instantiate ⟨heap, c.fuel, world⟩ s.config.bulkMemory s.maxFrames m.artifact
      imported = (result, after)) :
    ∃ d, (Instance.build s ref c world m ds).store = s.withContents d ∧ d.heap = after.heap ∧
      d.fuel = after.fuel ∧ d.nextInstance = c.nextInstance + 1 ∧
      d.metrics = { c.metrics with traps := c.metrics.traps + trapsOf result } ∧
      (Instance.build s ref c world m ds).result = result.map fun l =>
        ⟨ref, c.nextInstance, m, Instance.handles ref c.nextInstance m.artifact l⟩ := by
  simp only [Instance.build, hprovided, Contents.resources, hmade]
  cases result with
  | error e =>
    refine ⟨_, rfl, rfl, rfl, rfl, ?_, rfl⟩
    dsimp only [trapsOf]
    cases e.isTrap with
    | true => rfl
    | false => rfl
  | ok l => exact ⟨_, rfl, rfl, rfl, rfl, rfl, rfl⟩

/-- What an attempt to make an instance leaves of a store, and its answer: a refusal, or what the back
end makes of the module with the imports in the heap. -/
inductive Store.Builds (s : Store σ) (world : σ) (m : Module) (imports : Imports σ) :
    Contents σ → Except Error Instance → Prop where
  | refused {d : Contents σ} {e : Error} (hd : s.contents = some d) :
    Builds s world m imports d (.error e)
  | built {c d : Contents σ} {ref : StoreRef} {ds : List (Definition σ)} {heap : Heap σ}
    {imported : Link} {out : Except Error Link × Resources σ} (hc : s.contents = some c)
    (hds : imports.resolve s.id m = .ok ds) (hprovided : c.heap.provideAll {} ds = (heap, imported))
    (hmade : Resources.Made ⟨heap, c.fuel, world⟩ s.config.bulkMemory s.maxFrames m.artifact
      imported out) (hheap : d.heap = out.2.heap) :
    Builds s world m imports d (out.1.map fun l =>
      ⟨ref, c.nextInstance, m, Instance.handles ref c.nextInstance m.artifact l⟩)

/-- An instance leaves contents only after linking has passed, which are those that the back end
left. -/
theorem create_builds {s : Store σ} {world : σ} {m : Module} {imports : Imports σ} {d : Contents σ}
    (hd : (Instance.create s world m imports).store.contents = some d) :
    s.Builds world m imports d (Instance.create s world m imports).result := by
  rcases create_cases s m imports with ⟨e, hrefused⟩ | ⟨ref, c, ds, _, hc, hds, hbuilt⟩
  · rw [hrefused] at hd ⊢
    exact .refused hd
  · cases hprovided : c.heap.provideAll {} ds with
    | mk heap imported =>
      have hmade := instantiate_made (Resources.mk heap c.fuel world) s.config.bulkMemory
        s.maxFrames m.artifact imported
      obtain ⟨d', hstore, hheap, _, _, _, hresult⟩ := build_made s ref c world m ds hprovided rfl
      rw [hbuilt, hstore] at hd
      obtain rfl := Option.some.inj hd
      rw [hbuilt, hresult]
      exact .built hc hds hprovided hmade hheap

end WasmEmbed
