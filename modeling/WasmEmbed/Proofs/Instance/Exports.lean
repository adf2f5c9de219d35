import WasmEmbed.Proofs.Cache.Transparency
import WasmEmbed.Proofs.Heap.Sound
import WasmEmbed.Proofs.Instance.Attempt

/-! What is made of a valid module. If its imports are defined by things that are what their handles
say, then so are its exports, and all code in the heap goes on keeping to its types. -/
namespace WasmEmbed
open WasmEmbed.Code
variable {σ : Type}

/-- The module was validated, and asks for what its code imports. -/
structure Module.Valid (m : Module) : Prop where
  artifact : m.artifact.Valid
  imports : m.imports = m.artifact.importTypes

/-- A module is what its bytes compile to, whether or not the engine had it. -/
theorem load_compiled {e : Engine} (he : e.Sound) {src : Source} {m : Module}
    (hload : (src.load e).1 = .ok m) : ∃ bytes a,
      Module.compileBytes e.config.features bytes = .ok a ∧ m = Module.ofArtifact e bytes a := by
  rcases load_cases src with ⟨bytes, h⟩ | ⟨err, h⟩
  · rw [h, compile_eq_compileAlone he] at hload
    obtain ⟨_, _, hload⟩ := except_bind_ok hload
    obtain ⟨a, ha, hm⟩ := except_bind_ok hload
    exact ⟨bytes, a, ha, (Except.ok.inj hm).symm⟩
  · rw [h] at hload
    contradiction

/-- What an engine loads has passed validation. -/
theorem load_valid {e : Engine} (he : e.Sound) {src : Source} {m : Module}
    (hload : (src.load e).1 = .ok m) : m.Valid := by
  obtain ⟨bytes, a, ha, rfl⟩ := load_compiled he hload
  refine ⟨?_, rfl⟩
  unfold Module.compileBytes at ha
  split at ha
  · rename_i a' hcompile
    rw [← Except.ok.inj ha]
    exact compile_valid hcompile
  · contradiction

/-- A module declares what its code exports. -/
theorem load_declares {e : Engine} (he : e.Sound) {src : Source} {m : Module}
    (hload : (src.load e).1 = .ok m) : m.exports = m.artifact.exportTypes := by
  obtain ⟨bytes, a, _, rfl⟩ := load_compiled he hload
  rfl

section Linked
variable {t : Imports σ} {store : Nat} {is : List ImportType}

/-- Linking gives definitions of the types that are imported. -/
theorem fitting_types (h : t.Satisfies is) :
    (t.fitting is).map Definition.type = is.map ImportType.type := by
  induction is with
  | nil => rfl
  | cons i rest ih =>
    obtain ⟨d, hd, htype⟩ := h i List.mem_cons_self
    have hrest := ih fun j hj => h j (List.mem_cons_of_mem i hj)
    rw [Imports.fitting, List.filterMap_cons, hd, Option.bind_some, if_pos htype, List.map_cons,
      List.map_cons, htype]
    exact congrArg _ hrest

/-- What imports are linked to is in the table, and none of it lives in another store. -/
theorem fitting_own (h : ¬ t.Foreign store is) {x : Item} (hx : .item x ∈ t.fitting is) :
    x.store.id = store ∧ ∃ e ∈ t.entries, e.2 = .item x := by
  obtain ⟨i, hi, hfound, _⟩ := mem_fitting_iff.mp hx
  refine ⟨?_, mem_of_get? hfound⟩
  by_contra hne
  exact h ⟨i, hi, x, hfound, hne⟩

/-- Linking compared the types, so that the imports are of those that the module asks for. -/
theorem typed_fitting {h : Heap σ} (hown : ¬ t.Foreign store is) (hs : t.Satisfies is)
    (hheld : ∀ x : Item, x.store.id = store → (∃ e ∈ t.entries, e.2 = .item x) →
      h.Holds x.addr x.type) :
    (h.provideAll {} (t.fitting is)).2.Typed (h.provideAll {} (t.fitting is)).1
      fun kind => is.flatMap fun i => i.type.ofKind kind := by
  have hnothing : ({} : Link).Typed h fun _ => [] := by
    intro kind
    cases kind <;> exact .nil
  have hprovided := typed_provideAll hnothing (t.fitting is) fun x hx =>
    hheld x (fitting_own hown hx).1 (fitting_own hown hx).2
  refine typed_congr hprovided fun kind => ?_
  calc [] ++ (t.fitting is).flatMap (fun d => d.type.ofKind kind)
      = ((t.fitting is).map Definition.type).flatMap (ExternType.ofKind kind) := by
        rw [List.nil_append, List.flatMap_map]
    _ = (is.map ImportType.type).flatMap (ExternType.ofKind kind) := by rw [fitting_types hs]
    _ = is.flatMap fun i => i.type.ofKind kind := by rw [List.flatMap_map]

/-- What linking provides a module with keeps all code in its types, and is of the types that the
module asks for. -/
theorem provided_of_resolve {m : Module} (hm : m.Valid) {h k : Heap σ} (hs : h.Sound)
    (hheld : ∀ x : Item, x.store.id = store → (∃ e ∈ t.entries, e.2 = .item x) →
      h.Holds x.addr x.type) {ds : List (Definition σ)} (hds : t.resolve store m = .ok ds)
    {imported : Link} (hprovided : h.provideAll {} ds = (k, imported)) :
    k.Sound ∧ imported.Typed k
      fun kind => m.artifact.importTypes.flatMap fun i => i.type.ofKind kind := by
  obtain ⟨hown, hsat, rfl⟩ := resolve_fitting hds
  have hsound := sound_provideAll hs {} (t.fitting m.imports)
  have htyped := typed_fitting hown hsat hheld
  rw [hprovided] at hsound htyped
  rw [hm.imports] at htyped
  exact ⟨hsound, htyped⟩

end Linked

section Made
variable {r : Resources σ} {bulkMemory : Bool} {maxFrames : Nat} {a : Artifact} {imported : Link}
  {out : Except Error Link × Resources σ}

/-- However far an instance gets, the heap that is left is sound. -/
theorem sound_made (hvalid : a.Valid) (hs : r.heap.Sound)
    (hl : imported.Typed r.heap fun kind => a.importTypes.flatMap fun i => i.type.ofKind kind)
    (h : r.Made bulkMemory maxFrames a imported out) : out.2.heap.Sound := by
  rcases made_heap h with ⟨hsame, _⟩ | ⟨heap, addr, ws, halloc, hleft, _⟩
  · rw [hsame]
    exact hs
  · rw [hleft]
    exact sound_performAll (sound_allocate hvalid hs hl halloc) ws

/-- An instance that is made has the things that its module says, with their types. -/
theorem typed_made (hvalid : a.Valid)
    (hl : imported.Typed r.heap fun kind => a.importTypes.flatMap fun i => i.type.ofKind kind)
    (h : r.Made bulkMemory maxFrames a imported out) {l : Link} (hok : out.1 = .ok l) :
    l.Typed out.2.heap a.typesOf := by
  rcases made_heap h with ⟨_, hnone⟩ | ⟨heap, addr, ws, halloc, hleft, haddr⟩
  · exact absurd hok (hnone l)
  · obtain ⟨l', hlink, _, htyped⟩ := typed_allocate hvalid hl halloc
    rw [hleft, haddr l hok, link_of_found hlink]
    exact fun kind => (htyped kind).imp fun _ _ => holds_grows (grows_performAll heap ws)

end Made

section Handles
variable {a : Artifact} {l : Link} {h : Heap σ} {ref : StoreRef} {id : Nat}

theorem externType_eq {kind : ExternKind} {i : Nat} (hi : i < (a.typesOf kind).length) :
    (a.typesOf kind)[i]? = some (a.externType kind i) := by
  cases kind <;>
    simp_all [Artifact.typesOf, Artifact.externType, List.getD_eq_getElem?_getD]

theorem addr_eq {kind : ExternKind} {i addr : Nat} (h : (l.addrs kind)[i]? = some addr) :
    l.addr kind i = addr := by
  cases kind <;> simp_all [Link.addrs, Link.addr, List.getD_eq_getElem?_getD]

theorem addr_ofType (ref : StoreRef) (instanceId index : Nat) (name : String) (addr : Nat)
    (t : ExternType) : (Item.ofType ref instanceId index name addr t).addr = addr := by
  cases t <;> rfl

/-- The exports of an instance are there, with the types that their handles tell. -/
theorem handles_held (hvalid : a.Valid) (hl : l.Typed h a.typesOf) {x : String × Item}
    (hx : x ∈ Instance.handles ref id a l) : h.Holds x.2.addr x.2.type := by
  obtain ⟨i, hi, rfl⟩ := List.mem_mapIdx.mp hx
  have hexport := hvalid.exports a.exports[i] (List.getElem_mem hi)
  obtain ⟨addr, haddr, hheld⟩ := typed_addr hl (externType_eq hexport)
  rw [addr_ofType, Item.type_ofType, addr_eq haddr]
  exact hheld

end Handles

/-- An attempt to make an instance leaves sound contents in which everything is that was there, and
the exports of an instance that is made are what their handles say. -/
theorem create_held {s : Store σ} {world : σ} {m : Module} {imports : Imports σ}
    {d : Contents σ} (hm : m.Valid)
    (hs : ∀ c, s.contents = some c → c.heap.Sound ∧ ∀ (x : Item), x.store.id = s.id →
      (∃ e ∈ imports.entries, e.2 = .item x) → c.heap.Holds x.addr x.type)
    (hd : (Instance.create s world m imports).store.contents = some d) :
    (∃ c, s.contents = some c ∧ c.heap.Grows d.heap) ∧ d.heap.Sound ∧
      ∀ i, (Instance.create s world m imports).result = .ok i →
        ∀ x ∈ i.exports, d.heap.Holds x.2.addr x.2.type := by
  have hbuilds := create_builds hd
  generalize (Instance.create s world m imports).result = result at hbuilds
  cases hbuilds with
  | refused hd => exact ⟨⟨d, hd, grows_refl d.heap⟩, (hs d hd).1, fun i hi => by contradiction⟩
  | @built c _ ref ds heap imported out hc hds hlinked hmade hheap =>
    obtain ⟨hsound, hheld⟩ := hs c hc
    -- first the imports are put into the heap, then the back end makes the instance
    obtain ⟨hprovided, himported⟩ := provided_of_resolve hm hsound hheld hds hlinked
    have hgrows := grows_provideAll c.heap {} ds
    rw [hlinked] at hgrows
    rw [hheap]
    -- only an instance that was made has exports, but what is left is sound in any case
    refine ⟨⟨c, hc, grows_trans hgrows (grows_made hmade)⟩,
      sound_made hm.artifact hprovided himported hmade, fun i hi x hx => ?_⟩
    obtain ⟨answer, after⟩ := out
    cases answer with
    | error e => contradiction
    | ok l =>
      have htyped := typed_made hm.artifact himported hmade rfl
      rw [← Except.ok.inj hi] at hx
      exact handles_held hm.artifact htyped hx

end WasmEmbed
