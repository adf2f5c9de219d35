import WasmEmbed.Proofs.Heap.Thing
import WasmEmbed.Proofs.Instance.Exports

/-! What the indices of an instance stand for. Those of imports stand for the very things that the
imports were defined by, the others for things that were not there before, and exports stand for what
is under their index. All of this is settled when the instance is made, and never changes. -/
namespace WasmEmbed
open WasmEmbed.Code
variable {σ : Type}

/-- How many of the imports before a position are of a kind: the index of the import there, if it is
of this kind itself. -/
def importIndex (is : List ImportType) (kind : ExternKind) (position : Nat) : Nat :=
  (is.take position).countP fun i => i.type.kind = kind

/-- How many imports are of a kind. The things that a module declares itself have the indices from
there on. -/
def importCount (is : List ImportType) (kind : ExternKind) : Nat :=
  is.countP fun i => i.type.kind = kind

/-- In a heap that came of the heap `before`, these are the index spaces of an instance that was made
there with these imports. -/
structure Instance.Placed (i : Instance) (imports : Imports σ) (before h : Heap σ) (l : Link) :
    Prop where
  found : h.links[before.links.size]? = some l
  typed : l.Typed h i.module.artifact.typesOf
  exports : i.exports = Instance.handles i.store i.id i.module.artifact l
  imported : ∀ (k : Nat) (imp : ImportType) (x : Item), i.module.imports[k]? = some imp →
    imports.get? imp.module imp.name = some (.item x) → x.type = imp.type ∧
      (l.addrs imp.type.kind)[importIndex i.module.imports imp.type.kind k]? = some x.addr
  own : ∀ kind (j addr : Nat), importCount i.module.imports kind ≤ j →
    (l.addrs kind)[j]? = some addr → before.count kind ≤ addr
  code : ∀ j addr : Nat, importCount i.module.imports .function ≤ j → l.funcs[j]? = some addr →
    ∃ c, h.funcs[addr]? = some (.code c) ∧ c.link = before.links.size

variable {i : Instance} {imports : Imports σ} {before h k : Heap σ} {l l' : Link} {kind : ExternKind}
  {addr : Nat}

section Becomes

theorem addr_becomes (hl : l.Becomes l') (kind : ExternKind) (i : Nat) :
    l'.addr kind i = l.addr kind i := by
  cases kind with
  | function => exact congrArg (·.getD i 0) hl.funcs
  | memory => exact congrArg (·.getD i 0) hl.memories
  | global => exact congrArg (·.getD i 0) hl.globals
  | table => exact congrArg (·.getD i 0) hl.tables

/-- Handles are made of addresses only, which segments do not change. -/
theorem handles_becomes (hl : l.Becomes l') (ref : StoreRef) (id : Nat) (a : Artifact) :
    Instance.handles ref id a l' = Instance.handles ref id a l := by
  unfold Instance.handles
  congr 1
  funext i e
  rw [addr_becomes hl]

/-- An instance stays where it is. -/
theorem placed_grows (hg : h.Grows k) (hp : i.Placed imports before h l) :
    ∃ l', l.Becomes l' ∧ i.Placed imports before k l' := by
  obtain ⟨l', hfound, hl⟩ := hg.links _ l hp.found
  refine ⟨l', hl, hfound, ?_, ?_, ?_, ?_, ?_⟩
  · intro kind
    rw [addrs_becomes hl]
    exact (hp.typed kind).imp fun _ _ => holds_grows hg
  · rw [handles_becomes hl]
    exact hp.exports
  · intro k imp x hk hx
    rw [addrs_becomes hl]
    exact hp.imported k imp x hk hx
  · intro kind j addr hj haddr
    rw [addrs_becomes hl] at haddr
    exact hp.own kind j addr hj haddr
  · intro j addr hj haddr
    rw [hl.funcs] at haddr
    obtain ⟨c, hc, hlink⟩ := hp.code j addr hj haddr
    obtain ⟨_, hk, rfl⟩ := hg.funcs addr _ hc
    exact ⟨c, hk, hlink⟩

end Becomes

section Linked
variable {t : Imports σ} {is : List ImportType}

theorem links_provideAll (h : Heap σ) (l : Link) (ds : List (Definition σ)) :
    (h.provideAll l ds).1.links = h.links := by
  induction ds generalizing h l with
  | nil => rfl
  | cons d rest ih =>
    refine (ih _ _).trans ?_
    cases d with
    | host f => rfl
    | item x => cases x <;> rfl

/-- Linking compared types, so what is found can be counted by kind as the imports are. -/
theorem countP_fitting (h : t.Satisfies is) (kind : ExternKind) (k : Nat) :
    ((t.fitting is).take k).countP (fun d => d.type.kind = kind) = importIndex is kind k := by
  have htypes := congrArg (List.take k) (fitting_types h)
  rw [← List.map_take, ← List.map_take] at htypes
  have hcount := congrArg (List.countP fun type : ExternType => type.kind = kind) htypes
  rw [List.countP_map, List.countP_map] at hcount
  exact hcount

theorem importIndex_length (is : List ImportType) (kind : ExternKind) :
    importIndex is kind is.length = importCount is kind := by
  rw [importIndex, List.take_length, importCount]

/-- The imports of a module are in the index spaces where the module refers to them. -/
theorem imported_addrs (hs : t.Satisfies is) (h : Heap σ) (kind : ExternKind) :
    ((h.provideAll {} (t.fitting is)).2.addrs kind).length = importCount is kind ∧
      ∀ (k : Nat) (imp : ImportType) (x : Item), is[k]? = some imp →
        t.get? imp.module imp.name = some (.item x) → imp.type.kind = kind →
          ((h.provideAll {} (t.fitting is)).2.addrs kind)[importIndex is kind k]? = some x.addr := by
  obtain ⟨hlength, hitems⟩ := fitting_of_satisfies hs
  obtain ⟨new, hnew, hcount, hplaces⟩ := provideAll_addrs h {} (t.fitting is) kind
  have hnothing : ({} : Link).addrs kind = [] := by cases kind <;> rfl
  rw [hnothing, List.nil_append] at hnew
  rw [hnew]
  constructor
  · rw [hcount, ← importIndex_length, ← countP_fitting hs, ← hlength, List.take_length]
  · intro k imp x hk hx hkind
    obtain ⟨d, hd, htype⟩ := hs imp (List.mem_of_getElem? hk)
    obtain rfl := Option.some.inj (hd.symm.trans hx)
    rw [← countP_fitting hs]
    refine hplaces k x ((hitems k imp hk).trans hx) ?_
    rw [← hkind, ← htype]
    rfl

end Linked

/-- With linked imports in the heap, an instance is placed as soon as it is allocated. -/
theorem allocate_placed {m : Module} {imported : Link} {heap₀ : Heap σ} {place : Nat}
    (hm : m.Valid) (hs : imports.Satisfies m.imports)
    (hlinked : h.provideAll {} (imports.fitting m.imports) = (heap₀, imported))
    (htyped : imported.Typed heap₀ fun kind => m.imports.flatMap fun i => i.type.ofKind kind)
    (halloc : heap₀.allocate m.artifact imported = .ok (k, place)) (ref : StoreRef) (id : Nat) :
    Instance.Placed ⟨ref, id, m, Instance.handles ref id m.artifact (k.link place)⟩ imports h k
      (k.link place) := by
  have himported := fun kind => imported_addrs hs h kind
  have hbeside := adjoins_provideAll h {} (imports.fitting m.imports)
  have hlinks := links_provideAll h {} (imports.fitting m.imports)
  rw [hlinked] at himported hbeside hlinks
  rw [hm.imports] at htyped
  obtain ⟨hplace, l, hfound, hadded, hcode⟩ := allocate_addrs halloc
  obtain ⟨l', hfound', _, htyped⟩ := typed_allocate hm.artifact htyped halloc
  obtain rfl := Option.some.inj (hfound.symm.trans hfound')
  have hl : k.link place = l := by
    rw [Heap.link, Array.getD_eq_getD_getElem?, hfound]
    rfl
  have hplace : place = h.links.size := hplace.trans (congrArg Array.size hlinks)
  rw [hl]
  refine ⟨hplace ▸ hfound, htyped, rfl, ?_, ?_, ?_⟩
  · intro k imp x hk hx
    obtain ⟨x', hx', htype⟩ := hs imp (List.mem_of_getElem? hk)
    obtain rfl := Option.some.inj (hx'.symm.trans hx)
    obtain ⟨own, hown, _⟩ := hadded imp.type.kind
    have hindex := (himported imp.type.kind).2 k imp x hk hx rfl
    refine ⟨htype, ?_⟩
    rw [hown, List.getElem?_append_left (List.getElem?_eq_some_iff.mp hindex).1]
    exact hindex
  · intro kind j addr hj haddr
    obtain ⟨own, hown, hfresh⟩ := hadded kind
    have hlength : (imported.addrs kind).length = importCount m.imports kind := (himported kind).1
    rw [hown, List.getElem?_append_right (hlength ▸ hj)] at haddr
    exact Nat.le_trans (count_adjoins hbeside kind) (hfresh addr (List.mem_of_getElem? haddr))
  · intro j addr hj haddr
    have hlength : imported.funcs.length = importCount m.imports .function :=
      (himported .function).1
    rw [← hplace]
    exact hcode j addr (hlength ▸ hj) haddr

/-- An instance that is made is placed beside all that was there. What segments and the start
function write changes nothing of this. -/
theorem create_placed {s : Store σ} {c d : Contents σ} {world : σ} {m : Module} (hm : m.Valid)
    (hc : s.contents = some c)
    (hheld : ∀ x : Item, x.store.id = s.id → (∃ e ∈ imports.entries, e.2 = .item x) →
      c.heap.Holds x.addr x.type)
    (hd : (Instance.create s world m imports).store.contents = some d)
    (hi : (Instance.create s world m imports).result = .ok i) :
    i.module = m ∧ ∃ l, i.Placed imports c.heap d.heap l := by
  have hbuilds := create_builds hd
  rw [hi] at hbuilds
  generalize hresult : Except.ok i = result at hbuilds
  cases hbuilds with
  | refused hd => contradiction
  | @built b _ ref ds heap₀ imported out hb hds hlinked hmade hheap =>
    obtain rfl := Option.some.inj (hc.symm.trans hb)
    obtain ⟨hown, hs, rfl⟩ := resolve_fitting hds
    obtain ⟨result, after⟩ := out
    cases result with
    | error e => contradiction
    | ok l =>
      obtain rfl := Except.ok.inj hresult
      refine ⟨rfl, ?_⟩
      rcases made_heap hmade with ⟨_, hnone⟩ | ⟨heap, place, ws, halloc, hleft, hplace⟩
      · exact absurd rfl (hnone l)
      · have htyped := typed_fitting hown hs hheld
        rw [hlinked] at htyped
        have hplaced := allocate_placed hm hs hlinked htyped halloc ref c.nextInstance
        rw [hplace l rfl]
        obtain ⟨l', _, hplaced⟩ := placed_grows (grows_performAll heap ws) hplaced
        rw [hheap, show after.heap = heap.performAll ws from hleft]
        exact ⟨l', hplaced⟩

end WasmEmbed
