import Mathlib.Data.List.Forall2
import WasmEmbed.Proofs.Heap.Growth
import WasmEmbed.Proofs.Typing.Promises

/-! What addresses stand for. An index of an instance stands for a thing of the type that the module
declares there, and so does every export; this holds once the instance is allocated, and goes on
holding because heaps only grow. -/
namespace WasmEmbed
open WasmEmbed.Code
variable {σ : Type}

/-- The thing with an address is there, and has a type. -/
def Heap.Holds (h : Heap σ) (addr : Nat) : ExternType → Prop
  | .func t => ∃ f, h.funcs[addr]? = some f ∧ f.type = t
  | .memory t => ∃ m, h.memories[addr]? = some m ∧ m.type = t
  | .global t => ∃ g, h.globals[addr]? = some g ∧ g.type = t
  | .table t => ∃ u, h.tables[addr]? = some u ∧ u.type = t

/-- The addresses of the things of a kind, by index. -/
def Link.addrs (l : Link) : ExternKind → List Nat
  | .function => l.funcs
  | .memory => l.memories
  | .global => l.globals
  | .table => l.tables

/-- The indices of an instance stand for things of these types. -/
def Link.Typed (l : Link) (h : Heap σ) (types : ExternKind → List ExternType) : Prop :=
  ∀ kind, List.Forall₂ h.Holds (l.addrs kind) (types kind)

variable {h k : Heap σ} {l l' : Link} {types extra : ExternKind → List ExternType} {a : Artifact}
  {addr : Nat}

/-- What is held keeps its type as the heap grows. -/
theorem holds_grows (hg : h.Grows k) {t : ExternType} (ht : h.Holds addr t) : k.Holds addr t := by
  cases t with
  | func t =>
    obtain ⟨f, hf, rfl⟩ := ht
    obtain ⟨_, hk, rfl⟩ := hg.funcs addr f hf
    exact ⟨f, hk, rfl⟩
  | memory t =>
    obtain ⟨m, hm, rfl⟩ := ht
    obtain ⟨n, hk, hbecomes⟩ := hg.memories addr m hm
    exact ⟨n, hk, hbecomes.type⟩
  | global t =>
    obtain ⟨g, hg', rfl⟩ := ht
    obtain ⟨n, hk, hbecomes⟩ := hg.globals addr g hg'
    exact ⟨n, hk, hbecomes.type⟩
  | table t =>
    obtain ⟨u, hu, rfl⟩ := ht
    obtain ⟨n, hk, hbecomes⟩ := hg.tables addr u hu
    exact ⟨n, hk, hbecomes.type⟩

theorem addrs_becomes (hl : l.Becomes l') (kind : ExternKind) : l'.addrs kind = l.addrs kind := by
  cases kind with
  | function => exact hl.funcs
  | memory => exact hl.memories
  | global => exact hl.globals
  | table => exact hl.tables

theorem typed_congr {types' : ExternKind → List ExternType} (hl : l.Typed h types)
    (htypes : ∀ kind, types kind = types' kind) : l.Typed h types' := by
  intro kind
  rw [← htypes kind]
  exact hl kind

theorem link_of_found {place : Nat} (hl : h.links[place]? = some l) : h.link place = l := by
  rw [Heap.link, Array.getD_eq_getD_getElem?, hl]
  rfl

/-- Index spaces that are continued by new things go on being typed. -/
theorem typed_extend (hg : h.Grows k) (hl : l.Typed h types)
    (hextra : ∀ kind, ∃ new, l'.addrs kind = l.addrs kind ++ new ∧
      List.Forall₂ k.Holds new (extra kind)) :
    l'.Typed k fun kind => types kind ++ extra kind := by
  intro kind
  obtain ⟨new, hnew, hheld⟩ := hextra kind
  rw [hnew]
  have hold : List.Forall₂ k.Holds (l.addrs kind) (types kind) :=
    (hl kind).imp fun _ _ => holds_grows hg
  exact List.rel_append hold hheld

/-- An index space has an address of the right type for each type that it is to have. -/
theorem typed_addr (hl : l.Typed h types) {kind : ExternKind} {i : Nat} {t : ExternType}
    (ht : (types kind)[i]? = some t) : ∃ addr, (l.addrs kind)[i]? = some addr ∧ h.Holds addr t := by
  obtain ⟨hi, rfl⟩ := List.getElem?_eq_some_iff.mp ht
  obtain ⟨hlength, hget⟩ := List.forall₂_iff_get.mp (hl kind)
  have hi' : i < (l.addrs kind).length := by
    rw [hlength]
    exact hi
  exact ⟨_, List.getElem?_eq_getElem hi', hget i hi' hi⟩

/-- The type alone, if it is of the kind. -/
def ExternType.ofKind (kind : ExternKind) (t : ExternType) : List ExternType :=
  if t.kind = kind then [t] else []

/-- One more address in the index space of its kind, and one more type. -/
theorem typed_push (hg : h.Grows k) (hl : l.Typed h types) {t : ExternType} (ht : k.Holds addr t)
    (hl' : ∀ kind, l'.addrs kind = l.addrs kind ++ if t.kind = kind then [addr] else []) :
    l'.Typed k fun kind => types kind ++ t.ofKind kind := by
  refine typed_extend hg hl fun kind => ⟨_, hl' kind, ?_⟩
  unfold ExternType.ofKind
  split
  · exact .cons ht .nil
  · exact .nil

section Provide

/-- What an import is defined by is of the type of its definition, if that is so of the things that
are in the heap. -/
theorem typed_provide (hl : l.Typed h types) (d : Definition σ)
    (hd : ∀ x, d = .item x → h.Holds x.addr x.type) :
    (h.provide l d).2.Typed (h.provide l d).1 fun kind => types kind ++ d.type.ofKind kind := by
  have hg := grows_provide h l d
  cases d with
  | host f =>
    refine typed_push hg hl ⟨.host f, Array.getElem?_push_size, rfl⟩ ?_
    intro kind
    cases kind with
    | function => rfl
    | _ => exact (List.append_nil _).symm
  | item x =>
    have hx := hd x rfl
    cases x with
    | func f =>
      refine typed_push hg hl hx ?_
      intro kind
      cases kind with
      | function => rfl
      | _ => exact (List.append_nil _).symm
    | global g =>
      refine typed_push hg hl hx ?_
      intro kind
      cases kind with
      | global => rfl
      | _ => exact (List.append_nil _).symm
    | memory m =>
      refine typed_push hg hl hx ?_
      intro kind
      cases kind with
      | memory => rfl
      | _ => exact (List.append_nil _).symm
    | table t =>
      refine typed_push hg hl hx ?_
      intro kind
      cases kind with
      | table => rfl
      | _ => exact (List.append_nil _).symm

/-- What the definitions that follow are made of is still there after a host function was added. -/
theorem typed_provideAll (hl : l.Typed h types) (ds : List (Definition σ))
    (hds : ∀ x, .item x ∈ ds → h.Holds x.addr x.type) :
    (h.provideAll l ds).2.Typed (h.provideAll l ds).1
      fun kind => types kind ++ ds.flatMap fun d => d.type.ofKind kind := by
  induction ds generalizing h l types with
  | nil => exact typed_congr hl fun kind => (List.append_nil _).symm
  | cons d rest ih =>
    have hfirst := typed_provide hl d fun x hx => hds x (hx ▸ List.mem_cons_self)
    have hrest := ih hfirst fun x hx =>
      holds_grows (grows_provide h l d) (hds x (List.mem_cons_of_mem d hx))
    exact typed_congr hrest fun kind => List.append_assoc _ _ _

end Provide

section Allocate

theorem typed_addGlobals (hl : l.Typed h types) (gs : List GlobalDef) :
    (h.addGlobals l gs).2.Typed (h.addGlobals l gs).1
      fun kind => types kind ++ gs.flatMap fun g => (ExternType.global g.type).ofKind kind := by
  induction gs generalizing h l types with
  | nil => exact typed_congr hl fun kind => (List.append_nil _).symm
  | cons g rest ih =>
    let v := GlobalObj.ofType g.type (h.constant l g.init)
    let k : Heap σ := { h with globals := h.globals.push v }
    have hg : h.Grows k :=
      { grows_refl h with globals := persist_push global_becomes_refl h.globals v }
    have hpush : ({ l with globals := l.globals ++ [h.globals.size] } : Link).Typed k
        fun kind => types kind ++ (ExternType.global g.type).ofKind kind := by
      refine typed_push hg hl ⟨v, Array.getElem?_push_size, rfl⟩ ?_
      intro kind
      cases kind with
      | global => rfl
      | _ => exact (List.append_nil _).symm
    exact typed_congr (ih hpush) fun kind => List.append_assoc _ _ _

/-- Things that are added after others have the addresses that follow. -/
theorem holds_fresh {α : Type} {size : Nat} {xs : List α} {type : α → ExternType}
    (hxs : ∀ i x, xs[i]? = some x → h.Holds (size + i) (type x)) :
    List.Forall₂ h.Holds ((List.range xs.length).map (size + ·)) (xs.map type) := by
  rw [List.forall₂_iff_get]
  refine ⟨by simp, ?_⟩
  intro i hi _
  have hi : i < xs.length := by simpa using hi
  simpa using hxs i xs[i] (List.getElem?_eq_getElem hi)

theorem getElem?_append_toArray {α : Type} {xs : Array α} {ys : List α} {i : Nat} {y : α}
    (hy : ys[i]? = some y) : (xs ++ ys.toArray)[xs.size + i]? = some y := by
  rw [Array.getElem?_append_right (Nat.le_add_right _ _), Nat.add_sub_cancel_left,
    List.getElem?_toArray, hy]

/-- The functions of a module are of its code, in its order. -/
theorem closures_get {link i : Nat} {c : Closure} (hc : (Heap.closures a link)[i]? = some c) :
    ∃ p, (a.funcs.zip a.bodies)[i]? = some p ∧ c.type = a.typeAt p.1 ∧ c.code = p.2.code ∧
      c.locals = p.2.locals ∧ c.link = link := by
  unfold Heap.closures at hc
  rw [List.getElem?_mapIdx] at hc
  obtain ⟨p, hp, rfl⟩ := Option.map_eq_some_iff.mp hc
  exact ⟨p, hp, rfl, rfl, rfl, rfl⟩

/-- Memories are made with the types that are asked for. -/
theorem newMemories_types {limit : Option Nat} {ts : List MemoryType} {ms : List (MemoryObj limit)}
    (hms : Heap.newMemories limit ts = .ok ms) : ms.map (·.type) = ts := by
  induction ts generalizing ms with
  | nil =>
    rw [← Except.ok.inj hms]
    rfl
  | cons t rest ih =>
    unfold Heap.newMemories at hms
    split at hms
    · rename_i m hm
      obtain ⟨ns, hns, hms⟩ := except_bind_ok hms
      rw [← Except.ok.inj hms, List.map_cons, ih hns]
      unfold MemoryObj.ofType? at hm
      split at hm
      · rw [← Option.some.inj hm]
      · contradiction
    · contradiction

/-- The types of the things that a module defines itself, but for its variables. -/
def Code.Artifact.ownTypes (a : Artifact) : ExternKind → List ExternType
  | .function => a.funcs.map fun i => .func (a.typeAt i)
  | .table => a.tables.map .table
  | .memory => a.memories.map .memory
  | .global => []

theorem closures_types (hvalid : a.Valid) (link : Nat) :
    (Heap.closures a link).map Closure.type = a.funcs.map a.typeAt := by
  have hfst := List.map_fst_zip (Nat.le_of_eq hvalid.bodies)
  have htypes : (Heap.closures a link).map Closure.type =
      (a.funcs.zip a.bodies).map fun p => a.typeAt p.1 := by
    apply List.ext_getElem?
    intro i
    simp only [Heap.closures, List.getElem?_map, List.getElem?_mapIdx, Option.map_map]
    rfl
  calc (Heap.closures a link).map Closure.type
      = (a.funcs.zip a.bodies).map fun p => a.typeAt p.1 := htypes
    _ = ((a.funcs.zip a.bodies).map Prod.fst).map a.typeAt := by
      rw [List.map_map]
      rfl
    _ = a.funcs.map a.typeAt := by rw [hfst]

/-- There are as many memories as the store had room for, which is all or none. -/
theorem typed_own {memories : List (MemoryObj h.limit)} (hvalid : a.Valid)
    (hm : Heap.newMemories h.limit a.memories = .ok memories) (hl : l.Typed h types) :
    (l.own h a memories.length).Typed (h.withOwn a memories)
      fun kind => types kind ++ a.ownTypes kind := by
  refine typed_extend (grows_withOwn h a memories) hl ?_
  intro kind
  cases kind with
  | function =>
    refine ⟨_, rfl, ?_⟩
    have htypes : a.ownTypes .function =
        (Heap.closures a h.links.size).map fun c => .func c.type := by
      have hcs := congrArg (List.map ExternType.func) (closures_types hvalid h.links.size)
      rw [List.map_map, List.map_map] at hcs
      exact hcs.symm
    rw [htypes]
    refine holds_fresh fun i c hc => ⟨.code c, getElem?_append_toArray ?_, rfl⟩
    rw [List.getElem?_map, hc]
    rfl
  | table =>
    refine ⟨_, rfl, holds_fresh fun i t ht => ⟨.ofType t, getElem?_append_toArray ?_, rfl⟩⟩
    rw [List.getElem?_map, ht]
    rfl
  | memory =>
    refine ⟨_, rfl, ?_⟩
    have htypes : a.ownTypes .memory = memories.map fun m => .memory m.type := by
      rw [Artifact.ownTypes, ← newMemories_types hm, List.map_map]
      rfl
    rw [htypes]
    exact holds_fresh fun i m hm => ⟨m, getElem?_append_toArray hm, rfl⟩
  | global => exact ⟨[], (List.append_nil _).symm, .nil⟩

theorem importedTypes_eq (a : Artifact) (kind : ExternKind) :
    a.importTypes.flatMap (fun i => i.type.ofKind kind) =
      match kind with
      | .function => a.importedFuncs.map fun i => .func (a.typeAt i)
      | .table => a.importedTables.map .table
      | .memory => a.importedMemories.map .memory
      | .global => a.importedGlobals.map .global := by
  unfold Artifact.importTypes Artifact.importedFuncs Artifact.importedTables
    Artifact.importedMemories Artifact.importedGlobals
  generalize a.imports = is
  induction is with
  | nil => cases kind <;> rfl
  | cons i rest ih =>
    obtain ⟨module, name, desc⟩ := i
    rw [List.map_cons, List.flatMap_cons, ih]
    cases kind <;> cases desc <;> rfl

/-- The index spaces of a module: what it imports, what it defines, and last its variables. -/
theorem typesOf_eq (a : Artifact) (kind : ExternKind) :
    a.typesOf kind = a.importTypes.flatMap (fun i => i.type.ofKind kind) ++ a.ownTypes kind ++
      a.globals.flatMap fun g => (ExternType.global g.type).ofKind kind := by
  have hnone {k : ExternKind} (hk : k ≠ .global) :
      (a.globals.flatMap fun g => (ExternType.global g.type).ofKind k) = [] := by
    rw [List.flatMap_eq_nil_iff]
    intro g _
    exact if_neg hk.symm
  rw [importedTypes_eq]
  cases kind with
  | global =>
    have hall : (a.globals.flatMap fun g => (ExternType.global g.type).ofKind .global) =
        (a.globals.map (·.type)).map .global := by
      rw [List.map_map]
      exact List.map_eq_flatMap.symm
    rw [hall]
    simp [Artifact.typesOf, Artifact.allGlobals, Artifact.ownTypes]
  | _ =>
    rw [hnone (by decide)]
    simp [Artifact.typesOf, Artifact.allFuncs, Artifact.allTables, Artifact.allMemories,
      Artifact.ownTypes]

/-- In an instance that was allocated, every index stands for what the module declares there. -/
theorem typed_allocate {imported : Link} (hvalid : a.Valid)
    (hl : imported.Typed h fun kind => a.importTypes.flatMap fun i => i.type.ofKind kind)
    (halloc : h.allocate a imported = .ok (k, addr)) :
    ∃ l, k.links[addr]? = some l ∧ l.types = a.types ∧ l.Typed k a.typesOf := by
  obtain ⟨memories, elems, datas, hm, haddr, hk⟩ := allocate_ok halloc
  have htyped := typed_addGlobals (typed_own hvalid hm hl) a.globals
  obtain ⟨_, hlinks, htypes, _⟩ :=
    addGlobals_same (h.withOwn a memories) (imported.own h a memories.length) a.globals
  dsimp only at hk
  generalize (h.withOwn a memories).addGlobals (imported.own h a memories.length) a.globals = out
    at htyped hlinks htypes hk
  obtain ⟨heap, l⟩ := out
  dsimp only at htyped hlinks htypes hk
  refine ⟨{ l with elems, datas }, ?_, htypes, ?_⟩
  · have hsize : addr = heap.links.size := by
      rw [haddr, hlinks]
      rfl
    rw [hk, hsize]
    exact Array.getElem?_push_size
  · have hgrows : heap.Grows k := by
      rw [hk]
      exact { grows_refl heap with links := persist_push link_becomes_refl _ _ }
    intro kind
    rw [typesOf_eq]
    exact (htyped kind).imp fun _ _ => holds_grows hgrows

end Allocate

end WasmEmbed
