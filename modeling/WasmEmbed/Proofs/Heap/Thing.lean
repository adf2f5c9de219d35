import WasmEmbed.Proofs.Heap.Typed

/-! Single things of a heap. A write acts on one thing and leaves all others as they are, so that what
becomes of a thing is told by those writes that name it; and what is added to a heap is added beside
all that is there. -/
namespace WasmEmbed
open WasmEmbed.Code
variable {σ : Type}

/-- A thing as it is at some time. -/
inductive Thing (σ : Type) where
  | func (f : FuncObj σ)
  | memory (type : MemoryType) (pages : Nat) (bytes : Sparse UInt8)
  | global (g : GlobalObj)
  | table (t : TableObj)

/-- The thing of a kind with an address. -/
def Heap.thing? (h : Heap σ) : ExternKind → Nat → Option (Thing σ)
  | .function, a => h.funcs[a]?.map .func
  | .memory, a => h.memories[a]?.map fun m => .memory m.type m.pages m.bytes
  | .global, a => h.globals[a]?.map .global
  | .table, a => h.tables[a]?.map .table

/-- How many things of a kind there are. Their addresses are the numbers below. -/
def Heap.count (h : Heap σ) : ExternKind → Nat
  | .function => h.funcs.size
  | .memory => h.memories.size
  | .global => h.globals.size
  | .table => h.tables.size

/-- The thing that a write is to. A segment that is dropped is no thing of the heap's. -/
def Write.target : Write → Option (ExternKind × Nat)
  | .global a _ => some (.global, a)
  | .bytes a _ _ => some (.memory, a)
  | .growMemory a _ => some (.memory, a)
  | .elements a _ _ => some (.table, a)
  | .growTable a _ _ => some (.table, a)
  | .dropElem _ _ => none
  | .dropData _ _ => none

/-- The thing after a write to it, in a store with a limit on the bytes of each memory. -/
def Thing.take (limit : Option Nat) : Thing σ → Write → Thing σ
  | .global g, .global _ v => .global (g.set v)
  | .memory t pages bytes, .bytes _ offset bs => .memory t pages (bytes.write offset bs)
  | .memory t pages bytes, .growMemory _ delta =>
    if t.Admits limit (pages + delta) then
      .memory t (pages + delta) (bytes.grow (delta * pageSize))
    else .memory t pages bytes
  | .table t, .elements _ offset xs => .table (t.write offset xs)
  | .table t, .growTable _ delta x => .table ((t.grow? delta x).getD t)
  | t, _ => t

/-- The thing of a kind with an address after those of the writes that are to it. -/
def Thing.replay (limit : Option Nat) (kind : ExternKind) (addr : Nat) (t : Thing σ)
    (ws : List Write) : Thing σ :=
  (ws.filter fun w => w.target = some (kind, addr)).foldl (take limit) t

/-- The address of what an import is defined by, once it is in the heap. -/
def Definition.addr (h : Heap σ) : Definition σ → Nat
  | .host _ => h.funcs.size
  | .item x => x.addr

variable {h k l : Heap σ} {kind : ExternKind} {addr : Nat} {t : Thing σ} {w : Write}
  {ws : List Write}

section Reading

theorem thing?_of_global {g : GlobalObj} (hg : h.globals[addr]? = some g) :
    h.thing? .global addr = some (.global g) := by
  rw [Heap.thing?, hg]
  rfl

theorem thing?_of_memory {o : MemoryObj h.limit} (ho : h.memories[addr]? = some o) :
    h.thing? .memory addr = some (.memory o.type o.pages o.bytes) := by
  rw [Heap.thing?, ho]
  rfl

end Reading

section Writing

theorem map_getElem?_modify {α β : Type} {f : α → β} {g : α → α} {g' : β → β}
    (hg : ∀ x, f (g x) = g' (f x)) (xs : Array α) (i : Nat) :
    (xs.modify i g)[i]?.map f = (xs[i]?.map f).map g' := by
  rw [Array.getElem?_modify, if_pos rfl, Option.map_map, Option.map_map]
  congr 1
  funext x
  exact hg x

theorem getElem?_modify_ne {α : Type} {i j : Nat} (hne : i ≠ j) (g : α → α) (xs : Array α) :
    (xs.modify i g)[j]? = xs[j]? := by rw [Array.getElem?_modify, if_neg hne]

/-- What a write is to is changed by it as the thing takes it. -/
theorem thing?_perform_target (hw : w.target = some (kind, addr)) :
    (h.perform w).thing? kind addr = (h.thing? kind addr).map (Thing.take h.limit · w) := by
  cases w with
  | dropElem link i => contradiction
  | dropData link i => contradiction
  | growMemory a delta =>
    obtain ⟨rfl, rfl⟩ := Prod.mk.inj (Option.some.inj hw)
    refine map_getElem?_modify (fun m : MemoryObj h.limit => ?_) _ _
    simp only [MemoryObj.grow?_eq, Thing.take]
    split <;> rfl
  | _ =>
    obtain ⟨rfl, rfl⟩ := Prod.mk.inj (Option.some.inj hw)
    refine map_getElem?_modify (fun x => ?_) _ _
    rfl

/-- The write modifies another array, or this one at another address. -/
theorem thing?_perform_other (hw : w.target ≠ some (kind, addr)) :
    (h.perform w).thing? kind addr = h.thing? kind addr := by
  have hne {k : ExternKind} {a : Nat} (hk : w.target = some (k, a)) (heq : k = kind) : a ≠ addr := by
    rintro rfl
    exact hw (heq ▸ hk)
  cases w with
  | global a v =>
    cases kind with
    | global => exact congrArg (Option.map _) (getElem?_modify_ne (hne rfl rfl) _ _)
    | _ => rfl
  | bytes a offset bs =>
    cases kind with
    | memory => exact congrArg (Option.map _) (getElem?_modify_ne (hne rfl rfl) _ _)
    | _ => rfl
  | growMemory a delta =>
    cases kind with
    | memory => exact congrArg (Option.map _) (getElem?_modify_ne (hne rfl rfl) _ _)
    | _ => rfl
  | elements a offset xs =>
    cases kind with
    | table => exact congrArg (Option.map _) (getElem?_modify_ne (hne rfl rfl) _ _)
    | _ => rfl
  | growTable a delta x =>
    cases kind with
    | table => exact congrArg (Option.map _) (getElem?_modify_ne (hne rfl rfl) _ _)
    | _ => rfl
  | dropElem link i => cases kind <;> rfl
  | dropData link i => cases kind <;> rfl

/-- Replaying is done write by write. -/
theorem replay_append (limit : Option Nat) (kind : ExternKind) (addr : Nat) (t : Thing σ)
    (ws vs : List Write) :
    t.replay limit kind addr (ws ++ vs) =
      (t.replay limit kind addr ws).replay limit kind addr vs := by
  rw [Thing.replay, List.filter_append, List.foldl_append]
  rfl

/-- Without a write to it a thing stays as it is. -/
theorem replay_quiet (limit : Option Nat) (t : Thing σ)
    (hquiet : ∀ w ∈ ws, w.target ≠ some (kind, addr)) : t.replay limit kind addr ws = t := by
  have hnone : ws.filter (fun w => w.target = some (kind, addr)) = [] := by
    rw [List.filter_eq_nil_iff]
    intro w hw
    simpa using hquiet w hw
  rw [Thing.replay, hnone]
  rfl

/-- A thing that is there is there after any writes, as those of them have made it that are to it. -/
theorem thing?_performAll (ht : h.thing? kind addr = some t) (ws : List Write) :
    (h.performAll ws).thing? kind addr = some (t.replay h.limit kind addr ws) := by
  induction ws generalizing h t with
  | nil => exact ht
  | cons w ws ih =>
    rw [Thing.replay, List.filter_cons]
    by_cases hw : w.target = some (kind, addr)
    · have hfirst := thing?_perform_target (h := h) hw
      rw [ht] at hfirst
      have hrest := ih hfirst
      rw [Heap.limit_perform] at hrest
      rw [if_pos (decide_eq_true hw)]
      exact hrest
    · have hrest := ih ((thing?_perform_other hw).trans ht)
      rw [Heap.limit_perform] at hrest
      rw [if_neg (by simpa using hw)]
      exact hrest

end Writing

section Beside

/-- All things of the one heap are in the other as they are. -/
def Heap.Adjoins (h k : Heap σ) : Prop :=
  k.limit = h.limit ∧ ∀ kind addr t, h.thing? kind addr = some t → k.thing? kind addr = some t

theorem adjoins_refl (h : Heap σ) : h.Adjoins h := ⟨rfl, fun _ _ _ ht => ht⟩

theorem adjoins_trans (hk : h.Adjoins k) (kl : k.Adjoins l) : h.Adjoins l :=
  ⟨kl.1.trans hk.1, fun kind addr t ht => kl.2 kind addr t (hk.2 kind addr t ht)⟩

theorem thing?_isSome_iff : (h.thing? kind addr).isSome ↔ addr < h.count kind := by
  cases kind <;> simp [Heap.thing?, Heap.count]

/-- Otherwise the thing with the first address that is too large would have gone. -/
theorem count_adjoins (hk : h.Adjoins k) (kind : ExternKind) : h.count kind ≤ k.count kind := by
  by_contra hlt
  have hlast : (h.thing? kind (k.count kind)).isSome := thing?_isSome_iff.mpr (by omega)
  obtain ⟨t, ht⟩ := Option.isSome_iff_exists.mp hlast
  have hgone : (k.thing? kind (k.count kind)).isSome := by rw [hk.2 kind _ t ht]; rfl
  exact Nat.lt_irrefl _ (thing?_isSome_iff.mp hgone)

/-- A thing with a type is there. -/
theorem lt_count_of_holds {type : ExternType} (hh : h.Holds addr type) :
    addr < h.count type.kind := by
  cases type with
  | func type =>
    obtain ⟨f, hf, _⟩ := hh
    exact (Array.getElem?_eq_some_iff.mp hf).1
  | memory type =>
    obtain ⟨m, hm, _⟩ := hh
    exact (Array.getElem?_eq_some_iff.mp hm).1
  | global type =>
    obtain ⟨g, hg, _⟩ := hh
    exact (Array.getElem?_eq_some_iff.mp hg).1
  | table type =>
    obtain ⟨u, hu, _⟩ := hh
    exact (Array.getElem?_eq_some_iff.mp hu).1

/-- All that an instance knows is there. -/
theorem lt_count_of_typed {l : Link} {a : Artifact} {i : Nat} (hl : l.Typed h a.typesOf)
    (hi : (l.addrs kind)[i]? = some addr) : addr < h.count kind := by
  obtain ⟨hlt, rfl⟩ := List.getElem?_eq_some_iff.mp hi
  obtain ⟨hlength, hget⟩ := List.forall₂_iff_get.mp (hl kind)
  have hlt' : i < (a.typesOf kind).length := hlength ▸ hlt
  have hkind : ((a.typesOf kind)[i]).kind = kind := by
    cases kind <;> simp [Artifact.typesOf, ExternType.kind]
  have hheld := lt_count_of_holds (hget i hlt hlt')
  rw [List.get_eq_getElem, List.get_eq_getElem, hkind] at hheld
  exact hheld

theorem map_getElem?_append {α β : Type} {f : α → β} {xs : Array α} {i : Nat} {y : β}
    (hy : xs[i]?.map f = some y) (ys : Array α) : (xs ++ ys)[i]?.map f = some y := by
  obtain ⟨x, hx, rfl⟩ := Option.map_eq_some_iff.mp hy
  obtain ⟨_, hkept, rfl⟩ := persist_append Eq.refl xs ys i x hx
  rw [hkept]
  rfl

theorem map_getElem?_push {α β : Type} {f : α → β} {xs : Array α} {i : Nat} {y : β}
    (hy : xs[i]?.map f = some y) (x : α) : (xs.push x)[i]?.map f = some y := by
  rw [Array.push_eq_append]
  exact map_getElem?_append hy _

theorem adjoins_provide (h : Heap σ) (l : Link) (d : Definition σ) :
    h.Adjoins (h.provide l d).1 := by
  cases d with
  | host f =>
    refine ⟨rfl, ?_⟩
    rintro (_ | _ | _ | _) addr t ht
    · exact map_getElem?_push ht _
    · exact ht
    · exact ht
    · exact ht
  | item x => cases x <;> exact adjoins_refl h

theorem adjoins_provideAll (h : Heap σ) (l : Link) (ds : List (Definition σ)) :
    h.Adjoins (h.provideAll l ds).1 := by
  induction ds generalizing h l with
  | nil => exact adjoins_refl h
  | cons d rest ih => exact adjoins_trans (adjoins_provide h l d) (ih _ _)

/-- Memories, tables and functions of a module are put behind those that are there. -/
theorem adjoins_withOwn (h : Heap σ) (a : Artifact) (memories : List (MemoryObj h.limit)) :
    h.Adjoins (h.withOwn a memories) := by
  refine ⟨rfl, ?_⟩
  rintro (_ | _ | _ | _) addr t ht
  · exact map_getElem?_append ht _
  · exact map_getElem?_append ht _
  · exact ht
  · exact map_getElem?_append ht _

theorem adjoins_addGlobals (h : Heap σ) (l : Link) (gs : List GlobalDef) :
    h.Adjoins (h.addGlobals l gs).1 := by
  induction gs generalizing h l with
  | nil => exact adjoins_refl h
  | cons g rest ih =>
    refine adjoins_trans ?_ (ih _ _)
    refine ⟨rfl, ?_⟩
    rintro (_ | _ | _ | _) addr t ht
    · exact ht
    · exact ht
    · exact map_getElem?_push ht _
    · exact ht

/-- Stages add things only, and the instance that comes last is no thing itself. -/
theorem adjoins_allocate {a : Artifact} {imported : Link} {place : Nat}
    (halloc : h.allocate a imported = .ok (k, place)) : h.Adjoins k := by
  obtain ⟨memories, elems, datas, _, _, hk⟩ := allocate_ok halloc
  have hglobals := adjoins_addGlobals (h.withOwn a memories) (imported.own h a memories.length)
    a.globals
  rw [hk]
  refine adjoins_trans (adjoins_trans (adjoins_withOwn h a memories) hglobals) ⟨rfl, ?_⟩
  rintro (_ | _ | _ | _) addr t ht <;> exact ht

end Beside

section Addresses
variable {l : Link} {a : Artifact}

theorem provide_addrs (h : Heap σ) (l : Link) (d : Definition σ) (kind : ExternKind) :
    (h.provide l d).2.addrs kind =
      l.addrs kind ++ if d.type.kind = kind then [d.addr h] else [] := by
  cases d with
  | host f => cases kind <;> simp [Heap.provide, Link.addrs, Definition.type, ExternType.kind,
      Definition.addr]
  | item x => cases x <;> cases kind <;> simp [Heap.provide, Link.addrs, Definition.type,
      Item.type, ExternType.kind, Definition.addr, Item.addr]

/-- Imports come in order: the index of one is the number of those of its kind that are before it. -/
theorem provideAll_addrs (h : Heap σ) (l : Link) (ds : List (Definition σ)) (kind : ExternKind) :
    ∃ new, (h.provideAll l ds).2.addrs kind = l.addrs kind ++ new ∧
      new.length = ds.countP (fun d => d.type.kind = kind) ∧
      ∀ (i : Nat) (x : Item), ds[i]? = some (.item x) → x.type.kind = kind →
        new[(ds.take i).countP fun d => d.type.kind = kind]? = some x.addr := by
  induction ds generalizing h l with
  | nil =>
    refine ⟨[], (List.append_nil _).symm, rfl, fun i x hx => ?_⟩
    rw [List.getElem?_nil] at hx
    contradiction
  | cons d rest ih =>
    obtain ⟨new, hnew, hlength, hitems⟩ := ih (h.provide l d).1 (h.provide l d).2
    have hfirst := provide_addrs h l d kind
    refine ⟨(if d.type.kind = kind then [d.addr h] else []) ++ new, ?_, ?_, ?_⟩
    · rw [← List.append_assoc, ← hfirst]
      exact hnew
    · rw [List.length_append, hlength, List.countP_cons]
      by_cases hd : d.type.kind = kind
      · rw [if_pos hd, if_pos (decide_eq_true hd)]
        exact Nat.add_comm _ _
      · rw [if_neg hd, if_neg (by simpa using hd)]
        exact Nat.zero_add _
    · rintro (_ | i) x hx hkind
      · obtain rfl := Option.some.inj hx
        have hkind' : (Definition.item (σ := σ) x).type.kind = kind := hkind
        rw [if_pos hkind']
        rfl
      · have hitem := hitems i x hx hkind
        rw [List.take_succ_cons, List.countP_cons]
        by_cases hd : d.type.kind = kind
        · simpa [hd] using hitem
        · simpa [hd] using hitem

/-- Variables are numbered after those that are in the heap. -/
theorem addGlobals_addrs (h : Heap σ) (l : Link) (gs : List GlobalDef) (kind : ExternKind) :
    ∃ own, (h.addGlobals l gs).2.addrs kind = l.addrs kind ++ own ∧
      ∀ x ∈ own, h.count kind ≤ x := by
  induction gs generalizing h l with
  | nil => exact ⟨[], (List.append_nil _).symm, fun x hx => absurd hx List.not_mem_nil⟩
  | cons g rest ih =>
    obtain ⟨own, hown, hle⟩ := ih
      { h with globals := h.globals.push (GlobalObj.ofType g.type (h.constant l g.init)) }
      { l with globals := l.globals ++ [h.globals.size] }
    cases kind with
    | global =>
      refine ⟨h.globals.size :: own, ?_, ?_⟩
      · simpa [Heap.addGlobals, Link.addrs] using hown
      · intro x hx
        rcases List.mem_cons.mp hx with rfl | hx
        · exact Nat.le_refl _
        · have hx := hle x hx
          simp only [Heap.count, Array.size_push] at hx ⊢
          omega
    | _ => exact ⟨own, hown, hle⟩

/-- What a module declares itself gets new addresses. -/
theorem own_addrs (h : Heap σ) (l : Link) (a : Artifact) (memories : Nat) (kind : ExternKind) :
    ∃ own, (l.own h a memories).addrs kind = l.addrs kind ++ own ∧ ∀ x ∈ own, h.count kind ≤ x := by
  have hrange (size n : Nat) : ∀ x ∈ (List.range n).map (size + ·), size ≤ x := by
    intro x hx
    obtain ⟨i, _, rfl⟩ := List.mem_map.mp hx
    exact Nat.le_add_right _ _
  cases kind with
  | global => exact ⟨[], (List.append_nil _).symm, fun x hx => absurd hx List.not_mem_nil⟩
  | _ => exact ⟨_, rfl, hrange _ _⟩

/-- The index spaces of an instance that is allocated are what it imports and then its own things,
whose addresses are new. Its functions are of its own code. -/
theorem allocate_addrs {imported : Link} {place : Nat}
    (halloc : h.allocate a imported = .ok (k, place)) :
    place = h.links.size ∧ ∃ l, k.links[place]? = some l ∧
      (∀ kind, ∃ own, l.addrs kind = imported.addrs kind ++ own ∧ ∀ x ∈ own, h.count kind ≤ x) ∧
      ∀ i x, imported.funcs.length ≤ i → l.funcs[i]? = some x →
        ∃ c, k.funcs[x]? = some (.code c) ∧ c.link = place := by
  obtain ⟨memories, elems, datas, _, hplace, hk⟩ := allocate_ok halloc
  have hadded := addGlobals_addrs (h.withOwn a memories) (imported.own h a memories.length)
    a.globals
  obtain ⟨hfuncs, hlinks, _, hlfuncs⟩ :=
    addGlobals_same (h.withOwn a memories) (imported.own h a memories.length) a.globals
  dsimp only at hk
  generalize (h.withOwn a memories).addGlobals (imported.own h a memories.length) a.globals = out
    at hadded hfuncs hlinks hlfuncs hk
  obtain ⟨heap, l⟩ := out
  dsimp only at hadded hfuncs hlinks hlfuncs hk
  refine ⟨hplace, { l with elems, datas }, ?_, ?_, ?_⟩
  · have hsize : place = heap.links.size := by
      rw [hplace, hlinks]
      rfl
    rw [hk, hsize]
    exact Array.getElem?_push_size
  · intro kind
    obtain ⟨first, hfirst, hfresh⟩ := own_addrs h imported a memories.length kind
    obtain ⟨second, hsecond, hfresh'⟩ := hadded kind
    refine ⟨first ++ second, ?_, ?_⟩
    · rw [← List.append_assoc, ← hfirst]
      exact hsecond
    · intro x hx
      rcases List.mem_append.mp hx with hx | hx
      · exact hfresh x hx
      · exact Nat.le_trans (count_adjoins (adjoins_withOwn h a memories) kind) (hfresh' x hx)
  · intro i x hi hx
    have hx : l.funcs[i]? = some x := hx
    rw [hlfuncs, Link.own, List.getElem?_append_right hi, List.getElem?_map] at hx
    obtain ⟨j, hj, rfl⟩ := Option.map_eq_some_iff.mp hx
    obtain ⟨hlt, hj⟩ := List.getElem?_eq_some_iff.mp hj
    rw [List.length_range] at hlt
    rw [List.getElem_range] at hj
    subst hj
    have hc := List.getElem?_eq_getElem hlt
    obtain ⟨_, _, _, _, _, hlink⟩ := closures_get hc
    refine ⟨_, ?_, hlink.trans hplace.symm⟩
    rw [hk]
    change heap.funcs[_]? = _
    rw [hfuncs]
    refine getElem?_append_toArray ?_
    rw [List.getElem?_map, hc]
    rfl

end Addresses

end WasmEmbed
