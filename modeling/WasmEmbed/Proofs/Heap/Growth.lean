import WasmEmbed.Heap.Instantiate
import WasmEmbed.Proofs.Machine.Writes
import WasmEmbed.Proofs.Store.Use

/-! What lives in a heap stays there. Neither writes nor the making of instances take a thing away or
change its type, so that an address, once given out, means the same thing for ever. -/
namespace WasmEmbed
open WasmEmbed.Code
variable {σ : Type}

section Persist
variable {α β γ : Type}

/-- Each thing of the one list is in the other at the same place, as something that `keeps` allows
it to become. -/
def Persist (keeps : α → β → Prop) (xs : Array α) (ys : Array β) : Prop :=
  ∀ (i : Nat) (x : α), xs[i]? = some x → ∃ y, ys[i]? = some y ∧ keeps x y

theorem persist_refl {keeps : α → α → Prop} (h : ∀ x, keeps x x) (xs : Array α) :
    Persist keeps xs xs := fun _ x hx => ⟨x, hx, h x⟩

/-- Things persist over two changes if they do over each. -/
theorem persist_trans {p : α → β → Prop} {q : β → γ → Prop} {s : α → γ → Prop} {xs : Array α}
    {ys : Array β} {zs : Array γ} (hs : ∀ x y z, p x y → q y z → s x z) (h : Persist p xs ys)
    (k : Persist q ys zs) : Persist s xs zs := by
  intro i x hx
  obtain ⟨y, hy, hxy⟩ := h i x hx
  obtain ⟨z, hz, hyz⟩ := k i y hy
  exact ⟨z, hz, hs x y z hxy hyz⟩

/-- Adding things leaves the old ones at their places. -/
theorem persist_append {keeps : α → α → Prop} (h : ∀ x, keeps x x) (xs ys : Array α) :
    Persist keeps xs (xs ++ ys) := by
  intro i x hx
  have hi : i < xs.size := (Array.getElem?_eq_some_iff.mp hx).1
  refine ⟨x, ?_, h x⟩
  rw [Array.getElem?_append_left hi]
  exact hx

theorem persist_push {keeps : α → α → Prop} (h : ∀ x, keeps x x) (xs : Array α) (y : α) :
    Persist keeps xs (xs.push y) := by
  intro i x hx
  have hi : i < xs.size := (Array.getElem?_eq_some_iff.mp hx).1
  refine ⟨x, ?_, h x⟩
  rw [Array.getElem?_push, if_neg (Nat.ne_of_lt hi)]
  exact hx

/-- Modifying one thing leaves the others, and of this one what is kept. -/
theorem persist_modify {keeps : α → α → Prop} (h : ∀ x, keeps x x) {f : α → α}
    (hf : ∀ x, keeps x (f x)) (xs : Array α) (k : Nat) : Persist keeps xs (xs.modify k f) := by
  intro i x hx
  rw [Array.getElem?_modify]
  split
  · refine ⟨f x, ?_, hf x⟩
    rw [hx]
    rfl
  · exact ⟨x, hx, h x⟩

end Persist

/-- The variable that another one has become: of the same type, and of the same value if it is a
constant. -/
structure GlobalObj.Becomes (g k : GlobalObj) : Prop where
  type : k.type = g.type
  constant : g.type.isMutable = false → k.value = g.value

/-- The memory that another one has become: of the same type, and no smaller. -/
structure MemoryObj.Becomes {limit limit' : Option Nat} (m : MemoryObj limit)
    (n : MemoryObj limit') : Prop where
  type : n.type = m.type
  pages : m.pages ≤ n.pages

/-- The table that another one has become: of the same type, and no smaller. -/
structure TableObj.Becomes (t u : TableObj) : Prop where
  type : u.type = t.type
  size : t.size ≤ u.size

/-- The instance that another one has become: its indices stand for the same things. Segments may
have been dropped. -/
structure Link.Becomes (l k : Link) : Prop where
  types : k.types = l.types
  funcs : k.funcs = l.funcs
  tables : k.tables = l.tables
  memories : k.memories = l.memories
  globals : k.globals = l.globals

/-- All that is in the one heap is in the other, under the same addresses. -/
structure Heap.Grows (h k : Heap σ) : Prop where
  limit : k.limit = h.limit
  funcs : Persist Eq h.funcs k.funcs
  tables : Persist TableObj.Becomes h.tables k.tables
  memories : Persist MemoryObj.Becomes h.memories k.memories
  globals : Persist GlobalObj.Becomes h.globals k.globals
  links : Persist Link.Becomes h.links k.links

section Becomes
variable {limit limit' limit'' : Option Nat}

theorem global_becomes_refl (g : GlobalObj) : g.Becomes g := ⟨rfl, fun _ => rfl⟩

theorem global_becomes_trans (f g k : GlobalObj) (h : f.Becomes g) (h' : g.Becomes k) :
    f.Becomes k where
  type := h'.type.trans h.type
  constant := by
    intro hf
    have hg : g.type.isMutable = false := by rw [h.type, hf]
    rw [h'.constant hg, h.constant hf]

/-- A variable keeps its type, and its value if it is constant. -/
theorem global_becomes_set (g : GlobalObj) (o : Operand) : g.Becomes (g.set o) where
  type := GlobalObj.type_set g o
  constant := by
    intro hg
    unfold GlobalObj.set
    rw [dif_neg]
    rintro ⟨hmutable, _⟩
    rw [hg] at hmutable
    contradiction

theorem memory_becomes_refl (m : MemoryObj limit) : m.Becomes m := ⟨rfl, Nat.le_refl _⟩

theorem memory_becomes_trans (m : MemoryObj limit) (n : MemoryObj limit') (k : MemoryObj limit'')
    (h : m.Becomes n) (h' : n.Becomes k) : m.Becomes k :=
  ⟨h'.type.trans h.type, Nat.le_trans h.pages h'.pages⟩

theorem memory_becomes_write (m : MemoryObj limit) (offset : Nat) (bs : List UInt8) :
    m.Becomes (m.write offset bs) := ⟨rfl, Nat.le_refl _⟩

/-- A memory never shrinks, and keeps its type. -/
theorem memory_becomes_grow (m : MemoryObj limit) (delta : Nat) :
    m.Becomes ((m.grow? delta).getD m) := by
  rw [MemoryObj.grow?_eq]
  split
  · exact ⟨rfl, Nat.le_add_right _ _⟩
  · exact memory_becomes_refl m

theorem table_becomes_refl (t : TableObj) : t.Becomes t := ⟨rfl, Nat.le_refl _⟩

theorem table_becomes_trans (t u v : TableObj) (h : t.Becomes u) (h' : u.Becomes v) :
    t.Becomes v := ⟨h'.type.trans h.type, Nat.le_trans h.size h'.size⟩

theorem table_becomes_write (t : TableObj) (offset : Nat) (xs : List (Option Nat)) :
    t.Becomes (t.write offset xs) := ⟨rfl, Nat.le_of_eq (Sparse.size_write _ _ _).symm⟩

/-- The new elements are null unless they are written. -/
theorem table_becomes_grow (t : TableObj) (delta : Nat) (x : Option Nat) :
    t.Becomes ((t.grow? delta x).getD t) := by
  unfold TableObj.grow?
  split
  · refine ⟨rfl, ?_⟩
    cases x with
    | none => exact Nat.le_add_right _ _
    | some addr =>
      change t.elements.size ≤ ((t.elements.grow delta).write _ _).size
      rw [Sparse.size_write]
      exact Nat.le_add_right _ _
  · exact table_becomes_refl t

theorem link_becomes_refl (l : Link) : l.Becomes l := ⟨rfl, rfl, rfl, rfl, rfl⟩

theorem link_becomes_trans (l k j : Link) (h : l.Becomes k) (h' : k.Becomes j) : l.Becomes j :=
  ⟨h'.types.trans h.types, h'.funcs.trans h.funcs, h'.tables.trans h.tables,
    h'.memories.trans h.memories, h'.globals.trans h.globals⟩

theorem link_becomes_segments (l : Link) (elems : List (List (Option Nat)))
    (datas : List (List UInt8)) : l.Becomes { l with elems, datas } := ⟨rfl, rfl, rfl, rfl, rfl⟩

end Becomes

section Grows
variable {h k l : Heap σ}

theorem grows_refl (h : Heap σ) : h.Grows h where
  limit := rfl
  funcs := persist_refl Eq.refl _
  tables := persist_refl table_becomes_refl _
  memories := persist_refl memory_becomes_refl _
  globals := persist_refl global_becomes_refl _
  links := persist_refl link_becomes_refl _

theorem grows_trans (hk : h.Grows k) (kl : k.Grows l) : h.Grows l where
  limit := kl.limit.trans hk.limit
  funcs := persist_trans (fun _ _ _ hx hy => hx.trans hy) hk.funcs kl.funcs
  tables := persist_trans table_becomes_trans hk.tables kl.tables
  memories := persist_trans memory_becomes_trans hk.memories kl.memories
  globals := persist_trans global_becomes_trans hk.globals kl.globals
  links := persist_trans link_becomes_trans hk.links kl.links

/-- A write changes one thing, and only as things may change. -/
theorem grows_perform (h : Heap σ) (w : Write) : h.Grows (h.perform w) := by
  have same := grows_refl h
  cases w with
  | global addr value =>
    refine { same with globals := ?_ }
    exact persist_modify global_becomes_refl (fun g => global_becomes_set g value) _ addr
  | bytes memory offset bs =>
    refine { same with memories := ?_ }
    exact persist_modify memory_becomes_refl (fun m => memory_becomes_write m offset bs) _ memory
  | growMemory memory delta =>
    refine { same with memories := ?_ }
    exact persist_modify memory_becomes_refl (fun m => memory_becomes_grow m delta) _ memory
  | elements table offset xs =>
    refine { same with tables := ?_ }
    exact persist_modify table_becomes_refl (fun t => table_becomes_write t offset xs) _ table
  | growTable table delta x =>
    refine { same with tables := ?_ }
    exact persist_modify table_becomes_refl (fun t => table_becomes_grow t delta x) _ table
  | dropElem link i =>
    refine { same with links := ?_ }
    exact persist_modify link_becomes_refl (fun l => link_becomes_segments l _ _) _ link
  | dropData link i =>
    refine { same with links := ?_ }
    exact persist_modify link_becomes_refl (fun l => link_becomes_segments l _ _) _ link

/-- Writes take nothing away. -/
theorem grows_performAll (h : Heap σ) (ws : List Write) : h.Grows (h.performAll ws) := by
  induction ws generalizing h with
  | nil => exact grows_refl h
  | cons w ws ih => exact grows_trans (grows_perform h w) (ih (h.perform w))

/-- An import defined by a function of the host makes it one of the heap's functions. -/
theorem grows_provide (h : Heap σ) (l : Link) (d : Definition σ) : h.Grows (h.provide l d).1 := by
  have same := grows_refl h
  cases d with
  | host f =>
    refine { same with funcs := ?_ }
    exact persist_push Eq.refl h.funcs (.host f)
  | item x =>
    cases x with
    | func f => exact same
    | global g => exact same
    | memory m => exact same
    | table t => exact same

theorem grows_provideAll (h : Heap σ) (l : Link) (ds : List (Definition σ)) :
    h.Grows (h.provideAll l ds).1 := by
  induction ds generalizing h l with
  | nil => exact grows_refl h
  | cons d rest ih => exact grows_trans (grows_provide h l d) (ih _ _)

theorem grows_addGlobals (h : Heap σ) (l : Link) (gs : List GlobalDef) :
    h.Grows (h.addGlobals l gs).1 := by
  induction gs generalizing h l with
  | nil => exact grows_refl h
  | cons g rest ih =>
    refine grows_trans ?_ (ih _ _)
    exact { grows_refl h with globals := persist_push global_becomes_refl _ _ }

/-- Variables are added to globals alone. -/
theorem addGlobals_same (h : Heap σ) (l : Link) (gs : List GlobalDef) :
    (h.addGlobals l gs).1.funcs = h.funcs ∧ (h.addGlobals l gs).1.links = h.links ∧
      (h.addGlobals l gs).2.types = l.types ∧ (h.addGlobals l gs).2.funcs = l.funcs := by
  induction gs generalizing h l with
  | nil => exact ⟨rfl, rfl, rfl, rfl⟩
  | cons g rest ih => exact ih _ _

/-- The index spaces of an instance before its own variables are there: what it imports, and then
its own things, which come after all that is in the heap. -/
def Link.own (imported : Link) (h : Heap σ) (a : Artifact) (memories : Nat) : Link :=
  { imported with
    types := a.types
    funcs := imported.funcs ++ (List.range (Heap.closures a h.links.size).length).map (h.funcs.size + ·)
    tables := imported.tables ++ (List.range a.tables.length).map (h.tables.size + ·)
    memories := imported.memories ++ (List.range memories).map (h.memories.size + ·) }

/-- The heap with a module's own things but for its variables. -/
def Heap.withOwn (h : Heap σ) (a : Artifact) (memories : List (MemoryObj h.limit)) : Heap σ :=
  { h with
    funcs := h.funcs ++ ((Heap.closures a h.links.size).map .code).toArray
    tables := h.tables ++ (a.tables.map .ofType).toArray
    memories := h.memories ++ memories.toArray }

/-- What allocating a module comes to: its own things, its variables, and last the instance. -/
theorem allocate_ok {a : Artifact} {imported : Link} {addr : Nat}
    (halloc : h.allocate a imported = .ok (k, addr)) :
    ∃ memories elems datas, Heap.newMemories h.limit a.memories = .ok memories ∧
      addr = h.links.size ∧
      let (heap, l) := (h.withOwn a memories).addGlobals (imported.own h a memories.length) a.globals
      k = { heap with links := heap.links.push { l with elems, datas } } := by
  obtain ⟨memories, hm, halloc⟩ := except_bind_ok halloc
  have hpair := Except.ok.inj halloc
  exact ⟨memories, _, _, hm, (congrArg Prod.snd hpair).symm, (congrArg Prod.fst hpair).symm⟩

/-- The functions that are added are those that the module defines. -/
theorem allocate_func {a : Artifact} {imported : Link} {addr i : Nat} {f : FuncObj σ}
    (halloc : h.allocate a imported = .ok (k, addr)) (hf : k.funcs[i]? = some f) :
    h.funcs[i]? = some f ∨
      ∃ (j : Nat) (c : Closure), (Heap.closures a addr)[j]? = some c ∧ f = .code c := by
  obtain ⟨memories, elems, datas, _, haddr, hk⟩ := allocate_ok halloc
  have hfuncs : k.funcs = h.funcs ++ ((Heap.closures a addr).map .code).toArray := by
    rw [hk, haddr]
    exact (addGlobals_same (h.withOwn a memories) _ a.globals).1
  rw [hfuncs, Array.getElem?_append] at hf
  split at hf
  · exact Or.inl hf
  · rw [List.getElem?_toArray, List.getElem?_map] at hf
    obtain ⟨c, hc, hcode⟩ := Option.map_eq_some_iff.mp hf
    exact Or.inr ⟨_, c, hc, hcode.symm⟩

theorem grows_withOwn (h : Heap σ) (a : Artifact) (memories : List (MemoryObj h.limit)) :
    h.Grows (h.withOwn a memories) :=
  { grows_refl h with
    funcs := persist_append Eq.refl _ _
    tables := persist_append table_becomes_refl _ _
    memories := persist_append memory_becomes_refl _ _ }

/-- Allocating an instance takes nothing away. -/
theorem grows_allocate {a : Artifact} {imported : Link} {addr : Nat}
    (halloc : h.allocate a imported = .ok (k, addr)) : h.Grows k := by
  obtain ⟨memories, elems, datas, _, _, hk⟩ := allocate_ok halloc
  have hown := grows_withOwn h a memories
  have hglobals := grows_addGlobals (h.withOwn a memories) (imported.own h a memories.length)
    a.globals
  rw [hk]
  refine grows_trans (grows_trans hown hglobals) ?_
  exact { grows_refl _ with links := persist_push link_becomes_refl _ _ }

end Grows

end WasmEmbed
