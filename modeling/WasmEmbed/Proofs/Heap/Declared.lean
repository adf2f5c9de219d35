import WasmEmbed.Proofs.Heap.Typed
import WasmEmbed.Proofs.Instance.Stages

/-! Where the memories and variables of a heap come from. Nothing but the making of an instance adds
any, and what it adds is what the module declares, even if no instance is made in the end. -/
namespace WasmEmbed
open WasmEmbed.Code
variable {σ : Type}

/-- The types of the memories, by address. -/
def Heap.memoryTypes (h : Heap σ) : List MemoryType := h.memories.toList.map (·.type)

/-- The types of the variables, by address. -/
def Heap.globalTypes (h : Heap σ) : List GlobalType := h.globals.toList.map (·.type)

/-- The memories and variables of the second heap are those of the first and these. -/
structure Heap.Adds (h k : Heap σ) (memories : List MemoryType) (globals : List GlobalType) :
    Prop where
  memories : k.memoryTypes = h.memoryTypes ++ memories
  globals : k.globalTypes = h.globalTypes ++ globals

variable {h k l : Heap σ} {a : Artifact} {imported : Link} {addr : Nat}

section Adds

theorem adds_refl (h : Heap σ) : h.Adds h [] [] :=
  ⟨(List.append_nil _).symm, (List.append_nil _).symm⟩

/-- Additions add up, in their order. -/
theorem adds_trans {ms ms' : List MemoryType} {gs gs' : List GlobalType} (hk : h.Adds k ms gs)
    (kl : k.Adds l ms' gs') : h.Adds l (ms ++ ms') (gs ++ gs') where
  memories := by rw [kl.memories, hk.memories, List.append_assoc]
  globals := by rw [kl.globals, hk.globals, List.append_assoc]

theorem map_modify {α β : Type} {f : α → α} {g : α → β} (hg : ∀ x, g (f x) = g x) (xs : Array α)
    (i : Nat) : (xs.modify i f).toList.map g = xs.toList.map g := by
  apply List.ext_getElem?
  intro j
  rw [List.getElem?_map, List.getElem?_map, Array.getElem?_toList, Array.getElem?_toList,
    Array.getElem?_modify]
  split
  · cases xs[j]? with
    | none => rfl
    | some x => exact congrArg some (hg x)
  · rfl

/-- No write adds a memory or a variable. -/
theorem adds_perform (h : Heap σ) (w : Write) : h.Adds (h.perform w) [] [] := by
  have same := adds_refl h
  cases w with
  | global addr value =>
    refine { same with globals := ?_ }
    rw [List.append_nil]
    exact map_modify (fun g => GlobalObj.type_set g value) h.globals addr
  | bytes memory offset bs =>
    refine { same with memories := ?_ }
    rw [List.append_nil]
    exact map_modify (fun m => (memory_becomes_write m offset bs).type) h.memories memory
  | growMemory memory delta =>
    refine { same with memories := ?_ }
    rw [List.append_nil]
    exact map_modify (fun m => (memory_becomes_grow m delta).type) h.memories memory
  | _ => exact { same with }

theorem adds_performAll (h : Heap σ) (ws : List Write) : h.Adds (h.performAll ws) [] [] := by
  induction ws generalizing h with
  | nil => exact adds_refl h
  | cons w ws ih => exact adds_trans (adds_perform h w) (ih (h.perform w))

theorem adds_provide (h : Heap σ) (l : Link) (d : Definition σ) :
    h.Adds (h.provide l d).1 [] [] := by
  have same := adds_refl h
  cases d with
  | host f => exact { same with }
  | item x =>
    cases x with
    | func f => exact same
    | global g => exact same
    | memory m => exact same
    | table t => exact same

/-- What is imported is there already, and host functions are neither memories nor variables. -/
theorem adds_provideAll (h : Heap σ) (l : Link) (ds : List (Definition σ)) :
    h.Adds (h.provideAll l ds).1 [] [] := by
  induction ds generalizing h l with
  | nil => exact adds_refl h
  | cons d rest ih =>
    exact adds_trans (adds_provide h l d) (ih _ _)

/-- The variables of a module are added one by one, with the types that it declares. -/
theorem adds_addGlobals (h : Heap σ) (l : Link) (gs : List GlobalDef) :
    h.Adds (h.addGlobals l gs).1 [] (gs.map (·.type)) := by
  induction gs generalizing h l with
  | nil => exact adds_refl h
  | cons g rest ih =>
    have hone (v : GlobalObj) (hv : v.type = g.type) :
        h.Adds { h with globals := h.globals.push v } [] [g.type] := by
      refine { adds_refl h with globals := ?_ }
      rw [Heap.globalTypes, Array.toList_push, List.map_append, List.map_singleton, hv]
      rfl
    exact adds_trans (hone _ rfl) (ih _ _)

/-- Memories come with the rest of the module's own things, and its variables one by one after them.
-/
theorem adds_allocate (halloc : h.allocate a imported = .ok (k, addr)) :
    h.Adds k a.memories (a.globals.map (·.type)) := by
  obtain ⟨memories, elems, datas, hm, _, hk⟩ := allocate_ok halloc
  have hown : h.Adds (h.withOwn a memories) a.memories [] := by
    refine { adds_refl h with memories := ?_ }
    change (h.memories ++ memories.toArray).toList.map (·.type) = _
    rw [Array.toList_append, List.map_append, newMemories_types hm]
    rfl
  have hglobals := adds_addGlobals (h.withOwn a memories) (imported.own h a memories.length)
    a.globals
  have hall := adds_trans hown hglobals
  rw [List.append_nil] at hall
  rw [hk]
  exact ⟨hall.memories, hall.globals⟩

/-- The heap has of the module all that it declares, or nothing. -/
theorem adds_made {r : Resources σ} {bulkMemory : Bool} {maxFrames : Nat}
    {out : Except Error Link × Resources σ} (hmade : r.Made bulkMemory maxFrames a imported out) :
    r.heap.Adds out.2.heap [] [] ∨
      r.heap.Adds out.2.heap a.memories (a.globals.map (·.type)) := by
  rcases made_heap hmade with ⟨hsame, _⟩ | ⟨heap, addr, ws, halloc, hleft, _⟩
  · rw [hsame]
    exact Or.inl (adds_refl r.heap)
  · right
    have hall := adds_trans (adds_allocate halloc) (adds_performAll heap ws)
    rw [List.append_nil, List.append_nil] at hall
    rw [hleft]
    exact hall

end Adds

section Use
variable {s : Store σ} {c d : Contents σ} {world : σ} {u : Use σ}

/-- A use adds nothing to the heap unless it tries to make an instance. -/
theorem perform_adds (hd : (s.perform world u).store.contents = some d) :
    ∃ c, s.contents = some c ∧ (c.heap.Adds d.heap [] [] ∨ ∃ m imports,
      u = .instantiate m imports ∧
        c.heap.Adds d.heap m.artifact.memories (m.artifact.globals.map (·.type))) := by
  by_cases hmakes : ∃ m imports, u = .instantiate m imports
  · obtain ⟨m, imports, rfl⟩ := hmakes
    change (Instance.create s world m imports).store.contents = some d at hd
    have hbuilds := create_builds hd
    generalize (Instance.create s world m imports).result = result at hbuilds
    cases hbuilds with
    | refused hd => exact ⟨d, hd, Or.inl (adds_refl d.heap)⟩
    | @built c _ ref ds heap imported out hc hds hprovided hmade hheap =>
      have himports := adds_provideAll c.heap {} ds
      rw [hprovided] at himports
      rw [hheap]
      refine ⟨c, hc, ?_⟩
      rcases adds_made hmade with hnone | hall
      · exact Or.inl (adds_trans himports hnone)
      · exact Or.inr ⟨m, imports, rfl, adds_trans himports hall⟩
  · obtain ⟨c, ws, hc, hleft, _⟩ := perform_contents (fun m imports h => hmakes ⟨m, imports, h⟩) hd
    rw [hleft]
    exact ⟨c, hc, Or.inl (adds_performAll c.heap ws)⟩

end Use

end WasmEmbed
