import WasmEmbed.Proofs.Heap.Growth
import WasmEmbed.Proofs.Imports.Linking
import WasmEmbed.Proofs.Machine.Host

/-! Making an instance adds functions to a heap: those of the module, and the host functions that
define its imports. With pure ones it comes out the same way whatever the state of the host is. -/
namespace WasmEmbed
open WasmEmbed.Code
variable {σ : Type} {h k : Heap σ} {a : Artifact}

/-- A definition is of something in a store, or of a pure host function. -/
def Definition.Pure : Definition σ → Prop
  | .host f => f.Pure
  | .item _ => True

/-- All host functions that the table holds are pure. -/
def Imports.Pure (t : Imports σ) : Prop := ∀ e ∈ t.entries, e.2.Pure

theorem resolve_pure {t : Imports σ} (ht : t.Pure) {store : Nat} {m : Module}
    {ds : List (Definition σ)} (h : t.resolve store m = .ok ds) : ∀ d ∈ ds, d.Pure := by
  obtain ⟨_, _, rfl⟩ := resolve_fitting h
  intro d hd
  obtain ⟨i, _, hfound, _⟩ := mem_fitting_iff.mp hd
  obtain ⟨e, he, rfl⟩ := mem_of_get? hfound
  exact ht e he

theorem pure_push (hh : h.Pure) {f : FuncObj σ} (hf : ∀ g, f = .host g → g.Pure)
    (hk : k.funcs = h.funcs.push f) : k.Pure := by
  intro addr g hg
  rw [hk, Array.getElem?_push] at hg
  split at hg
  · exact hf g (Option.some.inj hg)
  · exact hh addr g hg

theorem provide_pure (hh : h.Pure) (l : Link) {d : Definition σ} (hd : d.Pure) :
    (h.provide l d).1.Pure := by
  cases d with
  | host f =>
    refine pure_push hh (f := .host f) ?_ rfl
    intro g hg
    rw [← FuncObj.host.inj hg]
    exact hd
  | item x =>
    cases x with
    | func f => exact hh
    | global g => exact hh
    | memory m => exact hh
    | table t => exact hh

theorem provideAll_pure (hh : h.Pure) (l : Link) {ds : List (Definition σ)}
    (hds : ∀ d ∈ ds, d.Pure) : (h.provideAll l ds).1.Pure := by
  induction ds generalizing h l with
  | nil => exact hh
  | cons d rest ih =>
    have hd := hds d List.mem_cons_self
    apply ih (provide_pure hh l hd)
    intro x hx
    exact hds x (List.mem_cons_of_mem d hx)

/-- A module's own functions are code. -/
theorem allocate_pure (hh : h.Pure) {imported : Link} {addr : Nat}
    (halloc : h.allocate a imported = .ok (k, addr)) : k.Pure := by
  intro i f hf
  rcases allocate_func halloc hf with hold | ⟨_, _, _, hcode⟩
  · exact hh i f hold
  · contradiction

theorem copyActive_inWorld (r : Resources σ) (a : Artifact) (l : Link) (world : σ) :
    (r.inWorld world).copyActive a l =
      ((r.copyActive a l).1, (r.copyActive a l).2.inWorld world) := by
  obtain ⟨heap, fuel, here⟩ := r
  simp only [Resources.copyActive, Resources.inWorld]
  cases heap.copySegments .tableOutOfBounds (a.elems.filterMap (heap.elemWrite? l)) with
  | mk failed heap' =>
    cases failed with
    | some code => rfl
    | none => rfl

/-- However far an instance gets, the heap stays pure, and the state of the host does not show in
what comes of it. Only the start function can reach the host. -/
theorem instantiate_inWorld {r : Resources σ} (hr : r.heap.Pure) (bulkMemory : Bool)
    (maxFrames : Nat) (a : Artifact) (imported : Link) (world : σ) :
    (r.instantiate bulkMemory maxFrames a imported).2.heap.Pure ∧
      ∃ world', (r.inWorld world).instantiate bulkMemory maxFrames a imported =
        ((r.instantiate bulkMemory maxFrames a imported).1,
          (r.instantiate bulkMemory maxFrames a imported).2.inWorld world') := by
  obtain ⟨before, fuel, here⟩ := r
  simp only [Resources.instantiate, Resources.inWorld]
  cases halloc : before.allocate a imported with
  | error e => exact ⟨hr, world, rfl⟩
  | ok p =>
    obtain ⟨heap, addr⟩ := p
    have hheap : heap.Pure := allocate_pure hr halloc
    dsimp only
    cases (if bulkMemory then .ok () else heap.checkSegments a (heap.link addr) :
      Except Error Unit) with
    | error e => exact ⟨hheap, world, rfl⟩
    | ok _ =>
      have hws := copyActive_heap ⟨heap, fuel, here⟩ a (heap.link addr)
      have hcopy : (Resources.mk heap fuel world).copyActive a (heap.link addr) =
          (((Resources.mk heap fuel here).copyActive a (heap.link addr)).1,
            ((Resources.mk heap fuel here).copyActive a (heap.link addr)).2.inWorld world) :=
        copyActive_inWorld ⟨heap, fuel, here⟩ a (heap.link addr) world
      dsimp only
      rw [hcopy]
      cases hc : (Resources.mk heap fuel here).copyActive a (heap.link addr) with
      | mk failed copied =>
        rw [hc] at hws
        have hcopied : copied.heap.Pure := by
          rw [show copied.heap = heap.performAll _ from hws]
          exact pure_performAll hheap _
        cases failed with
        | some code => exact ⟨hcopied, world, rfl⟩
        | none =>
          dsimp only
          cases a.start with
          | none => exact ⟨hcopied, world, rfl⟩
          | some i =>
            obtain ⟨after, hcall⟩ :=
              call_inWorld hcopied maxFrames ((heap.link addr).funcs.getD i 0) [] world
            refine ⟨pure_call hcopied maxFrames _ [], after, ?_⟩
            dsimp only
            rw [hcall]
            rfl

end WasmEmbed
