import WasmEmbed.Proofs.Realm.Boundary

/-! What a store comes to execute. A function that the host calls, or an instance starts with, is there
with its type, and all code beside it is well typed; so is, then, whatever execution comes to. -/
namespace WasmEmbed
open WasmEmbed.Code
variable {σ : Type}

/-- Calling the function with an address comes to a machine. -/
def Resources.Visits (r : Resources σ) (maxFrames addr : Nat) (args : List Operand)
    (m : Machine σ) : Prop :=
  ∃ n start, n < maxSteps ∧ Machine.invoke r maxFrames [] addr args.reverse = .running start ∧
    Machine.Steps n start m

/-- All code is well typed, and the function with an address takes these arguments. -/
structure Resources.Runnable (r : Resources σ) (addr : Nat) (args : List Operand) : Prop where
  sound : r.heap.Sound
  function : ∃ f, r.heap.funcs[addr]? = some f ∧ args.map Operand.type = f.type.params

variable {history : List (Event σ)} {r : Realm σ} {s : Store σ} {c : Contents σ} {world : σ}
  {u : Use σ} {instantiation : Bool} {back : Resources σ} {addr maxFrames : Nat}
  {args : List Operand} {m : Machine σ}

/-- A function that may be called from outside is called with well-typed code only. -/
theorem visits_typed (hback : back.Runnable addr args) (h : back.Visits maxFrames addr args m) :
    ∃ owed, m.Typed owed := by
  obtain ⟨n, start, _, hinvoke, hsteps⟩ := h
  obtain ⟨f, hf, _⟩ := hback.function
  have hstart := called_from_outside hback.sound hf maxFrames args.reverse
  rw [hinvoke] at hstart
  exact ⟨f.type.results, steps_typed hsteps hstart⟩

/-- A handle of a function that the host was given tells the type of what is called. -/
theorem runnable_of_handle (hk : c.Keeps history s.id) {f : Func} (hf : (Item.func f).Given history)
    (hstore : f.store.id = s.id) {vs : List Val} (hvs : vs.map Val.type = f.type.params) :
    (c.resources world).Runnable f.addr (vs.map .val) := by
  obtain ⟨found, hfound, htype⟩ := hk.holds (.func f) hf hstore
  refine ⟨hk.sound, found, hfound, ?_⟩
  rw [List.map_map, htype]
  exact hvs

/-- A start function was validated to take nothing. It is there once the instance is allocated, and
segments leave functions alone. -/
theorem runnable_of_copied {module : Module} (hm : module.Valid) {before copied : Resources σ}
    {imported l : Link} {bulkMemory : Bool} {i : Nat} (hs : before.heap.Sound)
    (himported : imported.Typed before.heap
      fun kind => module.artifact.importTypes.flatMap fun i => i.type.ofKind kind)
    (hcopied : before.Copied bulkMemory module.artifact imported l none copied)
    (hstart : module.artifact.start = some i) : copied.Runnable (l.funcs.getD i 0) [] := by
  obtain @⟨heap, place, failed, after, halloc, hfits, hcopy⟩ := hcopied
  have hleft := copyActive_heap { before with heap } module.artifact (heap.link place)
  rw [hcopy] at hleft
  obtain ⟨l, hl, _, htyped⟩ := typed_allocate hm.artifact himported halloc
  obtain ⟨addr, haddr, f, hf, htype⟩ := typed_addr htyped (hm.artifact.start i hstart)
  have haddr : l.funcs[i]? = some addr := haddr
  refine ⟨?_, f, ?_, ?_⟩
  · rw [hleft]
    exact sound_performAll (sound_allocate hm.artifact hs himported halloc) _
  · rw [hleft, Heap.funcs_performAll, link_of_found hl, List.getD_eq_getElem?_getD, haddr]
    exact hf
  · rw [htype]
    rfl

/-- Whatever a host asks a store to run is ready to run. What is imported is typed as the module
declares, since linking has checked it. -/
theorem runnable_of_runs (hr : Run history r) (hs : s ∈ r.stores) (given : u.Given history)
    (hruns : s.Runs world u instantiation back addr args) : back.Runnable addr args := by
  have hfound := store?_of_mem (consistent_of_run hr) hs
  cases hruns with
  | call hfor hargs =>
    obtain ⟨hstore, hc⟩ := contentsFor_ok hfor
    exact runnable_of_handle (keeps_of_run hr hfound hc) given hstore
      (prepare_makes makes_coerce hargs)
  | callTyped hfor hargs =>
    obtain ⟨hstore, hc⟩ := contentsFor_ok hfor
    exact runnable_of_handle (keeps_of_run hr hfound hc) given hstore
      (prepare_makes makes_checkType hargs)
  | @start module imports before copied imported l i hlinked hcopied hstart =>
    obtain @⟨ref, c, ds, heap, imported, href, hc, _, hds, hprovided⟩ := hlinked
    have hkeeps := keeps_of_run hr hfound hc
    have hm := valid_of_run hr module given.1
    obtain ⟨hsound, himported⟩ := provided_of_resolve hm hkeeps.sound (fun x hstore hx => by
      obtain ⟨e, he, hx⟩ := hx
      have hgiven := given.2 e he
      rw [hx] at hgiven
      exact hkeeps.holds x hgiven hstore) hds hprovided
    exact runnable_of_copied hm hsound himported hcopied hstart

end WasmEmbed
