import WasmEmbed.Proofs.Heap.Declared
import WasmEmbed.Proofs.Realm.Keeping
import WasmEmbed.Proofs.Realm.Opening
import WasmEmbed.Proofs.Failure.Taxonomy

/-! Memories and their limits. Whatever is done, every memory in a store is as large as its pages and
within the bounds that some module declares and that the store was made with, also while code is
executed, and none ever gets smaller. -/
namespace WasmEmbed
open WasmEmbed.Code
variable {σ : Type}

/-- A memory has the size of its pages, and is within its own bounds and those of a store. -/
structure MemoryObj.Within {limit : Option Nat} (o : MemoryObj limit) (bytes : Option Nat) :
    Prop where
  size : o.size = 65536 * o.pages
  minimum : o.type.minimum ≤ o.pages
  maximum : ∀ n ∈ o.type.maximum, o.pages ≤ n
  limit : ∀ l ∈ bytes, o.size ≤ l

/-- What a handle is told of its memory is within the bounds of its type and of the store. -/
def Memory.Tells (x : Memory) (s : Store σ) (bytes : Option Nat) : Prop :=
  ∃ pages, x.size s = .ok pages ∧ x.dataSize s = .ok (65536 * pages) ∧
    x.type.minimum ≤ pages ∧ (∀ n ∈ x.type.maximum, pages ≤ n) ∧
    ∀ l ∈ bytes, 65536 * pages ≤ l

/-- An instance of the module was asked for in the store, whether or not it could be made. -/
def Tried (history : List (Event σ)) (id : Nat) (m : Module) : Prop :=
  ∃ e ∈ history, ∃ imports, e.request = .use id (.instantiate m imports)

/-- The function with an address, run with these resources, comes to a state of the machine. -/
def Resources.Reaches (r : Resources σ) (maxFrames addr : Nat) (args : List Operand)
    (m : Machine σ) : Prop :=
  ∃ n start, Machine.invoke r maxFrames [] addr args.reverse = .running start ∧
    Machine.Steps n start m

variable {ms : List (Moment σ)} {history : List (Event σ)} {r : Realm σ} {s : Store σ}
  {c : Contents σ} {id : Nat} {world : σ} {u : Use σ} {instantiation : Bool}
  {back : Resources σ} {addr maxFrames : Nat} {args : List Operand} {m m' : Machine σ}

section Memory
variable {limit : Option Nat}

theorem memory_within (o : MemoryObj limit) : o.Within limit := by
  obtain ⟨hmaximum, _, hlimit⟩ := o.admitted
  have hsize : o.size = o.pages * 65536 := o.size_eq
  refine ⟨hsize.trans (Nat.mul_comm _ _), o.minimum_le, hmaximum, fun l hl => ?_⟩
  have hbytes : o.pages * 65536 ≤ l := hlimit l hl
  omega

/-- A memory tells a size that its type and the limit of its store admit. -/
theorem tells_of_holds {x : Memory} (hstore : x.store.id = s.id) (hc : s.contents = some c)
    (hx : c.heap.Holds x.addr (.memory x.type)) : x.Tells s c.heap.limit := by
  obtain ⟨o, ho, htype⟩ := hx
  obtain ⟨hsize, hminimum, hmaximum, hlimit⟩ := memory_within o
  have hfind := find_live hstore hc ho
  refine ⟨o.pages, ?_, ?_, ?_, ?_, ?_⟩
  · rw [Memory.size, hfind]
    rfl
  · rw [Memory.dataSize, hfind, ← hsize]
    rfl
  · rw [← htype]
    exact hminimum
  · rw [← htype]
    exact hmaximum
  · intro l hl
    rw [← hsize]
    exact hlimit l hl

end Memory

section Code

/-- Steps change the heap by writes alone. -/
theorem steps_heap {n : Nat} (h : Machine.Steps n m m') :
    ∃ ws, m'.resources.heap = m.resources.heap.performAll ws := by
  induction h with
  | zero m => exact ⟨[], rfl⟩
  | @succ n m m₁ m' hstep h ih =>
    obtain ⟨ws, hws⟩ := step_heap m
    rw [hstep] at hws
    obtain ⟨vs, hvs⟩ := ih
    refine ⟨ws ++ vs, ?_⟩
    rw [performAll_append, ← hws]
    exact hvs

/-- Whatever code comes to, nothing of the heap is taken away. -/
theorem reaches_grows (h : back.Reaches maxFrames addr args m) :
    back.heap.Grows m.resources.heap := by
  obtain ⟨n, start, hinvoke, hsteps⟩ := h
  have hstart := invoke_heap back maxFrames [] addr args.reverse
  rw [hinvoke] at hstart
  have hstart : start.resources.heap = back.heap := hstart
  obtain ⟨ws, hws⟩ := steps_heap hsteps
  rw [hws, hstart]
  exact grows_performAll back.heap ws

/-- Before a start function runs, imports are provided, things are allocated and segments copied. -/
theorem runs_grows (h : s.Runs world u instantiation back addr args)
    (hc : s.contents = some c) : c.heap.Grows back.heap := by
  have hsame {d : Contents σ} (hd : s.contents = some d) : d = c :=
    Option.some.inj (hd.symm.trans hc)
  cases h with
  | call hfor hargs =>
    rw [hsame (contentsFor_ok hfor).2]
    exact grows_refl c.heap
  | callTyped hfor hargs =>
    rw [hsame (contentsFor_ok hfor).2]
    exact grows_refl c.heap
  | @start m imports before copied imported l i hlinked hcopied hstart =>
    obtain @⟨ref, d, ds, heap, imported, href, hd, hm, hds, hprovided⟩ := hlinked
    obtain @⟨heap', addr, failed, after, halloc, hfits, hcopy⟩ := hcopied
    have hgrows := grows_provideAll d.heap {} ds
    rw [hprovided, hsame hd] at hgrows
    have hws := copyActive_heap { heap := heap', fuel := d.fuel, world } m.artifact
      (heap'.link addr)
    rw [hcopy] at hws
    have hallocated : c.heap.Grows heap' := grows_trans hgrows (grows_allocate halloc)
    rw [hws]
    exact grows_trans hallocated (grows_performAll heap' _)

end Code

section Run

theorem tried_mono {module : Module} (h : Tried history id module) (e : Event σ) :
    Tried (history ++ [e]) id module := exists_mono h [e]

/-- Every memory and every variable is one that a module declares which was tried in the store. -/
structure Contents.Declared (c : Contents σ) (history : List (Event σ)) (id : Nat) : Prop where
  memories : ∀ t ∈ c.heap.memoryTypes, ∃ m, Tried history id m ∧ t ∈ m.artifact.memories
  globals : ∀ t ∈ c.heap.globalTypes,
    ∃ m, Tried history id m ∧ ∃ g ∈ m.artifact.globals, g.type = t

theorem declared_mono (h : c.Declared history id) (e : Event σ) :
    c.Declared (history ++ [e]) id where
  memories := by
    intro t ht
    obtain ⟨m, hm, ht⟩ := h.memories t ht
    exact ⟨m, tried_mono hm e, ht⟩
  globals := by
    intro t ht
    obtain ⟨m, hm, ht⟩ := h.globals t ht
    exact ⟨m, tried_mono hm e, ht⟩

/-- An instance adds only what its module declares. -/
theorem declared_adds {d : Contents σ} {module : Module} (h : c.Declared history id)
    (hm : Tried history id module) (hadds : c.heap.Adds d.heap module.artifact.memories
      (module.artifact.globals.map (·.type))) : d.Declared history id where
  memories := by
    intro t ht
    rw [hadds.memories] at ht
    rcases List.mem_append.mp ht with ht | ht
    · exact h.memories t ht
    · exact ⟨module, hm, ht⟩
  globals := by
    intro t ht
    rw [hadds.globals] at ht
    rcases List.mem_append.mp ht with ht | ht
    · exact h.globals t ht
    · exact ⟨module, hm, List.mem_map.mp ht⟩

theorem declared_same {d : Contents σ} (h : c.Declared history id)
    (hadds : c.heap.Adds d.heap [] []) : d.Declared history id := by
  obtain ⟨hmemories, hglobals⟩ := hadds
  rw [List.append_nil] at hmemories hglobals
  obtain ⟨hm, hg⟩ := h
  rw [← hmemories] at hm
  rw [← hglobals] at hg
  exact ⟨hm, hg⟩

theorem kept_declared (id : Nat) :
    Kept (σ := σ) id fun history s => ∀ c, s.contents = some c → c.Declared history id where
  made := by
    intro history r q s e limits hr given hq hnext hnew c hc
    rw [store_create_eq hnew] at hc
    rw [← Option.some.inj hc]
    exact ⟨fun t ht => absurd ht List.not_mem_nil, fun t ht => absurd ht List.not_mem_nil⟩
  used := by
    intro history r u s hr given hs hk d hd
    obtain ⟨c, hc, hadds⟩ := perform_adds hd
    have hbefore := declared_mono (hk c hc) ⟨.use id u, (r.perform (.use id u)).1⟩
    rcases hadds with hadds | ⟨m, imports, hu, hadds⟩
    · exact declared_same hbefore hadds
    · -- what is new is declared by the module of this very request
      apply declared_adds hbefore _ hadds
      exact ⟨_, List.mem_append_right _ (List.mem_singleton_self _), imports, by rw [hu]⟩
  other := by
    intro history r q s hr given hq hs hk c hc
    exact declared_mono (hk c hc) _

/-- In every run all memories and variables of a store are declared by modules that were tried in
it. -/
theorem declared_of_run (hr : Run history r) (hs : r.store? id = some s)
    (hc : s.contents = some c) : c.Declared history id := kept_of_run (kept_declared id) hr hs c hc

/-- In every run, and for every live store, of the engine and limits that it was made with: every
memory in the store, exported or not, has 65536 bytes for each page, has at least as many pages as
some module declares that was tried there, and no more than that module or the limits allow; a
handle is told such sizes; the same is true in every state that code comes to which is executed in
the store; and each memory that was there at any moment before is there, and no smaller. -/
theorem memory_limits_kept (h : Course ms r) (hs : s ∈ r.stores) (hc : s.contents = some c) :
    ∃ opening ∈ ms, ∃ e limits, opening.Opens s.id e limits ∧
      (∀ o ∈ c.heap.memories, o.Within limits.maxMemoryBytes ∧
        ∃ m, Tried (ms.map Moment.event) s.id m ∧ o.type ∈ m.artifact.memories) ∧
      (∀ x : Memory, (Item.memory x).Given (ms.map Moment.event) → x.store.id = s.id →
        x.Tells s limits.maxMemoryBytes) ∧
      (∀ world u instantiation back addr args m, s.Runs world u instantiation back addr args →
        back.Reaches s.maxFrames addr args m →
        (∀ o ∈ m.resources.heap.memories, o.Within limits.maxMemoryBytes) ∧
          Persist MemoryObj.Becomes c.heap.memories m.resources.heap.memories) ∧
      ∀ m ∈ ms, ∀ t ∈ m.realm.stores, t.id = s.id → ∃ b, t.contents = some b ∧
        Persist MemoryObj.Becomes b.heap.memories c.heap.memories := by
  have hr := run_of_course h
  have hfound := store?_of_mem (consistent_of_run hr) hs
  obtain ⟨opening, hopening, e, limits, ho⟩ := opening_of_course h hfound
  have hlimit := limit_of_course h hfound hc hopening ho
  refine ⟨opening, hopening, e, limits, ho, ?_, ?_, ?_, ?_⟩
  · intro o hmem
    refine ⟨?_, ?_⟩
    · rw [← hlimit]
      exact memory_within o
    · exact (declared_of_run hr hfound hc).memories o.type
        (List.mem_map_of_mem (Array.mem_toList_iff.mpr hmem))
  · intro x hx hstore
    rw [← hlimit]
    exact tells_of_holds hstore hc ((keeps_of_run hr hfound hc).holds (.memory x) hx hstore)
  · intro world u instantiation back addr args m hruns hreaches
    have hgrows := grows_trans (runs_grows hruns hc) (reaches_grows hreaches)
    refine ⟨fun o _ => ?_, hgrows.memories⟩
    rw [← hlimit, ← hgrows.limit]
    exact memory_within o
  · intro m hm t ht hid
    obtain ⟨⟨before, hbefore⟩, _⟩ := moment_of_course h hm
    have hthere := store?_of_mem (consistent_of_run (run_of_course hbefore)) ht
    rw [hid] at hthere
    obtain ⟨b, hb, hgrows⟩ := heap_grows_of_course h hfound hc hm hthere
    exact ⟨b, hb, hgrows.memories⟩

end Run

/-- An instance with a memory in a store that has room for less than two pages in each. -/
def boundedHistory : List (Event Unit) :=
  [⟨.newEngine {}, .reply (.ok (.engine 0)) none⟩,
    ⟨.newStore 0 { maxMemoryBytes := some 100000 }, .reply (.ok (.store 1)) none⟩,
    ⟨.compile 0 (.bytes memoryBytes), .reply (.ok (.module memoryModule)) none⟩,
    ⟨.use 1 (.instantiate memoryModule {}), .reply (.ok (.instance memoryInstance)) none⟩]

def Realm.bounded : Realm Unit := (({ world := () } : Realm Unit).performAll
  [.newEngine {}, .newStore 0 { maxMemoryBytes := some 100000 }, .compile 0 (.bytes memoryBytes),
    .use 1 (.instantiate memoryModule {})]).2

theorem run_bounded_made : Run boundedHistory Realm.bounded := by
  have hengine : Run (boundedHistory.take 1) _ := (Run.start ()).request (.newEngine {}) trivial
  have hopened : Run (boundedHistory.take 2) _ :=
    hengine.request (.newStore 0 { maxMemoryBytes := some 100000 }) List.mem_cons_self
  have hcompiled : Run (boundedHistory.take 3) _ :=
    hopened.request (.compile 0 (.bytes memoryBytes)) List.mem_cons_self
  have hmodule : memoryModule ∈ (boundedHistory.take 3).filterMap Event.module? :=
    List.mem_filterMap.mpr ⟨(boundedHistory.take 3)[2], List.getElem_mem _, rfl⟩
  exact hcompiled.request (.use 1 (.instantiate memoryModule {}))
    ⟨List.mem_cons_self, hmodule, fun e he => absurd he List.not_mem_nil⟩

theorem run_bounded : ∃ r, Run boundedHistory r ∧ ∃ s ∈ r.stores, s.id = 1 ∧ s.isAlive = true :=
  ⟨Realm.bounded, run_bounded_made, _, List.mem_cons_self, rfl, rfl⟩

/-- The memory has the page that its module declares, and no room for a second. -/
theorem bounded_one_page : ∃ r, Run boundedHistory r ∧ ∃ s ∈ r.stores, s.id = 1 ∧
    Memory.size ⟨⟨1, 2⟩, "m", ⟨1, none, false⟩, 0⟩ s = .ok 1 ∧
    Memory.dataSize ⟨⟨1, 2⟩, "m", ⟨1, none, false⟩, 0⟩ s = .ok 65536 := by
  obtain ⟨r, hr, s, hs, hid, halive⟩ := run_bounded
  obtain ⟨c, hc⟩ := (isAlive_iff s).mp halive
  obtain ⟨ms, hms, h⟩ := course_of_run hr
  obtain ⟨opening, hopening, e, limits, ⟨t, hopens, _⟩, _, htells, _⟩ :=
    memory_limits_kept h hs hc
  have hlimit : limits.maxMemoryBytes = some 100000 := by
    have hevent : opening.event ∈ boundedHistory := hms ▸ List.mem_map_of_mem hopening
    have hrequest : opening.event.request = .newStore e.id limits := hopens.request
    generalize opening.event = event at hevent hrequest
    simp only [boundedHistory, List.mem_cons, List.not_mem_nil, or_false] at hevent
    rcases hevent with rfl | rfl | rfl | rfl
    · contradiction
    · rw [← (Request.newStore.inj hrequest).2]
    · contradiction
    · contradiction
  have hgiven : (Item.memory ⟨⟨1, 2⟩, "m", ⟨1, none, false⟩, 0⟩).Given boundedHistory :=
    ⟨memoryInstance, List.mem_filterMap.mpr ⟨boundedHistory[3], List.getElem_mem _, rfl⟩, _,
      List.mem_cons_self, rfl⟩
  rw [← hms] at hgiven
  obtain ⟨pages, hsize, hdata, hminimum, _, hbytes⟩ := htells _ hgiven hid.symm
  have hleast : 1 ≤ pages := hminimum
  have hmost := hbytes 100000 hlimit
  have hone : pages = 1 := by omega
  rw [hone] at hsize hdata
  exact ⟨r, hr, s, hs, hid, hsize, hdata⟩

end WasmEmbed
