import WasmEmbed.Proofs.Instance.Binding
import WasmEmbed.Proofs.Realm.Keeping

/-! What an instance exports is what its module declares: the same names in the same order, each for
a thing of the declared type. It can be looked up by name as long as the store is alive, whatever
else is done with the store. -/
namespace WasmEmbed
open WasmEmbed.Code
variable {σ : Type}

/-- An instance lists what a module declares. Every handle in the list knows its name and its store,
and a function its instance and its place as well. -/
structure Instance.Lists (i : Instance) (m : Module) : Prop where
  module : i.module = m
  declared : i.exports.map (fun x => (⟨x.1, x.2.type⟩ : ExportType)) = m.exports
  names : (m.exports.map ExportType.name).Nodup
  named : ∀ x ∈ i.exports, x.2.name = x.1 ∧ x.2.store = i.store
  placed : ∀ (k : Nat) (name : String) (f : Func), i.exports[k]? = some (name, .func f) →
    f.index = k ∧ f.instanceId = i.id

/-- With a store, a name is found in an instance if the module declares it, as something of the
declared type; and if a thing of one kind is asked for, then if it is declared as one. -/
structure Instance.Finds (i : Instance) (s : Store σ) (m : Module) (name : String) : Prop where
  listed : ∀ x, i.get? s name = some x ↔ (name, x) ∈ i.exports
  typed : (i.get? s name).map Item.type = m.export? name
  declared : (i.get? s name).isSome ↔ ∃ e ∈ m.exports, e.name = name
  func : (i.func? s name).isSome ↔ (m.export? name).map ExternType.kind = some .function
  global : (i.global? s name).isSome ↔ (m.export? name).map ExternType.kind = some .global
  memory : (i.memory? s name).isSome ↔ (m.export? name).map ExternType.kind = some .memory
  table : (i.table? s name).isSome ↔ (m.export? name).map ExternType.kind = some .table
  signature : (i.func? s name).map Func.type = m.funcType? name

variable {history : List (Event σ)} {r : Realm σ} {s : Store σ} {id : Nat} {i : Instance} {m : Module}
  {imports : Imports σ} {state : Option FuncState} {name : String} {a : Artifact} {l : Link}

section Listing

/-- Each handle tells the name, the store and the place of its export. -/
theorem handles_tell {store : StoreRef} {k : Nat} {x : Item}
    (hx : (Instance.handles store id a l)[k]? = some (name, x)) :
    x.name = name ∧ x.store = store ∧ ∀ f, x = .func f → f.index = k ∧ f.instanceId = id := by
  rw [handles_getElem?] at hx
  obtain ⟨e, _, he⟩ := Option.map_eq_some_iff.mp hx
  obtain ⟨rfl, rfl⟩ := Prod.mk.inj he
  cases a.externType e.kind e.index with
  | func t =>
    refine ⟨rfl, rfl, fun f hf => ?_⟩
    rw [← Item.func.inj hf]
    exact ⟨rfl, rfl⟩
  | global t => exact ⟨rfl, rfl, fun f hf => by contradiction⟩
  | memory t => exact ⟨rfl, rfl, fun f hf => by contradiction⟩
  | table t => exact ⟨rfl, rfl, fun f hf => by contradiction⟩

/-- Handles that are made of the exports of a valid module list them. -/
theorem lists_of_handles (hvalid : m.Valid) (hdeclares : m.exports = m.artifact.exportTypes)
    (hmodule : i.module = m) (hexports : i.exports = Instance.handles i.store i.id m.artifact l) :
    i.Lists m where
  module := hmodule
  declared := by rw [hexports, hdeclares, handles_declared]
  names := by
    rw [hdeclares, Artifact.exportTypes, List.map_map]
    exact hvalid.artifact.names
  named := by
    intro x hx
    obtain ⟨k, hk⟩ := List.mem_iff_getElem?.mp hx
    rw [hexports] at hk
    obtain ⟨hname, hstore, _⟩ := handles_tell hk
    exact ⟨hname, hstore⟩
  placed := by
    intro k name f hf
    rw [hexports] at hf
    exact (handles_tell hf).2.2 f rfl

/-- No name is listed twice. -/
theorem names_of_lists (hlists : i.Lists m) : (i.exports.map (·.1)).Nodup := by
  have hnames := hlists.names
  rw [← hlists.declared, List.map_map] at hnames
  exact hnames

end Listing

section Finding

/-- As long as the store is alive, an export is found by its name. -/
theorem get?_of_alive (hr : Run history r) (hi : Issued history id i.store)
    (hs : r.store? id = some s) (halive : s.isAlive = true) (name : String) :
    i.get? s name = (i.exports.find? fun e => e.1 == name).map (·.2) := by
  obtain ⟨hmem, hid⟩ := store?_eq_some hs
  have hstore := issued_of_run hr id i.store hi
  have howns : s.owns i.store = true := (owns_iff s i.store).mpr (by rw [hstore, hid])
  have hwatched := (consistent_of_run hr).watched s hmem
  unfold Store.Watched at hwatched
  rw [halive, hid] at hwatched
  have hholds : s.holds i.store.token = true :=
    (holds_iff s i.store.token).mpr (by rw [hstore]; exact hwatched)
  unfold Instance.get?
  rw [howns, hholds]
  exact if_neg (by decide)

theorem kind_of_item (x : Item) :
    (x.func?.isSome ↔ x.type.kind = .function) ∧ (x.global?.isSome ↔ x.type.kind = .global) ∧
      (x.memory?.isSome ↔ x.type.kind = .memory) ∧ (x.table?.isSome ↔ x.type.kind = .table) := by
  cases x <;>
    simp [Item.func?, Item.global?, Item.memory?, Item.table?, Item.type, ExternType.kind]

/-- A search for things of one kind succeeds if there is something, and it is of the kind. -/
theorem isSome_bind_iff {α : Type} {get : Item → Option α} {kind : ExternKind}
    (hget : ∀ x, (get x).isSome ↔ x.type.kind = kind) (found : Option Item) :
    (found.bind get).isSome ↔ (found.map Item.type).map ExternType.kind = some kind := by
  cases found with
  | none => exact iff_of_false Bool.false_ne_true (fun h => by contradiction)
  | some x => exact (hget x).trans (Option.some_inj).symm

/-- Both searches go by the names, which are the same in both lists. -/
theorem finds_of_lists (hlists : i.Lists m)
    (hget : i.get? s name = (i.exports.find? fun e => e.1 == name).map (·.2)) :
    i.Finds s m name := by
  have htyped : (i.get? s name).map Item.type = m.export? name := by
    rw [hget, Module.export?, ← hlists.declared, List.find?_map, Option.map_map, Option.map_map]
    rfl
  have hkind {α : Type} {get : Item → Option α} {kind : ExternKind}
      (h : ∀ x, (get x).isSome ↔ x.type.kind = kind) : ((i.get? s name).bind get).isSome ↔
        (m.export? name).map ExternType.kind = some kind := by
    rw [← htyped]
    exact isSome_bind_iff h _
  refine ⟨?_, htyped, ?_, hkind fun x => (kind_of_item x).1, hkind fun x => (kind_of_item x).2.1,
    hkind fun x => (kind_of_item x).2.2.1, hkind fun x => (kind_of_item x).2.2.2, ?_⟩
  · intro x
    rw [hget]
    exact find?_iff_of_names (names_of_lists hlists)
  · rw [← Option.isSome_map, htyped, Module.export?, Option.isSome_map, List.find?_isSome]
    simp
  · rw [Module.funcType?, ← htyped, Instance.func?]
    cases i.get? s name with
    | none => rfl
    | some x => cases x <;> rfl

end Finding

/-- In every run, an instance lists just what the module that it was made of declares, in that order,
with the same names and types, and a function knows its place in the list; binding one export after
the other leads to this list, and to an index that goes with it. While the store is alive, a name is
looked up by the index, and found if the module declares it, as something of the declared type and
kind; and the thing itself that is in the store is of this type. -/
theorem exports_mirror_module {history : List (Event σ)} {r : Realm σ} (hr : Run history r) {id : Nat}
    {m : Module} {imports : Imports σ} {i : Instance} {state : Option FuncState}
    (he : (⟨.use id (.instantiate m imports), .reply (.ok (.instance i)) state⟩ : Event σ) ∈ history) :
    i.Lists m ∧ ∃ l, let b := Bindings.ofDeclared i.store i.id (m.artifact.exported l) m.exports
      b.bound = i.exports ∧ ∀ s, r.store? id = some s → s.isAlive = true →
        (∀ name, i.get? s name = b.get? name ∧ i.Finds s m name) ∧
          ∀ c, s.contents = some c → ∀ x ∈ i.exports, c.heap.Holds x.2.addr x.2.type := by
  obtain ⟨hm, _, world, hcreated⟩ := made_of_run hr he
  obtain ⟨_, hmodule, l, hexports⟩ := create_made hcreated
  have hvalid := valid_of_run hr m hm
  have hdeclares := declares_of_run hr m hm
  have hlists := lists_of_handles hvalid hdeclares hmodule hexports
  have hissued : Issued history id i.store := ⟨_, he, ⟨_, rfl⟩, List.mem_cons_self⟩
  have hbound := (ofDeclared_handles hvalid.artifact).trans hexports.symm
  rw [← hdeclares] at hbound
  refine ⟨hlists, l, hbound, fun s hs halive => ⟨fun name => ?_, fun c hc x hx => ?_⟩⟩
  · have hfinds := finds_of_lists hlists (get?_of_alive hr hissued hs halive name)
    refine ⟨Option.ext fun x => ?_, hfinds⟩
    have hnames := names_of_lists hlists
    rw [← hbound] at hnames
    rw [hfinds.listed, get?_iff_of_inStep (inStep_ofDeclared _ _ _ _).1 hnames, hbound]
  · have hgiven : x.2.Given history := ⟨i, List.mem_filterMap.mpr ⟨_, he, rfl⟩, x, hx, rfl⟩
    have hstore : x.2.store.id = id := by
      rw [(hlists.named x hx).2, issued_of_run hr id i.store hissued]
    exact (keeps_of_run hr hs hc).holds x.2 hgiven hstore

def grownMemory : Memory := ⟨⟨1, 2⟩, "m", ⟨1, none, false⟩, 0⟩

def grownHistory : List (Event Unit) :=
  memoryHistory ++ [⟨.use 1 (.growMemory grownMemory 2), .reply (.ok (.number 1)) none⟩]

/-- A memory of one page that has grown to three is still found as the one that was declared. -/
theorem grown_as_declared : ∃ (r : Realm Unit) (s : Store Unit), Run grownHistory r ∧
    ⟨.use 1 (.instantiate memoryModule {}), .reply (.ok (.instance memoryInstance)) none⟩ ∈
      grownHistory ∧ r.store? 1 = some s ∧ grownMemory.size s = .ok 3 ∧
      (memoryInstance.get? s "m").map Item.type = some (.memory ⟨1, none, false⟩) ∧
      (memoryInstance.memory? s "m").isSome ∧ ¬ (memoryInstance.func? s "m").isSome := by
  have hgiven : (Item.memory grownMemory).Given memoryHistory :=
    ⟨memoryInstance, List.mem_filterMap.mpr ⟨memoryHistory[4], List.getElem_mem _, rfl⟩,
      ("m", .memory grownMemory), List.mem_cons_self, rfl⟩
  have hgrown : Run grownHistory _ :=
    run_memory_made.request (.use 1 (.growMemory grownMemory 2)) ⟨List.mem_cons_self, hgiven⟩
  have hmember : memoryHistory[4] ∈ grownHistory := List.mem_append_left _ (List.getElem_mem _)
  obtain ⟨_, l, _, hfound⟩ := exports_mirror_module hgrown hmember
  obtain ⟨hnames, _⟩ := hfound _ rfl rfl
  obtain ⟨_, hm⟩ := hnames "m"
  refine ⟨_, _, hgrown, hmember, rfl, rfl, ?_, ?_, ?_⟩
  · rw [hm.typed]
    rfl
  · rw [hm.memory]
    rfl
  · rw [hm.func]
    exact fun h => by contradiction

end WasmEmbed
