import Mathlib.Data.List.Nodup
import WasmEmbed.Proofs.Instance.Exports
import WasmEmbed.Proofs.Realm.Table

/-! How the exports of an instance are bound. One export after the other that the module declares is
looked up in the back end by its name; what is there joins a list, and its place in the list is kept
under its name. The back end may leave some out, so a place in the list need not be a place among
the declared exports, but of a module that was validated nothing is ever left out. -/
namespace WasmEmbed
open WasmEmbed.Code

/-- What the back end has under the name of an export: a thing of a kind, by its address. -/
abbrev Exported := String → Option (ExternKind × Nat)

/-- The exports that an instance of a module has in the back end. -/
def Code.Artifact.exported (a : Artifact) (l : Link) : Exported := fun name =>
  (a.exports.find? fun e => e.name == name).map fun e => (e.kind, l.addr e.kind e.index)

/-- Exports that are bound, and the place of each by its name, the latest first. -/
structure Bindings where
  bound : List (String × Item) := []
  places : List (String × Nat) := []

namespace Bindings

def add (b : Bindings) (name : String) (x : Item) : Bindings :=
  ⟨b.bound ++ [(name, x)], (name, b.bound.length) :: b.places⟩

/-- What is bound under a name, by way of its place. -/
def get? (b : Bindings) (name : String) : Option Item :=
  (b.places.lookup name).bind fun k => b.bound[k]?.map (·.2)

end Bindings

/-- The handle for an export that is declared at a place, if what the back end has under its name is
of the kind that is declared. -/
def ExportType.bind? (e : ExportType) (store : StoreRef) (id : Nat) (found : Exported)
    (place : Nat) : Option Item :=
  match found e.name with
  | some (kind, addr) =>
    if kind = e.type.kind then some (.ofType store id place e.name addr e.type) else none
  | none => none

namespace Bindings

/-- The round of one declared export. What the back end has not is left out. -/
def round (store : StoreRef) (id : Nat) (found : Exported) (b : Bindings) (e : ExportType × Nat) :
    Bindings :=
  match e.1.bind? store id found e.2 with
  | some x => b.add e.1.name x
  | none => b

/-- Binds what a module declares, one export after the other. -/
def ofDeclared (store : StoreRef) (id : Nat) (found : Exported) (declared : List ExportType) :
    Bindings :=
  declared.zipIdx.foldl (round store id found) {}

end Bindings

/-- Every place that is kept is that of the export with the name, and every export has its place. -/
def Bindings.InStep (b : Bindings) : Prop := b.places = (b.bound.mapIdx fun k x => (x.1, k)).reverse

variable {b : Bindings} {store : StoreRef} {id : Nat} {found : Exported} {name : String} {x : Item}

section Step

theorem inStep_add (hb : b.InStep) (name : String) (x : Item) : (b.add name x).InStep := by
  unfold Bindings.InStep at hb ⊢
  rw [Bindings.add, List.mapIdx_concat, List.reverse_concat, hb]

/-- One round of the loop adds the export to both, or to neither. -/
theorem inStep_round (hb : b.InStep) (e : ExportType × Nat) :
    (b.round store id found e).InStep ∧ (b.round store id found e).bound =
      b.bound ++ ((e.1.bind? store id found e.2).map fun x => (e.1.name, x)).toList := by
  unfold Bindings.round
  cases e.1.bind? store id found e.2 with
  | none => exact ⟨hb, (List.append_nil b.bound).symm⟩
  | some x => exact ⟨inStep_add hb e.1.name x, rfl⟩

/-- The whole loop adds the exports that are found, in their order, to both. -/
theorem inStep_rounds (hb : b.InStep) (es : List (ExportType × Nat)) :
    (es.foldl (Bindings.round store id found) b).InStep ∧
      (es.foldl (Bindings.round store id found) b).bound = b.bound ++ es.filterMap fun e =>
        (e.1.bind? store id found e.2).map fun x => (e.1.name, x) := by
  induction es generalizing b with
  | nil => exact ⟨hb, (List.append_nil b.bound).symm⟩
  | cons e rest ih =>
    obtain ⟨hstep, hbound⟩ : (b.round store id found e).InStep ∧ _ := inStep_round hb e
    obtain ⟨hrest, hall⟩ := ih hstep
    refine ⟨hrest, ?_⟩
    rw [List.foldl_cons, hall, hbound, List.append_assoc, List.filterMap_cons]
    cases e.1.bind? store id found e.2 with
    | none => rfl
    | some x => rfl

/-- Whatever the back end has, the places stay in step with the list, and the list has just what
could be bound, in the order in which it was declared. -/
theorem inStep_ofDeclared (store : StoreRef) (id : Nat) (found : Exported)
    (declared : List ExportType) : (Bindings.ofDeclared store id found declared).InStep ∧
      (Bindings.ofDeclared store id found declared).bound =
        declared.zipIdx.filterMap fun e =>
          (e.1.bind? store id found e.2).map fun x => (e.1.name, x) :=
  inStep_rounds (b := {}) rfl declared.zipIdx

/-- A place that the names lead to has the export of that name. -/
theorem bound_of_place (hb : b.InStep) {k : Nat} (hk : b.places.lookup name = some k) :
    ∃ x, b.bound[k]? = some (name, x) := by
  obtain ⟨later, earlier, hplaces, _⟩ := List.lookup_eq_some_iff.mp hk
  have hmem : (name, k) ∈ b.places := hplaces ▸ List.mem_append_right later List.mem_cons_self
  rw [hb, List.mem_reverse] at hmem
  obtain ⟨j, hj, he⟩ := List.mem_mapIdx.mp hmem
  obtain ⟨rfl, rfl⟩ := Prod.mk.inj he
  exact ⟨_, List.getElem?_eq_getElem hj⟩

/-- Every export is found by its name. -/
theorem place_of_bound (hb : b.InStep) (hx : (name, x) ∈ b.bound) :
    ∃ k, b.places.lookup name = some k := by
  obtain ⟨j, hj, he⟩ := List.getElem_of_mem hx
  have hmem : (name, j) ∈ b.places := by
    rw [hb, List.mem_reverse]
    exact List.mem_mapIdx.mpr ⟨j, hj, by rw [he]⟩
  cases hk : b.places.lookup name with
  | some k => exact ⟨k, rfl⟩
  | none =>
    have hne := List.lookup_eq_none_iff.mp hk _ hmem
    exact absurd rfl (bne_iff_ne.mp hne)

/-- Where names are all different, looking one up gives what is listed under it. -/
theorem get?_iff_of_inStep (hb : b.InStep) (hnames : (b.bound.map (·.1)).Nodup) :
    b.get? name = some x ↔ (name, x) ∈ b.bound := by
  unfold Bindings.get?
  constructor
  · intro h
    obtain ⟨k, hk, hx⟩ := Option.bind_eq_some_iff.mp h
    obtain ⟨y, hy⟩ := bound_of_place hb hk
    rw [hy] at hx
    rw [← Option.some.inj hx]
    exact List.mem_of_getElem? hy
  · intro hx
    obtain ⟨k, hk⟩ := place_of_bound hb hx
    obtain ⟨y, hy⟩ := bound_of_place hb hk
    have hsame : (name, y) = (name, x) :=
      List.inj_on_of_nodup_map hnames (List.mem_of_getElem? hy) hx rfl
    rw [hk, Option.bind_some, hy, hsame]
    rfl

end Step

section Search
variable {l : List (String × Item)}

/-- So does going through the list. -/
theorem find?_iff_of_names (hnames : (l.map (·.1)).Nodup) :
    (l.find? fun e => e.1 == name).map (·.2) = some x ↔ (name, x) ∈ l := by
  constructor
  · intro h
    obtain ⟨e, he, rfl⟩ := Option.map_eq_some_iff.mp h
    have hname := List.find?_some (p := fun e : String × Item => e.1 == name) he
    rw [← beq_iff_eq.mp hname]
    exact List.mem_of_find?_eq_some he
  · intro hx
    have hfound := find?_of_mem Prod.fst (name, x) l hnames hx
    rw [hfound]
    rfl

end Search

section Valid
variable {a : Artifact} {l : Link}

theorem handles_getElem? (k : Nat) :
    (Instance.handles store id a l)[k]? = a.exports[k]?.map fun e => (e.name,
      .ofType store id k e.name (l.addr e.kind e.index) (a.externType e.kind e.index)) :=
  List.getElem?_mapIdx

/-- The handles are listed as the module declares its exports, by the same names and types. -/
theorem handles_declared (store : StoreRef) (id : Nat) (a : Artifact) (l : Link) :
    (Instance.handles store id a l).map (fun x => (⟨x.1, x.2.type⟩ : ExportType)) =
      a.exportTypes := by
  refine List.ext_getElem? fun k => ?_
  rw [List.getElem?_map, handles_getElem?, Artifact.exportTypes, List.getElem?_map,
    Option.map_map]
  congr 1
  funext e
  exact congrArg _ (Item.type_ofType _ _ _ _ _ _)

theorem kind_externType (a : Artifact) (kind : ExternKind) (i : Nat) :
    (a.externType kind i).kind = kind := by
  cases kind with
  | function => rfl
  | memory => rfl
  | global => rfl
  | table => rfl

/-- Of a module that was validated, every export is bound. -/
theorem bind?_declared (hvalid : a.Valid) {e : Code.Export} (he : e ∈ a.exports) (k : Nat) :
    (ExportType.mk e.name (a.externType e.kind e.index)).bind? store id (a.exported l) k =
      some (.ofType store id k e.name (l.addr e.kind e.index) (a.externType e.kind e.index)) := by
  have hfound : a.exported l e.name = some (e.kind, l.addr e.kind e.index) := by
    unfold Artifact.exported
    rw [find?_of_mem Code.Export.name e a.exports hvalid.names he]
    rfl
  unfold ExportType.bind?
  rw [hfound]
  exact if_pos (kind_externType a e.kind e.index).symm

/-- So the table of the instance is the one that is bound, export after export. -/
theorem ofDeclared_handles (hvalid : a.Valid) :
    (Bindings.ofDeclared store id (a.exported l) a.exportTypes).bound =
      Instance.handles store id a l := by
  rw [(inStep_ofDeclared _ _ _ _).2, Artifact.exportTypes, List.zipIdx_map, List.filterMap_map,
    Instance.handles, List.mapIdx_eq_zipIdx_map, ← List.filterMap_eq_map]
  refine List.filterMap_congr fun e he => ?_
  have hmem := List.mem_of_getElem? (List.mem_zipIdx_iff_getElem?.mp he)
  rw [Function.comp_apply, Function.comp_apply]
  exact congrArg _ (bind?_declared hvalid hmem e.2)

end Valid

end WasmEmbed
