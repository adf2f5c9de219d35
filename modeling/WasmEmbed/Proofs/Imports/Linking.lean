import WasmEmbed.Instance
import Mathlib.Data.List.Basic

/-! Linking is exact. A thing of another store under an imported pair of names outdoes everything
else; then every import that is undefined or of another type is reported, in order; and what is left
is a definition for each import. Nothing but what stands under the imported pairs has a say. -/
namespace WasmEmbed
variable {σ : Type}

namespace Imports

/-- Some import is defined by a thing that lives in another store. -/
def Foreign (t : Imports σ) (store : Nat) (is : List ImportType) : Prop :=
  ∃ i ∈ is, ∃ x : Item, t.get? i.module i.name = some (.item x) ∧ x.store.id ≠ store

/-- The imports that nothing is defined for, in order. -/
def undefined (t : Imports σ) (is : List ImportType) : List ImportType :=
  is.filter fun i => (t.get? i.module i.name).isNone

/-- The imports that are defined with another type, and that type, in order. -/
def mistyped (t : Imports σ) (is : List ImportType) : List (ImportType × ExternType) :=
  is.filterMap fun i => (t.get? i.module i.name).bind fun d =>
    if d.type = i.type then none else some (i, d.type)

/-- The definitions of the type that is imported, in order. -/
def fitting (t : Imports σ) (is : List ImportType) : List (Definition σ) :=
  is.filterMap fun i => (t.get? i.module i.name).bind fun d =>
    if d.type = i.type then some d else none

/-- Each import has a definition of its type. -/
def Satisfies (t : Imports σ) (is : List ImportType) : Prop :=
  ∀ i ∈ is, ∃ d, t.get? i.module i.name = some d ∧ d.type = i.type

end Imports

variable {t u : Imports σ} {store : Nat} {i : ImportType} {is : List ImportType} {d : Definition σ}

/-- Under a pair of names stands what was last defined under just that pair. Entries of other pairs
stay as they were. -/
theorem get?_insert (t : Imports σ) (module name : String) (d : Definition σ) (a b : String) :
    (t.insert module name d).get? a b = if (a, b) = (module, name) then some d else t.get? a b := by
  unfold Imports.get? Imports.insert
  rw [List.find?_cons]
  by_cases h : (a, b) = (module, name)
  · rw [if_pos h, h, beq_self_eq_true]
    rfl
  · have hne : ((module, name) == (a, b)) = false := beq_eq_false_iff_ne.mpr (Ne.symm h)
    rw [if_neg h, hne, List.find?_filter]
    dsimp only
    congr 2
    funext e
    by_cases he : e.1 = (a, b)
    · simp [he, h]
    · simp [he]

/-- A definition stays where nothing else is defined under its name. -/
theorem get?_defineAll_of_not_mem {items : List (String × Item)} (t : Imports σ)
    {module name : String} (hname : name ∉ items.map Prod.fst) :
    (t.defineAll module items).get? module name = t.get? module name := by
  induction items generalizing t with
  | nil => rfl
  | cons e rest ih =>
    obtain ⟨hne, hrest⟩ := List.ne_and_not_mem_of_not_mem_cons hname
    refine (ih (t.define module e.1 e.2) hrest).trans ?_
    rw [Imports.define, get?_insert, if_neg fun h => hne (Prod.mk.inj h).2]

/-- If several things have different names, all of them are defined. -/
theorem get?_defineAll {items : List (String × Item)} (t : Imports σ) (module : String)
    (hnames : (items.map Prod.fst).Nodup) {name : String} {x : Item} (hx : (name, x) ∈ items) :
    (t.defineAll module items).get? module name = some (.item x) := by
  induction items generalizing t with
  | nil => exact absurd hx List.not_mem_nil
  | cons e rest ih =>
    obtain ⟨hnew, hrest⟩ := List.nodup_cons.mp hnames
    rcases List.mem_cons.mp hx with rfl | hx
    · refine (get?_defineAll_of_not_mem (t.define module name x) hnew).trans ?_
      rw [Imports.define, get?_insert, if_pos rfl]
    · exact ih (t.define module e.1 e.2) hrest hx

theorem store?_any_iff (d : Definition σ) (store : Nat) :
    (d.store?.any (· ≠ store)) = true ↔ ∃ x, d = .item x ∧ x.store.id ≠ store := by
  cases d with
  | host f => simp [Definition.store?]
  | item x => simp [Definition.store?]

/-- One import after the other is looked at for its store. -/
theorem foreign_cons :
    t.Foreign store (i :: is) ↔
      (∃ x, t.get? i.module i.name = some (.item x) ∧ x.store.id ≠ store) ∨ t.Foreign store is := by
  unfold Imports.Foreign
  exact List.exists_mem_cons_iff _ i is

/-- A thing of another store ends the search, whatever was found wrong before. -/
theorem search_foreign (h : t.Foreign store is) :
    t.search store is = .error (.storeMismatch "import") := by
  induction is with
  | nil =>
    obtain ⟨i, hi, _⟩ := h
    exact absurd hi List.not_mem_nil
  | cons i rest ih =>
    rw [Imports.search]
    cases hd : t.get? i.module i.name with
    | none =>
      have hrest : t.Foreign store rest := by
        rcases foreign_cons.mp h with ⟨x, hx, _⟩ | hrest
        · rw [hd] at hx
          contradiction
        · exact hrest
      dsimp only
      rw [ih hrest]
      rfl
    | some d =>
      dsimp only
      by_cases hown : (d.store?.any (· ≠ store)) = true
      · exact if_pos hown
      · rw [if_neg hown]
        have hrest : t.Foreign store rest := by
          rcases foreign_cons.mp h with ⟨x, hx, hne⟩ | hrest
          · rw [hd] at hx
            exact absurd ((store?_any_iff d store).mpr ⟨x, Option.some.inj hx, hne⟩) hown
          · exact hrest
        rw [ih hrest]
        rfl

/-- Without things of other stores the search goes to the end, and sorts the imports. -/
theorem search_own (h : ¬ t.Foreign store is) :
    t.search store is = .ok {
      missing := (t.undefined is).map ImportType.path
      mismatched := (t.mistyped is).map fun p => Imports.mismatch p.1 p.2
      found := t.fitting is } := by
  induction is with
  | nil => rfl
  | cons i rest ih =>
    rw [foreign_cons, not_or] at h
    obtain ⟨hown, hrest⟩ := h
    rw [Imports.search]
    unfold Imports.undefined Imports.mistyped Imports.fitting at ih ⊢
    rw [List.filter_cons, List.filterMap_cons, List.filterMap_cons]
    cases hd : t.get? i.module i.name with
    | none =>
      dsimp only
      rw [ih hrest]
      rfl
    | some d =>
      have hstore : ¬ (d.store?.any (· ≠ store)) = true := by
        intro hany
        obtain ⟨x, hx, hne⟩ := (store?_any_iff d store).mp hany
        rw [hx] at hd
        exact hown ⟨x, hd, hne⟩
      dsimp only
      rw [if_neg hstore, ih hrest]
      by_cases htype : d.type = i.type
      · simp only [htype, if_true, Option.bind_some, Option.isNone_some]
        rfl
      · simp only [htype, if_false, Option.bind_some, Option.isNone_some]
        rfl

theorem undefined_eq_nil_iff :
    t.undefined is = [] ↔ ∀ i ∈ is, ∃ d, t.get? i.module i.name = some d := by
  rw [Imports.undefined, List.filter_eq_nil_iff]
  refine forall₂_congr fun i _ => ?_
  rw [Option.isNone_iff_eq_none, ← ne_eq, Option.ne_none_iff_exists']

theorem mistyped_eq_nil_iff :
    t.mistyped is = [] ↔ ∀ i ∈ is, ∀ d, t.get? i.module i.name = some d → d.type = i.type := by
  rw [Imports.mistyped, List.filterMap_eq_nil_iff]
  refine forall₂_congr fun i _ => ?_
  rw [Option.bind_eq_none_iff]
  refine forall₂_congr fun d _ => ?_
  by_cases htype : d.type = i.type
  · simp [htype]
  · simp [htype]

/-- No complaint is left exactly if every import is satisfied. -/
theorem satisfies_iff : t.Satisfies is ↔ t.undefined is = [] ∧ t.mistyped is = [] := by
  rw [undefined_eq_nil_iff, mistyped_eq_nil_iff]
  constructor
  · intro h
    constructor
    · intro i hi
      obtain ⟨d, hd, _⟩ := h i hi
      exact ⟨d, hd⟩
    · intro i hi d hd
      obtain ⟨d', hd', htype⟩ := h i hi
      rw [hd] at hd'
      rw [Option.some.inj hd']
      exact htype
  · rintro ⟨hdefined, htyped⟩ i hi
    obtain ⟨d, hd⟩ := hdefined i hi
    exact ⟨d, hd, htyped i hi d hd⟩

/-- Of satisfied imports, what fits at each place is what stands under the import there. -/
theorem fitting_of_satisfies (h : t.Satisfies is) :
    (t.fitting is).length = is.length ∧
      ∀ (k : Nat) (i : ImportType), is[k]? = some i →
        (t.fitting is)[k]? = t.get? i.module i.name := by
  induction is with
  | nil =>
    refine ⟨rfl, fun k i hk => ?_⟩
    rw [List.getElem?_nil] at hk
    contradiction
  | cons i rest ih =>
    have hrest : t.Satisfies rest := fun j hj => h j (List.mem_cons_of_mem i hj)
    obtain ⟨hlength, hitems⟩ := ih hrest
    obtain ⟨d, hd, htype⟩ := h i List.mem_cons_self
    have hfirst : t.fitting (i :: rest) = d :: t.fitting rest := by
      rw [Imports.fitting, List.filterMap_cons, hd, Option.bind_some, if_pos htype]
      rfl
    rw [hfirst]
    refine ⟨congrArg Nat.succ hlength, ?_⟩
    rintro (_ | k) j hk
    · rw [List.getElem?_cons_zero] at hk ⊢
      rw [← Option.some.inj hk, hd]
    · rw [List.getElem?_cons_succ] at hk ⊢
      exact hitems k j hk

theorem mem_of_get? {module name : String} (h : t.get? module name = some d) :
    ∃ e ∈ t.entries, e.2 = d := by
  obtain ⟨e, he, hd⟩ := Option.map_eq_some_iff.mp h
  exact ⟨e, List.mem_of_find?_eq_some he, hd⟩

/-- What fits is what stands under the names of an import, with its type. -/
theorem mem_fitting_iff :
    d ∈ t.fitting is ↔ ∃ i ∈ is, t.get? i.module i.name = some d ∧ d.type = i.type := by
  rw [Imports.fitting, List.mem_filterMap]
  refine exists_congr fun i => and_congr_right fun _ => ?_
  rw [Option.bind_eq_some_iff]
  constructor
  · rintro ⟨d', hd', hfit⟩
    split at hfit
    · rename_i htype
      rw [← Option.some.inj hfit]
      exact ⟨hd', htype⟩
    · contradiction
  · rintro ⟨hd, htype⟩
    exact ⟨d, hd, if_pos htype⟩

/-- Places determine a list of definitions that is as long as the imports. -/
theorem eq_fitting (h : t.Satisfies is) {ds : List (Definition σ)} (hlength : ds.length = is.length)
    (hitems : ∀ (k : Nat) (i : ImportType), is[k]? = some i → ds[k]? = t.get? i.module i.name) :
    ds = t.fitting is := by
  obtain ⟨hlength', hitems'⟩ := fitting_of_satisfies h
  apply List.ext_getElem?
  intro k
  cases hk : is[k]? with
  | some i => rw [hitems k i hk, hitems' k i hk]
  | none =>
    have hle := List.getElem?_eq_none_iff.mp hk
    rw [List.getElem?_eq_none (hlength ▸ hle), List.getElem?_eq_none (hlength' ▸ hle)]

instance (t : Imports σ) (is : List ImportType) : Decidable (t.Satisfies is) :=
  decidable_of_iff (t.undefined is = [] ∧ t.mistyped is = []) satisfies_iff.symm

section Resolve
variable {m : Module}

theorem complaints_isEmpty_iff :
    ((t.undefined is).map ImportType.path).isEmpty = true ∧
      ((t.mistyped is).map fun p => Imports.mismatch p.1 p.2).isEmpty = true ↔ t.Satisfies is := by
  rw [List.isEmpty_iff, List.isEmpty_iff, List.map_eq_nil_iff, List.map_eq_nil_iff, satisfies_iff]

/-- The three ways in which linking ends, each of which excludes those before it. -/
theorem resolve_cases (t : Imports σ) (store : Nat) (m : Module) :
    (t.Foreign store m.imports ∧ t.resolve store m = .error (.storeMismatch "import")) ∨
      (¬ t.Foreign store m.imports ∧ ¬ t.Satisfies m.imports ∧
        t.resolve store m = .error (.link ((t.undefined m.imports).map ImportType.path)
          ((t.mistyped m.imports).map fun p => Imports.mismatch p.1 p.2))) ∨
      (¬ t.Foreign store m.imports ∧ t.Satisfies m.imports ∧
        t.resolve store m = .ok (t.fitting m.imports)) := by
  by_cases hforeign : t.Foreign store m.imports
  · left
    rw [Imports.resolve, search_foreign hforeign]
    exact ⟨hforeign, rfl⟩
  · right
    by_cases hs : t.Satisfies m.imports
    · right
      rw [Imports.resolve, search_own hforeign]
      exact ⟨hforeign, hs, if_pos (complaints_isEmpty_iff.mpr hs)⟩
    · left
      rw [Imports.resolve, search_own hforeign]
      exact ⟨hforeign, hs, if_neg (mt complaints_isEmpty_iff.mp hs)⟩

theorem resolve_fitting {ds : List (Definition σ)} (h : t.resolve store m = .ok ds) :
    ¬ t.Foreign store m.imports ∧ t.Satisfies m.imports ∧ ds = t.fitting m.imports := by
  rcases resolve_cases t store m with ⟨_, hres⟩ | ⟨_, _, hres⟩ | ⟨hown, hs, hres⟩
  · exact nomatch h.symm.trans hres
  · exact nomatch h.symm.trans hres
  · exact ⟨hown, hs, Except.ok.inj (h.symm.trans hres)⟩

/-- A definition of another store is told, whatever else is wrong. -/
theorem resolve_foreign_iff :
    t.resolve store m = .error (.storeMismatch "import") ↔ t.Foreign store m.imports := by
  rcases resolve_cases t store m with ⟨hf, h⟩ | ⟨hf, _, h⟩ | ⟨hf, _, h⟩
  · exact ⟨fun _ => hf, fun _ => h⟩
  · rw [h]
    refine ⟨fun he => ?_, fun hforeign => absurd hforeign hf⟩
    have herror := Except.error.inj he
    contradiction
  · rw [h]
    exact ⟨fun he => by contradiction, fun hforeign => absurd hforeign hf⟩

/-- What is missing and what has another type is told all at once, in the order of the imports. -/
theorem resolve_link_iff {missing mismatched : List String} :
    t.resolve store m = .error (.link missing mismatched) ↔
      ¬ t.Foreign store m.imports ∧ ¬ t.Satisfies m.imports ∧
        missing = (t.undefined m.imports).map ImportType.path ∧
        mismatched = (t.mistyped m.imports).map fun p => Imports.mismatch p.1 p.2 := by
  rcases resolve_cases t store m with ⟨hf, h⟩ | ⟨hf, hs, h⟩ | ⟨hf, hs, h⟩
  · rw [h]
    refine ⟨fun he => ?_, fun hown => absurd hf hown.1⟩
    have herror := Except.error.inj he
    contradiction
  · rw [h]
    constructor
    · intro he
      obtain ⟨hmissing, hmismatched⟩ := Error.link.inj (Except.error.inj he)
      exact ⟨hf, hs, hmissing.symm, hmismatched.symm⟩
    · rintro ⟨_, _, rfl, rfl⟩
      rfl
  · rw [h]
    exact ⟨fun he => by contradiction, fun hunsatisfied => absurd hs hunsatisfied.2.1⟩

/-- Linking succeeds with the definitions that stand under the names of the imports, one for each.
-/
theorem resolve_ok_iff {ds : List (Definition σ)} :
    t.resolve store m = .ok ds ↔
      ¬ t.Foreign store m.imports ∧ t.Satisfies m.imports ∧ ds.length = m.imports.length ∧
        ∀ (k : Nat) (i : ImportType), m.imports[k]? = some i →
          ds[k]? = t.get? i.module i.name := by
  rcases resolve_cases t store m with ⟨hf, h⟩ | ⟨hf, hs, h⟩ | ⟨hf, hs, h⟩
  · rw [h]
    exact ⟨fun he => by contradiction, fun hown => absurd hf hown.1⟩
  · rw [h]
    exact ⟨fun he => by contradiction, fun hsatisfied => absurd hsatisfied.2.1 hs⟩
  · rw [h]
    constructor
    · intro hok
      obtain ⟨hlength, hitems⟩ := fitting_of_satisfies hs
      rw [← Except.ok.inj hok]
      exact ⟨hf, hs, hlength, hitems⟩
    · rintro ⟨_, _, hlength, hitems⟩
      rw [eq_fitting hs hlength hitems]

/-- Linking reads nothing but what stands under the names of the imports. -/
theorem search_congr (h : ∀ i ∈ is, u.get? i.module i.name = t.get? i.module i.name) :
    u.search store is = t.search store is := by
  induction is with
  | nil => rfl
  | cons i rest ih =>
    have hrest : u.search store rest = t.search store rest :=
      ih fun j hj => h j (List.mem_cons_of_mem i hj)
    rw [Imports.search, Imports.search, h i List.mem_cons_self, hrest]

/-- Only what stands under the imported pairs has a say. -/
theorem resolve_congr
    (h : ∀ i ∈ m.imports, u.get? i.module i.name = t.get? i.module i.name) :
    u.resolve store m = t.resolve store m := by
  rw [Imports.resolve, Imports.resolve, search_congr h]

/-- Definitions under other names do not matter. -/
theorem resolve_insert {module name : String}
    (h : ∀ i ∈ m.imports, (i.module, i.name) ≠ (module, name)) (d : Definition σ) :
    (t.insert module name d).resolve store m = t.resolve store m := by
  apply resolve_congr
  intro i hi
  rw [get?_insert, if_neg (h i hi)]

/-- In a live store of the module's engine, making an instance goes as far as linking does. -/
theorem create_of_resolve {s : Store σ} {ref : StoreRef} {c : Contents σ} (href : s.ref = .ok ref)
    (hc : s.contents = some c) (hm : m.engine = s.engine) (t : Imports σ) (world : σ) :
    (∀ e, t.resolve s.id m = .error e → Instance.create s world m t = ⟨.error e, s, world⟩) ∧
      ∀ ds, t.resolve s.id m = .ok ds →
        Instance.create s world m t = Instance.build s ref c world m ds := by
  have hlive : s.live = .ok c := by rw [Store.live, hc]
  constructor
  · intro e he
    simp only [Instance.create, href, hm, ne_eq, not_true, if_false, he]
  · intro ds hds
    simp only [Instance.create, href, hm, ne_eq, not_true, if_false, hds, hlive]

/-- Linking a module in a live store of its engine is refused for a thing of another store exactly
if one is defined under an imported pair of names, else fails exactly if some import is not
satisfied, and tells in order which are undefined and which are of another type; else it gives the
definition of each import at its place, and the instance is made with these. A definition under any
other pair makes no difference, even if both pairs have the same path. -/
theorem linking_exact {s : Store σ} {ref : StoreRef} {c : Contents σ} (href : s.ref = .ok ref)
    (hc : s.contents = some c) (hm : m.engine = s.engine) (t : Imports σ) :
    (t.resolve s.id m = .error (.storeMismatch "import") ↔ t.Foreign s.id m.imports) ∧
      (∀ missing mismatched, t.resolve s.id m = .error (.link missing mismatched) ↔
        ¬ t.Foreign s.id m.imports ∧ ¬ t.Satisfies m.imports ∧
          missing = (t.undefined m.imports).map ImportType.path ∧
          mismatched = (t.mistyped m.imports).map fun p => Imports.mismatch p.1 p.2) ∧
      (∀ ds, t.resolve s.id m = .ok ds ↔
        ¬ t.Foreign s.id m.imports ∧ t.Satisfies m.imports ∧ ds.length = m.imports.length ∧
          ∀ (k : Nat) (i : ImportType), m.imports[k]? = some i →
            ds[k]? = t.get? i.module i.name) ∧
      (∀ world e, t.resolve s.id m = .error e →
        Instance.create s world m t = ⟨.error e, s, world⟩) ∧
      (∀ world ds, t.resolve s.id m = .ok ds →
        Instance.create s world m t = Instance.build s ref c world m ds) ∧
      (∀ u : Imports σ, (∀ i ∈ m.imports, u.get? i.module i.name = t.get? i.module i.name) →
        u.resolve s.id m = t.resolve s.id m) ∧
      ∀ module name d,
        (∀ a b, (t.insert module name d).get? a b =
          if (a, b) = (module, name) then some d else t.get? a b) ∧
        ((∀ i ∈ m.imports, (i.module, i.name) ≠ (module, name)) →
          (t.insert module name d).resolve s.id m = t.resolve s.id m) := by
  refine ⟨resolve_foreign_iff, fun _ _ => resolve_link_iff, fun _ => resolve_ok_iff, ?_, ?_,
    fun _ => resolve_congr, ?_⟩
  · intro world
    exact (create_of_resolve href hc hm t world).1
  · intro world
    exact (create_of_resolve href hc hm t world).2
  · intro module name d
    exact ⟨get?_insert t module name d, fun h => resolve_insert h d⟩

end Resolve

/-- A module with two imports of the same path. -/
def twinModule : Module where
  engine := 0
  artifact := { types := [⟨[], []⟩, ⟨[.i32], []⟩],
                imports := [⟨"a", "b::c", .func 0⟩, ⟨"a::b", "c", .func 1⟩] }
  exports := []
  imports := [⟨"a", "b::c", .func ⟨[], []⟩⟩, ⟨"a::b", "c", .func ⟨[.i32], []⟩⟩]
  contentHash := ""

/-- A table with a definition for one of them, of the type of the other. -/
def twinImports : Imports Unit :=
  Imports.insert {} "a::b" "c" (.host ⟨⟨[], []⟩, fun _ world => (.ok [], world)⟩)

/-- Of two imports with the same path, the one that is defined is of another type, and the other one
is missing. -/
theorem twins_not_confused : twinImports.resolve 1 twinModule =
    .error (.link ["a::b::c"]
      ["a::b::c (expected function (i32) -> (), found function () -> ())"]) := by
  let s : Store Unit := ⟨1, 0, {}, some { heap := { limit := none }, fuel := none }, some 2⟩
  obtain ⟨_, hlink, _⟩ := linking_exact (s := s) (m := twinModule) rfl rfl rfl twinImports
  refine (hlink _ _).mpr ⟨?_, by decide, by decide, by decide⟩
  rintro ⟨i, hi, x, hx, _⟩
  rcases hi with _ | ⟨_, _ | ⟨_, hi⟩⟩
  · contradiction
  · have hdefined := (Option.some.inj hx : Definition.host _ = .item x)
    contradiction
  · contradiction

end WasmEmbed
