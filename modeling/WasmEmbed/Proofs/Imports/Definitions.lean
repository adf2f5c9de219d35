import WasmEmbed.Proofs.Imports.Linking
import Mathlib.Data.Finset.Card

/-! A table of definitions is a map from pairs of names, in which the last definition under a pair is
the one that stands. A call that defines all exports of an instance counts as one definition for each
of them, in order, so that sequences of calls come down to sequences of single definitions. -/
namespace WasmEmbed
variable {σ : Type}

namespace Imports

/-- A call that defines something in a table. -/
inductive Call (σ : Type) where
  | func (module name : String) (f : HostFunc σ)
  | item (module name : String) (x : Item)
  | exports (module : String) (i : Instance)

/-- The table after the call. -/
def call (t : Imports σ) : Call σ → Imports σ
  | .func module name f => t.defineFunc module name f
  | .item module name x => t.define module name x
  | .exports module i => t.defineInstance module i

/-- The table after a sequence of calls, which starts as an empty one. -/
def ofCalls (calls : List (Call σ)) : Imports σ := calls.foldl call {}

/-- What the call defines, and under which pairs of names, in order. -/
def Call.definitions : Call σ → List ((String × String) × Definition σ)
  | .func module name f => [((module, name), .host f)]
  | .item module name x => [((module, name), .item x)]
  | .exports module i => i.exports.map fun e => ((module, e.1), .item e.2)

/-- The table with single definitions set one after the other. -/
def insertAll (t : Imports σ) (ds : List ((String × String) × Definition σ)) : Imports σ :=
  ds.foldl (fun t e => t.insert e.1.1 e.1.2 e.2) t

/-- No two entries stand under one pair. -/
def Keyed (t : Imports σ) : Prop := (t.entries.map Prod.fst).Nodup

/-- Nothing tells the two tables apart: neither looking at them nor linking with them. -/
structure Alike (t u : Imports σ) : Prop where
  get? : ∀ module name, t.get? module name = u.get? module name
  size : t.size = u.size
  isEmpty : t.isEmpty = u.isEmpty
  resolve : ∀ store m, t.resolve store m = u.resolve store m
  create : ∀ s world m, Instance.create s world m t = Instance.create s world m u

end Imports

variable {t u : Imports σ} {ds : List ((String × String) × Definition σ)} {d : Definition σ}
  {module name : String}

section Calls

theorem insertAll_append (t : Imports σ) (ds es : List ((String × String) × Definition σ)) :
    t.insertAll (ds ++ es) = (t.insertAll ds).insertAll es := List.foldl_append

/-- Each call inserts its definitions one by one. -/
theorem call_eq_insertAll (t : Imports σ) (c : Imports.Call σ) :
    t.call c = t.insertAll c.definitions := by
  cases c with
  | func module name f => rfl
  | item module name x => rfl
  | exports module i =>
    unfold Imports.insertAll Imports.Call.definitions
    rw [List.foldl_map]
    rfl

theorem foldl_call (t : Imports σ) (calls : List (Imports.Call σ)) :
    calls.foldl Imports.call t = t.insertAll (calls.flatMap Imports.Call.definitions) := by
  induction calls generalizing t with
  | nil => rfl
  | cons c rest ih =>
    rw [List.foldl_cons, ih, call_eq_insertAll, List.flatMap_cons, insertAll_append]

end Calls

section Lookup

/-- Definitions of other pairs leave what stands under a pair. -/
theorem get?_insertAll_of_forall_ne (t : Imports σ) (h : ∀ e ∈ ds, e.1 ≠ (module, name)) :
    (t.insertAll ds).get? module name = t.get? module name := by
  induction ds generalizing t with
  | nil => rfl
  | cons e rest ih =>
    obtain ⟨he, hrest⟩ := List.forall_mem_cons.mp h
    refine (ih _ hrest).trans ?_
    rw [get?_insert, if_neg fun hsame => he hsame.symm]

/-- Whatever stood in the table before, the last definition under a pair is found there. -/
theorem get?_insertAll_last (t : Imports σ) (before after : List ((String × String) × Definition σ))
    (hafter : ∀ e ∈ after, e.1 ≠ (module, name)) :
    (t.insertAll (before ++ ((module, name), d) :: after)).get? module name = some d := by
  rw [insertAll_append]
  change (((t.insertAll before).insert module name d).insertAll after).get? module name = _
  rw [get?_insertAll_of_forall_ne _ hafter, get?_insert, if_pos rfl]

/-- A pair that is defined at all has a last definition. -/
theorem exists_last_under {α β : Type} {xs : List (α × β)} {k : α} (h : ∃ e ∈ xs, e.1 = k) :
    ∃ before v after, xs = before ++ (k, v) :: after ∧ ∀ e ∈ after, e.1 ≠ k := by
  induction xs with
  | nil =>
    obtain ⟨e, he, _⟩ := h
    exact absurd he List.not_mem_nil
  | cons x rest ih =>
    by_cases hrest : ∃ e ∈ rest, e.1 = k
    · obtain ⟨before, v, after, rfl, hafter⟩ := ih hrest
      exact ⟨x :: before, v, after, rfl, hafter⟩
    · obtain ⟨e, he, rfl⟩ := h
      rcases List.mem_cons.mp he with rfl | he
      · exact ⟨[], e.2, rest, rfl, fun e' he' hk => hrest ⟨e', he', hk⟩⟩
      · exact absurd ⟨e, he, rfl⟩ hrest

theorem get?_insertAll_eq_none_iff :
    (Imports.insertAll {} ds).get? module name = none ↔ ∀ e ∈ ds, e.1 ≠ (module, name) := by
  constructor
  · intro h e he hk
    obtain ⟨before, v, after, rfl, hafter⟩ := exists_last_under ⟨e, he, hk⟩
    rw [get?_insertAll_last _ _ _ hafter] at h
    contradiction
  · intro h
    exact get?_insertAll_of_forall_ne _ h

/-- What is found is the last definition of the pair. -/
theorem get?_insertAll_eq_some_iff :
    (Imports.insertAll {} ds).get? module name = some d ↔
      ∃ before after, ds = before ++ ((module, name), d) :: after ∧
        ∀ e ∈ after, e.1 ≠ (module, name) := by
  constructor
  · intro h
    by_cases hdefined : ∃ e ∈ ds, e.1 = (module, name)
    · obtain ⟨before, v, after, rfl, hafter⟩ := exists_last_under hdefined
      rw [get?_insertAll_last _ _ _ hafter] at h
      exact ⟨before, after, by rw [Option.some.inj h], hafter⟩
    · have hnone := get?_insertAll_eq_none_iff.mpr fun e he hk => hdefined ⟨e, he, hk⟩
      exact nomatch hnone.symm.trans h
  · rintro ⟨before, after, rfl, hafter⟩
    exact get?_insertAll_last _ _ _ hafter

/-- What definitions make of a pair depends on what was there only if they leave it out. A
definition among them hides whatever the tables had. -/
theorem get?_insertAll_congr (h : t.get? module name = u.get? module name ∨
    ∃ e ∈ ds, e.1 = (module, name)) :
    (t.insertAll ds).get? module name = (u.insertAll ds).get? module name := by
  by_cases hdefined : ∃ e ∈ ds, e.1 = (module, name)
  · obtain ⟨before, v, after, rfl, hafter⟩ := exists_last_under hdefined
    rw [get?_insertAll_last _ _ _ hafter, get?_insertAll_last _ _ _ hafter]
  · have hnone : ∀ e ∈ ds, e.1 ≠ (module, name) := fun e he hk => hdefined ⟨e, he, hk⟩
    rw [get?_insertAll_of_forall_ne t hnone, get?_insertAll_of_forall_ne u hnone]
    exact h.resolve_right hdefined

end Lookup

section Keys

/-- Inserting leaves one entry for each pair. -/
theorem insert_keys (t : Imports σ) (module name : String) (d : Definition σ) :
    (t.insert module name d).entries.map Prod.fst =
      (module, name) :: (t.entries.map Prod.fst).filter (· != (module, name)) := by
  rw [Imports.insert, List.map_cons, List.filter_map]
  rfl

theorem keyed_empty : ({} : Imports σ).Keyed := List.nodup_nil

theorem keyed_insert (ht : t.Keyed) (module name : String) (d : Definition σ) :
    (t.insert module name d).Keyed := by
  unfold Imports.Keyed
  rw [insert_keys, List.nodup_cons]
  exact ⟨by simp, ht.filter _⟩

theorem keyed_insertAll (ht : t.Keyed) (ds : List ((String × String) × Definition σ)) :
    (t.insertAll ds).Keyed := by
  induction ds generalizing t with
  | nil => exact ht
  | cons e rest ih => exact ih (keyed_insert ht e.1.1 e.1.2 e.2)

theorem keyed_ofCalls (calls : List (Imports.Call σ)) : (Imports.ofCalls calls).Keyed := by
  unfold Imports.ofCalls
  rw [foldl_call]
  exact keyed_insertAll keyed_empty _

theorem get?_eq_none_iff :
    t.get? module name = none ↔ (module, name) ∉ t.entries.map Prod.fst := by
  rw [Imports.get?, Option.map_eq_none_iff, List.find?_eq_none, List.mem_map]
  constructor
  · rintro h ⟨e, he, hk⟩
    exact h e he (beq_iff_eq.mpr hk)
  · intro h e he hk
    exact h ⟨e, he, beq_iff_eq.mp hk⟩

/-- The entries are as many as the pairs that something stands under. -/
theorem size_eq_card (ht : t.Keyed) {keys : Finset (String × String)}
    (h : ∀ module name, (module, name) ∉ keys ↔ t.get? module name = none) :
    t.size = keys.card := by
  have hkeys : (t.entries.map Prod.fst).toFinset = keys := by
    ext ⟨module, name⟩
    rw [List.mem_toFinset, ← not_iff_not, ← get?_eq_none_iff, h]
  rw [← hkeys, List.toFinset_card_of_nodup ht, List.length_map, Imports.size]

/-- There are as many entries as pairs that were defined. -/
theorem size_insertAll :
    (Imports.insertAll {} ds).size = (ds.map Prod.fst).toFinset.card := by
  refine size_eq_card (keyed_insertAll keyed_empty ds) fun module name => ?_
  rw [get?_insertAll_eq_none_iff, List.mem_toFinset]
  simp only [ne_eq, List.mem_map, not_exists, not_and]

/-- Tables that find the same are of one size. -/
theorem size_congr (ht : t.Keyed) (hu : u.Keyed)
    (h : ∀ module name, t.get? module name = u.get? module name) : t.size = u.size := by
  have hkeys (v : Imports σ) (module name : String) :
      (module, name) ∉ (v.entries.map Prod.fst).toFinset ↔ v.get? module name = none := by
    rw [List.mem_toFinset, get?_eq_none_iff]
  rw [size_eq_card hu (hkeys u)]
  refine size_eq_card ht fun module name => ?_
  rw [hkeys u, h]

/-- Tables in which the same is found under each pair cannot be told apart. -/
theorem alike_of_get? (ht : t.Keyed) (hu : u.Keyed)
    (h : ∀ module name, t.get? module name = u.get? module name) : t.Alike u := by
  have hresolve (store : Nat) (m : Module) : t.resolve store m = u.resolve store m :=
    resolve_congr fun i _ => h i.module i.name
  have hsize : t.size = u.size := size_congr ht hu h
  refine ⟨h, hsize, ?_, hresolve, ?_⟩
  · rw [Bool.eq_iff_iff, Imports.isEmpty, Imports.isEmpty, List.isEmpty_iff_length_eq_zero,
      List.isEmpty_iff_length_eq_zero]
    exact iff_of_eq (congrArg (· = 0) hsize)
  · intro s world m
    unfold Instance.create
    rw [hresolve]

end Keys

/-- Definitions under different pairs may change places. -/
theorem get?_insertAll_swap (t : Imports σ) {ds es : List ((String × String) × Definition σ)}
    (h : ∀ e ∈ ds, ∀ e' ∈ es, e.1 ≠ e'.1) (module name : String) :
    ((t.insertAll ds).insertAll es).get? module name =
      ((t.insertAll es).insertAll ds).get? module name := by
  by_cases hdefined : ∃ e ∈ ds, e.1 = (module, name)
  · -- then the pair is left alone by the others, wherever they stand
    obtain ⟨e, he, hk⟩ := hdefined
    have hothers : ∀ e' ∈ es, e'.1 ≠ (module, name) := fun e' he' hk' =>
      h e he e' he' (hk.trans hk'.symm)
    rw [get?_insertAll_of_forall_ne _ hothers]
    exact get?_insertAll_congr (Or.inr ⟨e, he, hk⟩)
  · have hnone : ∀ e ∈ ds, e.1 ≠ (module, name) := fun e he hk => hdefined ⟨e, he, hk⟩
    rw [get?_insertAll_of_forall_ne _ hnone]
    exact get?_insertAll_congr (Or.inl (get?_insertAll_of_forall_ne t hnone))

/-- Whatever calls made the table, what is found under a pair of names is the last definition under
just that pair, and nothing if there is none. There are as many entries as pairs with definitions. A
call that does not define a pair leaves what is found there, also if it defines one with the same
path; and two calls that have no pair in common may change places anywhere. -/
theorem last_definition_stands (calls : List (Imports.Call σ)) :
    (∀ module name d, (Imports.ofCalls calls).get? module name = some d ↔
      ∃ before after, calls.flatMap Imports.Call.definitions =
        before ++ ((module, name), d) :: after ∧ ∀ e ∈ after, e.1 ≠ (module, name)) ∧
    (∀ module name, (Imports.ofCalls calls).get? module name = none ↔
      ∀ c ∈ calls, ∀ e ∈ c.definitions, e.1 ≠ (module, name)) ∧
    (Imports.ofCalls calls).size =
      ((calls.flatMap Imports.Call.definitions).map Prod.fst).toFinset.card ∧
    (∀ c module name, (∀ e ∈ c.definitions, e.1 ≠ (module, name)) →
      (Imports.ofCalls (calls ++ [c])).get? module name =
        (Imports.ofCalls calls).get? module name) ∧
    ∀ c c' later, (∀ e ∈ c.definitions, ∀ e' ∈ c'.definitions, e.1 ≠ e'.1) →
      (Imports.ofCalls (calls ++ c :: c' :: later)).Alike
        (Imports.ofCalls (calls ++ c' :: c :: later)) := by
  refine ⟨?_, ?_, ?_, ?_, ?_⟩
  · intro module name d
    rw [Imports.ofCalls, foldl_call, get?_insertAll_eq_some_iff]
  · intro module name
    rw [Imports.ofCalls, foldl_call, get?_insertAll_eq_none_iff]
    simp only [List.mem_flatMap, forall_exists_index, and_imp]
    exact ⟨fun h c hc e he => h e c hc he, fun h e c hc he => h c hc e he⟩
  · rw [Imports.ofCalls, foldl_call, size_insertAll]
  · intro c module name h
    rw [Imports.ofCalls, List.foldl_append]
    change ((Imports.ofCalls calls).call c).get? module name = _
    rw [call_eq_insertAll, get?_insertAll_of_forall_ne _ h]
  · intro c c' later h
    refine alike_of_get? (keyed_ofCalls _) (keyed_ofCalls _) fun module name => ?_
    simp only [Imports.ofCalls, foldl_call, List.flatMap_append, List.flatMap_cons,
      insertAll_append]
    exact get?_insertAll_congr (Or.inl (get?_insertAll_swap _ h module name))

/-- Two pairs that print the same path. -/
def homographCalls : List (Imports.Call Unit) :=
  [.func "a::b" "c" ⟨⟨[], []⟩, fun _ world => (.ok [], world)⟩,
    .func "a" "b::c" ⟨⟨[.i32], []⟩, fun _ world => (.ok [], world)⟩]

/-- Of definitions whose pairs print the same path both stand. -/
theorem homographs_both_stand :
    (⟨"a::b", "c", .func ⟨[], []⟩⟩ : ImportType).path =
      (⟨"a", "b::c", .func ⟨[.i32], []⟩⟩ : ImportType).path ∧
    (Imports.ofCalls homographCalls).size = 2 ∧
    ((Imports.ofCalls homographCalls).get? "a::b" "c").map Definition.type =
      some (.func ⟨[], []⟩) ∧
    ((Imports.ofCalls homographCalls).get? "a" "b::c").map Definition.type =
      some (.func ⟨[.i32], []⟩) := by
  obtain ⟨hlast, _, hsize, _⟩ := last_definition_stands homographCalls
  refine ⟨rfl, hsize.trans (by decide), ?_, ?_⟩
  · rw [(hlast "a::b" "c" _).mpr ⟨[], [_], rfl, by decide⟩]
    rfl
  · rw [(hlast "a" "b::c" _).mpr ⟨[_], [], rfl, by decide⟩]
    rfl

end WasmEmbed
