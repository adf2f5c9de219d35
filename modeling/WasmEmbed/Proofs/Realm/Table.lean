import WasmEmbed.Proofs.Cache.Transparency
import WasmEmbed.Proofs.Store.Use
import Mathlib.Data.List.Nodup

/-! Looking up engines and stores by their numbers. To put back a thing that was changed leaves all
others where they are, and so does to add one with a number that is new. -/
namespace WasmEmbed
variable {σ : Type}

section Table
variable {α κ : Type} [DecidableEq κ] (key : α → κ) (y : α) (l : List α)

/-- What stands at a place that is replaced has the number of what comes there. -/
theorem find?_replace {k : κ} (hk : k ≠ key y) :
    (l.map fun x => if key x = key y then y else x).find? (fun x => key x == k) =
      l.find? fun x => key x == k := by
  induction l with
  | nil => rfl
  | cons x rest ih =>
    rw [List.map_cons, List.find?_cons, List.find?_cons, ih]
    by_cases hx : key x = key y
    · have hy : (key y == k) = false := beq_eq_false_iff_ne.mpr hk.symm
      rw [if_pos hx, hx, hy]
    · rw [if_neg hx]

theorem find?_replace_self :
    (l.map fun x => if key x = key y then y else x).find? (fun x => key x == key y) =
      (l.find? fun x => key x == key y).map fun _ => y := by
  induction l with
  | nil => rfl
  | cons x rest ih =>
    rw [List.map_cons, List.find?_cons, List.find?_cons, ih]
    by_cases hx : key x = key y
    · rw [if_pos hx, beq_self_eq_true, beq_iff_eq.mpr hx]
      rfl
    · rw [if_neg hx, beq_eq_false_iff_ne.mpr hx]

theorem map_key_replace : (l.map fun x => if key x = key y then y else x).map key = l.map key := by
  rw [List.map_map]
  refine List.map_congr_left fun x _ => ?_
  rw [Function.comp_apply]
  split
  · rename_i hx
    exact hx.symm
  · rfl

theorem mem_replace {x : α} (hx : x ∈ l.map fun x => if key x = key y then y else x) :
    x = y ∨ x ∈ l ∧ key x ≠ key y := by
  obtain ⟨z, hz, he⟩ := List.mem_map.mp hx
  split at he
  · exact Or.inl he.symm
  · rename_i hne
    rw [← he]
    exact Or.inr ⟨hz, hne⟩

/-- As keys differ, an element is found by its own. -/
theorem find?_of_mem (hn : (l.map key).Nodup) (hy : y ∈ l) :
    l.find? (fun x => key x == key y) = some y := by
  cases hf : l.find? fun x => key x == key y with
  | none =>
    have hne := List.find?_eq_none.mp hf y hy
    rw [beq_self_eq_true] at hne
    contradiction
  | some x =>
    have hx : key x = key y := beq_iff_eq.mp (List.find?_some (p := fun x => key x == key y) hf)
    rw [List.inj_on_of_nodup_map hn (List.mem_of_find?_eq_some hf) hy hx]

/-- Replacing a thing by itself changes nothing where no other has its number. -/
theorem replace_self (hn : (l.map key).Nodup) (hy : y ∈ l) :
    (l.map fun x => if key x = key y then y else x) = l := by
  conv_rhs => rw [← List.map_id l]
  refine List.map_congr_left fun x hx => ?_
  split
  · rename_i he
    exact (List.inj_on_of_nodup_map hn hx hy he).symm
  · rfl

end Table

variable {r : Realm σ} {s t : Store σ} {e f : Engine} {id store : Nat}

theorem store?_eq_some (h : r.store? id = some s) : s ∈ r.stores ∧ s.id = id := by
  have hid := List.find?_some (p := fun s : Store σ => s.id == id) h
  exact ⟨List.mem_of_find?_eq_some h, beq_iff_eq.mp hid⟩

theorem engine?_eq_some (h : r.engine? id = some e) : e ∈ r.engines ∧ e.id = id := by
  have hid := List.find?_some (p := fun e : Engine => e.id == id) h
  exact ⟨List.mem_of_find?_eq_some h, beq_iff_eq.mp hid⟩

theorem store?_setStore_of_ne (h : id ≠ s.id) :
    (r.setStore s).store? id = r.store? id := find?_replace Store.id s r.stores h

theorem store?_setStore (hs : r.store? s.id = some t) : (r.setStore s).store? s.id = some s := by
  have h := find?_replace_self Store.id s r.stores
  rw [Realm.store?] at hs
  rw [hs] at h
  exact h

theorem engine?_setEngine_of_ne (h : id ≠ e.id) :
    (r.setEngine e).engine? id = r.engine? id := find?_replace Engine.id e r.engines h

theorem engine?_setEngine (he : r.engine? e.id = some f) :
    (r.setEngine e).engine? e.id = some e := by
  have h := find?_replace_self Engine.id e r.engines
  rw [Realm.engine?] at he
  rw [he] at h
  exact h

theorem engine?_load (he : r.engine? id = some e) (src : Source) :
    (r.setEngine (src.load e).2).engine? id = some (src.load e).2 := by
  have hid : (src.load e).2.id = id := (engine_alike_load e src).id.trans (engine?_eq_some he).2
  have h := engine?_setEngine (r := r) (e := (src.load e).2) (f := e)
  rw [hid] at h
  exact h he

theorem engine?_clear (he : r.engine? id = some e) :
    (r.setEngine e.clearCache).engine? id = some e.clearCache := by
  have hid : e.clearCache.id = id := (engine?_eq_some he).2
  have h := engine?_setEngine (r := r) (e := e.clearCache) (f := e)
  rw [hid] at h
  exact h he

theorem store?_after (hs : r.store? id = some s) (u : Use σ) :
    (r.after (s.perform r.world u)).store? id = some (s.perform r.world u).store := by
  have hid : (s.perform r.world u).store.id = id :=
    (perform_id s r.world u).trans (store?_eq_some hs).2
  have h := store?_setStore (s := (s.perform r.world u).store) (r := r) (t := s)
  rw [hid] at h
  exact h hs

/-- To use one store leaves another one as it is. -/
theorem store?_after_of_ne (hs : r.store? id = some s) (u : Use σ) (hne : store ≠ id) :
    (r.after (s.perform r.world u)).store? store = r.store? store := by
  refine store?_setStore_of_ne (r := r) (s := (s.perform r.world u).store) ?_
  rw [perform_id, (store?_eq_some hs).2]
  exact hne

theorem store?_drop (r : Realm σ) (id : Nat) : (r.drop id).store? id = none := by
  refine List.find?_eq_none.mpr fun t ht => ?_
  have hne := (List.mem_filter.mp ht).2
  rw [bne_iff_ne] at hne
  rwa [beq_iff_eq]

theorem store?_drop_of_ne (r : Realm σ) (hne : store ≠ id) :
    (r.drop id).store? store = r.store? store := by
  unfold Realm.store? Realm.drop
  rw [List.find?_filter]
  congr 1
  funext t
  by_cases ht : t.id = store
  · simp [ht, hne]
  · simp [ht]

theorem store?_cons_self (r : Realm σ) (s : Store σ) (n : Nat) :
    ({ r with stores := s :: r.stores, next := n } : Realm σ).store? s.id = some s :=
  List.find?_cons_of_pos (beq_self_eq_true s.id)

theorem store?_cons_of_ne {n : Nat} (h : s.id ≠ id) :
    ({ r with stores := s :: r.stores, next := n } : Realm σ).store? id = r.store? id := by
  unfold Realm.store?
  rw [List.find?_cons_of_neg]
  rw [beq_iff_eq]
  exact h

theorem engine?_cons_of_ne {n : Nat} (h : e.id ≠ id) :
    ({ r with engines := e :: r.engines, next := n } : Realm σ).engine? id = r.engine? id := by
  unfold Realm.engine?
  rw [List.find?_cons_of_neg]
  rw [beq_iff_eq]
  exact h

theorem engine_create_ok {config : Config} (h : Engine.create id config = .ok e) :
    e = { id, config } := by
  obtain ⟨c, hc, h⟩ := except_bind_ok h
  unfold Config.validate at hc
  split at hc
  · contradiction
  · rw [← Except.ok.inj h, ← Except.ok.inj hc]

/-- What a store of an engine holds at first. -/
def Contents.ofLimits (e : Engine) (limits : StoreConfig) : Contents σ where
  heap := { limit := limits.maxMemoryBytes }
  fuel := if e.config.consumeFuel then some (limits.fuel.getD maxFuel) else none

theorem store_create_eq {token : Nat} {limits : StoreConfig}
    (h : Store.create id token e limits = .ok s) :
    s = ⟨id, e.id, e.config, some (.ofLimits e limits), some token⟩ := by
  unfold Store.create at h
  split at h
  · contradiction
  · exact (Except.ok.inj h).symm

/-- A store begins without functions. -/
theorem store_create_ok {token : Nat} {limits : StoreConfig}
    (h : Store.create id token e limits = .ok s) :
    ∃ c : Contents σ, c.heap.funcs = #[] ∧ s = ⟨id, e.id, e.config, some c, some token⟩ :=
  ⟨_, rfl, store_create_eq h⟩

end WasmEmbed
