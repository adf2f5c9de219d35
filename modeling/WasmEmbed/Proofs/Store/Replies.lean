import WasmEmbed.Proofs.Store.Stale

/-! What the answers of a store give to the host. An instance comes with handles that know the
store, an export that is looked up is one of an instance, and all other answers name nothing that
could be used. -/
namespace WasmEmbed
variable {σ : Type} {s : Store σ} {world : σ} {reply : Reply}

/-- A reply that names nothing which could be used. -/
def Reply.Plain : Reply → Prop
  | .done | .returns _ | .values _ | .value _ | .number _ | .bytes _ | .metrics _ => True
  | _ => False

theorem plain_of_map {α : Type} {x : Except Error α} {f : α → Reply} (h : x.map f = .ok reply)
    (hf : ∀ a, (f a).Plain) : reply.Plain := by
  cases x with
  | error e => contradiction
  | ok a =>
    rw [← Except.ok.inj h]
    exact hf a

theorem plain_of_update {α : Type} {x : Except Error α} {f : α → Reply} {store : α → Store σ}
    (h : (s.update world (x.map fun a => (f a, store a))).result = .ok reply)
    (hf : ∀ a, (f a).Plain) : reply.Plain := by
  rw [update_result] at h
  exact plain_of_map h hf

theorem store_ofType (ref : StoreRef) (instanceId index : Nat) (name : String) (addr : Nat)
    (t : ExternType) : (Item.ofType ref instanceId index name addr t).store = ref := by
  cases t with
  | func t => rfl
  | global t => rfl
  | memory t => rfl
  | table t => rfl

theorem store_of_mem_handles {ref : StoreRef} {id : Nat} {a : Code.Artifact} {l : Link}
    {x : String × Item} (hx : x ∈ Instance.handles ref id a l) : x.2.store = ref := by
  obtain ⟨i, hi, he⟩ := List.mem_mapIdx.mp hx
  rw [← he]
  exact store_ofType ref id i _ _ _

/-- An instance is of the module that it was made of, and lists handles for what that exports. -/
theorem create_made {m : Module} {imports : Imports σ} {i : Instance}
    (h : (Instance.create s world m imports).result = .ok i) :
    s.ref = .ok i.store ∧ i.module = m ∧
      ∃ l, i.exports = Instance.handles i.store i.id m.artifact l := by
  rcases create_cases s m imports with ⟨e, he⟩ | ⟨ref, c, ds, href, _, _, hb⟩
  · rw [he] at h
    contradiction
  · rw [hb] at h
    unfold Instance.build at h
    dsimp only at h
    split at h
    · contradiction
    · rw [← Except.ok.inj h]
      exact ⟨href, rfl, _, rfl⟩

/-- An instance and its exports know the store in which the instance was made. -/
theorem create_instance {m : Module} {imports : Imports σ} {i : Instance}
    (h : (Instance.create s world m imports).result = .ok i) :
    s.ref = .ok i.store ∧ ∀ x ∈ i.exports, x.2.store = i.store := by
  obtain ⟨href, _, l, hexports⟩ := create_made h
  rw [hexports]
  exact ⟨href, fun x hx => store_of_mem_handles hx⟩

theorem create_of_reply {m : Module} {imports : Imports σ} {i : Instance}
    (h : (s.perform world (.instantiate m imports)).result = .ok (.instance i)) :
    (Instance.create s world m imports).result = .ok i := by
  have hmap : (Instance.create s world m imports).result.map Reply.instance = .ok (.instance i) := h
  cases hcreate : (Instance.create s world m imports).result with
  | error e =>
    rw [hcreate] at hmap
    contradiction
  | ok j =>
    rw [hcreate] at hmap
    rw [Reply.instance.inj (Except.ok.inj hmap)]

theorem reply_cases {u : Use σ} (h : (s.perform world u).result = .ok reply) :
    (∃ i, reply = .instance i ∧ (∃ m imports, u = .instantiate m imports) ∧ s.ref = .ok i.store ∧
        ∀ x ∈ i.exports, x.2.store = i.store) ∨
      (∃ i name, u = .lookup i name ∧ reply = .item (i.get? s name)) ∨ reply.Plain := by
  cases u with
  | instantiate m imports =>
    left
    change ((Instance.create s world m imports).result).map Reply.instance = _ at h
    cases hi : (Instance.create s world m imports).result with
    | error e =>
      rw [hi] at h
      contradiction
    | ok i =>
      rw [hi] at h
      exact ⟨i, (Except.ok.inj h).symm, ⟨m, imports, rfl⟩, create_instance hi⟩
  | lookup i name => exact Or.inr (Or.inl ⟨i, name, rfl, (Except.ok.inj h).symm⟩)
  | setGlobal g value => exact Or.inr (Or.inr (plain_of_update h fun _ => trivial))
  | writeMemory m offset bytes => exact Or.inr (Or.inr (plain_of_update h fun _ => trivial))
  | growMemory m delta => exact Or.inr (Or.inr (plain_of_update h fun _ => trivial))
  | setFuel amount => exact Or.inr (Or.inr (plain_of_update h fun _ => trivial))
  | destroy =>
    rw [← Except.ok.inj h]
    exact Or.inr (Or.inr trivial)
  | _ => exact Or.inr (Or.inr (plain_of_map h fun _ => trivial))

theorem get?_eq_some {i : Instance} {name : String} {x : Item} (h : i.get? s name = some x) :
    i.store.id = s.id ∧ ∃ e ∈ i.exports, e.2 = x := by
  unfold Instance.get? at h
  split at h
  · contradiction
  · rename_i hown
    have howns : s.owns i.store = true := by
      cases ho : s.owns i.store with
      | true => rfl
      | false => exact absurd (Or.inl (by rw [ho]; rfl)) hown
    obtain ⟨e, he, hx⟩ := Option.map_eq_some_iff.mp h
    exact ⟨(owns_iff s i.store).mp howns, e, List.mem_of_find?_eq_some he, hx⟩

end WasmEmbed
