import WasmEmbed.Request

/-! Who may use what lives in a store: the store that a thing knows, as long as it has contents. -/
namespace WasmEmbed
variable {σ : Type} {s : Store σ} {owner : StoreRef}

theorem owns_iff (s : Store σ) (owner : StoreRef) : s.owns owner = true ↔ owner.id = s.id := by
  rw [Store.owns, beq_iff_eq]

theorem holds_iff (s : Store σ) (token : Nat) : s.holds token = true ↔ s.token = some token := by
  rw [Store.holds, beq_iff_eq]

theorem isAlive_iff (s : Store σ) : s.isAlive = true ↔ ∃ c, s.contents = some c := by
  rw [Store.isAlive, Option.isSome_iff_exists]

theorem isAlive_eq_false_iff (s : Store σ) : s.isAlive = false ↔ s.contents = none := by
  rw [Store.isAlive, Option.isSome_eq_false_iff, Option.isNone_iff_eq_none]

theorem contentsFor_foreign (h : owner.id ≠ s.id) (what : String) :
    s.contentsFor owner what = .error (.storeMismatch what) := by
  have hn : s.owns owner = false := by
    rw [Store.owns, beq_eq_false_iff_ne]
    exact h
  rw [Store.contentsFor, hn]
  rfl

theorem contentsFor_own (h : owner.id = s.id) (what : String) :
    s.contentsFor owner what =
      match s.contents with
      | some c => .ok c
      | none => .error (.useAfterFree what) := by
  rw [Store.contentsFor, (owns_iff s owner).mpr h]
  rfl

theorem contentsFor_destroyed (h : owner.id = s.id) (hc : s.contents = none) (what : String) :
    s.contentsFor owner what = .error (.useAfterFree what) := by
  rw [contentsFor_own h, hc]

theorem contentsFor_live {c : Contents σ} (h : owner.id = s.id) (hc : s.contents = some c)
    (what : String) : s.contentsFor owner what = .ok c := by
  rw [contentsFor_own h, hc]

theorem live_of_contents {c : Contents σ} (hc : s.contents = some c) : s.live = .ok c := by
  rw [Store.live, hc]

theorem find_live {c : Contents σ} {x : Memory} {o : MemoryObj c.heap.limit}
    (hstore : x.store.id = s.id) (hc : s.contents = some c)
    (ho : c.heap.memories[x.addr]? = some o) : x.find s = .ok ⟨c, some o⟩ := by
  rw [Memory.find, contentsFor_live hstore hc, ← ho]
  rfl

section Updates
variable {α : Type} {x : Except Error α} {f : α → Reply × Store σ}

/-- What changes the store if it succeeds leaves it as it is if it does not. -/
theorem update_refused {e : Error} (h : x = .error e) (world : σ) :
    s.update world (x.map f) = ⟨.error e, none, s, world⟩ := by
  rw [h]
  rfl

theorem update_done {a : α} (h : x = .ok a) (world : σ) :
    s.update world (x.map f) = ⟨.ok (f a).1, none, (f a).2, world⟩ := by
  rw [h]
  rfl

end Updates

/-- The three answers to the use of a thing, foreign before destroyed. -/
theorem contentsFor_cases (s : Store σ) (owner : StoreRef) (what : String) :
    (owner.id ≠ s.id ∧ s.contentsFor owner what = .error (.storeMismatch what)) ∨
      (owner.id = s.id ∧ s.contents = none ∧
        s.contentsFor owner what = .error (.useAfterFree what)) ∨
      ∃ c, owner.id = s.id ∧ s.contents = some c ∧ s.contentsFor owner what = .ok c := by
  by_cases h : owner.id = s.id
  · cases hc : s.contents with
    | none => exact Or.inr (Or.inl ⟨h, rfl, contentsFor_destroyed h hc what⟩)
    | some c => exact Or.inr (Or.inr ⟨c, h, rfl, contentsFor_live h hc what⟩)
  · exact Or.inl ⟨h, contentsFor_foreign h what⟩

end WasmEmbed
