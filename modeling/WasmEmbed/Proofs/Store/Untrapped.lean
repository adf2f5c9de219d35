import WasmEmbed.Proofs.Store.Spending
import WasmEmbed.Proofs.Store.Stale

/-! Traps come from executing code alone: what only looks at the things of a store, or writes to
them, fails in other ways. -/
namespace WasmEmbed
variable {σ : Type} {u : Use σ}

section Steps
variable {α β : Type} {p : Error → Bool} {x : Except Error α}

/-- Two steps do not fail in a way in which neither does. -/
theorem failsBy_bind {f : α → Except Error β} (hx : failsBy p x = false)
    (hf : ∀ a, failsBy p (f a) = false) : failsBy p (x >>= f) = false := by
  cases x with
  | error e => exact hx
  | ok a => exact hf a

end Steps

/-- A store that is not there is told by other errors than traps. -/
theorem untrapped_contentsFor (s : Store σ) (owner : StoreRef) (what : String) :
    failsBy Error.isTrap (s.contentsFor owner what) = false := by
  rcases contentsFor_cases s owner what with ⟨_, h⟩ | ⟨_, _, h⟩ | ⟨_, _, _, h⟩
  · rw [h]
    rfl
  · rw [h]
    rfl
  · rw [h]
    rfl

theorem untrapped_live (s : Store σ) : failsBy Error.isTrap s.live = false := by
  unfold Store.live
  split
  · rfl
  · rfl

theorem untrapped_find {α : Type} (x : Memory) (s : Store σ)
    {f : (c : Contents σ) × Option (MemoryObj c.heap.limit) → Except Error α}
    (hf : ∀ p, failsBy Error.isTrap (f p) = false) :
    failsBy Error.isTrap (x.find s >>= f) = false :=
  failsBy_bind (failsBy_bind (untrapped_contentsFor s x.store "memory") fun _ => rfl) hf

theorem untrapped_checkRange (offset len size : Nat) :
    failsBy Error.isTrap (checkRange offset len size) = false := by
  unfold checkRange
  split
  · rfl
  · rfl

theorem untrapped_coerce (v : HostValue) (t : ValType) (position : Position) (i : Nat) :
    failsBy Error.isTrap (coerce v t position i) = false := by
  unfold coerce
  split
  · rfl
  · rfl

theorem untrapped_leave (o : Operand) (position : Position) (i : Nat) :
    failsBy Error.isTrap (o.leave position i) = false := by
  cases o with
  | val v => rfl
  | func addr => rfl

/-- A use that executes no code is never answered with a trap. Each of the others is a few checks in
a row, none of which fails with a trap. -/
theorem perform_untrapped (s : Store σ) (world : σ)
    (hu : ∀ instantiation, ¬ u.Executes instantiation) :
    failsBy Error.isTrap (s.perform world u).result = false := by
  cases u with
  | «instantiate» m imports => exact absurd (.instantiate m imports) (hu true)
  | call f args => exact absurd (.call f args) (hu false)
  | callTyped f args => exact absurd (.callTyped f args) (hu false)
  | lookup i name => rfl
  | destroy => rfl
  | getGlobal g =>
    change failsBy Error.isTrap ((g.get s).map _) = false
    rw [failsBy_map]
    apply failsBy_bind (untrapped_contentsFor s g.store "global")
    intro c
    split
    · exact untrapped_leave _ .global 0
    · rfl
  | setGlobal g value =>
    change failsBy Error.isTrap (s.update world ((g.set s value).map _)).result = false
    rw [update_result, failsBy_map]
    apply failsBy_bind (untrapped_contentsFor s g.store "global")
    intro c
    dsimp only
    split
    · rfl
    · exact failsBy_bind (untrapped_coerce value g.type.content .global 0) fun _ => rfl
  | memorySize x =>
    change failsBy Error.isTrap ((x.size s).map _) = false
    rw [failsBy_map]
    exact untrapped_find x s fun _ => rfl
  | memoryBytes x =>
    change failsBy Error.isTrap ((x.dataSize s).map _) = false
    rw [failsBy_map]
    exact untrapped_find x s fun _ => rfl
  | readMemory x offset len =>
    change failsBy Error.isTrap ((x.read s offset len).map _) = false
    rw [failsBy_map]
    exact untrapped_find x s fun _ => failsBy_bind (untrapped_checkRange _ _ _) fun _ => rfl
  | writeMemory x offset bytes =>
    change failsBy Error.isTrap (s.update world ((x.write s offset bytes).map _)).result = false
    rw [update_result, failsBy_map]
    exact untrapped_find x s fun _ => failsBy_bind (untrapped_checkRange _ _ _) fun _ => rfl
  | growMemory x delta =>
    change failsBy Error.isTrap (s.update world ((x.grow s delta).map _)).result = false
    rw [update_result, failsBy_map]
    apply untrapped_find
    rintro ⟨c, found⟩
    dsimp only
    split
    · rfl
    · rfl
  | tableSize t =>
    change failsBy Error.isTrap ((t.size s).map _) = false
    rw [failsBy_map]
    exact failsBy_bind (untrapped_contentsFor s t.store "table") fun _ => rfl
  | fuel =>
    change failsBy Error.isTrap (s.fuel.map _) = false
    rw [failsBy_map]
    apply failsBy_bind (untrapped_live s)
    intro c
    split
    · rfl
    · rfl
  | setFuel amount =>
    change failsBy Error.isTrap (s.update world ((s.setFuel amount).map _)).result = false
    rw [update_result, failsBy_map]
    apply failsBy_bind (untrapped_live s)
    intro c
    split
    · rfl
    · rfl
  | metrics =>
    change failsBy Error.isTrap (s.metrics.map _) = false
    rw [failsBy_map]
    exact failsBy_bind (untrapped_live s) fun _ => rfl

end WasmEmbed
