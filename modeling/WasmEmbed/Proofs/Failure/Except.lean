/-! Computations that may fail: from what a composed one gives to what its parts do. The lemmas about
success peel off one step, so that the proofs about functions in `do` notation never unfold `>>=`; a
traversal of a list is told in full, by the first element at which it fails. -/
namespace WasmEmbed
variable {ε α β : Type} {x : Except ε α} {b : β} {e : ε}

section Steps

theorem except_bind_ok {f : α → Except ε β} (h : (x >>= f) = .ok b) :
    ∃ a, x = .ok a ∧ f a = .ok b := by
  cases x with
  | error e => contradiction
  | ok a => exact ⟨a, rfl, h⟩

/-- What comes after a check is reached whether or not there was anything to check. -/
theorem except_check_ok {p : Prop} [Decidable p] {x : Except ε Unit} {k : Unit → Except ε β}
    (h : (if p then x >>= k else k ()) = .ok b) : k () = .ok b := by
  split at h
  · obtain ⟨_, _, h⟩ := except_bind_ok h
    exact h
  · exact h

theorem except_guard_ok {p : Prop} [Decidable p] {e : ε} {k : Unit → Except ε β}
    (h : (if p then throw e >>= k else k ()) = .ok b) : ¬ p ∧ k () = .ok b := by
  split at h
  · contradiction
  · exact ⟨‹_›, h⟩

theorem except_map_ok_iff {f : α → β} : x.map f = .ok b ↔ ∃ a, x = .ok a ∧ f a = b := by
  cases x with
  | error e => simp [Except.map]
  | ok a => simp [Except.map]

theorem except_map_error_iff {f : α → β} : x.map f = .error e ↔ x = .error e := by
  cases x with
  | error e => simp [Except.map]
  | ok a => simp [Except.map]

end Steps

section Loops

theorem except_forM_ok {f : α → Except ε Unit} {xs : List α} (h : xs.forM f = .ok ()) :
    ∀ x ∈ xs, f x = .ok () := by
  induction xs with
  | nil => exact fun x hx => absurd hx List.not_mem_nil
  | cons y ys ih =>
    obtain ⟨_, hy, h⟩ := except_bind_ok h
    intro x hx
    rcases List.mem_cons.mp hx with rfl | hx
    · exact hy
    · exact ih h x hx

/-- A loop that is never left early succeeds only if each round does. -/
theorem except_forIn_ok {f : α → Unit → Except ε (ForInStep Unit)} {xs : List α}
    (hyield : ∀ x s, f x () = .ok s → s = .yield ()) (h : forIn xs () f = .ok ()) :
    ∀ x ∈ xs, f x () = .ok (.yield ()) := by
  induction xs with
  | nil => exact fun x hx => absurd hx List.not_mem_nil
  | cons y ys ih =>
    rw [List.forIn_cons] at h
    obtain ⟨s, hs, h⟩ := except_bind_ok h
    obtain rfl := hyield y s hs
    intro x hx
    rcases List.mem_cons.mp hx with rfl | hx
    · exact hs
    · exact ih h x hx

end Loops

section Traversals
variable {f : α → Except ε β} {xs : List α} {ys : List β}

/-- A traversal succeeds if it succeeds at all elements. -/
theorem except_mapM_ok_iff : xs.mapM f = .ok ys ↔ xs.map f = ys.map .ok := by
  induction xs generalizing ys with
  | nil => cases ys <;> simp [pure, Except.pure]
  | cons x xs ih =>
    rw [List.mapM_cons, List.map_cons]
    cases f x with
    | error e => cases ys <;> simp [bind, Except.bind]
    | ok y =>
      cases hrest : xs.mapM f with
      | error e =>
        have hnever (zs : List β) : ¬ xs.map f = zs.map .ok := by
          rw [← ih, hrest]
          exact fun h => nomatch h
        cases ys <;> simp [bind, Except.bind, hnever]
      | ok zs =>
        have hsame := ih.mp hrest
        cases ys <;> simp [bind, Except.bind, pure, Except.pure, hsame,
          List.map_inj_right (fun _ _ h => Except.ok.inj h)]

theorem except_mapM_cons_ok_iff {x : α} : (x :: xs).mapM f = .ok ys ↔
    ∃ y zs, f x = .ok y ∧ xs.mapM f = .ok zs ∧ ys = y :: zs := by
  rw [except_mapM_ok_iff, List.map_cons]
  constructor
  · intro h
    cases ys with
    | nil => contradiction
    | cons y zs =>
      obtain ⟨hx, hxs⟩ := List.cons.inj h
      exact ⟨y, zs, hx, except_mapM_ok_iff.mpr hxs, rfl⟩
  · rintro ⟨y, zs, hx, hxs, rfl⟩
    rw [hx, except_mapM_ok_iff.mp hxs, List.map_cons]

theorem except_mapM_exists (h : ∀ x ∈ xs, ∃ y, f x = .ok y) : ∃ ys, xs.mapM f = .ok ys := by
  induction xs with
  | nil => exact ⟨[], rfl⟩
  | cons x xs ih =>
    obtain ⟨hx, hxs⟩ := List.forall_mem_cons.mp h
    obtain ⟨y, hy⟩ := hx
    obtain ⟨ys, hys⟩ := ih hxs
    exact ⟨y :: ys, except_mapM_cons_ok_iff.mpr ⟨y, ys, hy, hys, rfl⟩⟩

/-- In another order a traversal has the same results, in that order. -/
theorem except_mapM_perm {others : List α} (h : xs.Perm others) (hxs : xs.mapM f = .ok ys) :
    ∃ zs, others.mapM f = .ok zs ∧ zs.Perm ys := by
  induction h generalizing ys with
  | nil => exact ⟨ys, hxs, List.Perm.refl ys⟩
  | cons x _ ih =>
    obtain ⟨y, ys, hx, hrest, rfl⟩ := except_mapM_cons_ok_iff.mp hxs
    obtain ⟨zs, hzs, hperm⟩ := ih hrest
    exact ⟨y :: zs, except_mapM_cons_ok_iff.mpr ⟨y, zs, hx, hzs, rfl⟩, hperm.cons y⟩
  | swap x x' xs =>
    obtain ⟨y', _, hx', hrest, rfl⟩ := except_mapM_cons_ok_iff.mp hxs
    obtain ⟨y, ys, hx, hys, rfl⟩ := except_mapM_cons_ok_iff.mp hrest
    have hother : (x' :: xs).mapM f = .ok (y' :: ys) :=
      except_mapM_cons_ok_iff.mpr ⟨y', ys, hx', hys, rfl⟩
    exact ⟨y :: y' :: ys, except_mapM_cons_ok_iff.mpr ⟨y, _, hx, hother, rfl⟩, .swap y' y ys⟩
  | trans _ _ ih ih' =>
    obtain ⟨zs, hzs, hperm⟩ := ih hxs
    obtain ⟨ws, hws, hperm'⟩ := ih' hzs
    exact ⟨ws, hws, hperm'.trans hperm⟩

/-- A traversal fails as it fails at the first element at which it does. No other split has only
successes before the failure. -/
theorem except_mapM_error_iff : xs.mapM f = .error e ↔ ∃ before x after,
    xs = before ++ x :: after ∧ (∀ y ∈ before, ∃ z, f y = .ok z) ∧ f x = .error e := by
  induction xs with
  | nil => simp [pure, Except.pure]
  | cons x xs ih =>
    rw [List.mapM_cons]
    cases hx : f x with
    | error d =>
      change Except.error d = Except.error e ↔ _
      constructor
      · intro h
        have hd := Except.error.inj h
        exact ⟨[], x, xs, rfl, by simp, hx.trans (congrArg Except.error hd)⟩
      · rintro ⟨before, y, after, hsplit, hbefore, hy⟩
        cases before with
        | nil =>
          obtain ⟨rfl, _⟩ := List.cons.inj hsplit
          exact congrArg Except.error (Except.error.inj (hx.symm.trans hy))
        | cons z before =>
          obtain ⟨rfl, _⟩ := List.cons.inj hsplit
          obtain ⟨w, hw⟩ := hbefore x List.mem_cons_self
          exact nomatch hx.symm.trans hw
    | ok y =>
      have hrest : (xs.mapM f >>= fun ys => pure (y :: ys)) = .error e ↔ xs.mapM f = .error e := by
        cases xs.mapM f <;> simp [bind, Except.bind, pure, Except.pure]
      change (xs.mapM f >>= fun ys => pure (y :: ys)) = .error e ↔ _
      rw [hrest, ih]
      constructor
      · rintro ⟨before, z, after, rfl, hbefore, hz⟩
        refine ⟨x :: before, z, after, rfl, ?_, hz⟩
        intro w hw
        rcases List.mem_cons.mp hw with rfl | hw
        · exact ⟨y, hx⟩
        · exact hbefore w hw
      · rintro ⟨before, z, after, hsplit, hbefore, hz⟩
        cases before with
        | nil =>
          obtain ⟨rfl, _⟩ := List.cons.inj hsplit
          exact nomatch hx.symm.trans hz
        | cons w before =>
          obtain ⟨rfl, rfl⟩ := List.cons.inj hsplit
          refine ⟨before, z, after, rfl, ?_, hz⟩
          intro y hy
          exact hbefore y (List.mem_cons_of_mem _ hy)

end Traversals

end WasmEmbed
