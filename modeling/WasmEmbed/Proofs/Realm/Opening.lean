import WasmEmbed.Proofs.Instance.Attempt
import WasmEmbed.Proofs.Realm.Lifetime

/-! A store from the moment on at which it is made. There is one such moment for each store; the engine
and the limits of that moment are the store's for ever, and its heap has only grown since any
moment in its course. -/
namespace WasmEmbed
variable {σ : Type}

/-- At this moment an engine makes the store with a number, with these limits. -/
def Moment.Opens (m : Moment σ) (id : Nat) (e : Engine) (limits : StoreConfig) : Prop :=
  ∃ s, m.realm.Opens m.request e limits s ∧ s.id = id

variable {ms : List (Moment σ)} {m m' : Moment σ} {r : Realm σ} {q : Request σ} {s : Store σ}
  {c d : Contents σ} {e e' : Engine} {limits limits' : StoreConfig} {id : Nat}

theorem mem_snoc {α : Type} {x y : α} {xs : List α} (h : x ∈ xs ++ [y]) : x ∈ xs ∨ x = y := by
  rcases List.mem_append.mp h with h | h
  · exact Or.inl h
  · exact Or.inr (List.mem_singleton.mp h)

/-- A place in a list with one more at its end is the last one, or a place in the list. -/
theorem split_snoc {α : Type} {xs earlier later : List α} {x y : α}
    (h : xs ++ [x] = earlier ++ y :: later) :
    (later = [] ∧ x = y) ∨ ∃ rest, later = rest ++ [x] ∧ xs = earlier ++ y :: rest := by
  rcases List.eq_nil_or_concat later with rfl | ⟨rest, z, rfl⟩
  · have hlast := (List.append_inj' h rfl).2
    exact Or.inl ⟨rfl, (List.cons.inj hlast).1⟩
  · rw [List.concat_eq_append] at h ⊢
    have hassoc : earlier ++ y :: (rest ++ [z]) = (earlier ++ y :: rest) ++ [z] := by
      rw [List.append_assoc]
      rfl
    obtain ⟨hxs, hlast⟩ := List.append_inj' (h.trans hassoc) rfl
    rw [(List.cons.inj hlast).1]
    exact Or.inr ⟨rest, rfl, hxs⟩

section Opening

theorem id_of_opens (h : r.Opens q e limits s) : s.id = r.next := by
  rw [store_create_eq h.created]

theorem perform_opens (h : r.Opens q e limits s) :
    r.perform q = (.reply (.ok (.store r.next)) none,
      { r with stores := s :: r.stores, next := r.next + 2 }) := by
  rw [h.request]
  simp only [Realm.perform, h.engine, Realm.newStore, h.created]
  rfl

/-- The numbers that are given out only go up. -/
theorem opened_below (h : Course ms r) (hm : m ∈ ms) (ho : m.Opens id e limits) : id < r.next := by
  induction h with
  | start world => exact absurd hm List.not_mem_nil
  | elsewhere before world ih => exact ih hm
  | @request ms r before q given ih =>
    rcases mem_snoc hm with hold | rfl
    · have hbelow := ih hold
      have hnext := next_le_answers (perform_answers r q)
      omega
    · obtain ⟨s, hopens, rfl⟩ := ho
      have hid := id_of_opens hopens
      have hopens : r.Opens q e limits s := hopens
      rw [perform_opens hopens]
      have hid : s.id = r.next := hid
      change s.id < r.next + 2
      omega

/-- A store is made once. A later moment would make a store of another number. -/
theorem opens_unique (h : Course ms r) (hm : m ∈ ms) (hm' : m' ∈ ms) (ho : m.Opens id e limits)
    (ho' : m'.Opens id e' limits') : e = e' ∧ limits = limits' := by
  induction h with
  | start world => exact absurd hm List.not_mem_nil
  | elsewhere before world ih => exact ih hm hm'
  | @request ms r before q given ih =>
    have hlast {f : Engine} {l : StoreConfig} (hf : Moment.Opens ⟨r, q⟩ id f l) : id = r.next := by
      obtain ⟨s, hopens, rfl⟩ := hf
      exact id_of_opens hopens
    rcases mem_snoc hm with hold | rfl
    · rcases mem_snoc hm' with hold' | rfl
      · exact ih hold hold'
      · have hbelow := opened_below before hold ho
        have hnext := hlast ho'
        omega
    · rcases mem_snoc hm' with hold' | rfl
      · have hbelow := opened_below before hold' ho'
        have hnext := hlast ho
        omega
      · -- it is one and the same request, to one and the same engine
        obtain ⟨s, hopens, _⟩ := ho
        obtain ⟨s', hopens', _⟩ := ho'
        have hrequest := hopens.request.symm.trans hopens'.request
        obtain ⟨hid, hlimits⟩ := Request.newStore.inj hrequest
        have hengine := hopens.engine
        rw [hid] at hengine
        exact ⟨Option.some.inj (hengine.symm.trans hopens'.engine), hlimits⟩

end Opening

section Since

/-- What is true of a store as it is made, for the engine and the limits that it is made with, and
stays true in every use, is true of it for ever. -/
theorem kept_since {Q : Engine → StoreConfig → Store σ → Prop}
    (hmade : ∀ e limits s, Store.create id (id + 1) e limits = .ok s → Q e limits s)
    (hused : ∀ e limits s world u, Q e limits s → Q e limits (s.perform world u).store)
    (h : Course ms r) (hs : r.store? id = some s) :
    ∃ m ∈ ms, ∃ e limits, m.Opens id e limits ∧ Q e limits s := by
  have hkept : KeptAlong (σ := σ) id fun ms s =>
      ∃ m ∈ ms, ∃ e limits, m.Opens id e limits ∧ Q e limits s := by
    constructor
    · intro ms r q s e limits before given hq hopens hnext
      have hid := id_of_opens hopens
      have hcreated := hopens.created
      rw [hnext] at hid hcreated
      exact ⟨⟨r, q⟩, List.mem_append_right _ (List.mem_singleton_self _), e, limits,
        ⟨s, hopens, hid⟩, hmade e limits s hcreated⟩
    · rintro ms r u s before given hs ⟨m, hm, e, limits, ho, hk⟩
      exact ⟨m, List.mem_append_left _ hm, e, limits, ho, hused e limits s r.world u hk⟩
    · rintro ms r q s before given hq hs ⟨m, hm, e, limits, ho, hk⟩
      exact ⟨m, List.mem_append_left _ hm, e, limits, ho, hk⟩
  exact kept_of_course hkept h hs

/-- Every store was made at some moment. -/
theorem opening_of_course (h : Course ms r) (hs : r.store? id = some s) :
    ∃ m ∈ ms, ∃ e limits, m.Opens id e limits := by
  obtain ⟨m, hm, e, limits, ho, _⟩ := kept_since (Q := fun _ _ _ => True)
    (fun _ _ _ _ => trivial) (fun _ _ _ _ _ _ => trivial) h hs
  exact ⟨m, hm, e, limits, ho⟩

/-- What is true for the engine and the limits that a store was made with is true for those of any
moment at which it was made, since there is but one. -/
theorem kept_from {Q : Engine → StoreConfig → Store σ → Prop}
    (hmade : ∀ e limits s, Store.create id (id + 1) e limits = .ok s → Q e limits s)
    (hused : ∀ e limits s world u, Q e limits s → Q e limits (s.perform world u).store)
    (h : Course ms r) (hs : r.store? id = some s) (hm : m ∈ ms) (ho : m.Opens id e limits) :
    Q e limits s := by
  obtain ⟨m', hm', e', limits', ho', hk⟩ := kept_since hmade hused h hs
  obtain ⟨rfl, rfl⟩ := opens_unique h hm hm' ho ho'
  exact hk

/-- A store has the limit that it was made with, at every later moment. -/
theorem limit_of_course (h : Course ms r) (hs : r.store? id = some s) (hc : s.contents = some c)
    (hm : m ∈ ms) (ho : m.Opens id e limits) : c.heap.limit = limits.maxMemoryBytes := by
  have hmade (e : Engine) (limits : StoreConfig) (s : Store σ)
      (hnew : Store.create id (id + 1) e limits = .ok s) (c : Contents σ)
      (hc : s.contents = some c) : c.heap.limit = limits.maxMemoryBytes := by
    rw [store_create_eq hnew] at hc
    rw [← Option.some.inj hc]
    rfl
  have hused (e : Engine) (limits : StoreConfig) (s : Store σ) (world : σ) (u : Use σ)
      (hk : ∀ c, s.contents = some c → c.heap.limit = limits.maxMemoryBytes) (d : Contents σ)
      (hd : (s.perform world u).store.contents = some d) :
      d.heap.limit = limits.maxMemoryBytes := by
    obtain ⟨c, hc, hgrows⟩ := perform_grows hd
    exact hgrows.limit.trans (hk c hc)
  exact kept_from hmade hused h hs hm ho c hc

/-- A store has the configuration of its engine, at every later moment. -/
theorem config_of_course (h : Course ms r) (hs : r.store? id = some s) (hm : m ∈ ms)
    (ho : m.Opens id e limits) : s.config = e.config := by
  have hmade (e : Engine) (limits : StoreConfig) (s : Store σ)
      (hnew : Store.create id (id + 1) e limits = .ok s) : s.config = e.config := by
    rw [store_create_eq hnew]
  have hused (e : Engine) (limits : StoreConfig) (s : Store σ) (world : σ) (u : Use σ)
      (hk : s.config = e.config) : (s.perform world u).store.config = e.config := by
    by_cases hu : u = .destroy
    · rw [hu]
      exact hk
    · exact (perform_alike hu).config.trans hk
  exact kept_from hmade hused h hs hm ho

/-- Each moment is one of a realm that the host came to, where no more numbers were given out. -/
theorem moment_of_course (h : Course ms r) (hm : m ∈ ms) :
    (∃ before, Course before m.realm) ∧ m.realm.next ≤ r.next := by
  induction h with
  | start world => exact absurd hm List.not_mem_nil
  | elsewhere before world ih => exact ih hm
  | @request ms r before q given ih =>
    have hnext := next_le_answers (perform_answers r q)
    rcases mem_snoc hm with hold | rfl
    · obtain ⟨hcourse, hle⟩ := ih hold
      exact ⟨hcourse, Nat.le_trans hle hnext⟩
    · exact ⟨⟨ms, before⟩, hnext⟩

theorem found_below (h : Course ms r) (hm : m ∈ ms) (hs : m.realm.store? id = some s) :
    id < r.next := by
  obtain ⟨⟨before, hbefore⟩, hle⟩ := moment_of_course h hm
  obtain ⟨hmem, hid⟩ := store?_eq_some hs
  have hlt := (consistent_of_run (run_of_course hbefore)).storeBelow s hmem
  omega

/-- A store was found at no moment before it was made. -/
theorem not_found_before (h : Course ms r) (hnext : r.next = id) (hm : m ∈ ms ++ [⟨r, q⟩]) :
    m.realm.store? id ≠ some s := by
  intro hs
  have hbelow : id < r.next := by
    rcases mem_snoc hm with hold | rfl
    · exact found_below h hold hs
    · obtain ⟨hmem, hid⟩ := store?_eq_some hs
      rw [← hid]
      exact (consistent_of_run (run_of_course h)).storeBelow s hmem
  rw [hnext] at hbelow
  exact Nat.lt_irrefl id hbelow

/-- Nothing that was in the heap of the store at some moment has gone. -/
theorem heap_grows_of_course (h : Course ms r) (hs : r.store? id = some s)
    (hc : s.contents = some c) (hm : m ∈ ms) {t : Store σ} (ht : m.realm.store? id = some t) :
    ∃ b, t.contents = some b ∧ b.heap.Grows c.heap := by
  have hkept : KeptAlong (σ := σ) id fun ms s => ∀ m ∈ ms, ∀ t, m.realm.store? id = some t →
      ∀ c, s.contents = some c → ∃ b, t.contents = some b ∧ b.heap.Grows c.heap := by
    constructor
    · intro ms r q s e limits before given hq hopens hnext m hm t ht
      exact absurd ht (not_found_before before hnext hm)
    · intro ms r u s before given hs hk m hm t ht d hd
      obtain ⟨c, hc, hgrows⟩ := perform_grows hd
      rcases mem_snoc hm with hold | rfl
      · obtain ⟨b, hb, hgrown⟩ := hk m hold t ht c hc
        exact ⟨b, hb, grows_trans hgrown hgrows⟩
      · rw [Option.some.inj (hs.symm.trans ht)] at hc
        exact ⟨c, hc, hgrows⟩
    · intro ms r q s before given hq hs hk m hm t ht c hc
      rcases mem_snoc hm with hold | rfl
      · exact hk m hold t ht c hc
      · rw [Option.some.inj (hs.symm.trans ht)] at hc
        exact ⟨c, hc, grows_refl c.heap⟩
  exact kept_of_course hkept h hs m hm t ht c hc

end Since

end WasmEmbed
