import WasmEmbed.Proofs.Instance.Exports
import WasmEmbed.Proofs.Realm.Validity

/-! Handles keep their word. In every run, what a host got as the handle of a thing of some type
stands for a thing of that type as long as the store is alive, and all code in the store goes on
giving what its functions declare. -/
namespace WasmEmbed
variable {σ : Type} {history : List (Event σ)} {r r' : Realm σ} {q : Request σ} {a : Answer}
  {s : Store σ} {c d : Contents σ} {id : Nat} {i : Instance} {m : Module} {x y : Item}

/-- Code in these contents of a store keeps to its types, and what was given out as a handle of the
store is there and of the type that the handle tells. -/
structure Contents.Keeps (c : Contents σ) (history : List (Event σ)) (store : Nat) : Prop where
  sound : c.heap.Sound
  holds : ∀ x : Item, x.Given history → x.store.id = store → c.heap.Holds x.addr x.type

section Modules

/-- A module that is answered was loaded by an engine that is sound. -/
theorem module_answers (hr : r.Consistent) (h : r.Answers q a r')
    (hm : Event.module? ⟨q, a⟩ = some m) :
    ∃ (e : Engine) (src : Source), e.Sound ∧ (src.load e).1 = .ok m := by
  cases h with
  | @module id e he src =>
    unfold Event.module? at hm
    cases hload : (src.load e).1 with
    | error err =>
      rw [hload] at hm
      contradiction
    | ok m' =>
      rw [hload] at hm
      obtain rfl := Option.some.inj hm
      exact ⟨e, src, hr.sound e (engine?_eq_some he).1, hload⟩
  | @used id s hs u =>
    unfold Event.module? at hm
    cases hres : (s.perform r.world u).result with
    | error e =>
      rw [hres] at hm
      contradiction
    | ok reply =>
      rw [hres] at hm
      rcases reply_cases hres with ⟨i, rfl, _⟩ | ⟨i, name, _, rfl⟩ | hplain
      · contradiction
      · contradiction
      · cases reply with
        | module m => exact False.elim hplain
        | _ => contradiction
  | _ => contradiction

/-- Every module that a host got was loaded by an engine that keeps only what compiling gives. -/
theorem loaded_of_run (hr : Run history r) : ∀ m ∈ history.filterMap Event.module?,
    ∃ (e : Engine) (src : Source), e.Sound ∧ (src.load e).1 = .ok m := by
  induction hr with
  | start world => exact fun m hm => absurd hm List.not_mem_nil
  | elsewhere before world ih => exact ih
  | @request history r before q given ih =>
    intro m hm
    rw [List.filterMap_append, List.mem_append] at hm
    rcases hm with hm | hm
    · exact ih m hm
    · obtain ⟨e, he, hm⟩ := List.mem_filterMap.mp hm
      rw [List.mem_singleton.mp he] at hm
      exact module_answers (consistent_of_run before) (perform_answers r q) hm

/-- A host gets no module but valid ones. -/
theorem valid_of_run (hr : Run history r) : ∀ m ∈ history.filterMap Event.module?, m.Valid := by
  intro m hm
  obtain ⟨e, src, he, hload⟩ := loaded_of_run hr m hm
  exact load_valid he hload

theorem declares_of_run (hr : Run history r) :
    ∀ m ∈ history.filterMap Event.module?, m.exports = m.artifact.exportTypes := by
  intro m hm
  obtain ⟨e, src, he, hload⟩ := loaded_of_run hr m hm
  exact load_declares he hload

/-- An instance that the host got was made of a module that it had got before. -/
theorem made_of_run {imports : Imports σ} {state : Option FuncState} (hr : Run history r)
    (he : (⟨.use id (.instantiate m imports), .reply (.ok (.instance i)) state⟩ : Event σ) ∈ history) :
    m ∈ history.filterMap Event.module? ∧
      ∃ (s : Store σ) (world : σ), (Instance.create s world m imports).result = .ok i := by
  induction hr with
  | start world => exact absurd he List.not_mem_nil
  | elsewhere before world ih => exact ih he
  | @request history r before q given ih =>
    rw [List.filterMap_append, List.mem_append]
    rcases List.mem_append.mp he with he | he
    · obtain ⟨hm, hmade⟩ := ih he
      exact ⟨Or.inl hm, hmade⟩
    · obtain ⟨rfl, ha⟩ := Event.mk.inj (List.mem_singleton.mp he)
      refine ⟨Or.inl given.2.1, ?_⟩
      cases hs : r.store? id with
      | none =>
        rw [perform_use_missing hs] at ha
        contradiction
      | some s =>
        rw [perform_use hs] at ha
        exact ⟨s, r.world, create_of_reply (Answer.reply.inj ha).1.symm⟩

end Modules

section Given

/-- Calls change nothing of a handle that tells what it stands for. -/
theorem fresh_eq (h : x.fresh = y.fresh) :
    x.store = y.store ∧ x.addr = y.addr ∧ x.type = y.type := by
  have hkept (z : Item) : z.fresh.store = z.store ∧ z.fresh.addr = z.addr ∧ z.fresh.type = z.type := by
    cases z <;> exact ⟨rfl, rfl, rfl⟩
  obtain ⟨hstore, haddr, htype⟩ := hkept x
  rw [← hstore, ← haddr, ← htype, h]
  exact hkept y

/-- What the host has now it had before, or has from the instance just made. -/
theorem given_append {e : Event σ} :
    x.Given (history ++ [e]) ↔
      x.Given history ∨ ∃ i, e.instance? = some i ∧ ∃ y ∈ i.exports, y.2.fresh = x.fresh := by
  unfold Item.Given
  simp [List.filterMap_append, or_and_right, exists_or]

/-- What is new to the host is exported by an instance that was just made in its store. That it was
made in the store of the handle is told by the handle itself. -/
theorem given_request (hr : Run history r) (given : q.Given history)
    (hx : x.Given (history ++ [⟨q, (r.perform q).1⟩])) :
    x.Given history ∨ ∃ u i state, q = .use x.store.id u ∧
      (r.perform q).1 = .reply (.ok (.instance i)) state ∧ ∃ y ∈ i.exports, y.2.fresh = x.fresh := by
  rcases given_append.mp hx with hold | ⟨i, hi, y, hy, hfresh⟩
  · exact Or.inl hold
  · right
    obtain ⟨id, u, hq⟩ := instance_answers (perform_answers r q) hi
    obtain ⟨state, ha⟩ := answer_of_instance? hi
    have ha : (r.perform q).1 = .reply (.ok (.instance i)) state := ha
    have hissued : Issued (history ++ [⟨q, (r.perform q).1⟩]) id y.2.store := by
      refine issued_append.mpr (Or.inr ⟨⟨u, hq⟩, ?_⟩)
      rw [ha]
      exact List.mem_cons_of_mem _ (List.mem_map.mpr ⟨y, hy, rfl⟩)
    have hstore := issued_of_run (hr.request q given) id _ hissued
    rw [(fresh_eq hfresh).1] at hstore
    refine ⟨u, i, state, ?_, ha, y, hy, hfresh⟩
    rw [hstore, hq]

theorem given_other (hr : Run history r) (given : q.Given history) (hq : q.store? ≠ some id)
    (hx : x.Given (history ++ [⟨q, (r.perform q).1⟩])) (hstore : x.store.id = id) :
    x.Given history := by
  rcases given_request hr given hx with hold | ⟨u, _, _, hnew, _⟩
  · exact hold
  · rw [hnew, hstore] at hq
    exact absurd rfl hq

/-- The store of a thing that the host was given was made before. -/
theorem given_below (hr : Run history r) (hx : x.Given history) : x.store.id < r.next := by
  obtain ⟨i, hi, y, hy, hfresh⟩ := hx
  obtain ⟨id, _, hexports⟩ := instance_issued hr hi
  have hissued := hexports y hy
  have hstore := issued_of_run hr id _ hissued
  rw [(fresh_eq hfresh).1] at hstore
  rw [hstore]
  exact created_below hr (issued_created hr hissued)

end Given

section Keeps
variable {u : Use σ} {world : σ}

/-- A use of things that the host was given takes nothing away, leaves sound contents, and gives
handles of what is there. Code is added to the heap, and handles are given out, only where an
instance is made. -/
theorem perform_held (hk : ∀ c, s.contents = some c → c.Keeps history s.id)
    (hu : ∀ m imports, u = .instantiate m imports → m.Valid ∧ ∀ e ∈ imports.entries, e.2.Given history)
    (hd : (s.perform world u).store.contents = some d) :
    (∃ c, s.contents = some c ∧ c.heap.Grows d.heap) ∧ d.heap.Sound ∧
      ∀ i, (s.perform world u).result = .ok (.instance i) →
        ∀ x ∈ i.exports, d.heap.Holds x.2.addr x.2.type := by
  by_cases hmakes : ∃ m imports, u = .instantiate m imports
  · obtain ⟨m, imports, rfl⟩ := hmakes
    obtain ⟨hm, himports⟩ := hu m imports rfl
    have hlinked : ∀ c, s.contents = some c → c.heap.Sound ∧ ∀ x : Item, x.store.id = s.id →
        (∃ e ∈ imports.entries, e.2 = .item x) → c.heap.Holds x.addr x.type := by
      refine fun c hc => ⟨(hk c hc).sound, ?_⟩
      rintro x hstore ⟨e, he, hx⟩
      have hgiven := himports e he
      rw [hx] at hgiven
      exact (hk c hc).holds x hgiven hstore
    obtain ⟨hgrows, hsound, hexports⟩ := create_held hm hlinked hd
    exact ⟨hgrows, hsound, fun i hi => hexports i (create_of_reply hi)⟩
  · obtain ⟨c, ws, hc, hleft, _⟩ := perform_contents (fun m imports h => hmakes ⟨m, imports, h⟩) hd
    rw [hleft]
    refine ⟨⟨c, hc, grows_performAll c.heap ws⟩, sound_performAll (hk c hc).sound ws, fun i hi => ?_⟩
    rcases reply_cases hi with ⟨j, _, hinstantiate, _⟩ | ⟨j, name, _, h⟩ | hplain
    · exact absurd hinstantiate hmakes
    · contradiction
    · exact False.elim hplain

/-- A handle is old, and then its thing is still there, or is of the instance just made. -/
theorem keeps_used (hr : Run history r) (given : (Request.use id u).Given history)
    (hs : r.store? id = some s) (hk : ∀ c, s.contents = some c → c.Keeps history id)
    (hd : (s.perform r.world u).store.contents = some d) :
    d.Keeps (history ++ [⟨.use id u, (r.perform (.use id u)).1⟩]) id := by
  have hid := (store?_eq_some hs).2
  obtain ⟨⟨c, hc, hgrows⟩, hsound, hexports⟩ := perform_held (hid ▸ hk) (fun m imports hu => by
    rw [hu] at given
    exact ⟨valid_of_run hr m given.2.1, given.2.2⟩) hd
  refine ⟨hsound, fun x hx hstore => ?_⟩
  rcases given_request hr given hx with hold | ⟨_, i, state, _, ha, y, hy, hfresh⟩
  · exact holds_grows hgrows ((hk c hc).holds x hold hstore)
  · rw [perform_use hs] at ha
    obtain ⟨_, haddr, htype⟩ := fresh_eq hfresh
    rw [← haddr, ← htype]
    exact hexports i (Answer.reply.inj ha).1 y hy

/-- Every use keeps what the host was given of its store. -/
theorem kept_keeps (id : Nat) :
    Kept (σ := σ) id fun history s => ∀ c, s.contents = some c → c.Keeps history id where
  made := by
    intro history r q s e limits hr given hq hnext hnew c hc
    obtain ⟨c', hfuncs, rfl⟩ := store_create_ok hnew
    obtain rfl := Option.some.inj hc
    constructor
    · intro addr f hf
      rw [hfuncs] at hf
      contradiction
    · -- nothing can have been given out for a number that is new
      intro x hx hstore
      have hbelow := given_below hr (given_other hr given hq hx hstore)
      rw [hstore, hnext] at hbelow
      exact absurd hbelow (Nat.lt_irrefl id)
  used := by
    intro history r u s hr given hs hk c hc
    exact keeps_used hr given hs hk hc
  other := by
    intro history r q s hr given hq hs hk c hc
    obtain ⟨hsound, hholds⟩ := hk c hc
    exact ⟨hsound, fun x hx hstore => hholds x (given_other hr given hq hx hstore) hstore⟩

/-- In every run the stores keep what the host was given of them. -/
theorem keeps_of_run (hr : Run history r) (hs : r.store? id = some s) (hc : s.contents = some c) :
    c.Keeps history id :=
  kept_of_run (kept_keeps id) hr hs c hc

end Keeps

end WasmEmbed
