import WasmEmbed.Proofs.Realm.Consistency
import WasmEmbed.Proofs.Store.World

/-! Stores share nothing that shows. What is done with one leaves all others alone, and goes as if
it were done with that store alone: neither other stores, nor the state of the host, nor what
engines keep for reuse make a difference. -/
namespace WasmEmbed
variable {σ : Type}

/-- What a host with one store and its engine may ask for, if it has only pure functions. -/
def Request.Own (s : Store σ) : Request σ → Prop
  | .use id u => id = s.id ∧ u.Pure
  | .drop id => id = s.id
  | .compile id _ | .clearCache id => id = s.engine
  | _ => False

/-- All that can be asked for without the store. -/
def Request.Other (s : Store σ) (q : Request σ) : Prop := q.store? ≠ some s.id

/-- The realm in which there is no other store, nothing is kept for reuse, and the host is in any
state. -/
def Realm.alone (r : Realm σ) (s : Store σ) (world : σ) : Realm σ where
  engines := r.engines.map Engine.clearCache
  stores := [s]
  next := r.next
  world := world

/-- Host functions came to the store only from uses that bring pure ones. -/
def PureFor (history : List (Event σ)) (id : Nat) : Prop :=
  ∀ e ∈ history, ∀ u, e.request = .use id u → u.Pure

/-- The two realms are the same for a store and its engine, but for what the engine keeps. -/
structure SameFor (id home : Nat) (r ρ : Realm σ) : Prop where
  store : r.store? id = ρ.store? id
  pure : ∀ s, r.store? id = some s → s.Pure
  engine : ∃ e f, r.engine? home = some e ∧ ρ.engine? home = some f ∧ e.Alike f ∧ e.Sound ∧ f.Sound

variable {history : List (Event σ)} {r ρ : Realm σ} {s : Store σ} {q : Request σ} {id : Nat}

/-- Code in a store that is new reaches no host function at all. -/
theorem pure_create {token : Nat} {e : Engine} {limits : StoreConfig}
    (h : Store.create id token e limits = .ok s) : s.Pure := by
  obtain ⟨c, hfuncs, rfl⟩ := store_create_ok h
  intro d hd addr f hf
  rw [← Option.some.inj hd, hfuncs] at hf
  contradiction

theorem pureFor_append {e : Event σ} (h : PureFor (history ++ [e]) id) :
    PureFor history id ∧ ∀ u, e.request = .use id u → u.Pure := by
  constructor
  · intro f hf
    exact h f (List.mem_append_left _ hf)
  · exact h e (List.mem_append_right _ (List.mem_singleton_self e))

/-- A store that only pure functions were brought into is pure. -/
theorem pure_of_run (hr : Run history r) (hpure : PureFor history id) (hs : r.store? id = some s) :
    s.Pure := by
  induction hr generalizing s with
  | start world => contradiction
  | elsewhere before world ih => exact ih hpure hs
  | @request history r before q given ih =>
    obtain ⟨hbefore, hlast⟩ := pureFor_append hpure
    have hlast : ∀ u, q = .use id u → u.Pure := hlast
    have hans := perform_answers r q
    by_cases hq : q.store? = some id
    · -- of the requests about the store, only its use can bring functions into it
      generalize (r.perform q).1 = a at hans
      generalize (r.perform q).2 = r' at hs hans
      cases hans with
      | @used id' t ht u =>
        have hid : id' = id := Option.some.inj hq
        subst hid
        have hu : u.Pure := hlast u rfl
        rw [store?_after ht u] at hs
        rw [← Option.some.inj hs]
        exact pure_perform (ih hbefore ht) hu r.world
      | @dropped id' t ht =>
        have hid : id' = id := Option.some.inj hq
        rw [hid, store?_drop] at hs
        contradiction
      | noStore _ _ => exact ih hbefore hs
      | noEngine _ => exact ih hbefore hs
      | refused _ _ => exact ih hbefore hs
      | _ => contradiction
    · rcases store?_answers hans hq with ⟨t, e, limits, hopens, _, hfound⟩ | hsame
      · rw [hfound] at hs
        rw [← Option.some.inj hs]
        exact pure_create hopens.created
      · rw [hsame] at hs
        exact ih hbefore hs

theorem engine?_alone (r : Realm σ) (s : Store σ) (world : σ) (id : Nat) :
    (r.alone s world).engine? id = (r.engine? id).map Engine.clearCache := by
  unfold Realm.engine? Realm.alone
  rw [List.find?_map]
  rfl

/-- A store that is left alone in its realm is the same for itself. -/
theorem sameFor_alone (hr : r.Consistent) (hs : s ∈ r.stores) (hpure : s.Pure) (world : σ) :
    SameFor s.id s.engine r (r.alone s world) where
  store := by
    rw [store?_of_mem hr hs]
    exact (store?_cons_self { r.alone s world with stores := [] } s r.next).symm
  pure := by
    intro t ht
    rw [store?_of_mem hr hs] at ht
    rw [← Option.some.inj ht]
    exact hpure
  engine := by
    obtain ⟨e, he⟩ := hr.home s hs
    have hsound := hr.sound e (engine?_eq_some he).1
    refine ⟨e, e.clearCache, he, ?_, ⟨rfl, rfl, rfl, rfl⟩, hsound, cache_sound_clear _ _⟩
    rw [engine?_alone, he]
    rfl

/-- A request of one's own is answered alike in both realms, and leaves them the same. -/
theorem sameFor_own (h : SameFor s.id s.engine r ρ) (hq : q.Own s) :
    (r.perform q).1 = (ρ.perform q).1 ∧ SameFor s.id s.engine (r.perform q).2 (ρ.perform q).2 := by
  obtain ⟨e, f, he, hf, halike, hsound, hsound'⟩ := h.engine
  cases q with
  | use id u =>
    obtain ⟨rfl, hu⟩ := hq
    cases hs : r.store? s.id with
    | none =>
      have hρ := h.store.symm.trans hs
      rw [perform_use_missing hs, perform_use_missing hρ]
      exact ⟨rfl, h⟩
    | some t =>
      have hρ := h.store.symm.trans hs
      obtain ⟨after, hperform⟩ := perform_inWorld (h.pure t hs) hu r.world ρ.world
      rw [perform_use hs, perform_use hρ, hperform]
      refine ⟨rfl, ?_, ?_, e, f, he, hf, halike, hsound, hsound'⟩
      · have hfound := store?_after hρ u
        rw [hperform] at hfound
        exact (store?_after hs u).trans hfound.symm
      · intro t' ht'
        rw [← Option.some.inj ((store?_after hs u).symm.trans ht')]
        exact pure_perform (h.pure t hs) hu r.world
  | drop id =>
    have hid : id = s.id := hq
    subst hid
    cases hs : r.store? s.id with
    | none =>
      have hρ := h.store.symm.trans hs
      rw [perform_drop_missing hs, perform_drop_missing hρ]
      exact ⟨rfl, h⟩
    | some t =>
      have hρ := h.store.symm.trans hs
      rw [perform_drop hs, perform_drop hρ]
      have hstore := (store?_drop r s.id).trans (store?_drop ρ s.id).symm
      refine ⟨rfl, hstore, ?_, e, f, he, hf, halike, hsound, hsound'⟩
      intro t' ht'
      rw [store?_drop] at ht'
      contradiction
  | compile id src =>
    have hid : id = s.engine := hq
    subst hid
    rw [perform_compile he, perform_compile hf, load_congr hsound hsound' halike src]
    have hload := engine_alike_trans (engine_alike_load e src)
      (engine_alike_trans halike (engine_alike_symm (engine_alike_load f src)))
    exact ⟨rfl, h.store, h.pure, _, _, engine?_load he src, engine?_load hf src, hload,
      engine_sound_load hsound src, engine_sound_load hsound' src⟩
  | clearCache id =>
    have hid : id = s.engine := hq
    subst hid
    rw [perform_clearCache he, perform_clearCache hf]
    have hclear : e.clearCache.Alike f.clearCache :=
      ⟨halike.id, halike.config, halike.capacity, halike.digest⟩
    exact ⟨rfl, h.store, h.pure, _, _, engine?_clear he, engine?_clear hf, hclear,
      cache_sound_clear _ _, cache_sound_clear _ _⟩
  | _ => exact absurd hq id

/-- A request of someone else changes nothing that the store or its engine shows. -/
theorem sameFor_other (h : SameFor s.id s.engine r ρ) (hid : s.id < r.next)
    (hhome : s.engine < r.next) (hq : q.Other s) : SameFor s.id s.engine (r.perform q).2 ρ := by
  have hans := perform_answers r q
  have hstore : (r.perform q).2.store? s.id = r.store? s.id := by
    rcases store?_answers hans hq with ⟨_, _, _, _, hnew, _⟩ | hsame
    · exact absurd hnew (Nat.ne_of_lt hid)
    · exact hsame
  obtain ⟨e, f, he, hf, halike, hsound, hsound'⟩ := h.engine
  obtain ⟨e', he', halike', hsound''⟩ := engine?_answers hans he hsound (Nat.ne_of_lt hhome)
  have halike'' := engine_alike_trans halike' halike
  refine ⟨hstore.trans h.store, ?_, e', f, he', hf, halike'', hsound'', hsound'⟩
  intro t ht
  rw [hstore] at ht
  exact h.pure t ht

/-- The answers to the requests that are marked as one's own. -/
def ownAnswers (steps : List (Bool × Request σ)) (answers : List Answer) : List Answer :=
  (steps.zip answers).filterMap fun p => if p.1.1 then some p.2 else none

/-- Step by step: a request of one's own is made in both realms, any other only where others are.
The numbers of the store and its engine stay below the next one, so neither comes again. -/
theorem sameFor_steps (h : SameFor s.id s.engine r ρ) (hid : s.id < r.next)
    (hhome : s.engine < r.next) (steps : List (Bool × Request σ))
    (hsteps : ∀ p ∈ steps, if p.1 then p.2.Own s else p.2.Other s) :
    ownAnswers steps (r.performAll (steps.map (·.2))).1 =
        (ρ.performAll ((steps.filter (·.1)).map (·.2))).1 ∧
      SameFor s.id s.engine (r.performAll (steps.map (·.2))).2
        (ρ.performAll ((steps.filter (·.1)).map (·.2))).2 := by
  induction steps generalizing r ρ with
  | nil => exact ⟨rfl, h⟩
  | cons p rest ih =>
    obtain ⟨own, q⟩ := p
    have hrest : ∀ p ∈ rest, if p.1 then p.2.Own s else p.2.Other s := by
      intro p hp
      exact hsteps p (List.mem_cons_of_mem _ hp)
    have hq := hsteps (own, q) List.mem_cons_self
    have hle := next_le_answers (perform_answers r q)
    have hid' := Nat.lt_of_lt_of_le hid hle
    have hhome' := Nat.lt_of_lt_of_le hhome hle
    cases own with
    | true =>
      obtain ⟨hanswer, hsame⟩ := sameFor_own h hq
      obtain ⟨hanswers, hafter⟩ := ih hsame hid' hhome' hrest
      refine ⟨?_, hafter⟩
      change (r.perform q).1 :: ownAnswers rest ((r.perform q).2.performAll (rest.map (·.2))).1 = _
      rw [hanswer, hanswers]
      rfl
    | false =>
      have hsame := sameFor_other h hid hhome hq
      exact ih hsame hid' hhome' hrest

/-- In every run, what is done with a store leaves every other store and all engines as they are;
its answer and the store afterwards depend only on the store before and on what is asked, in
whatever realm that is; and however requests of others come in between, those with the store and to
its engine are answered, and leave the store, as if they had been made where it is the only store
and the engine keeps nothing. -/
theorem store_isolation {history : List (Event σ)} {r : Realm σ} (hr : Run history r) {s : Store σ}
    (hs : s ∈ r.stores) (hpure : PureFor history s.id) :
    (∀ u, (r.perform (.use s.id u)).2.engines = r.engines ∧
      ∀ t ∈ r.stores, t.id ≠ s.id → (r.perform (.use s.id u)).2.store? t.id = some t) ∧
    (∀ u, u.Pure → ∀ r' : Realm σ, r'.store? s.id = some s →
      (r'.perform (.use s.id u)).1 = (r.perform (.use s.id u)).1 ∧
        (r'.perform (.use s.id u)).2.store? s.id = (r.perform (.use s.id u)).2.store? s.id) ∧
    ∀ (steps : List (Bool × Request σ)) (world : σ),
      (∀ p ∈ steps, if p.1 then p.2.Own s else p.2.Other s) →
      let together := r.performAll (steps.map (·.2))
      let apart := (r.alone s world).performAll ((steps.filter (·.1)).map (·.2))
      ownAnswers steps together.1 = apart.1 ∧ together.2.store? s.id = apart.2.store? s.id := by
  have hcons := consistent_of_run hr
  have hfound := store?_of_mem hcons hs
  have hspure : s.Pure := pure_of_run hr hpure hfound
  refine ⟨?_, ?_, ?_⟩
  · intro u
    rw [perform_use hfound]
    refine ⟨rfl, fun t ht hne => ?_⟩
    exact (store?_after_of_ne hfound u hne).trans (store?_of_mem hcons ht)
  · intro u hu r' hfound'
    obtain ⟨after, hperform⟩ := perform_inWorld hspure hu r.world r'.world
    rw [perform_use hfound, perform_use hfound', store?_after hfound, store?_after hfound',
      hperform]
    exact ⟨rfl, rfl⟩
  · intro steps world hsteps
    have hsame := sameFor_alone hcons hs hspure world
    have hbelow := hcons.storeBelow s hs
    obtain ⟨hanswers, hafter⟩ := sameFor_steps hsame hbelow (home_lt_next hcons hs) steps hsteps
    exact ⟨hanswers, hafter.store⟩

/-- Requests of a host with the first of two stores, and of another host in between. -/
def mixedSteps : List (Bool × Request Unit) :=
  [(true, .use 1 .metrics), (false, .use 3 .destroy), (false, .clearCache 0), (true, .use 1 .fuel)]

theorem isolation_of_mixedSteps :
    ownAnswers mixedSteps (Realm.pair.performAll (mixedSteps.map (·.2))).1 =
      ((Realm.pair.alone Realm.pair.stores[1] ()).performAll
        [.use 1 .metrics, .use 1 .fuel]).1 := by
  have hpure : PureFor pairHistory 1 := by
    intro e he u hu
    rcases he with _ | ⟨_, _ | ⟨_, _ | ⟨_, he⟩⟩⟩
    all_goals contradiction
  obtain ⟨_, _, hsteps⟩ :=
    store_isolation run_pair (s := Realm.pair.stores[1]) (List.getElem_mem _) hpure
  refine (hsteps mixedSteps () ?_).1
  intro p hp
  rcases hp with _ | ⟨_, _ | ⟨_, _ | ⟨_, _ | ⟨_, hp⟩⟩⟩⟩
  · exact ⟨rfl, trivial⟩
  · exact fun h => absurd h (by decide)
  · exact fun h => absurd h (by decide)
  · exact ⟨rfl, trivial⟩
  · contradiction

end WasmEmbed
