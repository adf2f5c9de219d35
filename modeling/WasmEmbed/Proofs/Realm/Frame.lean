import WasmEmbed.Proofs.Realm.Table

/-! What answering a request does to a realm, and what it leaves alone. A request about one store or
engine changes that one; numbers are given out once, so that each of them stands for one thing for
ever. -/
namespace WasmEmbed
variable {σ : Type}

/-- The store that a request is about. -/
def Request.store? : Request σ → Option Nat
  | .use store _ | .drop store => some store
  | _ => none

/-- All that answering a request can do. -/
inductive Realm.Answers (r : Realm σ) : Request σ → Answer → Realm σ → Prop where
  /-- An engine is missing. -/
  | noEngine {q : Request σ} (hq : q.store? = none) : Answers r q .missing r
  | noStore {q : Request σ} {id : Nat} (hq : q.store? = some id) (hs : r.store? id = none) :
    Answers r q .missing r
  /-- A configuration is not valid. -/
  | refused {q : Request σ} (hq : q.store? = none) (e : Error) :
    Answers r q (.reply (.error e) none) r
  | engine {config : Config} {e : Engine} (he : Engine.create r.next config = .ok e) :
    Answers r (.newEngine config) (.reply (.ok (.engine r.next)) none)
      { r with engines := e :: r.engines, next := r.next + 1 }
  | module {id : Nat} {e : Engine} (he : r.engine? id = some e) (src : Source) :
    Answers r (.compile id src) (.reply ((src.load e).1.map .module) none)
      (r.setEngine (src.load e).2)
  | cleared {id : Nat} {e : Engine} (he : r.engine? id = some e) :
    Answers r (.clearCache id) (.reply (.ok .done) none) (r.setEngine e.clearCache)
  | store {id : Nat} {limits : StoreConfig} {e : Engine} {s : Store σ} (he : r.engine? id = some e)
    (hs : Store.create r.next (r.next + 1) e limits = .ok s) :
    Answers r (.newStore id limits) (.reply (.ok (.store r.next)) none)
      { r with stores := s :: r.stores, next := r.next + 2 }
  | used {id : Nat} {s : Store σ} (hs : r.store? id = some s) (u : Use σ) :
    Answers r (.use id u) (.reply (s.perform r.world u).result (s.perform r.world u).state)
      (r.after (s.perform r.world u))
  | dropped {id : Nat} {s : Store σ} (hs : r.store? id = some s) :
    Answers r (.drop id) (.reply (.ok .done) none) (r.drop id)

/-- The request is to an engine, for a store with limits, and this is the store that it makes. -/
structure Realm.Opens (r : Realm σ) (q : Request σ) (e : Engine) (limits : StoreConfig)
    (s : Store σ) : Prop where
  request : q = .newStore e.id limits
  engine : r.engine? e.id = some e
  created : Store.create r.next (r.next + 1) e limits = .ok s

variable {r r' : Realm σ} {q : Request σ} {a : Answer} {s : Store σ} {e : Engine} {id : Nat}

theorem perform_use (hs : r.store? id = some s) (u : Use σ) :
    r.perform (.use id u) =
      (.reply (s.perform r.world u).result (s.perform r.world u).state,
        r.after (s.perform r.world u)) := by
  rw [Realm.perform, hs]

theorem perform_use_missing (hs : r.store? id = none) (u : Use σ) :
    r.perform (.use id u) = (.missing, r) := by
  rw [Realm.perform, hs]

theorem perform_drop (hs : r.store? id = some s) :
    r.perform (.drop id) = (.reply (.ok .done) none, r.drop id) := by
  rw [Realm.perform, hs]

theorem perform_drop_missing (hs : r.store? id = none) : r.perform (.drop id) = (.missing, r) := by
  rw [Realm.perform, hs]

theorem perform_compile (he : r.engine? id = some e) (src : Source) :
    r.perform (.compile id src) =
      (.reply ((src.load e).1.map .module) none, r.setEngine (src.load e).2) := by
  rw [Realm.perform, he]
  rfl

theorem perform_clearCache (he : r.engine? id = some e) :
    r.perform (.clearCache id) = (.reply (.ok .done) none, r.setEngine e.clearCache) := by
  rw [Realm.perform, he]
  rfl

/-- Every request has one of these answers, and leaves the realm as this one says. -/
theorem perform_answers (r : Realm σ) (q : Request σ) :
    r.Answers q (r.perform q).1 (r.perform q).2 := by
  cases q with
  | newEngine config =>
    simp only [Realm.perform, Realm.newEngine]
    cases he : Engine.create r.next config with
    | error e => exact .refused rfl e
    | ok e => exact .engine he
  | compile id src =>
    cases he : r.engine? id with
    | none =>
      simp only [Realm.perform, he]
      exact .noEngine rfl
    | some e =>
      rw [perform_compile he]
      exact .module he src
  | clearCache id =>
    cases he : r.engine? id with
    | none =>
      simp only [Realm.perform, he]
      exact .noEngine rfl
    | some e =>
      rw [perform_clearCache he]
      exact .cleared he
  | newStore id limits =>
    cases he : r.engine? id with
    | none =>
      simp only [Realm.perform, he]
      exact .noEngine rfl
    | some e =>
      simp only [Realm.perform, he, Realm.newStore]
      cases hs : Store.create r.next (r.next + 1) e limits with
      | error err => exact .refused rfl err
      | ok s => exact .store he hs
  | use id u =>
    cases hs : r.store? id with
    | none =>
      rw [perform_use_missing hs]
      exact .noStore rfl hs
    | some s =>
      rw [perform_use hs]
      exact .used hs u
  | drop id =>
    cases hs : r.store? id with
    | none =>
      rw [perform_drop_missing hs]
      exact .noStore rfl hs
    | some s =>
      rw [perform_drop hs]
      exact .dropped hs

/-- Numbers are never taken back. -/
theorem next_le_answers (h : r.Answers q a r') : r.next ≤ r'.next := by
  cases h with
  | engine he => exact Nat.le_succ r.next
  | store he hs => exact Nat.le_add_right r.next 2
  | _ => exact Nat.le_refl r.next

/-- A request that is not about a store leaves it as it is, unless it is to make that store. Its
number is the next one, which no other store has. -/
theorem store?_answers (h : r.Answers q a r') {store : Nat} (hq : q.store? ≠ some store) :
    (∃ s e limits, r.Opens q e limits s ∧ store = r.next ∧ r'.store? store = some s) ∨
      r'.store? store = r.store? store := by
  cases h with
  | @store id limits e s he hs =>
    by_cases hnext : store = r.next
    · have hid := (engine?_eq_some he).2
      refine Or.inl ⟨s, e, limits, ⟨?_, ?_, hs⟩, hnext, ?_⟩
      · rw [hid]
      · rw [hid]
        exact he
      obtain ⟨c, _, rfl⟩ := store_create_ok hs
      rw [hnext]
      exact store?_cons_self r _ _
    · obtain ⟨c, _, rfl⟩ := store_create_ok hs
      exact Or.inr (store?_cons_of_ne (Ne.symm hnext))
  | @used id s hs u => exact Or.inr (store?_after_of_ne hs u fun hid => hq (congrArg some hid.symm))
  | @dropped id s hs => exact Or.inr (store?_drop_of_ne r fun hid => hq (congrArg some hid.symm))
  | _ => exact Or.inr rfl

/-- Whatever is asked for, an engine goes on with nothing changed but what it keeps. Engines are
changed only by what is asked of them: to compile, or to forget. -/
theorem engine?_answers (h : r.Answers q a r') {home : Nat} (he : r.engine? home = some e)
    (hsound : e.Sound) (hnext : home ≠ r.next) :
    ∃ f, r'.engine? home = some f ∧ f.Alike e ∧ f.Sound := by
  have hid := (engine?_eq_some he).2
  cases h with
  | engine hnew =>
    rw [engine_create_ok hnew]
    exact ⟨e, (engine?_cons_of_ne (Ne.symm hnext)).trans he, engine_alike_refl e, hsound⟩
  | @module id x hx src =>
    by_cases hhome : home = id
    · subst hhome
      rw [he] at hx
      rw [← Option.some.inj hx]
      exact ⟨_, engine?_load he src, engine_alike_load e src, engine_sound_load hsound src⟩
    · refine ⟨e, ?_, engine_alike_refl e, hsound⟩
      rw [engine?_setEngine_of_ne, he]
      rw [(engine_alike_load x src).id, (engine?_eq_some hx).2]
      exact hhome
  | @cleared id x hx =>
    by_cases hhome : home = id
    · subst hhome
      rw [he] at hx
      rw [← Option.some.inj hx]
      exact ⟨_, engine?_clear he, ⟨rfl, rfl, rfl, rfl⟩, cache_sound_clear _ _⟩
    · refine ⟨e, ?_, engine_alike_refl e, hsound⟩
      rw [engine?_setEngine_of_ne, he]
      change home ≠ x.id
      rw [(engine?_eq_some hx).2]
      exact hhome
  | _ => exact ⟨e, he, engine_alike_refl e, hsound⟩

end WasmEmbed
