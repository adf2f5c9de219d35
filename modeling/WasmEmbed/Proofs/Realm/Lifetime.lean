import WasmEmbed.Proofs.Realm.Course
import WasmEmbed.Proofs.Store.Replies

/-! What becomes of a store in the course of a run. It is created once, with a number that no
request named before; it may be destroyed and dropped, and nothing brings it back. -/
namespace WasmEmbed
variable {σ : Type}

/-- A store was made, and got this number. -/
def Created (history : List (Event σ)) (store : Nat) : Prop :=
  store ∈ history.filterMap Event.store?

def Destroyed (history : List (Event σ)) (store : Nat) : Prop :=
  ∃ e ∈ history, e.request = .use store .destroy

def Dropped (history : List (Event σ)) (store : Nat) : Prop :=
  ∃ e ∈ history, e.request = .drop store

section Append
variable {history : List (Event σ)} {e : Event σ} {store : Nat}

theorem created_append :
    Created (history ++ [e]) store ↔ Created history store ∨ e.store? = some store := by
  rw [Created, Created, List.filterMap_append, List.mem_append, List.mem_filterMap (l := [e])]
  apply or_congr Iff.rfl
  constructor
  · rintro ⟨f, hf, h⟩
    rw [← List.mem_singleton.mp hf]
    exact h
  · intro h
    exact ⟨e, List.mem_singleton_self e, h⟩

theorem exists_append {p : Event σ → Prop} :
    (∃ f ∈ history ++ [e], p f) ↔ (∃ f ∈ history, p f) ∨ p e := by
  constructor
  · rintro ⟨f, hf, h⟩
    rcases List.mem_append.mp hf with hf | hf
    · exact Or.inl ⟨f, hf, h⟩
    · rw [← List.mem_singleton.mp hf]
      exact Or.inr h
  · rintro (⟨f, hf, h⟩ | h)
    · exact ⟨f, List.mem_append_left _ hf, h⟩
    · exact ⟨e, List.mem_append_right _ (List.mem_singleton_self e), h⟩

theorem exists_mono {p : Event σ → Prop} (h : ∃ f ∈ history, p f) (later : List (Event σ)) :
    ∃ f ∈ history ++ later, p f := by
  obtain ⟨f, hf, hp⟩ := h
  exact ⟨f, List.mem_append_left _ hf, hp⟩

theorem destroyed_append :
    Destroyed (history ++ [e]) store ↔ Destroyed history store ∨ e.request = .use store .destroy :=
  exists_append

theorem dropped_append :
    Dropped (history ++ [e]) store ↔ Dropped history store ∨ e.request = .drop store :=
  exists_append

end Append

/-- What is known of a number of a store: nothing if there is no such store, else whether the store
is alive. -/
def Realm.status (r : Realm σ) (store : Nat) : Option Bool := (r.store? store).map Store.isAlive

variable {history : List (Event σ)} {e : Event σ} {r r' : Realm σ} {q : Request σ} {a : Answer}
  {s : Store σ} {id : Nat}

theorem status_eq_some {b : Bool} (h : r.status id = some b) :
    ∃ s, r.store? id = some s ∧ s.isAlive = b := Option.map_eq_some_iff.mp h

theorem status_of_found (hs : r.store? id = some s) : r.status id = some s.isAlive := by
  rw [Realm.status, hs]
  rfl

/-- A store that is dropped is gone. -/
theorem status_drop (r : Realm σ) (store : Nat) :
    (r.perform (.drop store)).2.status store = none := by
  cases hs : r.store? store with
  | none =>
    rw [perform_drop_missing hs, Realm.status, hs]
    rfl
  | some s =>
    rw [perform_drop hs, Realm.status, store?_drop]
    rfl

/-- A store that is destroyed is dead, if it is there. -/
theorem status_destroy (r : Realm σ) (store : Nat) :
    (r.perform (.use store .destroy)).2.status store = (r.status store).map fun _ => false := by
  cases hs : r.store? store with
  | none =>
    rw [perform_use_missing hs, Realm.status, hs]
    rfl
  | some s =>
    rw [perform_use hs, status_of_found hs]
    exact status_of_found (store?_after hs .destroy)

/-- A request of another sort leaves a store as it is, or makes it. Only its own requests can touch
a store, and of these only destroying and dropping tell. -/
theorem status_other (h : r.Answers q a r') {store : Nat} (hdrop : q ≠ .drop store)
    (hdestroy : q ≠ .use store .destroy) : store = r.next ∨ r'.status store = r.status store := by
  by_cases hnext : store = r.next
  · exact Or.inl hnext
  · right
    by_cases hq : q.store? = some store
    · cases h with
      | @used id s hs u =>
        have hid : id = store := Option.some.inj hq
        subst hid
        have hu : u ≠ .destroy := fun hu => hdestroy (by rw [hu])
        rw [status_of_found (store?_after hs u), status_of_found hs, (perform_alike hu).alive]
      | @dropped id s hs =>
        have hid : id = store := Option.some.inj hq
        exact absurd (by rw [hid]) hdrop
      | noStore _ hs => rfl
      | noEngine hq' => rfl
      | refused hq' => rfl
      | _ => contradiction
    · rcases store?_answers h hq with ⟨_, _, _, _, hnew, _⟩ | hsame
      · exact absurd hnew hnext
      · rw [Realm.status, Realm.status, hsame]

/-- A store that is created gets the next number and is alive. No use of a store is answered with a
store. -/
theorem created_answers (h : r.Answers q a r') (hid : Event.store? ⟨q, a⟩ = some id) :
    q.store? = none ∧ id = r.next ∧ r.next < r'.next ∧ r'.status id = some true := by
  cases h with
  | @store _ limits e s he hs =>
    obtain ⟨c, _, rfl⟩ := store_create_ok hs
    have hn : id = r.next := (Option.some.inj hid).symm
    refine ⟨rfl, hn, Nat.lt_add_of_pos_right (by decide), ?_⟩
    rw [hn, Realm.status, store?_cons_self]
    rfl
  | @module _ e he src =>
    unfold Event.store? at hid
    cases hm : (src.load e).1 with
    | error err =>
      rw [hm] at hid
      contradiction
    | ok m =>
      rw [hm] at hid
      contradiction
  | @used _ s hs u =>
    unfold Event.store? at hid
    cases hres : (s.perform r.world u).result with
    | error e =>
      rw [hres] at hid
      contradiction
    | ok reply =>
      rw [hres] at hid
      rcases reply_cases hres with ⟨i, rfl, _⟩ | ⟨i, name, _, rfl⟩ | hplain
      · contradiction
      · contradiction
      · cases reply with
        | store n => exact False.elim hplain
        | _ => contradiction
  | _ => contradiction

/-- Only stores that were made before are named by a request. -/
theorem named_created (hr : Run history r) :
    ∀ e ∈ history, ∀ id, e.request.store? = some id → Created history id := by
  induction hr with
  | start world => exact fun e he => absurd he List.not_mem_nil
  | elsewhere before world ih => exact ih
  | @request history r before q given ih =>
    intro e he id hid
    rw [created_append]
    left
    rcases List.mem_append.mp he with he | he
    · exact ih e he id hid
    · rw [List.mem_singleton.mp he] at hid
      cases q with
      | use store u =>
        rw [← Option.some.inj hid]
        exact given.1
      | drop store =>
        rw [← Option.some.inj hid]
        exact given
      | _ => contradiction

/-- Stores have numbers that were given out. -/
theorem created_below (hr : Run history r) (hid : Created history id) : id < r.next := by
  induction hr with
  | start world => exact absurd hid List.not_mem_nil
  | elsewhere before world ih => exact ih hid
  | @request history r before q given ih =>
    have hans := perform_answers r q
    rcases created_append.mp hid with hid | hid
    · exact Nat.lt_of_lt_of_le (ih hid) (next_le_answers hans)
    · obtain ⟨_, hn, hlt, _⟩ := created_answers hans hid
      rw [hn]
      exact hlt

/-- Before a store is made nothing is counted that is about it. A request names only stores that
were made before it, so their numbers are below the next one. -/
theorem countP_new {p : Event σ → Bool} (hp : ∀ e, p e = true → e.request.store? = some id)
    (hr : Run history r) (hid : r.next ≤ id) : history.countP p = 0 := by
  rw [List.countP_eq_zero]
  intro e he h
  have hcreated := named_created hr e he id (hp e h)
  have hbelow := created_below hr hcreated
  omega

/-- What a history tells of the status of a store that was created in it: the store is gone once it
is dropped, and as long as it is not, it is alive until it is destroyed. -/
inductive Fate (history : List (Event σ)) (id : Nat) : Option Bool → Prop where
  | dropped (hd : Dropped history id) : Fate history id none
  | destroyed (hd : ¬ Dropped history id) (hx : Destroyed history id) : Fate history id (some false)
  | alive (hd : ¬ Dropped history id) (hx : ¬ Destroyed history id) : Fate history id (some true)

theorem fate_drop (he : e.request = .drop id) : Fate (history ++ [e]) id none :=
  .dropped (dropped_append.mpr (Or.inr he))

/-- Destroying a store seals its fate. -/
theorem fate_destroy {status : Option Bool} (h : Fate history id status)
    (he : e.request = .use id .destroy) :
    Fate (history ++ [e]) id (status.map fun _ => false) := by
  have hx : Destroyed (history ++ [e]) id := destroyed_append.mpr (Or.inr he)
  have hkept (hd : ¬ Dropped history id) : ¬ Dropped (history ++ [e]) id := by
    rw [dropped_append, he]
    rintro (hdrop | hdrop)
    · exact hd hdrop
    · contradiction
  cases h with
  | dropped hd => exact .dropped (dropped_append.mpr (Or.inl hd))
  | destroyed hd _ => exact .destroyed (hkept hd) hx
  | alive hd _ => exact .destroyed (hkept hd) hx

theorem fate_other {status : Option Bool} (h : Fate history id status)
    (hdrop : e.request ≠ .drop id) (hdestroy : e.request ≠ .use id .destroy) :
    Fate (history ++ [e]) id status := by
  have hd : Dropped (history ++ [e]) id ↔ Dropped history id := by
    rw [dropped_append]
    exact or_iff_left hdrop
  have hx : Destroyed (history ++ [e]) id ↔ Destroyed history id := by
    rw [destroyed_append]
    exact or_iff_left hdestroy
  cases h with
  | dropped h => exact .dropped (hd.mpr h)
  | destroyed h k => exact .destroyed (mt hd.mp h) (hx.mpr k)
  | alive h k => exact .alive (mt hd.mp h) (mt hx.mp k)

/-- A store that was not there before has been named by no request, not even by the last one. -/
theorem fate_new (hr : Run history r) (hid : ¬ Created history id) (he : e.request.store? = none) :
    Fate (history ++ [e]) id (some true) := by
  apply Fate.alive
  · rw [dropped_append]
    rintro (⟨f, hf, hdrop⟩ | hdrop)
    · exact hid (named_created hr f hf id (by rw [hdrop]; rfl))
    · rw [hdrop] at he
      contradiction
  · rw [destroyed_append]
    rintro (⟨f, hf, hdestroy⟩ | hdestroy)
    · exact hid (named_created hr f hf id (by rw [hdestroy]; rfl))
    · rw [hdestroy] at he
      contradiction

/-- What became of a store that was created is what was asked of it. Each request is about a store
that was there before, or makes it. -/
theorem status_of_run (hr : Run history r) (hid : Created history id) :
    Fate history id (r.status id) := by
  induction hr with
  | start world => exact absurd hid List.not_mem_nil
  | elsewhere before world ih => exact ih hid
  | @request history r before q given ih =>
    have hans := perform_answers r q
    by_cases hold : Created history id
    · by_cases hdrop : q = .drop id
      · have hstatus := status_drop r id
        rw [← hdrop] at hstatus
        rw [hstatus]
        exact fate_drop hdrop
      · by_cases hdestroy : q = .use id .destroy
        · have hstatus := status_destroy r id
          rw [← hdestroy] at hstatus
          rw [hstatus]
          exact fate_destroy (ih hold) hdestroy
        · have hlt := created_below before hold
          have hstatus := (status_other hans hdrop hdestroy).resolve_left (Nat.ne_of_lt hlt)
          rw [hstatus]
          exact fate_other (ih hold) hdrop hdestroy
    · -- the request made the store
      have hnew := (created_append.mp hid).resolve_left hold
      obtain ⟨hq, _, _, hstatus⟩ := created_answers hans hnew
      rw [hstatus]
      exact fate_new before hold hq

/-- A store is dead just if it was destroyed. -/
theorem dead_iff_destroyed (hr : Run history r) (hid : Created history id)
    (hs : r.store? id = some s) : s.isAlive = false ↔ Destroyed history id := by
  have hfate := status_of_run hr hid
  rw [status_of_found hs] at hfate
  generalize s.isAlive = alive at hfate
  cases hfate with
  | destroyed _ hx => exact ⟨fun _ => hx, fun _ => rfl⟩
  | alive _ hx => exact ⟨fun h => by contradiction, fun h => absurd h hx⟩

/-- A store that was made is there just if it was not dropped. -/
theorem present_iff_not_dropped (hr : Run history r) (hid : Created history id) :
    (∃ s, r.store? id = some s) ↔ ¬ Dropped history id := by
  have hfate := status_of_run hr hid
  cases hs : r.store? id with
  | none =>
    rw [Realm.status, hs] at hfate
    cases hfate with
    | dropped hd => exact ⟨fun ⟨s, h⟩ => by contradiction, fun h => absurd hd h⟩
  | some s =>
    rw [status_of_found hs] at hfate
    generalize s.isAlive = alive at hfate
    cases hfate with
    | destroyed hd _ => exact ⟨fun _ => hd, fun _ => ⟨s, rfl⟩⟩
    | alive hd _ => exact ⟨fun _ => hd, fun _ => ⟨s, rfl⟩⟩

/-- What is true of a store when it is made, goes on being true when it is used, and is not touched by
requests about other things. -/
structure Kept (id : Nat) (P : List (Event σ) → Store σ → Prop) : Prop where
  made : ∀ {history : List (Event σ)} {r : Realm σ} {q : Request σ} {s : Store σ} {e : Engine}
    {limits : StoreConfig}, Run history r → q.Given history → q.store? ≠ some id → r.next = id →
    Store.create id (id + 1) e limits = .ok s → P (history ++ [⟨q, (r.perform q).1⟩]) s
  used : ∀ {history : List (Event σ)} {r : Realm σ} {u : Use σ} {s : Store σ}, Run history r →
    (Request.use id u).Given history → r.store? id = some s → P history s →
    P (history ++ [⟨.use id u, (r.perform (.use id u)).1⟩]) (s.perform r.world u).store
  other : ∀ {history : List (Event σ)} {r : Realm σ} {q : Request σ} {s : Store σ}, Run history r →
    q.Given history → q.store? ≠ some id → r.store? id = some s → P history s →
    P (history ++ [⟨q, (r.perform q).1⟩]) s

/-- What is kept by the events of a run is kept along every course that has them. -/
theorem keptAlong_of_kept {P : List (Event σ) → Store σ → Prop} (hP : Kept id P) :
    KeptAlong id fun ms s => P (ms.map Moment.event) s where
  made := by
    intro ms r q s e limits h given hq hopens hnext
    have hcreated := hopens.created
    rw [hnext] at hcreated
    rw [List.map_append]
    exact hP.made (run_of_course h) given hq hnext hcreated
  used := by
    intro ms r u s h given hs hk
    rw [List.map_append]
    exact hP.used (run_of_course h) given hs hk
  other := by
    intro ms r q s h given hq hs hk
    rw [List.map_append]
    exact hP.other (run_of_course h) given hq hs hk

/-- What every request keeps holds in every run. -/
theorem kept_of_run {P : List (Event σ) → Store σ → Prop} (hP : Kept id P) (hr : Run history r)
    (hs : r.store? id = some s) : P history s := by
  obtain ⟨ms, hms, h⟩ := course_of_run hr
  rw [← hms]
  exact kept_of_course (keptAlong_of_kept hP) h hs

end WasmEmbed
