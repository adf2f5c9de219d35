import WasmEmbed.Proofs.Realm.Lifetime

/-! How long a handle is good for. The handles of a store know it by a number that no other store
has and by a token that it gives up when it is destroyed, so they tell at any time what became of
it. -/
namespace WasmEmbed
variable {σ : Type}

/-- The handles that come with a reply. -/
def Answer.handles : Answer → List StoreRef
  | .reply (.ok (.instance i)) _ => i.store :: i.exports.map (·.2.store)
  | .reply (.ok (.item (some x))) _ => [x.store]
  | _ => []

/-- Whether a handle is one that the store gave out, with an instance made in it or an export looked
up in it. -/
def Issued (history : List (Event σ)) (store : Nat) (h : StoreRef) : Prop :=
  ∃ e ∈ history, (∃ u, e.request = .use store u) ∧ h ∈ e.answer.handles

variable {history later : List (Event σ)} {r r' : Realm σ} {q : Request σ} {a : Answer}
  {s t : Store σ} {id : Nat} {h : StoreRef} {i : Instance}

theorem issued_append {e : Event σ} {store : Nat} :
    Issued (history ++ [e]) store h ↔
      Issued history store h ∨ (∃ u, e.request = .use store u) ∧ h ∈ e.answer.handles :=
  exists_append

theorem ref_of_watched (hs : s.Watched) (href : s.ref = .ok h) : h = ⟨s.id, s.id + 1⟩ := by
  unfold Store.ref at href
  unfold Store.Watched at hs
  split at href
  · rename_i token htoken
    rw [htoken] at hs
    split at hs
    · rw [← Except.ok.inj href, Option.some.inj hs]
    · contradiction
  · contradiction

theorem issued_created (hr : Run history r) (hi : Issued history id h) : Created history id := by
  obtain ⟨e, he, ⟨u, hu⟩, _⟩ := hi
  exact named_created hr e he id (by rw [hu]; rfl)

theorem answer_of_instance? {e : Event σ} (hi : e.instance? = some i) :
    ∃ state, e.answer = .reply (.ok (.instance i)) state := by
  unfold Event.instance? at hi
  split at hi
  · rename_i j state ha
    rw [ha, Option.some.inj hi]
    exact ⟨state, rfl⟩
  · contradiction

/-- Only the use of a store gives an instance. -/
theorem instance_answers (h : r.Answers q a r') (hi : Event.instance? ⟨q, a⟩ = some i) :
    ∃ id u, q = .use id u := by
  cases h with
  | @used id s hs u => exact ⟨id, u, rfl⟩
  | @module _ e he src =>
    unfold Event.instance? at hi
    cases hm : (src.load e).1 with
    | error err =>
      rw [hm] at hi
      contradiction
    | ok m =>
      rw [hm] at hi
      contradiction
  | _ => contradiction

/-- An instance that the host got was issued by one store, and all its exports with it. -/
theorem instance_issued (hr : Run history r) (hi : i ∈ history.filterMap Event.instance?) :
    ∃ id, Issued history id i.store ∧ ∀ x ∈ i.exports, Issued history id x.2.store := by
  induction hr with
  | start world => exact absurd hi List.not_mem_nil
  | elsewhere before world ih => exact ih hi
  | @request history r before q given ih =>
    rw [List.filterMap_append, List.mem_append] at hi
    rcases hi with hi | hi
    · obtain ⟨id, hstore, hexports⟩ := ih hi
      exact ⟨id, exists_mono hstore _, fun x hx => exists_mono (hexports x hx) _⟩
    · -- the instance is the answer to the last request, and its exports come with it
      obtain ⟨e, he, hi⟩ := List.mem_filterMap.mp hi
      rw [List.mem_singleton.mp he] at hi
      obtain ⟨id, u, hq⟩ := instance_answers (perform_answers r q) hi
      obtain ⟨state, ha⟩ := answer_of_instance? hi
      have ha : (r.perform q).1 = .reply (.ok (.instance i)) state := ha
      have hissued (ref : StoreRef) (href : ref ∈ (r.perform q).1.handles) :
          Issued (history ++ [⟨q, (r.perform q).1⟩]) id ref :=
        issued_append.mpr (Or.inr ⟨⟨u, hq⟩, href⟩)
      rw [ha] at hissued ⊢
      refine ⟨id, hissued i.store List.mem_cons_self, ?_⟩
      intro x hx
      exact hissued x.2.store (List.mem_cons_of_mem _ (List.mem_map.mpr ⟨x, hx, rfl⟩))

/-- What a store gives out with an answer, if exports that are looked up are of instances whose
parts agree. -/
theorem handles_answers {u : Use σ} (hr : r.Consistent) (h : r.Answers (.use id u) a r')
    (hu : ∀ i name, u = .lookup i name →
      ∃ n, i.store = ⟨n, n + 1⟩ ∧ ∀ x ∈ i.exports, x.2.store = ⟨n, n + 1⟩) :
    ∀ ref ∈ a.handles, ref = ⟨id, id + 1⟩ := by
  intro ref href
  cases h with
  | noEngine hq => contradiction
  | noStore hq hs => exact absurd href List.not_mem_nil
  | refused hq e => contradiction
  | @used _ s hs u =>
    obtain ⟨hmem, hid⟩ := store?_eq_some hs
    cases hres : (s.perform r.world u).result with
    | error e =>
      rw [hres] at href
      exact absurd href List.not_mem_nil
    | ok reply =>
      rw [hres] at href
      rcases reply_cases hres with ⟨i, rfl, _, hstore, hexports⟩ | ⟨i, name, hlookup, rfl⟩ | hplain
      · have hstore : i.store = ⟨id, id + 1⟩ := by
          rw [ref_of_watched (hr.watched s hmem) hstore, hid]
        rcases List.mem_cons.mp href with rfl | href
        · exact hstore
        · obtain ⟨x, hx, rfl⟩ := List.mem_map.mp href
          rw [hexports x hx, hstore]
      · -- an export is found only with the store that the instance knows
        obtain ⟨n, hn, hexports⟩ := hu i name hlookup
        cases hx : i.get? s name with
        | none =>
          rw [hx] at href
          exact absurd href List.not_mem_nil
        | some x =>
          rw [hx] at href
          obtain ⟨howns, e, he, rfl⟩ := get?_eq_some hx
          have hnid : n = id := by
            rw [hn, hid] at howns
            exact howns
          rw [List.mem_singleton.mp href, hexports e he, hnid]
      · cases reply with
        | «instance» i => exact False.elim hplain
        | item x => exact False.elim hplain
        | _ => exact absurd href List.not_mem_nil

/-- Every handle that a store gave out knows it by its number and the token made for it. An export
that is looked up is of the store that the instance was issued by. -/
theorem issued_of_run (hr : Run history r) :
    ∀ id h, Issued history id h → h = ⟨id, id + 1⟩ := by
  induction hr with
  | start world =>
    rintro id h ⟨e, he, _⟩
    exact absurd he List.not_mem_nil
  | elsewhere before world ih => exact ih
  | @request history r before q given ih =>
    intro id h hissued
    rcases issued_append.mp hissued with hold | ⟨⟨u, hq⟩, hmem⟩
    · exact ih id h hold
    · have hq : q = .use id u := hq
      subst hq
      refine handles_answers (consistent_of_run before) (perform_answers r _) ?_ h hmem
      rintro i name rfl
      obtain ⟨n, hstore, hexports⟩ := instance_issued before given.2
      exact ⟨n, ih n _ hstore, fun x hx => ih n _ (hexports x hx)⟩

/-- The token is held just as long as the store is there and alive. -/
theorem isAlive_iff_status (hr : r.Consistent) (id : Nat) :
    r.isAlive ⟨id, id + 1⟩ = true ↔ r.status id = some true := by
  constructor
  · intro h
    obtain ⟨s, hs, hholds⟩ := List.any_eq_true.mp h
    have htoken := (holds_iff s (id + 1)).mp hholds
    have hwatched := hr.watched s hs
    unfold Store.Watched at hwatched
    rw [htoken] at hwatched
    cases halive : s.isAlive with
    | false =>
      rw [halive] at hwatched
      contradiction
    | true =>
      rw [halive] at hwatched
      have hid : id = s.id := Nat.succ.inj (Option.some.inj hwatched)
      rw [hid, Realm.status, store?_of_mem hr hs, ← halive]
      rfl
  · intro h
    obtain ⟨s, hs, halive⟩ := status_eq_some h
    obtain ⟨hmem, hid⟩ := store?_eq_some hs
    refine List.any_eq_true.mpr ⟨s, hmem, (holds_iff s (id + 1)).mpr ?_⟩
    have hwatched := hr.watched s hmem
    unfold Store.Watched at hwatched
    rw [hwatched, halive, hid]
    rfl

/-- A handle is alive exactly while its store is there and was never destroyed. -/
theorem isAlive_iff_of_issued (hr : Run history r) (hi : Issued history id h) :
    r.isAlive h = true ↔ ¬ Dropped history id ∧ ¬ Destroyed history id := by
  have hfate := status_of_run hr (issued_created hr hi)
  rw [issued_of_run hr id h hi, isAlive_iff_status (consistent_of_run hr)]
  generalize r.status id = status at hfate ⊢
  cases hfate with
  | dropped hd => exact ⟨fun h => by contradiction, fun h => absurd hd h.1⟩
  | destroyed _ hx => exact ⟨fun h => by simp at h, fun h => absurd hx h.2⟩
  | alive hd hx => exact ⟨fun _ => ⟨hd, hx⟩, fun _ => rfl⟩

/-- While the store is there, the handle says what the store says. -/
theorem isAlive_of_issued (hr : Run history r) (hi : Issued history id h)
    (hs : r.store? id = some s) : r.isAlive h = s.isAlive := by
  have hcreated := issued_created hr hi
  have hdead := dead_iff_destroyed hr hcreated hs
  have hpresent := (present_iff_not_dropped hr hcreated).mp ⟨s, hs⟩
  rw [Bool.eq_iff_iff, isAlive_iff_of_issued hr hi, and_iff_right hpresent, ← hdead,
    Bool.not_eq_false]

/-- What was asked for once stays in the history. -/
theorem not_isAlive_later (hr : Run history r) (hi : Issued history id h)
    (hr' : Run (history ++ later) r') (hdead : r.isAlive h = false) : r'.isAlive h = false := by
  have hlater := isAlive_iff_of_issued hr' (exists_mono hi later)
  rw [Bool.eq_false_iff, ne_eq, isAlive_iff_of_issued hr hi] at hdead
  rw [Bool.eq_false_iff, ne_eq, hlater]
  rintro ⟨hdrop, hdestroy⟩
  apply hdead
  constructor
  · intro hd
    exact hdrop (exists_mono hd later)
  · intro hx
    exact hdestroy (exists_mono hx later)

section Use
variable {u : Use σ} {kind : String}

/-- Using a thing of the store `id` with a store that is there ends in the way that its handle
demands. The store looks at the number first, and at what it holds then. -/
theorem use_of_issued (hr : Run history r) (hi : Issued history id h) (ht : t ∈ r.stores)
    (hu : u.handle? = some (kind, h)) :
    (t.id ≠ id ∧ (t.perform r.world u).result = .error (.storeMismatch kind)) ∨
      (t.id = id ∧ Destroyed history id ∧
        (t.perform r.world u).result = .error (.useAfterFree kind)) ∨
      (t.id = id ∧ ¬ Destroyed history id ∧ NeverStale (t.perform r.world u).result) := by
  have hid : h.id = id := by rw [issued_of_run hr id h hi]
  have hcreated := issued_created hr hi
  have hfound := store?_of_mem (consistent_of_run hr) ht
  have hgated := gated_perform t r.world hu
  rcases contentsFor_cases t h kind with ⟨hne, he⟩ | ⟨heq, hc, he⟩ | ⟨c, heq, hc, he⟩
  · rw [hid] at hne
    exact Or.inl ⟨Ne.symm hne, hgated.stale _ he⟩
  · rw [hid] at heq
    rw [← heq] at hfound
    have hdead := (isAlive_eq_false_iff t).mpr hc
    have hx := (dead_iff_destroyed hr hcreated hfound).mp hdead
    exact Or.inr (Or.inl ⟨heq.symm, hx, hgated.stale _ he⟩)
  · rw [hid] at heq
    rw [← heq] at hfound
    refine Or.inr (Or.inr ⟨heq.symm, ?_, hgated.live c he⟩)
    intro hx
    have hdead := (dead_iff_destroyed hr hcreated hfound).mpr hx
    rw [(isAlive_eq_false_iff t).mp hdead] at hc
    contradiction

/-- A handle is refused as one of another store just if it is. -/
theorem storeMismatch_iff (hr : Run history r) (hi : Issued history id h) (ht : t ∈ r.stores)
    (hu : u.handle? = some (kind, h)) :
    (t.perform r.world u).result = .error (.storeMismatch kind) ↔ t.id ≠ id := by
  rcases use_of_issued hr hi ht hu with ⟨hne, hres⟩ | ⟨heq, _, hres⟩ | ⟨heq, _, hres⟩
  · exact ⟨fun _ => hne, fun _ => hres⟩
  · rw [hres]
    refine ⟨fun h => ?_, fun h => absurd heq h⟩
    have herror := Except.error.inj h
    contradiction
  · refine ⟨fun h => ?_, fun h => absurd heq h⟩
    have hstale := hres _ h
    contradiction

/-- A handle is refused as stale just if its store was destroyed. -/
theorem useAfterFree_iff (hr : Run history r) (hi : Issued history id h) (ht : t ∈ r.stores)
    (hu : u.handle? = some (kind, h)) :
    (t.perform r.world u).result = .error (.useAfterFree kind) ↔
      t.id = id ∧ Destroyed history id := by
  rcases use_of_issued hr hi ht hu with ⟨hne, hres⟩ | ⟨heq, hx, hres⟩ | ⟨_, hx, hres⟩
  · rw [hres]
    refine ⟨fun h => ?_, fun h => absurd h.1 hne⟩
    have herror := Except.error.inj h
    contradiction
  · exact ⟨fun _ => ⟨heq, hx⟩, fun _ => hres⟩
  · refine ⟨fun h => ?_, fun h => absurd h.2 hx⟩
    have hstale := hres _ h
    contradiction

/-- As long as its store is alive, a handle is neither foreign nor stale. -/
theorem neverStale_of_issued (hr : Run history r) (hi : Issued history id h) (ht : t ∈ r.stores)
    (hu : u.handle? = some (kind, h)) (hid : t.id = id) (hx : ¬ Destroyed history id) :
    NeverStale (t.perform r.world u).result := by
  rcases use_of_issued hr hi ht hu with ⟨hne, _⟩ | ⟨_, hdestroyed, _⟩ | ⟨_, _, hres⟩
  · exact absurd hid hne
  · exact absurd hdestroyed hx
  · exact hres

end Use

/-- No export is found in another store, or in one that was destroyed. -/
theorem get?_of_issued (hr : Run history r) (hi : Issued history id i.store) (ht : t ∈ r.stores)
    (hstale : t.id ≠ id ∨ Destroyed history id) (name : String) : i.get? t name = none := by
  have hstore := issued_of_run hr id i.store hi
  have hcons := consistent_of_run hr
  unfold Instance.get?
  apply if_pos
  by_cases hid : t.id = id
  · -- the store is the instance's own, but does not hold the token any more
    right
    have hx := hstale.resolve_left fun hne => hne hid
    have hfound := store?_of_mem hcons ht
    rw [hid] at hfound
    have hdead := (dead_iff_destroyed hr (issued_created hr hi) hfound).mpr hx
    have hwatched := hcons.watched t ht
    unfold Store.Watched at hwatched
    rw [hdead] at hwatched
    rw [Store.holds, hwatched]
    rfl
  · left
    rw [Store.owns, hstore, beq_eq_false_iff_ne.mpr (Ne.symm hid)]
    rfl

theorem reply_error_iff {x : Except Error Reply} {e : Error} {s : Option FuncState} :
    (∃ state, Answer.reply x s = .reply (.error e) state) ↔ x = .error e := by
  constructor
  · rintro ⟨state, h⟩
    exact (Answer.reply.inj h).1
  · rintro rfl
    exact ⟨s, rfl⟩

/-- In every run, a handle that a store gave out is alive exactly while that store is there and has
not been destroyed, as the store itself says, and never again afterwards. Used with a store it is
refused as foreign exactly if that is another one, and as freed exactly if that is its own and was
destroyed; in both cases no export is found. -/
theorem handle_validity {history : List (Event σ)} {r : Realm σ} (hr : Run history r) {id : Nat}
    {h : StoreRef} (hi : Issued history id h) :
    (r.isAlive h = true ↔ (∃ s, r.store? id = some s) ∧ ¬ Destroyed history id) ∧
      ((∃ s, r.store? id = some s) ↔ ¬ Dropped history id) ∧
      (∀ s, r.store? id = some s → r.isAlive h = s.isAlive) ∧
      (∀ later r', Run (history ++ later) r' → r.isAlive h = false → r'.isAlive h = false) ∧
      (∀ t ∈ r.stores, ∀ u kind, u.handle? = some (kind, h) →
        ((∃ state, (r.perform (.use t.id u)).1 = .reply (.error (.storeMismatch kind)) state) ↔
          t.id ≠ id) ∧
        ((∃ state, (r.perform (.use t.id u)).1 = .reply (.error (.useAfterFree kind)) state) ↔
          t.id = id ∧ Destroyed history id) ∧
        (t.id = id → ¬ Destroyed history id → ∀ e state,
          (r.perform (.use t.id u)).1 = .reply (.error e) state → e.isStaleHandle = false)) ∧
      ∀ t ∈ r.stores, t.id ≠ id ∨ Destroyed history id → ∀ i : Instance, i.store = h → ∀ name,
        i.get? t name = none ∧ i.func? t name = none ∧ i.global? t name = none ∧
          i.memory? t name = none ∧ i.table? t name = none := by
  have hpresent := present_iff_not_dropped hr (issued_created hr hi)
  refine ⟨?_, hpresent, ?_, ?_, ?_, ?_⟩
  · rw [isAlive_iff_of_issued hr hi, hpresent]
  · intro s hs
    exact isAlive_of_issued hr hi hs
  · intro later r' hr' hdead
    exact not_isAlive_later hr hi hr' hdead
  · intro t ht u kind hu
    rw [perform_use (store?_of_mem (consistent_of_run hr) ht), reply_error_iff, reply_error_iff]
    refine ⟨storeMismatch_iff hr hi ht hu, useAfterFree_iff hr hi ht hu, ?_⟩
    intro hid hx e state h
    exact neverStale_of_issued hr hi ht hu hid hx e (Answer.reply.inj h).1
  · intro t ht hstale i hstore name
    rw [← hstore] at hi
    have hnone := get?_of_issued hr hi ht hstale name
    unfold Instance.func? Instance.global? Instance.memory? Instance.table?
    rw [hnone]
    exact ⟨rfl, rfl, rfl, rfl, rfl⟩

/-- The bytes of a module that exports a memory. -/
def memoryBytes : List UInt8 := [0, 97, 115, 109, 1, 0, 0, 0, 5, 3, 1, 0, 1, 7, 5, 1, 1, 109, 2, 0]

def memoryModule : Module where
  engine := 0
  artifact := { memories := [⟨1, none, false⟩], exports := [⟨"m", .memory, 0⟩] }
  exports := [⟨"m", .memory ⟨1, none, false⟩⟩]
  imports := []
  contentHash := SipHash.contentDigest memoryBytes

def memoryInstance : Instance :=
  ⟨⟨1, 2⟩, 0, memoryModule, [("m", .memory ⟨⟨1, 2⟩, "m", ⟨1, none, false⟩, 0⟩)]⟩

def memoryHistory : List (Event Unit) :=
  pairHistory ++ [⟨.compile 0 (.bytes memoryBytes), .reply (.ok (.module memoryModule)) none⟩,
    ⟨.use 1 (.instantiate memoryModule {}), .reply (.ok (.instance memoryInstance)) none⟩]

/-- The realm in which the memory was made, in the first of two stores. -/
def Realm.memory : Realm Unit := (Realm.pair.performAll
  [.compile 0 (.bytes memoryBytes), .use 1 (.instantiate memoryModule {})]).2

theorem run_memory_made : Run memoryHistory Realm.memory := by
  have hcompiled := run_pair.request (.compile 0 (.bytes memoryBytes)) List.mem_cons_self
  have hmodule : memoryModule ∈ (memoryHistory.take 4).filterMap Event.module? :=
    List.mem_filterMap.mpr ⟨(memoryHistory.take 4)[3], List.getElem_mem _, rfl⟩
  exact hcompiled.request (.use 1 (.instantiate memoryModule {}))
    ⟨List.mem_cons_self, hmodule, fun e he => absurd he List.not_mem_nil⟩

theorem run_memory : ∃ r, Run memoryHistory r ∧ ∃ s ∈ r.stores, s.id = 3 :=
  ⟨Realm.memory, run_memory_made, _, List.mem_cons_self, rfl⟩

/-- The memory that an instance in the first of two stores exports is used with the second. -/
theorem memory_with_other_store : ∃ (history : List (Event Unit)) (r : Realm Unit),
    Run history r ∧ Issued history 1 ⟨1, 2⟩ ∧ ∃ state,
      (r.perform (.use 3 (.memorySize ⟨⟨1, 2⟩, "m", ⟨1, none, false⟩, 0⟩))).1 =
        .reply (.error (.storeMismatch "memory")) state := by
  obtain ⟨r, hr, t, ht, hid⟩ := run_memory
  have hissued : Issued memoryHistory 1 ⟨1, 2⟩ :=
    ⟨memoryHistory[4], List.getElem_mem _, ⟨_, rfl⟩, List.mem_cons_self⟩
  refine ⟨memoryHistory, r, hr, hissued, ?_⟩
  obtain ⟨_, _, _, _, huse, _⟩ := handle_validity hr hissued
  have hforeign := (huse t ht (.memorySize ⟨⟨1, 2⟩, "m", ⟨1, none, false⟩, 0⟩) "memory" rfl).1
  rw [hid] at hforeign
  exact hforeign.mpr (by decide)

end WasmEmbed
