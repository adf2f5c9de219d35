import WasmEmbed.Proofs.Instance.Attempt
import WasmEmbed.Proofs.Realm.Validity

/-! The numbers of instances. A store counts the attempts that pass linking, and an instance has the
number of those made before it, so that numbers go up and none is given twice, however many attempts
fail. -/
namespace WasmEmbed
variable {σ : Type}

/-- The event is an attempt to make an instance in the store that passed linking: it gave an
instance, or failed in a way that is no refusal. -/
def Event.attempts (store : Nat) (e : Event σ) : Bool :=
  match e.request, e.answer with
  | .use id (.instantiate _ _), .reply (.ok _) _ => id == store
  | .use id (.instantiate _ _), .reply (.error err) _ => id == store && !err.isRefusal
  | _, _ => false

/-- The event made an instance in the store. -/
def Event.Makes (store : Nat) (i : Instance) (e : Event σ) : Prop :=
  (∃ m imports, e.request = .use store (.instantiate m imports)) ∧ e.instance? = some i

variable {history : List (Event σ)} {r r' : Realm σ} {q : Request σ} {a : Answer} {s : Store σ}
  {c d : Contents σ} {id : Nat} {e : Event σ} {i : Instance}

theorem store?_of_attempts (h : e.attempts id = true) : e.request.store? = some id := by
  obtain ⟨q, a⟩ := e
  unfold Event.attempts at h
  split at h
  · rename_i hq _
    rw [hq]
    exact congrArg some (beq_iff_eq.mp h)
  · rename_i hq _
    rw [Bool.and_eq_true] at h
    rw [hq]
    exact congrArg some (beq_iff_eq.mp h.1)
  · contradiction

theorem not_attempts (hq : q.store? ≠ some id) : Event.attempts id ⟨q, a⟩ = false := by
  rw [Bool.eq_false_iff]
  exact fun h => hq (store?_of_attempts h)

theorem attempts_of_makes (h : e.Makes id i) : e.attempts id = true := by
  obtain ⟨q, a⟩ := e
  obtain ⟨⟨m, imports, hq⟩, hi⟩ := h
  have hq : q = .use id (.instantiate m imports) := hq
  obtain ⟨state, ha⟩ := answer_of_instance? hi
  have ha : a = .reply (.ok (.instance i)) state := ha
  rw [hq, ha]
  exact beq_self_eq_true id

/-- An attempt counts as one exactly if it uses up a number. -/
theorem next_attempt {m : Module} {imports : Imports σ} {out : Answer × Realm σ}
    (hs : r.store? s.id = some s) (h : Instance.Attempt s m imports r out) {t : Store σ}
    (ht : out.2.store? s.id = some t) (hd : t.contents = some d) :
    ∃ c, s.contents = some c ∧ d.nextInstance =
      c.nextInstance +
        if Event.attempts s.id ⟨.use s.id (.instantiate m imports), out.1⟩ then 1 else 0 := by
  have hset (d' : Contents σ) (world : σ) :
      ({ r.setStore (s.withContents d') with world } : Realm σ).store? s.id =
        some (s.withContents d') := store?_setStore (s := s.withContents d') hs
  have hrefused (ht : r.store? s.id = some t) : s.contents = some d := by
    rw [hs] at ht
    rw [Option.some.inj ht]
    exact hd
  cases h with
  | destroyed halive => exact ⟨d, hrefused ht, by simp [Event.attempts, Error.isRefusal]⟩
  | otherEngine halive hm => exact ⟨d, hrefused ht, by simp [Event.attempts, Error.isRefusal]⟩
  | foreign halive hm hf => exact ⟨d, hrefused ht, by simp [Event.attempts, Error.isRefusal]⟩
  | unlinked halive hm hown hsat => exact ⟨d, hrefused ht, by simp [Event.attempts, Error.isRefusal]⟩
  | @failed c d' e world hc hm hown hsat he hattempted =>
    have hstore := Option.some.inj ((hset d' world).symm.trans ht)
    rw [← hstore] at hd
    rw [← Option.some.inj hd]
    refine ⟨c, hc, ?_⟩
    rw [hattempted.next]
    simp [Event.attempts, he]
  | @made c d' i world hc hm hown hsat hi hattempted =>
    have hstore := Option.some.inj ((hset d' world).symm.trans ht)
    rw [← hstore] at hd
    rw [← Option.some.inj hd]
    refine ⟨c, hc, ?_⟩
    rw [hattempted.next]
    simp [Event.attempts]

/-- What a use of the store does to the number of the next instance is told by the event. -/
theorem next_used (hr : r.Consistent) (hs : r.store? id = some s) (u : Use σ)
    (hd : (s.perform r.world u).store.contents = some d) :
    ∃ c, s.contents = some c ∧ d.nextInstance =
      c.nextInstance + if Event.attempts id ⟨.use id u, (r.perform (.use id u)).1⟩ then 1 else 0 := by
  obtain ⟨hmem, hid⟩ := store?_eq_some hs
  subst hid
  by_cases hu : ∃ m imports, u = .instantiate m imports
  · obtain ⟨m, imports, rfl⟩ := hu
    have hattempt := create_attempt hr hmem m imports
    refine next_attempt hs hattempt ?_ hd
    rw [perform_use hs]
    exact store?_after hs _
  · obtain ⟨c, _, hc, _, hnext⟩ := perform_contents (fun m imports h => hu ⟨m, imports, h⟩) hd
    refine ⟨c, hc, ?_⟩
    have hother (a : Answer) : Event.attempts s.id ⟨.use s.id u, a⟩ = false := by
      cases u with
      | «instantiate» m imports => exact absurd ⟨m, imports, rfl⟩ hu
      | _ => rfl
    rw [hother]
    exact hnext

theorem next_created {token : Nat} {engine : Engine} {limits : StoreConfig}
    (h : Store.create id token engine limits = .ok s) (hc : s.contents = some c) :
    c.nextInstance = 0 := by
  rw [store_create_eq h] at hc
  rw [← Option.some.inj hc]
  rfl

/-- A store that is new counts from zero, and no request has named it yet. -/
theorem kept_next (id : Nat) :
    Kept (σ := σ) id fun history s => ∀ c, s.contents = some c →
      c.nextInstance = history.countP (Event.attempts id) where
  made := by
    intro history r q s e limits hr given hq hnext hnew c hc
    rw [List.countP_append, List.countP_singleton, not_attempts hq,
      countP_new (fun _ => store?_of_attempts) hr (Nat.le_of_eq hnext), next_created hnew hc]
    rfl
  used := by
    intro history r u s hr given hs hk c hc
    obtain ⟨c₀, hc₀, hnext⟩ := next_used (consistent_of_run hr) hs u hc
    rw [List.countP_append, List.countP_singleton, hnext, hk c₀ hc₀]
  other := by
    intro history r q s hr given hq hs hk c hc
    rw [List.countP_append, List.countP_singleton, not_attempts hq, hk c hc]
    rfl

/-- The number of the next instance is the number of attempts so far that passed linking. -/
theorem next_of_run (hr : Run history r) (hs : r.store? id = some s) (hc : s.contents = some c) :
    c.nextInstance = history.countP (Event.attempts id) :=
  kept_of_run (kept_next id) hr hs c hc

/-- Every event of a run is the answer, of the realm that the events before it led to, to a request
that the host could make. The event is the last one, or is one of those before. -/
theorem run_split (hr : Run history r) :
    ∀ before after, history = before ++ e :: after →
      ∃ r₀, Run before r₀ ∧ e.request.Given before ∧ e.answer = (r₀.perform e.request).1 := by
  induction hr with
  | start world =>
    intro before after h
    exact absurd h.symm (List.append_ne_nil_of_right_ne_nil before (List.cons_ne_nil e after))
  | elsewhere earlier world ih => exact ih
  | @request history r earlier q given ih =>
    intro before after h
    rcases List.eq_nil_or_concat after with rfl | ⟨after, f, rfl⟩
    · obtain ⟨rfl, hlast⟩ := List.append_inj' h rfl
      rw [← List.singleton_inj.mp hlast]
      exact ⟨r, earlier, given, rfl⟩
    · rw [List.concat_eq_append, ← List.cons_append, ← List.append_assoc] at h
      exact ih before after (List.append_inj' h rfl).1

/-- An instance has the number of attempts before it. -/
theorem id_of_makes (hr : Run history r) {before after : List (Event σ)}
    (hsplit : history = before ++ e :: after) (h : e.Makes id i) :
    i.id = before.countP (Event.attempts id) := by
  obtain ⟨r₀, hr₀, _, ha⟩ := run_split hr before after hsplit
  obtain ⟨⟨m, imports, hq⟩, hi⟩ := h
  obtain ⟨state, hanswer⟩ := answer_of_instance? hi
  rw [hq, hanswer] at ha
  cases hs : r₀.store? id with
  | none =>
    rw [perform_use_missing hs] at ha
    contradiction
  | some s =>
    obtain ⟨hmem, hid⟩ := store?_eq_some hs
    subst hid
    have hattempt := create_attempt (consistent_of_run hr₀) hmem m imports
    generalize hout : r₀.perform (.use s.id (.instantiate m imports)) = out at ha hattempt
    cases hattempt with
    | @made c d j world hc _ _ _ hj _ _ =>
      have hij : i = j := by
        have hreply := (Answer.reply.inj ha).1
        exact Reply.instance.inj (Except.ok.inj hreply)
      rw [hij, hj, next_of_run hr₀ hs hc]
    | _ => nomatch (Answer.reply.inj ha).1

/-- Of two instances made in a store, the later one has the greater number. -/
theorem id_lt_id (hr : Run history r) {before between after : List (Event σ)} {f : Event σ}
    {j : Instance} (hsplit : history = before ++ e :: (between ++ f :: after))
    (hi : e.Makes id i) (hj : f.Makes id j) : i.id < j.id := by
  have hsplit' : history = (before ++ e :: between) ++ f :: after := by
    rw [hsplit, List.append_assoc, List.cons_append]
  rw [id_of_makes hr hsplit hi, id_of_makes hr hsplit' hj, List.countP_append,
    List.countP_cons_of_pos (attempts_of_makes hi)]
  omega

/-- In every run, an attempt to make an instance in a store is refused for the first that applies of
a destroyed store, a module of another engine, an import of another store and imports that do not
fit, and then leaves the realm as it was. One that passes linking and gives no instance uses up one
number, counts a trap if that is what it reports, and leaves all that was there to be used. The
number of an instance is that of the attempts before it that passed linking, so that numbers go up.
-/
theorem instantiation_outcomes {history : List (Event σ)} {r : Realm σ} (hr : Run history r) :
    (∀ s ∈ r.stores, ∀ m imports,
      Instance.Attempt s m imports r (r.perform (.use s.id (.instantiate m imports)))) ∧
    (∀ s ∈ r.stores, ∀ c, s.contents = some c →
      c.nextInstance = history.countP (Event.attempts s.id)) ∧
    (∀ before e after, history = before ++ e :: after → ∀ id i, e.Makes id i →
      i.id = before.countP (Event.attempts id)) ∧
    ∀ before e between f after, history = before ++ e :: (between ++ f :: after) →
      ∀ id i j, e.Makes id i → f.Makes id j → i.id < j.id := by
  have hcons := consistent_of_run hr
  refine ⟨?_, ?_, ?_, ?_⟩
  · intro s hs m imports
    exact create_attempt hcons hs m imports
  · intro s hs c hc
    exact next_of_run hr (store?_of_mem hcons hs) hc
  · intro before e after hsplit id i hi
    exact id_of_makes hr hsplit hi
  · intro before e between f after hsplit id i j hi hj
    exact id_lt_id hr hsplit hi hj

/-- The bytes of a module with data for a memory that is empty. -/
def overfullBytes : List UInt8 :=
  [0, 97, 115, 109, 1, 0, 0, 0, 5, 3, 1, 0, 0, 11, 7, 1, 0, 65, 0, 11, 1, 97]

def overfullModule : Module where
  engine := 0
  artifact := { memories := [⟨0, none, false⟩], datas := [⟨[97], .active none [.const (.i32 0)]⟩] }
  exports := []
  imports := []
  contentHash := SipHash.contentDigest overfullBytes

/-- The instance that is made in the first store after an attempt that trapped. -/
def secondInstance : Instance :=
  ⟨⟨1, 2⟩, 1, memoryModule, [("m", .memory ⟨⟨1, 2⟩, "m", ⟨1, none, false⟩, 1⟩)]⟩

def retryHistory : List (Event Unit) :=
  pairHistory ++ [⟨.compile 0 (.bytes overfullBytes), .reply (.ok (.module overfullModule)) none⟩,
    ⟨.use 1 (.instantiate overfullModule {}), .reply (.error (.trap (some "MemoryOutOfBounds")
      "wasm trap: out of bounds memory access" true)) none⟩,
    ⟨.clearCache 0, .reply (.ok .done) none⟩,
    ⟨.compile 0 (.bytes memoryBytes), .reply (.ok (.module memoryModule)) none⟩,
    ⟨.use 1 (.instantiate memoryModule {}), .reply (.ok (.instance secondInstance)) none⟩]

/-- One instance is attempted in vain, and another is made after the cache was cleared. -/
theorem run_retry : ∃ r, Run retryHistory r := by
  have hcompiled : Run (retryHistory.take 4) _ :=
    run_pair.request (.compile 0 (.bytes overfullBytes)) List.mem_cons_self
  have hmodule : overfullModule ∈ (retryHistory.take 4).filterMap Event.module? :=
    List.mem_filterMap.mpr ⟨(retryHistory.take 4)[3], List.getElem_mem _, rfl⟩
  have hfailed : Run (retryHistory.take 5) _ :=
    hcompiled.request (.use 1 (.instantiate overfullModule {}))
      ⟨List.mem_cons_self, hmodule, fun e he => absurd he List.not_mem_nil⟩
  have hcleared : Run (retryHistory.take 6) _ := hfailed.request (.clearCache 0) List.mem_cons_self
  have hcompiled : Run (retryHistory.take 7) _ :=
    hcleared.request (.compile 0 (.bytes memoryBytes)) List.mem_cons_self
  have hmodule : memoryModule ∈ (retryHistory.take 7).filterMap Event.module? :=
    List.mem_filterMap.mpr ⟨(retryHistory.take 7)[6], List.getElem_mem _, rfl⟩
  have hmade : Run retryHistory _ := hcompiled.request (.use 1 (.instantiate memoryModule {}))
    ⟨List.mem_cons_self, hmodule, fun e he => absurd he List.not_mem_nil⟩
  exact ⟨_, hmade⟩

/-- The number after that of an attempt that trapped is one. -/
theorem second_after_trap : ∃ r, Run retryHistory r ∧ retryHistory[7].Makes 1 secondInstance ∧
    secondInstance.id = (retryHistory.take 7).countP (Event.attempts 1) := by
  obtain ⟨r, hr⟩ := run_retry
  have hmakes : retryHistory[7].Makes 1 secondInstance := ⟨⟨memoryModule, {}, rfl⟩, rfl⟩
  obtain ⟨_, _, hid, _⟩ := instantiation_outcomes hr
  exact ⟨r, hr, hmakes, hid (retryHistory.take 7) retryHistory[7] [] rfl 1 secondInstance hmakes⟩

end WasmEmbed
