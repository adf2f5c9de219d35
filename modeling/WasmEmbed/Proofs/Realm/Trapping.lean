import WasmEmbed.Proofs.Realm.Accounting

/-! The traps that a store counts over whole runs. They are the calls and instantiations that are
answered with a trap, and besides these the calls that are answered that fuel ran out. An
instantiation that runs out of fuel is not counted. -/
namespace WasmEmbed
variable {σ : Type}

namespace Event

/-- The store is used in a way, and answers so, that `p` holds of both. -/
def uses (p : Except Error Reply → Use σ → Bool) (id : Nat) (e : Event σ) : Bool :=
  match e.request, e.answer with
  | .use store u, .reply result _ => store == id && p result u
  | _, _ => false

/-- A call or an instantiation in the store is answered with a trap. -/
def traps (id : Nat) : Event σ → Bool := Event.uses Use.traps id

/-- A call in the store is answered that fuel ran out. -/
def starves (id : Nat) : Event σ → Bool := Event.uses Use.starves id

end Event

variable {history : List (Event σ)} {r : Realm σ} {q : Request σ} {s : Store σ} {c d : Contents σ}
  {id : Nat} {u : Use σ} {p : Except Error Reply → Use σ → Bool} {n : Metrics}

theorem store?_of_uses {e : Event σ} (h : e.uses p id = true) : e.request.store? = some id := by
  obtain ⟨q, a⟩ := e
  unfold Event.uses at h
  split at h
  · rename_i hq _
    rw [hq]
    exact congrArg some (beq_iff_eq.mp (Bool.and_eq_true_iff.mp h).1)
  · contradiction

theorem uses_use (hs : r.store? id = some s) (u : Use σ) :
    Event.uses p id ⟨.use id u, (r.perform (.use id u)).1⟩ =
      p (s.perform r.world u).result u := by
  rw [perform_use hs]
  unfold Event.uses
  dsimp only
  rw [beq_self_eq_true]
  rfl

theorem countP_uses_snoc {e : Event σ} (he : e.request.store? ≠ some id) :
    (history ++ [e]).countP (Event.uses p id) = history.countP (Event.uses p id) := by
  have hnot : e.uses p id = false := Bool.eq_false_iff.mpr fun h => he (store?_of_uses h)
  rw [List.countP_append, List.countP_singleton, hnot]
  rfl

/-- Nothing is counted for a store that is yet to be made. -/
theorem countP_uses_new (hr : Run history r) (hid : r.next ≤ id) :
    history.countP (Event.uses p id) = 0 := countP_new (fun _ => store?_of_uses) hr hid

/-- What runs out is left with no fuel, which is not the same as being without a meter. -/
theorem not_starves {result : Except Error Reply} {before after : Option Nat}
    (h : u.Leaves result before after) (hnone : before = none) : u.starves result = false := by
  have hmetered := isSome_of_leaves h
  rw [Bool.eq_false_iff]
  intro hstarves
  have hresult (hfails : failsBy Error.isExhausted result = true) :
      result = .error .resourceExhausted := by
    cases result with
    | ok reply => contradiction
    | error e =>
      cases e with
      | resourceExhausted => rfl
      | _ => contradiction
  cases h with
  | set amount => contradiction
  | executed hu hburns hstarved =>
    cases hu with
    | call f args =>
      rw [hstarved (hresult hstarves), hnone] at hmetered
      contradiction
    | callTyped f args =>
      rw [hstarved (hresult hstarves), hnone] at hmetered
      contradiction
    | «instantiate» m imports => contradiction
  | other hset hu =>
    cases u with
    | call f args => exact hu false (.call f args)
    | callTyped f args => exact hu false (.callTyped f args)
    | _ => contradiction

/-- The traps counted so far, of which without a meter none is for want of fuel. -/
def Contents.Traps (c : Contents σ) (history : List (Event σ)) (id : Nat) : Prop :=
  c.metrics.traps = history.countP (Event.traps id) + history.countP (Event.starves id) ∧
    (c.fuel = none → history.countP (Event.starves id) = 0)

/-- A use counts a trap just if it is answered with one, or if a call runs out of fuel. -/
theorem traps_used (hs : r.store? id = some s)
    (hk : ∀ c, s.contents = some c → c.Traps history id)
    (hd : (s.perform r.world u).store.contents = some d) :
    d.Traps (history ++ [⟨.use id u, (r.perform (.use id u)).1⟩]) id := by
  obtain ⟨c, hc, hleaves, hcounts⟩ := perform_counts hd
  obtain ⟨htraps, hstarves⟩ := hk c hc
  unfold Event.starves at hstarves
  unfold Event.traps Event.starves at htraps
  have htrap := uses_use (p := Use.traps) hs u
  have hstarve := uses_use (p := Use.starves) hs u
  unfold Contents.Traps Event.traps Event.starves
  rw [List.countP_append, List.countP_singleton, htrap, List.countP_append, List.countP_singleton,
    hstarve]
  refine ⟨?_, fun hnone => ?_⟩
  · have hcount := hcounts.traps
    omega
  · have hmetered := isSome_of_leaves hleaves
    rw [hnone] at hmetered
    have hbefore : c.fuel = none := Option.isNone_iff_eq_none.mp (by simpa using hmetered.symm)
    rw [hstarves hbefore, not_starves hleaves hbefore]
    rfl

/-- Every use keeps the count of traps. -/
theorem kept_traps (id : Nat) :
    Kept (σ := σ) id fun history s => ∀ c, s.contents = some c → c.Traps history id where
  made := by
    intro history r q s e limits hr given hq hnext hnew c hc
    have hnone (p : Except Error Reply → Use σ → Bool) :
        List.countP (Event.uses p id) (history ++ [⟨q, (r.perform q).1⟩]) = 0 := by
      rw [countP_uses_snoc hq, countP_uses_new hr (Nat.le_of_eq hnext)]
    rw [store_create_eq hnew] at hc
    rw [← Option.some.inj hc]
    refine ⟨?_, fun _ => hnone Use.starves⟩
    unfold Event.traps Event.starves
    rw [hnone, hnone]
    rfl
  used := by
    intro history r u s hr given hs hk d hd
    exact traps_used hs hk hd
  other := by
    intro history r q s hr given hq hs hk c hc
    unfold Contents.Traps Event.traps Event.starves
    rw [countP_uses_snoc hq, countP_uses_snoc hq]
    exact hk c hc

/-- In every run, the traps that a live store counts are the calls and instantiations in it that were
answered with a trap, together with the calls that were answered that fuel ran out; instantiations
that were answered so are left out. Where the engine does not meter, they are just the answers that
are traps. -/
theorem traps_accounted (hr : Run history r) (hs : s ∈ r.stores) (hn : s.metrics = .ok n) :
    n.traps = history.countP (Event.traps s.id) + history.countP (Event.starves s.id) ∧
      (s.config.consumeFuel = false → n.traps = history.countP (Event.traps s.id)) := by
  have hfound := store?_of_mem (consistent_of_run hr) hs
  obtain ⟨c, hc, rfl⟩ := metrics_ok hn
  obtain ⟨htraps, hstarves⟩ := kept_of_run (kept_traps s.id) hr hfound c hc
  refine ⟨htraps, fun hoff => ?_⟩
  obtain ⟨ms, _, h⟩ := course_of_run hr
  obtain ⟨m, hm, e, limits, ho⟩ := opening_of_course h hfound
  have hmetered := (metered_of_course h hfound hc hm ho).1
  rw [← config_of_course h hfound hm ho, hoff, Option.isSome_eq_false_iff,
    Option.isNone_iff_eq_none] at hmetered
  rw [htraps, hstarves hmetered, Nat.add_zero]

/-- The second of two calls is counted as a trap, for it is answered that fuel ran out. -/
theorem thrifty_traps : ∃ r, Run thriftyHistory r ∧ ∃ s ∈ r.stores, ∃ n, s.metrics = .ok n ∧
    n.traps = 0 + 1 := by
  obtain ⟨r, hr, s, hs, hid, hn, _⟩ := run_thrifty
  obtain ⟨htraps, _⟩ := traps_accounted hr hs hn
  have hnone : thriftyHistory.countP (Event.traps 1) = 0 := rfl
  have hstarved : thriftyHistory.countP (Event.starves 1) = 1 := rfl
  refine ⟨r, hr, s, hs, _, hn, ?_⟩
  rw [htraps, hid, hnone, hstarved]

/-- With a budget of one unit the start function of an instance runs out of fuel. -/
def hastyHistory : List (Event Unit) :=
  [⟨.newEngine { consumeFuel := true }, .reply (.ok (.engine 0)) none⟩,
    ⟨.newStore 0 { fuel := some 1 }, .reply (.ok (.store 1)) none⟩,
    ⟨.compile 0 (.bytes eagerBytes), .reply (.ok (.module eagerModule)) none⟩,
    ⟨.use 1 (.instantiate eagerModule {}), .reply (.error .resourceExhausted) none⟩]

theorem run_hasty : ∃ r, Run hastyHistory r ∧ ∃ s ∈ r.stores, s.id = 1 ∧
    s.metrics = .ok ⟨0, 0, 0⟩ := by
  have hengine : Run (hastyHistory.take 1) _ :=
    (Run.start ()).request (.newEngine { consumeFuel := true }) trivial
  have hopened : Run (hastyHistory.take 2) _ :=
    hengine.request (.newStore 0 { fuel := some 1 }) List.mem_cons_self
  have hcompiled : Run (hastyHistory.take 3) _ :=
    hopened.request (.compile 0 (.bytes eagerBytes)) List.mem_cons_self
  have hmodule : eagerModule ∈ (hastyHistory.take 3).filterMap Event.module? :=
    List.mem_filterMap.mpr ⟨(hastyHistory.take 3)[2], List.getElem_mem _, rfl⟩
  have hstarved : Run hastyHistory _ :=
    hcompiled.request (.use 1 (.instantiate eagerModule {}))
      ⟨List.mem_cons_self, hmodule, fun e he => absurd he List.not_mem_nil⟩
  exact ⟨_, hstarved, _, List.mem_cons_self, rfl, rfl⟩

/-- No answer in either run is a trap, yet a trap is counted where it is a call that runs out of fuel,
and none where it is an instantiation. -/
theorem exhausted_call_counted :
    (∃ r, Run thriftyHistory r ∧ ∃ s ∈ r.stores, s.id = 1 ∧ s.metrics = .ok ⟨2, 1, 2⟩ ∧
      thriftyHistory.countP (Event.traps 1) = 0) ∧
    ∃ r, Run hastyHistory r ∧ ∃ s ∈ r.stores, s.id = 1 ∧ s.metrics = .ok ⟨0, 0, 0⟩ ∧
      hastyHistory.countP (Event.traps 1) = 0 := by
  obtain ⟨r, hr, s, hs, hid, hn, _⟩ := run_thrifty
  obtain ⟨r', hr', s', hs', hid', hn'⟩ := run_hasty
  exact ⟨⟨r, hr, s, hs, hid, hn, rfl⟩, r', hr', s', hs', hid', hn', rfl⟩

end WasmEmbed
