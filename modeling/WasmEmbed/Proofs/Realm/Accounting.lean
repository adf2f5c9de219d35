import Mathlib.Algebra.GroupWithZero.Nat
import WasmEmbed.Proofs.Realm.Opening
import WasmEmbed.Proofs.Store.Spending

/-! The accounts of a store over whole runs. The calls that it counts are those that passed all checks,
the fuel that it counts is what these burnt, and what is left of the fuel is told by what was done. -/
namespace WasmEmbed
variable {σ : Type}

/-- The fuel left in a store, if there is one with this number, and it is alive and metered. -/
def Realm.fuel? (r : Realm σ) (id : Nat) : Option Nat := (r.store? id).bind fun s => s.fuel.toOption

namespace Moment

/-- A function is called in the store, and the call passes all checks. -/
def calls (id : Nat) (m : Moment σ) : Bool :=
  match m.request with
  | .use store u => store == id && (m.realm.store? id).any fun s => s.admits u
  | _ => false

/-- The fuel that the store had before and has no more. -/
def burnt (id : Nat) (m : Moment σ) : Nat := spent (m.realm.fuel? id) (m.after.fuel? id)

end Moment

/-- What is left of the fuel of a metered store after these moments: the budget at first, what is set,
and no more than there was just before when code is executed. -/
inductive FuelLeft (id : Nat) : List (Moment σ) → Nat → Prop where
  | opened {ms : List (Moment σ)} {m : Moment σ} {e : Engine} {limits : StoreConfig}
    (h : m.Opens id e limits) : FuelLeft id (ms ++ [m]) (limits.fuel.getD maxFuel)
  | set {ms : List (Moment σ)} {r : Realm σ} {n : Nat} (before : FuelLeft id ms n)
    (hn : r.fuel? id = some n) (amount : Nat) :
    FuelLeft id (ms ++ [⟨r, .use id (.setFuel amount)⟩]) amount
  | executed {ms : List (Moment σ)} {r : Realm σ} {u : Use σ} {instantiation : Bool} {n k : Nat}
    (before : FuelLeft id ms n) (hn : r.fuel? id = some n) (hu : u.Executes instantiation)
    (hle : k ≤ n)
    (hstarved : ∀ state,
      (r.perform (.use id u)).1 = .reply (.error .resourceExhausted) state → k = 0) :
    FuelLeft id (ms ++ [⟨r, .use id u⟩]) k
  | other {ms : List (Moment σ)} {m : Moment σ} {n : Nat} (before : FuelLeft id ms n)
    (hn : m.realm.fuel? id = some n) (hother : ∀ u, m.request = .use id u →
      (∀ amount, u ≠ .setFuel amount) ∧ ∀ instantiation, ¬ u.Executes instantiation) :
    FuelLeft id (ms ++ [m]) n

variable {ms : List (Moment σ)} {m : Moment σ} {r : Realm σ} {q : Request σ} {s t : Store σ}
  {c d : Contents σ} {id k : Nat} {u : Use σ} {n : Metrics}

section Ask

theorem metrics_ok (h : s.metrics = .ok n) : ∃ c, s.contents = some c ∧ c.metrics = n := by
  obtain ⟨c, hlive, h⟩ := except_bind_ok h
  exact ⟨c, live_ok hlive, Except.ok.inj h⟩

theorem fuel_of_contents (hc : s.contents = some c) : s.fuel.toOption = c.fuel := by
  rw [Store.fuel, live_of_contents hc]
  dsimp only [bind, Except.bind]
  cases c.fuel with
  | none => rfl
  | some n => rfl

theorem ok_of_fuel (hc : s.contents = some c) (hk : c.fuel = some k) : s.fuel = .ok k := by
  rw [Store.fuel, live_of_contents hc]
  dsimp only [bind, Except.bind]
  rw [hk]
  rfl

theorem fuel?_of_found (hs : r.store? id = some s) (hc : s.contents = some c) :
    r.fuel? id = c.fuel := by
  rw [Realm.fuel?, hs]
  exact fuel_of_contents hc

theorem fuel_ok (h : s.fuel = .ok k) : ∃ c, s.contents = some c ∧ c.fuel = some k := by
  obtain ⟨c, hlive, _⟩ := except_bind_ok h
  have hc := live_ok hlive
  refine ⟨c, hc, ?_⟩
  rw [← fuel_of_contents hc, h]
  rfl

end Ask

section Calls

/-- A call is counted only where the store is there. -/
theorem found_of_calls (h : m.calls id = true) : ∃ s, m.realm.store? id = some s := by
  unfold Moment.calls at h
  split at h
  · have hany := (Bool.and_eq_true_iff.mp h).2
    cases hs : m.realm.store? id with
    | none =>
      rw [hs] at hany
      contradiction
    | some s => exact ⟨s, rfl⟩
  · contradiction

theorem calls_use (hs : r.store? id = some s) (u : Use σ) :
    Moment.calls id ⟨r, .use id u⟩ = s.admits u := by
  unfold Moment.calls
  dsimp only
  rw [hs, beq_self_eq_true]
  rfl

theorem not_calls (hq : q.store? ≠ some id) : Moment.calls id ⟨r, q⟩ = false := by
  cases q with
  | use store u =>
    have hne : (store == id) = false := beq_eq_false_iff_ne.mpr fun h => hq (congrArg some h)
    unfold Moment.calls
    dsimp only
    rw [hne]
    rfl
  | _ => rfl

/-- A call that is counted found the store there, so that its number was given out. -/
theorem calls_new (h : Course ms r) (hid : r.next ≤ id) : ∀ m ∈ ms, ¬ m.calls id = true := by
  intro m hm hcalls
  obtain ⟨s, hs⟩ := found_of_calls hcalls
  have hbelow := found_below h hm hs
  omega

/-- A use burns what is missing afterwards. -/
theorem burnt_use (hs : r.store? id = some s) (hc : s.contents = some c)
    (hd : (s.perform r.world u).store.contents = some d) :
    Moment.burnt id ⟨r, .use id u⟩ = spent c.fuel d.fuel := by
  have hafter : (r.perform (.use id u)).2.store? id = some (s.perform r.world u).store := by
    rw [perform_use hs]
    exact store?_after hs u
  rw [Moment.burnt, fuel?_of_found hs hc]
  change spent c.fuel ((r.perform (.use id u)).2.fuel? id) = _
  rw [fuel?_of_found hafter hd]

/-- Capping the sum once more changes nothing. -/
theorem addFuel_min (a b : Nat) : addFuel (min maxFuel a) b = min maxFuel (a + b) := by
  unfold addFuel
  omega

/-- The calls counted so far, and the fuel that they burnt. -/
def Contents.Accounts (c : Contents σ) (ms : List (Moment σ)) (id : Nat) : Prop :=
  c.metrics.calls = ms.countP (Moment.calls id) ∧
    c.metrics.fuelConsumed =
      min maxFuel ((ms.filter (Moment.calls id)).map (Moment.burnt id)).sum

theorem accounts_snoc (h : c.Accounts ms id) (hm : m.calls id = false) :
    c.Accounts (ms ++ [m]) id := by
  obtain ⟨hcalls, hconsumed⟩ := h
  refine ⟨?_, ?_⟩
  · rw [List.countP_append, List.countP_singleton, hm, hcalls]
    rfl
  · rw [List.filter_append, List.filter_singleton, hm, hconsumed]
    simp

/-- A use adds at most one call, and what it burnt to the capped sum. -/
theorem accounts_used (hs : r.store? id = some s)
    (hk : ∀ c, s.contents = some c → c.Accounts ms id)
    (hd : (s.perform r.world u).store.contents = some d) :
    d.Accounts (ms ++ [⟨r, .use id u⟩]) id := by
  obtain ⟨c, hc, _, hcounts⟩ := perform_counts hd
  obtain ⟨hcalls, hconsumed⟩ := hk c hc
  have hburnt := burnt_use hs hc hd
  have hcall := calls_use hs u
  cases hadmits : s.admits u with
  | false =>
    rw [hadmits] at hcall hcounts
    refine accounts_snoc ⟨?_, ?_⟩ hcall
    · exact hcounts.calls.trans hcalls
    · exact hcounts.consumed.trans hconsumed
  | true =>
    rw [hadmits] at hcall hcounts
    refine ⟨?_, ?_⟩
    · rw [List.countP_append, List.countP_singleton, hcall, hcounts.calls, hcalls]
    · rw [List.filter_append, List.filter_singleton, hcall]
      calc d.metrics.fuelConsumed
          = addFuel c.metrics.fuelConsumed (spent c.fuel d.fuel) := hcounts.consumed
        _ = min maxFuel (((ms.filter (Moment.calls id)).map (Moment.burnt id)).sum +
              Moment.burnt id ⟨r, .use id u⟩) := by rw [hconsumed, addFuel_min, hburnt]
        _ = _ := by simp

/-- In every course the counters of a store are what its calls and what they burnt come to. -/
theorem accounts_of_course (h : Course ms r) (hs : r.store? id = some s)
    (hc : s.contents = some c) : c.Accounts ms id := by
  have hkept : KeptAlong (σ := σ) id fun ms s =>
      ∀ c, s.contents = some c → c.Accounts ms id := by
    constructor
    · intro ms r q s e limits before given hq hopens hnext c hc
      have hnone := calls_new before (Nat.le_of_eq hnext)
      rw [store_create_eq hopens.created] at hc
      rw [← Option.some.inj hc]
      refine accounts_snoc ⟨?_, ?_⟩ (not_calls hq)
      · rw [List.countP_eq_zero.mpr hnone]
        rfl
      · rw [List.filter_eq_nil_iff.mpr hnone]
        rfl
    · intro ms r u s before given hs hk d hd
      exact accounts_used hs hk hd
    · intro ms r q s before given hq hs hk c hc
      exact accounts_snoc (hk c hc) (not_calls hq)
  exact kept_of_course hkept h hs c hc

/-- What is no call leaves the counters of a store as they are. -/
theorem counters_kept (h : Course ms r) (hs : s ∈ r.stores) (hc : s.contents = some c)
    (hq : Moment.calls s.id ⟨r, q⟩ = false) (ht : t ∈ (r.perform q).2.stores) (hid : t.id = s.id)
    (hd : t.contents = some d) :
    d.metrics.calls = c.metrics.calls ∧ d.metrics.fuelConsumed = c.metrics.fuelConsumed := by
  have hcons := consistent_of_run (run_of_course h)
  have hfound := store?_of_mem hcons hs
  have hafter := store?_of_mem (consistent_perform hcons q) ht
  rw [hid] at hafter
  by_cases hstore : q.store? = some s.id
  · cases q with
    | use store u =>
      obtain rfl := Option.some.inj hstore
      rw [calls_use hfound] at hq
      rw [perform_use hfound, store?_after hfound u] at hafter
      rw [← Option.some.inj hafter] at hd
      obtain ⟨b, hb, _, hcounts⟩ := perform_counts hd
      rw [hq] at hcounts
      rw [Option.some.inj (hc.symm.trans hb)]
      exact ⟨hcounts.calls, hcounts.consumed⟩
    | drop store =>
      obtain rfl := Option.some.inj hstore
      rw [perform_drop hfound, store?_drop] at hafter
      contradiction
    | _ => contradiction
  · -- the request is about something else, and the number is not given out again
    have hbelow := hcons.storeBelow s hs
    rcases store?_answers (perform_answers r q) hstore with ⟨_, _, _, _, hnext, _⟩ | hsame
    · omega
    · rw [hsame, hfound] at hafter
      rw [← Option.some.inj hafter, hc] at hd
      rw [Option.some.inj hd]
      exact ⟨rfl, rfl⟩

end Calls

section Fuel
variable {result : Except Error Reply} {before after : Option Nat}

theorem isSome_of_leaves (h : u.Leaves result before after) : after.isSome = before.isSome := by
  cases h with
  | set amount => exact Option.isSome_map
  | executed hu hburns hstarved => exact isSome_of_burns hburns
  | other hset hu => rfl

/-- The chain of charges ends with what the store has just then. -/
theorem fuelLeft_used (hs : r.store? id = some s)
    (hk : ∀ c n, s.contents = some c → c.fuel = some n → FuelLeft id ms n)
    (hd : (s.perform r.world u).store.contents = some d) (hfuel : d.fuel = some k) :
    FuelLeft id (ms ++ [⟨r, .use id u⟩]) k := by
  obtain ⟨c, hc, hleaves, _⟩ := perform_counts hd
  have hmetered := isSome_of_leaves hleaves
  rw [hfuel] at hleaves hmetered
  obtain ⟨n, hn⟩ := Option.isSome_iff_exists.mp hmetered.symm
  rw [hn] at hleaves
  have hbefore := hk c n hc hn
  have hthere : r.fuel? id = some n := (fuel?_of_found hs hc).trans hn
  generalize hafter : some k = after at hleaves
  cases hleaves with
  | set amount =>
    rw [Option.some.inj hafter]
    exact .set hbefore hthere amount
  | executed hu hburns hstarved =>
    rw [← hafter] at hburns hstarved
    cases hburns with
    | some hle =>
      refine .executed hbefore hthere hu hle fun state ha => ?_
      rw [perform_use hs] at ha
      exact Option.some.inj (hstarved (Answer.reply.inj ha).1)
  | other hset hu =>
    rw [Option.some.inj hafter]
    refine .other hbefore hthere fun v hv => ?_
    obtain ⟨_, rfl⟩ := Request.use.inj hv
    exact ⟨hset, hu⟩

/-- In every course the fuel of a store is what its budget, its settings and its calls left. -/
theorem fuelLeft_of_course (h : Course ms r) (hs : r.store? id = some s)
    (hc : s.contents = some c) (hfuel : c.fuel = some k) : FuelLeft id ms k := by
  have hkept : KeptAlong (σ := σ) id fun ms s =>
      ∀ c n, s.contents = some c → c.fuel = some n → FuelLeft id ms n := by
    constructor
    · intro ms r q s e limits before given hq hopens hnext c n hc hfuel
      have hid := (id_of_opens hopens).trans hnext
      have hopened : Moment.Opens ⟨r, q⟩ id e limits := ⟨s, hopens, hid⟩
      rw [store_create_eq hopens.created] at hc
      rw [← Option.some.inj hc] at hfuel
      change (if e.config.consumeFuel then some (limits.fuel.getD maxFuel) else none) = _ at hfuel
      split at hfuel
      · rw [← Option.some.inj hfuel]
        exact .opened hopened
      · contradiction
    · intro ms r u s before given hs hk d n hd hfuel
      exact fuelLeft_used hs hk hd hfuel
    · intro ms r q s before given hq hs hk c n hc hfuel
      refine .other (hk c n hc hfuel) ((fuel?_of_found hs hc).trans hfuel) fun u hu => ?_
      have hu : q = .use id u := hu
      rw [hu] at hq
      exact absurd rfl hq
  exact kept_of_course hkept h hs c k hc hfuel

/-- A store meters just if its engine does, and burns nothing if it does not. -/
theorem metered_of_course (h : Course ms r) (hs : r.store? id = some s) (hc : s.contents = some c)
    {e : Engine} {limits : StoreConfig} (hm : m ∈ ms) (ho : m.Opens id e limits) :
    c.fuel.isSome = e.config.consumeFuel ∧ (c.fuel = none → c.metrics.fuelConsumed = 0) := by
  have hmade (e : Engine) (limits : StoreConfig) (s : Store σ)
      (hnew : Store.create id (id + 1) e limits = .ok s) (c : Contents σ)
      (hc : s.contents = some c) :
      c.fuel.isSome = e.config.consumeFuel ∧ (c.fuel = none → c.metrics.fuelConsumed = 0) := by
    rw [store_create_eq hnew] at hc
    rw [← Option.some.inj hc]
    refine ⟨?_, fun _ => rfl⟩
    change (if e.config.consumeFuel then some _ else none : Option Nat).isSome = _
    cases e.config.consumeFuel with
    | true => rfl
    | false => rfl
  have hused (e : Engine) (limits : StoreConfig) (s : Store σ) (world : σ) (u : Use σ)
      (hk : ∀ c, s.contents = some c →
        c.fuel.isSome = e.config.consumeFuel ∧ (c.fuel = none → c.metrics.fuelConsumed = 0))
      (d : Contents σ) (hd : (s.perform world u).store.contents = some d) :
      d.fuel.isSome = e.config.consumeFuel ∧ (d.fuel = none → d.metrics.fuelConsumed = 0) := by
    obtain ⟨c, hc, hleaves, hcounts⟩ := perform_counts hd
    obtain ⟨hmeters, hzero⟩ := hk c hc
    have hsame := isSome_of_leaves hleaves
    refine ⟨hsame.trans hmeters, fun hnone => ?_⟩
    rw [hnone] at hsame
    have hbefore : c.fuel = none := Option.isNone_iff_eq_none.mp (by simpa using hsame.symm)
    rw [hcounts.consumed, hbefore, hnone, hzero hbefore]
    split
    · exact Nat.min_eq_right (Nat.zero_le _)
    · rfl
  exact kept_from (Q := fun e _ s => ∀ c, s.contents = some c →
    c.fuel.isSome = e.config.consumeFuel ∧ (c.fuel = none → c.metrics.fuelConsumed = 0))
    hmade hused h hs hm ho c hc

end Fuel

/-- In every run, the calls that a live store counts are those that passed all checks, and the fuel
that it counts is the sum of what these burnt, up to the greatest amount of fuel; a request that is
no such call changes neither. The store is metered just if the engine that made it meters, and else
it counts no fuel. What is left of the fuel of a metered store starts at the budget, is changed to
what is set, never rises by calls or instantiations, is nothing after one that was answered so, and
stays through everything else. -/
theorem calls_and_fuel_accounted (h : Course ms r) (hs : s ∈ r.stores) (hn : s.metrics = .ok n) :
    n.calls = ms.countP (Moment.calls s.id) ∧
    n.fuelConsumed =
      min maxFuel ((ms.filter (Moment.calls s.id)).map (Moment.burnt s.id)).sum ∧
    (∀ q, Moment.calls s.id ⟨r, q⟩ = false → ∀ t ∈ (r.perform q).2.stores, t.id = s.id →
      ∀ k, t.metrics = .ok k → k.calls = n.calls ∧ k.fuelConsumed = n.fuelConsumed) ∧
    ∃ m ∈ ms, ∃ e limits, m.Opens s.id e limits ∧
      (e.config.consumeFuel = false → n.fuelConsumed = 0 ∧ ∀ k, s.fuel ≠ .ok k) ∧
      (e.config.consumeFuel = true → ∃ k, s.fuel = .ok k ∧ FuelLeft s.id ms k) := by
  have hfound := store?_of_mem (consistent_of_run (run_of_course h)) hs
  obtain ⟨c, hc, rfl⟩ := metrics_ok hn
  obtain ⟨hcalls, hconsumed⟩ := accounts_of_course h hfound hc
  refine ⟨hcalls, hconsumed, ?_, ?_⟩
  · intro q hq t ht hid k hk
    obtain ⟨d, hd, rfl⟩ := metrics_ok hk
    exact counters_kept h hs hc hq ht hid hd
  · obtain ⟨m, hm, e, limits, ho⟩ := opening_of_course h hfound
    obtain ⟨hmetered, hzero⟩ := metered_of_course h hfound hc hm ho
    refine ⟨m, hm, e, limits, ho, fun hoff => ?_, fun hon => ?_⟩
    · rw [hoff, Option.isSome_eq_false_iff, Option.isNone_iff_eq_none] at hmetered
      refine ⟨hzero hmetered, fun k hk => ?_⟩
      obtain ⟨d, hd, hfuel⟩ := fuel_ok hk
      rw [Option.some.inj (hd.symm.trans hc), hmetered] at hfuel
      contradiction
    · rw [hon, Option.isSome_iff_exists] at hmetered
      obtain ⟨k, hk⟩ := hmetered
      exact ⟨k, ok_of_fuel hc hk, fuelLeft_of_course h hfound hc hk⟩

/-- The bytes of a module with a function that does nothing, which it exports and starts with. -/
def eagerBytes : List UInt8 :=
  [0, 97, 115, 109, 1, 0, 0, 0, 1, 4, 1, 96, 0, 0, 3, 2, 1, 0, 7, 5, 1, 1, 102, 0, 0,
    8, 1, 0, 10, 4, 1, 2, 0, 11]

def eagerModule : Module where
  engine := 0
  artifact := { types := [⟨[], []⟩], funcs := [0], exports := [⟨"f", .function, 0⟩],
                start := some 0, bodies := [⟨[], []⟩] }
  exports := [⟨"f", .func ⟨[], []⟩⟩]
  imports := []
  contentHash := SipHash.contentDigest eagerBytes

/-- The function that the instance with a number exports, which has the address of that number. -/
def eagerFunc (i : Nat) : Func := ⟨⟨1, 2⟩, i, 0, "f", ⟨[], []⟩, i, .bound⟩

def eagerInstance (i : Nat) : Instance := ⟨⟨1, 2⟩, i, eagerModule, [("f", .func (eagerFunc i))]⟩

/-- Starting the instance and each of the calls take one of three units, and the second call runs out
of fuel. -/
def thriftyHistory : List (Event Unit) :=
  [⟨.newEngine { consumeFuel := true }, .reply (.ok (.engine 0)) none⟩,
    ⟨.newStore 0 { fuel := some 3 }, .reply (.ok (.store 1)) none⟩,
    ⟨.compile 0 (.bytes eagerBytes), .reply (.ok (.module eagerModule)) none⟩,
    ⟨.use 1 (.instantiate eagerModule {}),
      .reply (.ok (.instance (eagerInstance 0))) none⟩,
    ⟨.use 1 (.callTyped (eagerFunc 0) []), .reply (.ok (.values [])) (some .bound)⟩,
    ⟨.use 1 (.callTyped (eagerFunc 0) []), .reply (.error .resourceExhausted) (some .faulted)⟩]

theorem run_thrifty : ∃ r, Run thriftyHistory r ∧ ∃ s ∈ r.stores, s.id = 1 ∧
    s.metrics = .ok ⟨2, 1, 2⟩ ∧ s.fuel = .ok 0 := by
  have hengine : Run (thriftyHistory.take 1) _ :=
    (Run.start ()).request (.newEngine { consumeFuel := true }) trivial
  have hopened : Run (thriftyHistory.take 2) _ :=
    hengine.request (.newStore 0 { fuel := some 3 }) List.mem_cons_self
  have hcompiled : Run (thriftyHistory.take 3) _ :=
    hopened.request (.compile 0 (.bytes eagerBytes)) List.mem_cons_self
  have hmodule : eagerModule ∈ (thriftyHistory.take 3).filterMap Event.module? :=
    List.mem_filterMap.mpr ⟨(thriftyHistory.take 3)[2], List.getElem_mem _, rfl⟩
  have hmade : Run (thriftyHistory.take 4) _ :=
    hcompiled.request (.use 1 (.instantiate eagerModule {}))
      ⟨List.mem_cons_self, hmodule, fun e he => absurd he List.not_mem_nil⟩
  have hfirst : Run (thriftyHistory.take 5) _ :=
    hmade.request (.use 1 (.callTyped (eagerFunc 0) []))
      ⟨List.mem_cons_self, _, List.mem_filterMap.mpr
        ⟨(thriftyHistory.take 4)[3], List.getElem_mem _, rfl⟩, _, List.mem_cons_self, rfl⟩
  have hsecond : Run thriftyHistory _ :=
    hfirst.request (.use 1 (.callTyped (eagerFunc 0) []))
      ⟨List.mem_cons_self, _, List.mem_filterMap.mpr
        ⟨(thriftyHistory.take 5)[3], List.getElem_mem _, rfl⟩, _, List.mem_cons_self, rfl⟩
  exact ⟨_, hsecond, _, List.mem_cons_self, rfl, rfl, rfl⟩

/-- The call that runs out of fuel is counted like the one that does not, with what it burnt. -/
theorem thrifty_accounts : ∃ ms r, Course ms r ∧ ms.map Moment.event = thriftyHistory ∧
    ms.countP (Moment.calls 1) = 2 ∧
    ((ms.filter (Moment.calls 1)).map (Moment.burnt 1)).sum = 2 ∧ FuelLeft 1 ms 0 := by
  obtain ⟨r, hr, s, hs, hid, hn, hfuel⟩ := run_thrifty
  obtain ⟨ms, hms, h⟩ := course_of_run hr
  obtain ⟨hcalls, hconsumed, _, _, _, e, _, _, hunmetered, hmetered⟩ :=
    calls_and_fuel_accounted h hs hn
  rw [hid] at hcalls hconsumed hmetered
  refine ⟨ms, r, h, hms, hcalls.symm, ?_, ?_⟩
  · have hconsumed : 2 = min maxFuel _ := hconsumed
    unfold maxFuel at hconsumed
    omega
  · cases hconfig : e.config.consumeFuel with
    | false => exact absurd hfuel ((hunmetered hconfig).2 0)
    | true =>
      obtain ⟨k, hk, hleft⟩ := hmetered hconfig
      rw [Except.ok.inj (hfuel.symm.trans hk)]
      exact hleft

end WasmEmbed
