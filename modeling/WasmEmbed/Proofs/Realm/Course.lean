import WasmEmbed.Proofs.Realm.Consistency

/-! Runs with the realms that they go through. Where a history tells what a host asked and what it was
answered, a course also tells what was there each time it asked; every run has one. -/
namespace WasmEmbed
variable {σ : Type}

/-- A request, and the realm that answers it. -/
structure Moment (σ : Type) where
  realm : Realm σ
  request : Request σ

namespace Moment

/-- What the host sees of it. -/
def event (m : Moment σ) : Event σ := ⟨m.request, (m.realm.perform m.request).1⟩

/-- The realm once the request is answered. -/
def after (m : Moment σ) : Realm σ := (m.realm.perform m.request).2

end Moment

/-- The realms that a host can come to, with the moments before. -/
inductive Course : List (Moment σ) → Realm σ → Prop where
  | start (world : σ) : Course [] { world }
  | request {ms : List (Moment σ)} {r : Realm σ} (before : Course ms r) (q : Request σ)
    (given : q.Given (ms.map Moment.event)) : Course (ms ++ [⟨r, q⟩]) (r.perform q).2
  | elsewhere {ms : List (Moment σ)} {r : Realm σ} (before : Course ms r) (world : σ) :
    Course ms { r with world }

variable {ms : List (Moment σ)} {history : List (Event σ)} {r : Realm σ} {s : Store σ} {id : Nat}

theorem run_of_course (h : Course ms r) : Run (ms.map Moment.event) r := by
  induction h with
  | start world => exact .start world
  | request before q given ih =>
    rw [List.map_append]
    exact ih.request q given
  | elsewhere before world ih => exact ih.elsewhere world

/-- Every run is a course, with the realms that it went through. -/
theorem course_of_run (hr : Run history r) : ∃ ms, ms.map Moment.event = history ∧ Course ms r := by
  induction hr with
  | start world => exact ⟨[], rfl, .start world⟩
  | @request history r before q given ih =>
    obtain ⟨ms, rfl, h⟩ := ih
    refine ⟨ms ++ [⟨r, q⟩], ?_, h.request q given⟩
    rw [List.map_append]
    rfl
  | elsewhere before world ih =>
    obtain ⟨ms, hms, h⟩ := ih
    exact ⟨ms, hms, h.elsewhere world⟩

/-- What is true of a store when it is made, goes on being true when it is used, and is not touched by
requests about other things. -/
structure KeptAlong (id : Nat) (P : List (Moment σ) → Store σ → Prop) : Prop where
  made : ∀ {ms : List (Moment σ)} {r : Realm σ} {q : Request σ} {s : Store σ} {e : Engine}
    {limits : StoreConfig}, Course ms r → q.Given (ms.map Moment.event) → q.store? ≠ some id →
    r.Opens q e limits s → r.next = id → P (ms ++ [⟨r, q⟩]) s
  used : ∀ {ms : List (Moment σ)} {r : Realm σ} {u : Use σ} {s : Store σ}, Course ms r →
    (Request.use id u).Given (ms.map Moment.event) → r.store? id = some s → P ms s →
    P (ms ++ [⟨r, .use id u⟩]) (s.perform r.world u).store
  other : ∀ {ms : List (Moment σ)} {r : Realm σ} {q : Request σ} {s : Store σ}, Course ms r →
    q.Given (ms.map Moment.event) → q.store? ≠ some id → r.store? id = some s → P ms s →
    P (ms ++ [⟨r, q⟩]) s

/-- By induction on the course: a store at its end is the one it was, or what a use left of it. -/
theorem kept_of_course {P : List (Moment σ) → Store σ → Prop} (hP : KeptAlong id P)
    (h : Course ms r) (hs : r.store? id = some s) : P ms s := by
  induction h generalizing s with
  | start world => contradiction
  | elsewhere before world ih => exact ih hs
  | @request ms r before q given ih =>
    by_cases hq : q.store? = some id
    · cases q with
      | use id' u =>
        obtain rfl := Option.some.inj hq
        cases ht : r.store? id' with
        | none =>
          rw [perform_use_missing ht, ht] at hs
          contradiction
        | some t =>
          rw [perform_use ht, store?_after ht u] at hs
          rw [← Option.some.inj hs]
          exact hP.used before given ht (ih ht)
      | drop id' =>
        obtain rfl := Option.some.inj hq
        cases ht : r.store? id' with
        | none =>
          rw [perform_drop_missing ht, ht] at hs
          contradiction
        | some t =>
          rw [perform_drop ht, store?_drop] at hs
          contradiction
      | _ => contradiction
    · -- nothing else gets at a store with this number, unless it is made only now
      rcases store?_answers (perform_answers r q) hq with ⟨t, e, limits, hopens, hid, hfound⟩ | hsame
      · subst hid
        rw [hfound] at hs
        rw [← Option.some.inj hs]
        exact hP.made before given hq hopens rfl
      · rw [hsame] at hs
        exact hP.other before given hq hs (ih hs)

end WasmEmbed
