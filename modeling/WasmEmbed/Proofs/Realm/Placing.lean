import WasmEmbed.Proofs.Instance.Placing
import WasmEmbed.Proofs.Realm.Keeping
import WasmEmbed.Proofs.Realm.Opening
import WasmEmbed.Proofs.Store.Log

/-! Instances and things in the course of a run. An instance stays where it was made, and what becomes
of a thing is told by the writes of the moments since, whoever asked for them. -/
namespace WasmEmbed
open WasmEmbed.Code
variable {σ : Type}

/-- At this moment an instance is made in a store, with these imports, beside what is in `before`. -/
structure Moment.Makes (m : Moment σ) (store : Nat) (i : Instance) (imports : Imports σ)
    (before : Heap σ) : Prop where
  request : m.request = .use store (.instantiate i.module imports)
  answer : m.event.instance? = some i
  found : ∃ s c, m.realm.store? store = some s ∧ s.contents = some c ∧ c.heap = before

/-- The writes to the things of a store that a moment comes to. -/
def Moment.log (store : Nat) (m : Moment σ) : List Write :=
  match m.request with
  | .use id u => if id = store then (m.realm.store? id).elim [] (·.log m.realm.world u) else []
  | _ => []

variable {ms earlier later : List (Moment σ)} {m : Moment σ} {r : Realm σ} {s t : Store σ}
  {b c d : Contents σ} {id : Nat} {i : Instance} {imports : Imports σ} {before : Heap σ}
  {kind : ExternKind} {addr : Nat} {x : Thing σ} {u : Use σ} {q : Request σ}

section Log

theorem log_use (hs : r.store? id = some s) (u : Use σ) :
    Moment.log id ⟨r, .use id u⟩ = s.log r.world u := by
  unfold Moment.log
  dsimp only
  rw [if_pos rfl, hs]
  rfl

theorem log_other (hq : q.store? ≠ some id) : Moment.log id ⟨r, q⟩ = [] := by
  unfold Moment.log
  cases q with
  | use id' u => exact if_neg fun h => hq (congrArg some h)
  | _ => rfl

/-- What is before a moment is itself the course of a run. -/
theorem course_before (h : Course ms r) (hms : ms = earlier ++ m :: later) :
    Course earlier m.realm := by
  induction h generalizing later with
  | start world => exact absurd hms.symm (by simp)
  | elsewhere before world ih => exact ih hms
  | @request ms r before q given ih =>
    rcases split_snoc hms with ⟨rfl, rfl⟩ | ⟨rest, _, hsplit⟩
    · rw [(List.append_inj' hms rfl).1] at before
      exact before
    · exact ih hsplit

/-- A thing that was in the store at some moment is what the writes since then have made of it. -/
theorem thing?_of_course (h : Course ms r) (hs : r.store? id = some s) (hc : s.contents = some c)
    (hms : ms = earlier ++ m :: later) (ht : m.realm.store? id = some t) (hb : t.contents = some b)
    (hx : b.heap.thing? kind addr = some x) :
    c.heap.thing? kind addr =
      some (x.replay b.heap.limit kind addr ((m :: later).flatMap (Moment.log id))) := by
  have hkept : KeptAlong (σ := σ) id fun ms s => ∀ earlier m later, ms = earlier ++ m :: later →
      ∀ t b x, m.realm.store? id = some t → t.contents = some b →
        b.heap.thing? kind addr = some x → ∀ c, s.contents = some c → c.heap.thing? kind addr =
          some (x.replay b.heap.limit kind addr ((m :: later).flatMap (Moment.log id))) := by
    constructor
    · intro ms r q s e limits before given hq hopens hnext earlier m later hms t b x ht
      have hmem : m ∈ ms ++ [⟨r, q⟩] := by simp [hms]
      exact absurd ht (not_found_before before hnext hmem)
    · -- the use is the moment itself, or comes after it and adds its own writes
      intro ms r u s before given hs hk earlier m later hms t b x ht hb hx d hd
      rcases split_snoc hms with ⟨rfl, rfl⟩ | ⟨rest, rfl, hsplit⟩
      · obtain rfl := Option.some.inj (hs.symm.trans ht)
        rw [List.flatMap_cons, List.flatMap_nil, List.append_nil, log_use hs]
        exact thing?_perform_use hb hd hx
      · obtain ⟨c, hc, hgrows⟩ := perform_grows hd
        have hold := hk earlier m rest hsplit t b x ht hb hx c hc
        have hmem : m ∈ ms := by simp [hsplit]
        obtain ⟨b', hb', hsince⟩ := heap_grows_of_course before hs hc hmem ht
        obtain rfl := Option.some.inj (hb.symm.trans hb')
        rw [← List.cons_append, List.flatMap_append, replay_append, List.flatMap_singleton, log_use hs,
          ← hsince.limit]
        rw [← hsince.limit] at hold
        exact thing?_perform_use hc hd hold
    · -- what is not about the store writes nothing to it
      intro ms r q s before given hq hs hk earlier m later hms t b x ht hb hx c hc
      rcases split_snoc hms with ⟨rfl, rfl⟩ | ⟨rest, rfl, hsplit⟩
      · obtain rfl := Option.some.inj (hs.symm.trans ht)
        obtain rfl := Option.some.inj (hc.symm.trans hb)
        rw [List.flatMap_cons, List.flatMap_nil, List.append_nil, log_other hq]
        exact hx
      · rw [← List.cons_append, List.flatMap_append, List.flatMap_singleton, log_other hq,
          List.append_nil]
        exact hk earlier m rest hsplit t b x ht hb hx c hc
  exact kept_of_course hkept h hs earlier m later hms t b x ht hb hx c hc

end Log

section Placed

theorem created_of_makes (hmakes : m.Makes id i imports before) (hs : m.realm.store? id = some s) :
    (Instance.create s m.realm.world i.module imports).result = .ok i := by
  obtain ⟨state, hreply⟩ := answer_of_instance? hmakes.answer
  have hreply : (m.realm.perform m.request).1 = _ := hreply
  rw [hmakes.request, perform_use hs] at hreply
  exact create_of_reply (Answer.reply.inj hreply).1

/-- An instance has only handles of its store. -/
theorem home_of_makes (hmakes : m.Makes id i imports before) :
    ∀ e ∈ i.exports, e.2.store.id = id := by
  obtain ⟨s, c, hs, _⟩ := hmakes.found
  obtain ⟨href, hstore⟩ := create_instance (created_of_makes hmakes hs)
  intro e he
  rw [hstore e he]
  unfold Store.ref at href
  split at href
  · rw [← Except.ok.inj href]
    exact (store?_eq_some hs).2
  · contradiction

/-- What the host defined imports by, it was given, and so it is there with its type. -/
theorem placed_of_request (h : Course ms r) (given : (Request.use id u).Given (ms.map Moment.event))
    (hs : r.store? id = some s) (hmakes : Moment.Makes ⟨r, .use id u⟩ id i imports before)
    (hd : (s.perform r.world u).store.contents = some d) :
    ∃ l, i.Placed imports before d.heap l := by
  have hcreated := created_of_makes hmakes hs
  obtain ⟨hrequest, _, s', c, hs', hc, rfl⟩ := hmakes
  obtain rfl := Option.some.inj (hs.symm.trans hs')
  obtain ⟨_, rfl⟩ := Request.use.inj hrequest
  have hrun := run_of_course h
  have hid := (store?_eq_some hs).2
  have hkeeps := keeps_of_run hrun hs hc
  have hheld : ∀ x : Item, x.store.id = s.id → (∃ e ∈ imports.entries, e.2 = .item x) →
      c.heap.Holds x.addr x.type := by
    rintro x hstore ⟨e, he, hx⟩
    have hgiven := given.2.2 e he
    rw [hx] at hgiven
    exact hkeeps.holds x hgiven (hstore.trans hid)
  exact (create_placed (valid_of_run hrun _ given.2.1) hc hheld hd hcreated).2

/-- An instance is where it was made as long as the store is alive. -/
theorem placed_of_course (h : Course ms r) (hs : r.store? id = some s) (hc : s.contents = some c)
    (hm : m ∈ ms) (hmakes : m.Makes id i imports before) :
    ∃ l, i.Placed imports before c.heap l := by
  have hkept : KeptAlong (σ := σ) id fun ms s => ∀ m ∈ ms, m.Makes id i imports before →
      ∀ c, s.contents = some c → ∃ l, i.Placed imports before c.heap l := by
    constructor
    · intro ms r q s e limits hcourse given hq hopens hnext m hm hmakes
      obtain ⟨t, _, ht, _⟩ := hmakes.found
      exact absurd ht (not_found_before hcourse hnext hm)
    · -- the instance was there and the heap grows, or it is made by this use
      intro ms r u s hcourse given hs hk m hm hmakes d hd
      rcases mem_snoc hm with hold | rfl
      · obtain ⟨c, hc, hgrows⟩ := perform_grows hd
        obtain ⟨l, hplaced⟩ := hk m hold hmakes c hc
        obtain ⟨l', _, hplaced⟩ := placed_grows hgrows hplaced
        exact ⟨l', hplaced⟩
      · exact placed_of_request hcourse given hs hmakes hd
    · intro ms r q s hcourse given hq hs hk m hm hmakes
      rcases mem_snoc hm with hold | rfl
      · exact hk m hold hmakes
      · rw [show q = _ from hmakes.request] at hq
        exact absurd rfl hq
  exact kept_of_course hkept h hs m hm hmakes c hc

end Placed

end WasmEmbed
