import WasmEmbed.Proofs.Call.Agreement
import WasmEmbed.Proofs.Call.Lifecycle
import WasmEmbed.Proofs.Realm.Keeping

/-! The states of function handles in all that a host can do. A handle that was looked up is bound, and
from then on its state tells how the last call through it went that came to code. -/
namespace WasmEmbed
variable {σ : Type} {deeds : List (Deed σ)} {d : Deed σ} {h : Host σ} {k : Nat} {f : Func}

section Given
variable {history : List (Event σ)} {r : Realm σ} {i : Instance}

theorem fresh_of_mem_handles {ref : StoreRef} {id : Nat} {a : Code.Artifact} {l : Link}
    {x : String × Item} (hx : x ∈ Instance.handles ref id a l) : x.2.fresh = x.2 := by
  obtain ⟨j, hj, rfl⟩ := List.mem_mapIdx.mp hx
  dsimp only
  cases a.externType (a.exports[j]).kind (a.exports[j]).index with
  | func t => rfl
  | global t => rfl
  | memory t => rfl
  | table t => rfl

/-- An instance that is made has handles that were not called. -/
theorem create_fresh {s : Store σ} {world : σ} {m : Module} {imports : Imports σ}
    (h : (Instance.create s world m imports).result = .ok i) :
    ∀ x ∈ i.exports, x.2.fresh = x.2 := by
  obtain ⟨_, _, l, hexports⟩ := create_made h
  rw [hexports]
  exact fun x hx => fresh_of_mem_handles hx

/-- The functions among the exports of an instance that the host got are bound. -/
theorem exports_fresh (hr : Run history r) (hi : i ∈ history.filterMap Event.instance?) :
    ∀ x ∈ i.exports, x.2.fresh = x.2 := by
  induction hr with
  | start world => exact absurd hi List.not_mem_nil
  | elsewhere before world ih => exact ih hi
  | @request history r before q given ih =>
    rw [List.filterMap_append, List.mem_append] at hi
    rcases hi with hi | hi
    · exact ih hi
    · obtain ⟨e, he, hi⟩ := List.mem_filterMap.mp hi
      rw [List.mem_singleton.mp he] at hi
      obtain ⟨id, u, rfl⟩ := instance_answers (perform_answers r q) hi
      obtain ⟨state, ha⟩ := answer_of_instance? hi
      have ha : (r.perform (.use id u)).1 = .reply (.ok (.instance i)) state := ha
      cases hs : r.store? id with
      | none =>
        rw [perform_use_missing hs] at ha
        contradiction
      | some s =>
        rw [perform_use hs] at ha
        have hresult := (Answer.reply.inj ha).1
        rcases reply_cases hresult with ⟨j, hj, ⟨m, imports, rfl⟩, _⟩ | ⟨j, name, _, hj⟩ | hplain
        · exact create_fresh (create_of_reply hresult)
        · contradiction
        · exact False.elim hplain

end Given

section Did

theorem given_mono {history later : List (Event σ)} {x : Item} (hx : x.Given history) :
    x.Given (history ++ later) := by
  obtain ⟨i, hi, hexports⟩ := hx
  refine ⟨i, ?_, hexports⟩
  rw [List.filterMap_append]
  exact List.mem_append_left _ hi

theorem events_snoc (d : Deed σ) :
    (deeds ++ [d]).filterMap Deed.event? = deeds.filterMap Deed.event? ++ d.event?.toList := by
  rw [List.filterMap_append]
  cases h : d.event? with
  | none => rw [List.filterMap_cons_none h]; rfl
  | some e => rw [List.filterMap_cons_some h]; rfl

/-- What is looked up is among the exports of the instance. -/
theorem found_exported {store : Nat} {i : Instance} {name : String}
    (hact : d.act = .lookup store i name) (hf : d.answer.func? = some f) :
    ∃ x ∈ i.exports, x.2 = .func f := by
  have hq : d.act.request? d.host.handles = some (.use store (.lookup i name)) := by rw [hact]; rfl
  rw [answer_of_request hq] at hf
  cases hs : d.host.realm.store? store with
  | none =>
    rw [perform_use_missing hs] at hf
    contradiction
  | some s =>
    rw [perform_use hs] at hf
    have hfound : (i.get? s name).bind Item.func? = some f := hf
    obtain ⟨x, hx, hfunc⟩ := Option.bind_eq_some_iff.mp hfound
    obtain ⟨_, e, he, rfl⟩ := get?_eq_some hx
    cases hitem : e.2 with
    | func g =>
      rw [hitem] at hfunc
      rw [← Option.some.inj hfunc]
      exact ⟨e, he, hitem⟩
    | _ =>
      rw [hitem] at hfunc
      contradiction

/-- What is asked for through handles is asked for with what the host was given. -/
theorem request_given {history : List (Event σ)} {handles : List Func} {a : Act σ} {q : Request σ}
    (given : a.Given history) (hhandles : ∀ f ∈ handles, (Item.func f).Given history)
    (hq : a.request? handles = some q) : q.Given history := by
  cases a with
  | ask q' =>
    rw [← Option.some.inj hq]
    exact given.1
  | lookup store i name =>
    rw [← Option.some.inj hq]
    exact given
  | copy j => contradiction
  | call j store args =>
    obtain ⟨f, hf, rfl⟩ := Option.map_eq_some_iff.mp hq
    exact ⟨given, hhandles f (List.mem_of_getElem? hf)⟩
  | callTyped j store args =>
    obtain ⟨f, hf, rfl⟩ := Option.map_eq_some_iff.mp hq
    exact ⟨given, hhandles f (List.mem_of_getElem? hf)⟩

/-- The requests of a host make a run, and its handles are of things that it was given. -/
theorem run_of_did (hdid : h.Did deeds) : Run (deeds.filterMap Deed.event?) h.realm ∧
    ∀ f ∈ h.handles, (Item.func f).Given (deeds.filterMap Deed.event?) := by
  induction hdid with
  | start world => exact ⟨.start world, fun f hf => absurd hf List.not_mem_nil⟩
  | elsewhere before world ih => exact ⟨ih.1.elsewhere world, ih.2⟩
  | @act deeds h before a given ih =>
    obtain ⟨hr, hhandles⟩ := ih
    rw [events_snoc]
    constructor
    · cases hq : a.request? h.handles with
      | none =>
        have hevent : Deed.event? ⟨h, a⟩ = none := congrArg (Option.map _) hq
        have hrealm : (h.perform a).2.realm = h.realm := by rw [Host.perform, hq]
        rw [hevent, hrealm]
        simpa using hr
      | some q =>
        have hanswer : Deed.answer ⟨h, a⟩ = (h.realm.perform q).1 := answer_of_request hq
        have hevent : Deed.event? ⟨h, a⟩ = some ⟨q, (h.realm.perform q).1⟩ := by
          rw [← hanswer]
          exact congrArg (Option.map _) hq
        have hrealm : (h.perform a).2.realm = (h.realm.perform q).2 := by rw [Host.perform, hq]
        rw [hevent, hrealm]
        exact hr.request q (request_given given hhandles hq)
    · intro f hf
      obtain ⟨k, hk, hf⟩ := List.getElem_of_mem hf
      have hleaves : Deed.Leaves ⟨h, a⟩ k f := leaves_of_after (List.getElem?_eq_some_iff.mpr ⟨hk, hf⟩)
      have hold {j : Nat} {g : Func} (hg : h.handles[j]? = some g) :
          (Item.func g).Given (deeds.filterMap Deed.event? ++ (Deed.event? ⟨h, a⟩).toList) :=
        given_mono (hhandles g (List.mem_of_getElem? hg))
      cases hleaves with
      | kept hg hno => exact hold hg
      | @failed g hg hreach hfails => exact hold (g := g) hg
      | @returned g hg hreach hfails => exact hold (g := g) hg
      | found hk hfinds =>
        obtain ⟨⟨store, i, name, hact⟩, hfound⟩ := hfinds
        obtain ⟨x, hx, hitem⟩ := found_exported hact hfound
        have hact : a = .lookup store i name := hact
        rw [hact] at given
        refine given_mono ⟨i, given.2, x, hx, ?_⟩
        rw [hitem]
      | copied hk hact hg => exact hold hg

/-- The host of everything that was done is one that there can be. -/
theorem did_of_mem (hdid : h.Did deeds) (hd : d ∈ deeds) :
    ∃ earlier, d.host.Did earlier ∧ d.act.Given (earlier.filterMap Deed.event?) := by
  induction hdid with
  | start world => exact absurd hd List.not_mem_nil
  | elsewhere before world ih => exact ih hd
  | @act deeds h before a given ih =>
    rcases List.mem_append.mp hd with hd | hd
    · exact ih hd
    · rw [List.mem_singleton.mp hd]
      exact ⟨deeds, before, given⟩

/-- What is looked up is bound, and a new handle. -/
theorem found_bound (hdid : h.Did deeds) (hd : d ∈ deeds) (hfinds : d.Finds f) :
    f.state = .bound ∧ d.after.handles = d.host.handles ++ [f] := by
  obtain ⟨earlier, hearlier, given⟩ := did_of_mem hdid hd
  obtain ⟨⟨store, i, name, hact⟩, hfound⟩ := hfinds
  constructor
  · obtain ⟨x, hx, hitem⟩ := found_exported hact hfound
    rw [hact] at given
    have hfresh := exports_fresh (run_of_did hearlier).1 given.2 x hx
    rw [hitem] at hfresh
    have hbound : { f with state := .bound } = f := Item.func.inj hfresh
    rw [← hbound]
  · rw [after_handles, hact, Act.handles, hfound]
    rfl

/-- No handle is ever taken away. -/
theorem handles_le (d : Deed σ) : d.host.handles.length ≤ d.after.handles.length := by
  by_contra hlt
  have hlt : d.after.handles.length < d.host.handles.length := by omega
  obtain ⟨f, hf⟩ : ∃ f, d.host.handles[d.after.handles.length]? = some f :=
    ⟨_, List.getElem?_eq_getElem hlt⟩
  have hnone : d.after.handles[d.after.handles.length]? = none :=
    List.getElem?_eq_none_iff.mpr (Nat.le_refl _)
  by_cases hreach : d.Reaches d.after.handles.length
  · rcases handle_reached hf hreach with ⟨_, hafter⟩ | ⟨_, hafter⟩
    · exact nomatch hnone.symm.trans hafter
    · exact nomatch hnone.symm.trans hafter
  · exact nomatch hnone.symm.trans (handle_unreached hf hreach)

/-- The handles become more, never fewer. -/
theorem after_le_of_mem (hdid : h.Did deeds) (hd : d ∈ deeds) :
    d.after.handles.length ≤ h.handles.length := by
  induction hdid with
  | start world => exact absurd hd List.not_mem_nil
  | elsewhere before world ih => exact ih hd
  | @act deeds h before a given ih =>
    rcases List.mem_append.mp hd with hd | hd
    · exact Nat.le_trans (ih hd) (handles_le ⟨h, a⟩)
    · rw [List.mem_singleton.mp hd]
      exact Nat.le_refl _

theorem lt_of_reaches (hreach : d.Reaches k) : k < d.host.handles.length := by
  obtain ⟨f, vs, hcalls⟩ := hreach
  exact (List.getElem?_eq_some_iff.mp (handle_of_calls hcalls)).1

/-- No call is under way between two things that are done. -/
theorem not_calling (hdid : h.Did deeds) (hf : h.handles[k]? = some f) : f.state ≠ .calling := by
  induction hdid generalizing k f with
  | start world => contradiction
  | elsewhere before world ih => exact ih hf
  | @act deeds h before a given ih =>
    have hleaves : Deed.Leaves ⟨h, a⟩ k f := leaves_of_after hf
    cases hleaves with
    | kept hg hno => exact ih hg
    | failed hg hreach hfails => exact fun hcalling => nomatch hcalling
    | returned hg hreach hfails => exact fun hcalling => nomatch hcalling
    | found hk hfinds =>
      have hmem : (⟨h, a⟩ : Deed σ) ∈ deeds ++ [⟨h, a⟩] := List.mem_append_right _ List.mem_cons_self
      have hbound := (found_bound (before.act a given) hmem hfinds).1
      rw [hbound]
      exact fun hcalling => nomatch hcalling
    | copied hk hact hg => exact ih hg

/-- The state of a handle that was looked up tells how the last call through it went that came to
code. The handle is of before, unless the lookup that gave it is the last thing that was done. -/
theorem state_of_lookedUp (hdid : h.Did deeds) (hf : h.handles[k]? = some f)
    (hk : LookedUp k deeds) :
    (LastFailed k deeds ∧ f.state = .faulted) ∨ (¬ LastFailed k deeds ∧ f.state = .bound) := by
  induction hdid generalizing f with
  | start world => contradiction
  | elsewhere before world ih => exact ih hf hk
  | @act deeds h before a given ih =>
    have hleaves : Deed.Leaves ⟨h, a⟩ k f := leaves_of_after hf
    have hearlier {g : Func} (hg : h.handles[k]? = some g) : LookedUp k deeds := by
      obtain ⟨d, hd, hlength, hfinds⟩ := hk
      rcases List.mem_append.mp hd with hd | hd
      · exact ⟨d, hd, hlength, hfinds⟩
      · rw [List.mem_singleton.mp hd] at hlength
        obtain ⟨hlt, _⟩ := List.getElem?_eq_some_iff.mp hg
        have hlength : h.handles.length = k := hlength
        omega
    have hlater (hlength : h.handles.length = k) : ¬ LookedUp k deeds := by
      rintro ⟨d, hd, hplace, g, hfinds⟩
      have hle := after_le_of_mem before hd
      rw [(found_bound before hd hfinds).2, List.length_append, hplace, hlength] at hle
      exact absurd hle (Nat.not_succ_le_self k)
    cases hleaves with
    | kept hg hno =>
      rw [lastFailed_of_not_reaches hno]
      exact ih hg (hearlier hg)
    | failed hg hreach hfails => exact Or.inl ⟨(lastFailed_of_reaches hreach).mpr hfails, rfl⟩
    | returned hg hreach hfails =>
      exact Or.inr ⟨fun h => hfails ((lastFailed_of_reaches hreach).mp h), rfl⟩
    | found hlength hfinds =>
      have hmem : (⟨h, a⟩ : Deed σ) ∈ deeds ++ [⟨h, a⟩] := List.mem_append_right _ List.mem_cons_self
      refine Or.inr ⟨not_lastFailed ?_, (found_bound (before.act a given) hmem hfinds).1⟩
      intro d hd hreach
      have hlt := lt_of_reaches hreach
      have hlength : h.handles.length = k := hlength
      rcases List.mem_append.mp hd with hd | hd
      · have hle := Nat.le_trans (handles_le d) (after_le_of_mem before hd)
        omega
      · rw [List.mem_singleton.mp hd] at hlt
        have hlt : k < h.handles.length := hlt
        omega
    | copied hlength hact hg =>
      obtain ⟨d, hd, hplace, g, hfinds⟩ := hk
      rcases List.mem_append.mp hd with hd | hd
      · exact absurd ⟨d, hd, hplace, g, hfinds⟩ (hlater hlength)
      · obtain ⟨⟨store, i, name, hlookup⟩, _⟩ := hfinds
        rw [List.mem_singleton.mp hd] at hlookup
        exact nomatch hlookup.symm.trans hact

end Did

/-- In all that a host can do, a function that is looked up is bound, no handle is ever between two
states, and one that was looked up is faulted just if the last call through it that came to code has
failed. What does not come to code through a handle leaves it alone, and that a call comes to code or
is refused, and how, is told by its outcome; the state of the handle has no part in it. -/
theorem handle_lifecycle {deeds : List (Deed σ)} {h : Host σ} (hdid : h.Did deeds) :
    (∀ d ∈ deeds, ∀ f, d.Finds f → f.state = .bound ∧ d.after.handles = d.host.handles ++ [f]) ∧
    (∀ k f, h.handles[k]? = some f → f.state ≠ .calling ∧
      (LookedUp k deeds → (f.state = .faulted ↔ LastFailed k deeds) ∧
        (f.state = .bound ↔ ¬ LastFailed k deeds))) ∧
    (∀ (d : Deed σ) k f, d.host.handles[k]? = some f →
      (¬ d.Reaches k → d.after.handles[k]? = some f) ∧
      ∀ decided, d.Calls k f decided → ∃ result state,
        d.answer = .reply result (some state) ∧ f.Outcome decided result state) ∧
    ∀ (u v : Use σ), u.SameCall v → ∀ (r : Realm σ) store,
      (r.perform (.use store u)).1.result? = (r.perform (.use store v)).1.result? ∧
        (r.perform (.use store u)).2 = (r.perform (.use store v)).2 := by
  refine ⟨?_, ?_, ?_, ?_⟩
  · intro d hd f hfinds
    exact found_bound hdid hd hfinds
  · intro k f hf
    refine ⟨not_calling hdid hf, fun hk => ?_⟩
    rcases state_of_lookedUp hdid hf hk with ⟨hlast, hstate⟩ | ⟨hlast, hstate⟩
    · rw [hstate]
      exact ⟨iff_of_true rfl hlast, iff_of_false (fun h => nomatch h) (not_not.mpr hlast)⟩
    · rw [hstate]
      exact ⟨iff_of_false (fun h => nomatch h) hlast, iff_of_true rfl hlast⟩
  · intro d k f hf
    refine ⟨handle_unreached hf, fun decided hcalls => ?_⟩
    obtain ⟨result, state, hanswer, houtcome, _⟩ := calls_outcome hcalls
    exact ⟨result, state, hanswer, houtcome⟩
  · intro u v huv r store
    exact perform_sameCall huv r store

/-- A function of the host that does not take zero. -/
def fussyImports : Imports Unit :=
  ⟨[(("h", "f"), .host ⟨⟨[.f32], [.f32]⟩, fun vs world =>
    (if vs = [.f32 0] then .error (.resource "zero") else .ok vs, world)⟩)]⟩

def fussyInstance : Instance := ⟨⟨1, 2⟩, 0, echoModule, [("g", .func echoFunc)]⟩

/-- Two handles of one function are got, and the first is called with zero and the second with one. -/
theorem faulted_beside_bound : ∃ (deeds : List (Deed Unit)) (h : Host Unit), h.Did deeds ∧
    ∃ f g, h.handles = [f, g] ∧ f.state = .faulted ∧ g.state = .bound := by
  have hengine := (Host.Did.start ()).act (.ask (.newEngine {})) ⟨trivial, rfl⟩
  have hstore := hengine.act (.ask (.newStore 0 {})) ⟨List.mem_cons_self, rfl⟩
  have hmodule := hstore.act (.ask (.compile 0 (.bytes echoBytes))) ⟨List.mem_cons_self, rfl⟩
  have hinstance := hmodule.act (.ask (.use 1 (.instantiate echoModule fussyImports)))
    ⟨⟨List.mem_cons_self, List.mem_cons_self, fun e he => by
      rw [List.mem_singleton.mp he]
      trivial⟩, rfl⟩
  have hfirst := hinstance.act (.lookup 1 fussyInstance "g") ⟨List.mem_cons_self, List.mem_cons_self⟩
  have hsecond := hfirst.act (.lookup 1 fussyInstance "g") ⟨List.mem_cons_self, List.mem_cons_self⟩
  have hzero := hsecond.act (.call 0 1 [.float32 0]) List.mem_cons_self
  have hone := hzero.act (.call 1 1 [.float32 1]) List.mem_cons_self
  obtain ⟨_, hstates, _⟩ := handle_lifecycle hone
  refine ⟨_, _, hone, _, _, rfl, ?_, ?_⟩
  · have hstate := (hstates 0 _ rfl).2 (lookedUp_snoc (lookedUp_snoc (lookedUp_snoc
      (lookedUp_last rfl ⟨⟨_, _, _, rfl⟩, rfl⟩))))
    rw [hstate.1]
    refine (lastFailed_of_not_reaches (not_reaches_other rfl (by decide))).mpr
      ((lastFailed_of_reaches ?_).mpr ⟨_, rfl⟩)
    exact reaches_of_call rfl rfl rfl rfl
  · have hstate := (hstates 1 _ rfl).2 (lookedUp_snoc (lookedUp_snoc
      (lookedUp_last rfl ⟨⟨_, _, _, rfl⟩, rfl⟩)))
    rw [hstate.2, lastFailed_of_reaches]
    · rintro ⟨e, he⟩
      exact nomatch Option.some.inj he
    · exact reaches_of_call rfl rfl rfl rfl

end WasmEmbed
