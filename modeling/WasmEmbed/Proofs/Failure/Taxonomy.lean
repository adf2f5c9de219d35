import WasmEmbed.Proofs.Call.Gate
import WasmEmbed.Proofs.Call.Passing
import WasmEmbed.Proofs.Imports.Linking
import WasmEmbed.Proofs.Instance.Stages
import WasmEmbed.Proofs.Machine.Consulting

/-! What executing code may fail with. Calls and the making of instances each have their own short
list of errors; what stopped the code is told by the error, and an error of the host's comes out as
a trap, whichever error it was. -/
namespace WasmEmbed
open WasmEmbed.Code
variable {σ : Type}

/-- The errors of calls. -/
inductive Error.OfCall : Error → Prop where
  | storeMismatch (what : String) : OfCall (.storeMismatch what)
  | useAfterFree (what : String) : OfCall (.useAfterFree what)
  | arity (expected got : Nat) : OfCall (.arity expected got)
  | type (position : Position) (index : Nat) (expected got : String) :
    OfCall (.type position index expected got)
  | trap (code : Option String) (message : String) : OfCall (.trap code message false)
  | resourceExhausted : OfCall .resourceExhausted

/-- The errors of making instances. -/
inductive Error.OfInstantiation : Error → Prop where
  | useAfterFree (what : String) : OfInstantiation (.useAfterFree what)
  | engineMismatch (what : String) : OfInstantiation (.engineMismatch what)
  | storeMismatch (what : String) : OfInstantiation (.storeMismatch what)
  | link (missing mismatched : List String) : OfInstantiation (.link missing mismatched)
  | trap (code : Option String) (message : String) : OfInstantiation (.trap code message true)
  | resourceExhausted : OfInstantiation .resourceExhausted
  | resource (reason : String) : OfInstantiation (.resource reason)

/-- The use executes code, and makes an instance or not. -/
inductive Use.Executes : Use σ → Bool → Prop where
  | call (f : Func) (args : List HostValue) : Executes (.call f args) false
  | callTyped (f : Func) (args : List Val) : Executes (.callTyped f args) false
  | instantiate (m : Module) (imports : Imports σ) : Executes (.instantiate m imports) true

/-- An attempt to make an instance passes linking, and begins with these resources, which have what
the imports are defined by. -/
inductive Store.Linked (s : Store σ) (world : σ) (m : Module) (imports : Imports σ) :
    Resources σ → Link → Prop where
  | intro {ref : StoreRef} {c : Contents σ} {ds : List (Definition σ)} {heap : Heap σ}
    {imported : Link} (href : s.ref = .ok ref) (hc : s.contents = some c)
    (hm : m.engine = s.engine) (hds : imports.resolve s.id m = .ok ds)
    (hprovided : c.heap.provideAll {} ds = (heap, imported)) :
    Linked s world m imports ⟨heap, c.fuel, world⟩ imported

/-- A new instance is allocated, and its segments are copied as far as they fit. -/
inductive Resources.Copied (r : Resources σ) (bulkMemory : Bool) (a : Artifact) (imported : Link) :
    Link → Option TrapCode → Resources σ → Prop where
  | intro {heap : Heap σ} {addr : Nat} {failed : Option TrapCode} {after : Resources σ}
    (halloc : r.heap.allocate a imported = .ok (heap, addr))
    (hfits : bulkMemory = true ∨ heap.checkSegments a (heap.link addr) = .ok ())
    (hcopy : Resources.copyActive { r with heap } a (heap.link addr) = (failed, after)) :
    Copied r bulkMemory a imported (heap.link addr) failed after

/-- The use runs the function with an address on arguments, with these resources: one that is
called, or the start function of an instance. -/
inductive Store.Runs (s : Store σ) (world : σ) :
    Use σ → Bool → Resources σ → Nat → List Operand → Prop where
  | call {f : Func} {args : List HostValue} {vs : List Val} {c : Contents σ}
    (hc : s.contentsFor f.store "function" = .ok c) (hargs : f.prepare s args coerce = .ok vs) :
    Runs s world (.call f args) false (c.resources world) f.addr (vs.map .val)
  | callTyped {f : Func} {args vs : List Val} {c : Contents σ}
    (hc : s.contentsFor f.store "function" = .ok c) (hargs : f.prepare s args checkType = .ok vs) :
    Runs s world (.callTyped f args) false (c.resources world) f.addr (vs.map .val)
  | start {m : Module} {imports : Imports σ} {r copied : Resources σ} {imported l : Link} {i : Nat}
    (hlinked : s.Linked world m imports r imported)
    (hcopied : r.Copied s.config.bulkMemory m.artifact imported l none copied)
    (hstart : m.artifact.start = some i) :
    Runs s world (.instantiate m imports) true copied (l.funcs.getD i 0) []

/-- How the use ends as the back end reports it: as the function that runs does, or with a segment
that does not fit. -/
inductive Store.Ends (s : Store σ) (world : σ) : Use σ → Bool → Stop → Prop where
  | ran {u : Use σ} {instantiation : Bool} {r : Resources σ} {addr : Nat} {args : List Operand}
    (h : s.Runs world u instantiation r addr args) :
    Ends s world u instantiation (r.call s.maxFrames addr args).1
  | overran {m : Module} {imports : Imports σ} {r after : Resources σ} {imported l : Link}
    {code : TrapCode} (hlinked : s.Linked world m imports r imported)
    (hcopied : r.Copied s.config.bulkMemory m.artifact imported l (some code) after) :
    Ends s world (.instantiate m imports) true (.trapped code [])

variable {s : Store σ} {world : σ} {u : Use σ} {e : Error} {instantiation : Bool} {f : Func}
  {m : Module} {imports : Imports σ}

section Call

/-- A call that is not let through fails with an error of calls that code never stops with. -/
theorem prepare_error {α : Type} {convert : α → ValType → Position → Nat → Except Error Val}
    (hconvert : Refuses convert) {args : List α} (h : f.prepare s args convert = .error e) :
    e.OfCall ∧ ¬ e.Stops false := by
  have hgate := gate_prepare hconvert f s args
  rw [h] at hgate
  cases hgate with
  | foreign _ => exact ⟨.storeMismatch _, fun h => nomatch h⟩
  | destroyed _ _ => exact ⟨.useAfterFree _, fun h => nomatch h⟩
  | arity _ _ _ => exact ⟨.arity _ _, fun h => nomatch h⟩
  | argument _ _ _ _ _ _ _ => exact ⟨.type _ _ _ _, fun h => nomatch h⟩

/-- An error of a call is a refusal, or the report of the back end, or that a result cannot leave
the store. -/
theorem callWith_error {α : Type} {convert : α → ValType → Position → Nat → Except Error Val}
    (hconvert : Refuses convert) {args : List α}
    (h : (f.callWith convert s world args).result = .error e) :
    (e.OfCall ∧ ¬ e.Stops false) ∨ ∃ c vs, s.contentsFor f.store "function" = .ok c ∧
      f.prepare s args convert = .ok vs ∧
      ((c.resources world).call s.maxFrames f.addr (vs.map .val)).1.report false = .error e := by
  cases hp : f.prepare s args convert with
  | error e' =>
    have hrefused : (f.callWith convert s world args).result = .error e' := by
      rw [Func.callWith, hp]
    rw [← Except.error.inj (hrefused.symm.trans h)]
    exact Or.inl (prepare_error hconvert hp)
  | ok vs =>
    obtain ⟨c, hc, _⟩ := except_bind_ok hp
    rw [callWith_result convert hc hp world] at h
    cases hreport : ((c.resources world).call s.maxFrames f.addr (vs.map .val)).1.report false with
    | error e' =>
      rw [hreport] at h
      rw [← Except.error.inj h]
      exact Or.inr ⟨c, vs, hc, rfl, hreport⟩
    | ok values =>
      rw [hreport] at h
      obtain ⟨index, expected, got, rfl⟩ := leaveAll_error h
      exact Or.inl ⟨.type _ _ _ _, by rintro ⟨⟩⟩

theorem ofCall_of_stops (h : e.Stops false) : e.OfCall := by
  cases h with
  | trap code message => exact .trap code message
  | outOfFuel => exact .resourceExhausted

theorem callWith_ofCall {α : Type} {convert : α → ValType → Position → Nat → Except Error Val}
    (hconvert : Refuses convert) {args : List α}
    (h : (f.callWith convert s world args).result = .error e) : e.OfCall := by
  rcases callWith_error hconvert h with ⟨he, _⟩ | ⟨_, _, _, _, hreport⟩
  · exact he
  · exact ofCall_of_stops (report_error hreport)

/-- A call is stopped exactly as the back end reports it. -/
theorem callWith_stops_iff {α : Type} {convert : α → ValType → Position → Nat → Except Error Val}
    (hconvert : Refuses convert) {args : List α} (he : e.Stops false) :
    (f.callWith convert s world args).result = .error e ↔
      ∃ c vs, s.contentsFor f.store "function" = .ok c ∧ f.prepare s args convert = .ok vs ∧
        ((c.resources world).call s.maxFrames f.addr (vs.map .val)).1.report false = .error e := by
  constructor
  · intro h
    exact (callWith_error hconvert h).resolve_left fun hrefused => hrefused.2 he
  · rintro ⟨c, vs, hc, hp, hreport⟩
    rw [callWith_result convert hc hp world, hreport]
    rfl

end Call

section Instantiate
variable {r : Resources σ} {bulkMemory : Bool} {maxFrames : Nat} {a : Artifact} {imported : Link}

/-- Segments that are not checked beforehand, or that pass the check, do not end an instantiation.
-/
theorem segments_pass {heap : Heap σ} {l : Link}
    (hfits : bulkMemory = true ∨ heap.checkSegments a l = .ok ()) :
    (if bulkMemory then .ok () else heap.checkSegments a l : Except Error Unit) = .ok () := by
  rcases hfits with rfl | hfits
  · rfl
  · rw [hfits]
    exact ite_self _

/-- Once the segments are copied, all depends on the start function. -/
theorem instantiate_started {copied : Resources σ} {l : Link} {i : Nat} (maxFrames : Nat)
    (hcopied : r.Copied bulkMemory a imported l none copied) (hstart : a.start = some i) :
    r.instantiate bulkMemory maxFrames a imported =
      (((copied.call maxFrames (l.funcs.getD i 0) []).1.report true).map fun _ => l,
        (copied.call maxFrames (l.funcs.getD i 0) []).2) := by
  obtain ⟨halloc, hfits, hcopy⟩ := hcopied
  simp only [Resources.instantiate, halloc, segments_pass hfits, hcopy, hstart]

/-- Instantiation is stopped by a segment that does not fit, or as the start function is. The stages
before these fail only for want of room. -/
theorem instantiate_stops_iff (he : e.Stops true) :
    (r.instantiate bulkMemory maxFrames a imported).1 = .error e ↔
      (∃ l code after, r.Copied bulkMemory a imported l (some code) after ∧
        e = .trap (some code.name) (code.message []) true) ∨
      ∃ l copied i, r.Copied bulkMemory a imported l none copied ∧ a.start = some i ∧
        (copied.call maxFrames (l.funcs.getD i 0) []).1.report true = .error e := by
  have hnot (h : e.IsResource) : False := by
    obtain ⟨reason, rfl⟩ := h
    contradiction
  constructor
  · intro h
    have hmade := instantiate_made r bulkMemory maxFrames a imported
    generalize r.instantiate bulkMemory maxFrames a imported = out at h hmade
    cases hmade with
    | unallocated halloc =>
      rw [Except.error.inj h] at halloc
      exact False.elim (hnot (allocate_error halloc))
    | unfit _ _ hcheck =>
      rw [Except.error.inj h] at hcheck
      exact False.elim (hnot (checkSegments_error hcheck))
    | overrun halloc hfits hcopy =>
      exact Or.inl ⟨_, _, _, .intro halloc hfits hcopy, (Except.error.inj h).symm⟩
    | idle _ _ _ _ => contradiction
    | @started heap addr i copied after stop halloc hfits hcopy hstart hcall =>
      refine Or.inr ⟨_, copied, i, .intro halloc hfits hcopy, hstart, ?_⟩
      rw [hcall]
      cases hreport : stop.report true with
      | ok values =>
        rw [hreport] at h
        contradiction
      | error e' =>
        rw [hreport] at h
        exact congrArg Except.error (Except.error.inj h)
  · rintro (⟨l, code, after, ⟨halloc, hfits, hcopy⟩, rfl⟩ | ⟨l, copied, i, hcopied, hstart, hreport⟩)
    · simp only [Resources.instantiate, halloc, segments_pass hfits, hcopy]
    · rw [instantiate_started maxFrames hcopied hstart, hreport]
      rfl

/-- Once linking is passed, the answer is that of the back end, with handles if there is one. -/
theorem create_linked (h : s.Linked world m imports r imported) :
    ∃ g, (Instance.create s world m imports).result =
      (r.instantiate s.config.bulkMemory s.maxFrames m.artifact imported).1.map g := by
  obtain @⟨ref, c, ds, heap, imported, href, hc, hm, hds, hprovided⟩ := h
  rw [(create_of_resolve href hc hm imports world).2 ds hds]
  obtain ⟨_, _, _, _, _, _, hresult⟩ := build_made s ref c world m ds hprovided rfl
  exact ⟨_, hresult⟩

/-- An attempt to make an instance passes linking, or is refused and leaves everything as it is. -/
theorem create_linked_or_refused (s : Store σ) (world : σ) (m : Module) (imports : Imports σ) :
    (∃ r imported, s.Linked world m imports r imported) ∨
      ∃ e, Instance.create s world m imports = ⟨.error e, s, world⟩ ∧ e.OfInstantiation ∧
        ¬ e.Stops true := by
  cases href : s.ref with
  | error e =>
    have he : e = .useAfterFree "store" := by
      unfold Store.ref at href
      split at href
      · contradiction
      · exact (Except.error.inj href).symm
    right
    rw [Instance.create, href]
    exact ⟨e, rfl, he ▸ .useAfterFree _, by rw [he]; rintro ⟨⟩⟩
  | ok ref =>
    by_cases hm : m.engine = s.engine
    · cases hds : imports.resolve s.id m with
      | error e =>
        have hcreate : Instance.create s world m imports = ⟨.error e, s, world⟩ := by
          simp only [Instance.create, href, hm, ne_eq, not_true, if_false, hds]
        right
        rcases resolve_cases imports s.id m with ⟨_, h⟩ | ⟨_, _, h⟩ | ⟨_, _, h⟩
        · rw [Except.error.inj (hds.symm.trans h)] at hcreate
          exact ⟨_, hcreate, .storeMismatch _, by rintro ⟨⟩⟩
        · rw [Except.error.inj (hds.symm.trans h)] at hcreate
          exact ⟨_, hcreate, .link _ _, by rintro ⟨⟩⟩
        · have hrefused := hds.symm.trans h
          contradiction
      | ok ds =>
        cases hc : s.contents with
        | none =>
          right
          refine ⟨.useAfterFree "store", ?_, .useAfterFree _, by rintro ⟨⟩⟩
          simp only [Instance.create, href, hm, ne_eq, not_true, if_false, hds, Store.live, hc]
        | some c => exact Or.inl ⟨_, _, .intro href hc hm hds rfl⟩
    · right
      refine ⟨.engineMismatch "module", ?_, .engineMismatch _, by rintro ⟨⟩⟩
      simp only [Instance.create, href, ne_eq, hm, not_false_eq_true, if_true]

/-- An instantiation ends as the back end does, once linking has passed. -/
theorem create_stops_iff (he : e.Stops true) :
    (Instance.create s world m imports).result = .error e ↔
      ∃ r imported, s.Linked world m imports r imported ∧
        (r.instantiate s.config.bulkMemory s.maxFrames m.artifact imported).1 = .error e := by
  constructor
  · intro h
    rcases create_linked_or_refused s world m imports with ⟨r, imported, hlinked⟩ | ⟨e', h', _, hn⟩
    · obtain ⟨g, hg⟩ := create_linked hlinked
      rw [hg, except_map_error_iff] at h
      exact ⟨r, imported, hlinked, h⟩
    · rw [h'] at h
      rw [Except.error.inj h] at hn
      exact absurd he hn
  · rintro ⟨r, imported, hlinked, h⟩
    obtain ⟨g, hg⟩ := create_linked hlinked
    rw [hg, h]
    rfl

/-- Only these errors end an instantiation. -/
theorem create_ofInstantiation (h : (Instance.create s world m imports).result = .error e) :
    e.OfInstantiation := by
  rcases create_linked_or_refused s world m imports with ⟨r, imported, hlinked⟩ | ⟨e', h', he, _⟩
  · obtain ⟨g, hg⟩ := create_linked hlinked
    rw [hg, except_map_error_iff] at h
    have hmade := instantiate_made r s.config.bulkMemory s.maxFrames m.artifact imported
    generalize r.instantiate s.config.bulkMemory s.maxFrames m.artifact imported = out at h hmade
    obtain ⟨result, after⟩ := out
    have hresult : result = .error e := h
    rw [hresult] at hmade
    rcases made_error hmade with hstops | ⟨reason, rfl⟩
    · cases hstops with
      | trap code message => exact .trap code message
      | outOfFuel => exact .resourceExhausted
    · exact .resource reason
  · rw [h'] at h
    rw [← Except.error.inj h]
    exact he

end Instantiate

/-- A use is stopped exactly as the back end reports it. -/
theorem perform_stops_iff (hu : u.Executes instantiation) (he : e.Stops instantiation) :
    (s.perform world u).result = .error e ↔
      ∃ stop, s.Ends world u instantiation stop ∧ stop.report instantiation = .error e := by
  cases hu with
  | call f args =>
    change ((f.callWith coerce s world args).result.map _).map _ = _ ↔ _
    rw [except_map_error_iff, except_map_error_iff, callWith_stops_iff refuses_coerce he]
    constructor
    · rintro ⟨c, vs, hc, hargs, hreport⟩
      exact ⟨_, .ran (.call hc hargs), hreport⟩
    · rintro ⟨stop, hends, hreport⟩
      cases hends with
      | ran hruns =>
        cases hruns with
        | call hc hargs => exact ⟨_, _, hc, hargs, hreport⟩
  | callTyped f args =>
    change (f.callWith checkType s world args).result.map _ = _ ↔ _
    rw [except_map_error_iff, callWith_stops_iff refuses_checkType he]
    constructor
    · rintro ⟨c, vs, hc, hargs, hreport⟩
      exact ⟨_, .ran (.callTyped hc hargs), hreport⟩
    · rintro ⟨stop, hends, hreport⟩
      cases hends with
      | ran hruns =>
        cases hruns with
        | callTyped hc hargs => exact ⟨_, _, hc, hargs, hreport⟩
  | «instantiate» m imports =>
    change (Instance.create s world m imports).result.map _ = _ ↔ _
    rw [except_map_error_iff, create_stops_iff he]
    constructor
    · rintro ⟨r, imported, hlinked, h⟩
      rcases (instantiate_stops_iff he).mp h with ⟨l, code, after, hcopied, rfl⟩ |
        ⟨l, copied, i, hcopied, hstart, hreport⟩
      · exact ⟨_, .overran hlinked hcopied, rfl⟩
      · exact ⟨_, .ran (.start hlinked hcopied hstart), hreport⟩
    · rintro ⟨stop, hends, hreport⟩
      cases hends with
      | ran hruns =>
        cases hruns with
        | start hlinked hcopied hstart =>
          exact ⟨_, _, hlinked, (instantiate_stops_iff he).mpr
            (Or.inr ⟨_, _, _, hcopied, hstart, hreport⟩)⟩
      | overran hlinked hcopied =>
        exact ⟨_, _, hlinked, (instantiate_stops_iff he).mpr
          (Or.inl ⟨_, _, _, hcopied, (Except.error.inj hreport).symm⟩)⟩

theorem perform_ofCall (hu : u.Executes false) (h : (s.perform world u).result = .error e) :
    e.OfCall := by
  cases hu with
  | call f args =>
    change ((f.callWith coerce s world args).result.map _).map _ = _ at h
    rw [except_map_error_iff, except_map_error_iff] at h
    exact callWith_ofCall refuses_coerce h
  | callTyped f args =>
    change (f.callWith checkType s world args).result.map _ = _ at h
    rw [except_map_error_iff] at h
    exact callWith_ofCall refuses_checkType h

theorem perform_ofInstantiation (hu : u.Executes true)
    (h : (s.perform world u).result = .error e) : e.OfInstantiation := by
  cases hu with
  | «instantiate» m imports =>
    change (Instance.create s world m imports).result.map _ = _ at h
    rw [except_map_error_iff] at h
    exact create_ofInstantiation h

/-- Fuel is told to be exhausted just if the back end ran out of it. -/
theorem report_exhausted_iff {stop : Stop} :
    stop.report instantiation = .error .resourceExhausted ↔ stop = .outOfFuel := by
  cases stop with
  | outOfFuel => exact ⟨fun _ => rfl, fun _ => rfl⟩
  | finished values => exact ⟨(fun h => nomatch h), (fun h => nomatch h)⟩
  | trapped code frames => exact ⟨(fun h => nomatch Except.error.inj h), (fun h => nomatch h)⟩
  | hostFailed e => exact ⟨(fun h => nomatch Except.error.inj h), (fun h => nomatch h)⟩

theorem executes_of_runs {back : Resources σ} {addr : Nat} {args : List Operand}
    (h : s.Runs world u instantiation back addr args) : u.Executes instantiation := by
  cases h with
  | call hfor hargs => exact .call _ _
  | callTyped hfor hargs => exact .callTyped _ _
  | start hlinked hcopied hstart => exact .instantiate _ _

/-- A host function that fails ends the use that came to calling it. -/
theorem perform_hostFailed {back : Resources σ} {addr : Nat} {args operands : List Operand}
    {h : HostFunc σ} {w : σ} (hruns : s.Runs world u instantiation back addr args)
    (hconsults : back.Consults s.maxFrames addr args h operands w)
    (hfails : (h.call operands w).1 = .error e) :
    (s.perform world u).result =
      .error (.trap none ("host function failed: " ++ e.message) instantiation) := by
  have hstop : (back.call s.maxFrames addr args).1 = .hostFailed e :=
    call_hostFailed_iff.mpr ⟨h, operands, w, hconsults, hfails⟩
  have hends := Store.Ends.ran hruns
  rw [hstop] at hends
  exact (perform_stops_iff (executes_of_runs hruns) (.trap _ _)).mpr ⟨_, hends, rfl⟩

/-- In every store, a call fails with one of six errors, and the making of an instance with one of
seven. Exhausted fuel is told exactly if the back end ran out of it, and a trap of the back end keeps
its code. If code comes to calling a host function that fails, with whatever error, the use fails
with a trap that has no code and is neither a resource limit nor a stale handle. -/
theorem error_taxonomy (s : Store σ) (world : σ) {u : Use σ} {instantiation : Bool}
    (hu : u.Executes instantiation) :
    (∀ e, (s.perform world u).result = .error e →
      if instantiation then e.OfInstantiation else e.OfCall) ∧
    ((s.perform world u).result = .error .resourceExhausted ↔
      s.Ends world u instantiation .outOfFuel) ∧
    (∀ code frames, s.Ends world u instantiation (.trapped code frames) →
      (s.perform world u).result =
        .error (.trap (some code.name) (code.message frames) instantiation)) ∧
    ∀ r addr args, s.Runs world u instantiation r addr args → ∀ h operands w vs e,
      r.Consults s.maxFrames addr args h operands w → leaveAll .argument 0 operands = .ok vs →
      (h.callback vs w).1 = .error e →
        ∃ t, (s.perform world u).result = .error t ∧
          t = .trap none ("host function failed: " ++ e.message) instantiation ∧
          t.isTrap = true ∧ t.isResourceLimit = false ∧ t.isStaleHandle = false := by
  refine ⟨?_, ?_, ?_, ?_⟩
  · intro e h
    cases instantiation with
    | true => exact perform_ofInstantiation hu h
    | false => exact perform_ofCall hu h
  · rw [perform_stops_iff hu .outOfFuel]
    constructor
    · rintro ⟨stop, hends, hreport⟩
      rw [report_exhausted_iff.mp hreport] at hends
      exact hends
    · intro hends
      exact ⟨_, hends, rfl⟩
  · intro code frames hends
    exact (perform_stops_iff hu (.trap _ _)).mpr ⟨_, hends, rfl⟩
  · intro r addr args hruns h operands w vs e hconsults hargs hfails
    have hfailed := host_call_of_callback hargs hfails
    exact ⟨_, perform_hostFailed hruns hconsults hfailed, rfl, rfl, rfl, rfl⟩

/-- A function of the host that fails as if fuel had run out. -/
def exhaustedFunc : HostFunc Unit := ⟨⟨[], []⟩, fun _ world => (.error .resourceExhausted, world)⟩

/-- A store with that function, and with code that calls it. -/
def consultingStore : Store Unit where
  id := 1
  engine := 0
  config := {}
  contents := some
    { heap := { limit := none, funcs := #[.host exhaustedFunc, .code ⟨⟨[], []⟩, [], [.call 0], "f", 0⟩],
                links := #[{ types := [⟨[], []⟩], funcs := [0, 1] }] }, fuel := none }
  token := some 2

def consultingFunc : Func := ⟨⟨1, 2⟩, 0, 0, "f", ⟨[], []⟩, 1, .bound⟩

/-- The error of the host comes out of the code as a trap. -/
theorem exhausted_host_traps :
    (consultingStore.perform () (.callTyped consultingFunc [])).result =
      .error (.trap none "host function failed: Resource exhausted: fuel budget consumed" false) := by
  obtain ⟨_, _, _, hhost⟩ := error_taxonomy consultingStore () (.callTyped consultingFunc [])
  have hargs : consultingFunc.prepare consultingStore [] checkType = .ok [] := rfl
  obtain ⟨t, hresult, rfl, _⟩ := hhost _ _ _ (.callTyped rfl hargs) exhaustedFunc [] () [] _
    (.later rfl (.zero _) (Nat.two_pow_pos 40) (.call rfl) rfl) rfl rfl
  exact hresult

end WasmEmbed
