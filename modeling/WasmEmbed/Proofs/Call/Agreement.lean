import WasmEmbed.Proofs.Machine.Results
import WasmEmbed.Proofs.Realm.Keeping
import WasmEmbed.Proofs.Value.Canonical

/-! The two ways to call agree. Given the host's images of values of the right types, the loose way
does what the exact one does with the values themselves, and hands back the images of its results,
as many as the function declares. -/
namespace WasmEmbed
variable {σ : Type}

/-- What a loose call leads to where an exact one leads to this. -/
def CallOutcome.loose (o : CallOutcome σ (List Val)) : CallOutcome σ Returns :=
  ⟨o.result.map fun ws => .ofList (ws.map .ofVal), o.state, o.store, o.world⟩

/-- A call passes on its arguments and results as they are: `vs` is what either way of converting
makes of the arguments and what the function is called with, `ws` is what it finishes with, and `r`
has the images of these, in order and in the shape that fits what the function declares. From an
image and the declared type the value is got back. -/
structure Func.Passes (f : Func) (s : Store σ) (world : σ) (vs ws : List Val) (r : Returns) :
    Prop where
  loose : f.prepare s (vs.map .ofVal) coerce = .ok vs
  typed : f.prepare s vs checkType = .ok vs
  called : ∃ c, s.contents = some c ∧
    ((c.resources world).call s.maxFrames f.addr (vs.map .val)).1 = .finished (ws.map .val)
  types : ws.map Val.type = f.type.results
  images : r.toList = ws.map .ofVal
  back : ∀ (i : Nat) (t : ValType) (v : HostValue) (w : Val), f.type.results[i]? = some t →
    r.toList[i]? = some v → ws[i]? = some w → coerce v t .result i = .ok w
  unit : r = .unit ↔ f.type.results.length = 0
  single : (∃ v, r = .single v) ↔ f.type.results.length = 1
  multiple : (∃ us, r = .multiple us) ↔ 2 ≤ f.type.results.length

section Values

theorem convertAll_types (i : Nat) (vs : List Val) :
    convertAll checkType i (vs.map Val.type) vs = .ok vs := by
  have himages := convertAll_map (fun v i => checkType_type (id v) .argument i) i vs
  rw [List.map_id] at himages
  exact himages

/-- The shape of what a call returns is told by the number of results alone. -/
theorem ofList_shape (us : List HostValue) :
    (Returns.ofList us = .unit ↔ us.length = 0) ∧
      ((∃ v, Returns.ofList us = .single v) ↔ us.length = 1) ∧
      ((∃ vs, Returns.ofList us = .multiple vs) ↔ 2 ≤ us.length) := by
  match us with
  | [] => simp [Returns.ofList]
  | [u] => simp [Returns.ofList]
  | u :: v :: rest => simp [Returns.ofList]

/-- Only code that has finished is reported with results. -/
theorem report_ok {stop : Stop} {instantiation : Bool} {values : List Operand}
    (h : stop.report instantiation = .ok values) : stop = .finished values := by
  cases stop with
  | finished values' => rw [Except.ok.inj h]
  | _ => contradiction

end Values

section Call
variable {f : Func} {s : Store σ} {vs ws : List Val} {world : σ}

/-- Images are refused for just what values are, if at worst their number is wrong. -/
theorem prepare_images (f : Func) (s : Store σ)
    (hvs : vs.length ≠ f.type.params.length ∨ vs.map Val.type = f.type.params) :
    f.prepare s (vs.map .ofVal) coerce = f.prepare s vs checkType := by
  unfold Func.prepare
  cases s.contentsFor f.store "function" with
  | error e => rfl
  | ok c =>
    change (if _ then _ else _) = (if _ then _ else _)
    rw [List.length_map]
    split
    · rfl
    · -- the number is right, so the types are
      rename_i hlength
      have htypes := hvs.resolve_left fun hne => hlength (Ne.symm hne)
      change convertAll coerce 0 _ _ = convertAll checkType 0 _ _
      rw [← htypes, convertAll_map (fun v i => coerce_ofVal v .argument i), convertAll_types]

/-- On the images of typed arguments the loose call is the typed one, with its results as host
values. -/
theorem call_eq_loose (f : Func) (s : Store σ) (world : σ)
    (hvs : vs.length ≠ f.type.params.length ∨ vs.map Val.type = f.type.params) :
    f.call s world (vs.map .ofVal) = (f.callTyped s world vs).loose := by
  have hsame : f.callWith coerce s world (vs.map .ofVal) = f.callWith checkType s world vs := by
    rw [Func.callWith, Func.callWith, prepare_images f s hvs]
  rw [Func.call, hsame]
  rfl

/-- Arguments of the right types pass as they are. -/
theorem prepare_typed {c : Contents σ} (hc : s.contentsFor f.store "function" = .ok c)
    (htypes : vs.map Val.type = f.type.params) : f.prepare s vs checkType = .ok vs := by
  have hlength : f.type.params.length = vs.length := by rw [← htypes, List.length_map]
  rw [Func.prepare, hc]
  change (if _ then _ else _) = _
  rw [if_neg (not_not.mpr hlength), ← htypes, convertAll_types]

/-- A call gives results only if it is not refused and the back end finishes with them. None of
these is a reference to a function, which would not have left the store. -/
theorem callTyped_ok (hvs : vs.length ≠ f.type.params.length ∨ vs.map Val.type = f.type.params)
    (hok : (f.callTyped s world vs).result = .ok ws) :
    ∃ c, s.contentsFor f.store "function" = .ok c ∧ f.prepare s vs checkType = .ok vs ∧
      ((c.resources world).call s.maxFrames f.addr (vs.map .val)).1 = .finished (ws.map .val) := by
  rcases callWith_cases checkType f s vs with ⟨e, _, hrefused⟩ | ⟨_, vs', _, hp, _⟩
  · rw [Func.callTyped, hrefused] at hok
    contradiction
  · obtain ⟨c, hc, hconverted⟩ := except_bind_ok hp
    have htypes := hvs.resolve_left fun hne => (except_guard_ok hconverted).1 (Ne.symm hne)
    have hprepared := prepare_typed hc htypes
    rw [Func.callTyped, callWith_result checkType hc hprepared] at hok
    obtain ⟨values, hreport, hleave⟩ := except_bind_ok hok
    rw [leaveAll_ok hleave] at hreport
    exact ⟨c, hc, hprepared, report_ok hreport⟩

/-- What a call finishes with is of the types that the handle tells, since the handle tells the type
of what is there and code keeps to its type. -/
theorem finished_types {history : List (Event σ)} {r : Realm σ} (hr : Run history r)
    (hs : s ∈ r.stores) (hf : (Item.func f).Given history) {c : Contents σ}
    (hc : s.contentsFor f.store "function" = .ok c) {args values : List Operand}
    (hcall : ((c.resources world).call s.maxFrames f.addr args).1 = .finished values) :
    values.map Operand.type = f.type.results := by
  obtain ⟨hown, hc⟩ := contentsFor_ok hc
  have hkeeps := keeps_of_run hr (store?_of_mem (consistent_of_run hr) hs) hc
  obtain ⟨found, hfound, htype⟩ := hkeeps.holds (.func f) hf hown
  have htypes := call_types (r := c.resources world) hkeeps.sound hfound hcall
  rw [htypes, htype]

theorem callTyped_types {history : List (Event σ)} {r : Realm σ} (hr : Run history r)
    (hs : s ∈ r.stores) (hf : (Item.func f).Given history) {c : Contents σ}
    (hc : s.contentsFor f.store "function" = .ok c) {args : List Operand}
    (hcall : ((c.resources world).call s.maxFrames f.addr args).1 = .finished (ws.map .val)) :
    ws.map Val.type = f.type.results := by
  have htypes := finished_types hr hs hf hc hcall
  rw [List.map_map] at htypes
  exact htypes

/-- Where the code finishes, both ways of calling give its results. -/
theorem passes_of_finished {r : Returns} (hprepared : f.prepare s vs checkType = .ok vs)
    (himages : f.prepare s (vs.map .ofVal) coerce = .ok vs)
    (hcalled : ∃ c, s.contents = some c ∧
      ((c.resources world).call s.maxFrames f.addr (vs.map .val)).1 = .finished (ws.map .val))
    (htypes : ws.map Val.type = f.type.results) (hr : r = .ofList (ws.map .ofVal)) :
    f.Passes s world vs ws r := by
  have hlist : r.toList = ws.map .ofVal := by rw [hr, Returns.toList_ofList]
  have hlength : (ws.map HostValue.ofVal).length = f.type.results.length := by
    rw [← htypes, List.length_map, List.length_map]
  obtain ⟨hunit, hsingle, hmultiple⟩ := ofList_shape (ws.map .ofVal)
  rw [hlength, ← hr] at hunit hsingle hmultiple
  refine ⟨himages, hprepared, hcalled, htypes, hlist, ?_, hunit, hsingle, hmultiple⟩
  intro i t v w ht hv hw
  rw [← htypes, List.getElem?_map, hw] at ht
  rw [hlist, List.getElem?_map, hw] at hv
  rw [← Option.some.inj ht, ← Option.some.inj hv]
  exact coerce_ofVal w .result i

/-- In every run, a handle of a function is called with any store that there is, in the loose way
with images of values and in the exact way with the values, which are of the declared types unless
their number is wrong. Both calls are refused or fail with the same error, and leave the same store,
state of the handle and state of the host; if the exact one gives values then the loose one hands
back their images, and all values are passed on as they are. -/
theorem loose_call_agrees {history : List (Event σ)} {r : Realm σ} (hr : Run history r)
    {s : Store σ} (hs : s ∈ r.stores) {f : Func} (hf : (Item.func f).Given history)
    {vs : List Val}
    (hvs : vs.length ≠ f.type.params.length ∨ vs.map Val.type = f.type.params) (world : σ) :
    f.call s world (vs.map .ofVal) = (f.callTyped s world vs).loose ∧
      ∀ ws, (f.callTyped s world vs).result = .ok ws →
        f.Passes s world vs ws (.ofList (ws.map .ofVal)) := by
  refine ⟨call_eq_loose f s world hvs, fun ws hok => ?_⟩
  obtain ⟨c, hc, hprepared, hcalled⟩ := callTyped_ok hvs hok
  have himages := prepare_images f s hvs
  rw [hprepared] at himages
  have htypes := callTyped_types hr hs hf hc hcalled
  exact passes_of_finished hprepared himages ⟨c, (contentsFor_ok hc).2, hcalled⟩ htypes rfl

end Call

/-- The bytes of a module that exports a function which it imports. -/
def echoBytes : List UInt8 :=
  [0, 97, 115, 109, 1, 0, 0, 0, 1, 6, 1, 96, 1, 125, 1, 125, 2, 7, 1, 1, 104, 1, 102, 0, 0,
    7, 5, 1, 1, 103, 0, 0]

def echoModule : Module where
  engine := 0
  artifact := { types := [⟨[.f32], [.f32]⟩], imports := [⟨"h", "f", .func 0⟩],
                exports := [⟨"g", .function, 0⟩] }
  exports := [⟨"g", .func ⟨[.f32], [.f32]⟩⟩]
  imports := [⟨"h", "f", .func ⟨[.f32], [.f32]⟩⟩]
  contentHash := SipHash.contentDigest echoBytes

/-- A function of the host that gives back what it gets. -/
def echoImports : Imports Unit :=
  ⟨[(("h", "f"), .host ⟨⟨[.f32], [.f32]⟩, fun vs world => (.ok vs, world)⟩)]⟩

def echoFunc : Func := ⟨⟨1, 2⟩, 0, 0, "g", ⟨[.f32], [.f32]⟩, 0, .bound⟩

def echoHistory : List (Event Unit) :=
  pairHistory ++ [⟨.compile 0 (.bytes echoBytes), .reply (.ok (.module echoModule)) none⟩,
    ⟨.use 1 (.instantiate echoModule echoImports),
      .reply (.ok (.instance ⟨⟨1, 2⟩, 0, echoModule, [("g", .func echoFunc)]⟩)) none⟩]

/-- A NaN with a payload goes to the host and comes back with it. -/
theorem nan_echoed : ∃ r, Run echoHistory r ∧ ∃ s ∈ r.stores,
    (echoFunc.call s () [.float32 0x7fa00001]).result = .ok (.single (.float32 0x7fa00001)) := by
  have hcompiled : Run (echoHistory.take 4) _ :=
    run_pair.request (.compile 0 (.bytes echoBytes)) List.mem_cons_self
  have hmodule : echoModule ∈ (echoHistory.take 4).filterMap Event.module? :=
    List.mem_filterMap.mpr ⟨(echoHistory.take 4)[3], List.getElem_mem _, rfl⟩
  have hmade : Run echoHistory _ := hcompiled.request (.use 1 (.instantiate echoModule echoImports))
    ⟨List.mem_cons_self, hmodule, fun e he => by
      rw [List.mem_singleton.mp he]
      trivial⟩
  have hgiven : (Item.func echoFunc).Given echoHistory :=
    ⟨_, List.mem_filterMap.mpr ⟨echoHistory[4], List.getElem_mem _, rfl⟩, _, List.mem_cons_self, rfl⟩
  refine ⟨_, hmade, _, List.mem_cons_of_mem _ List.mem_cons_self, ?_⟩
  have htypes : [Val.f32 0x7fa00001].map Val.type = echoFunc.type.params := rfl
  obtain ⟨hloose, _⟩ := loose_call_agrees hmade (List.mem_cons_of_mem _ List.mem_cons_self) hgiven
    (Or.inr htypes) ()
  exact (congrArg CallOutcome.result hloose).trans rfl

end WasmEmbed
