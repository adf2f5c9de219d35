import WasmEmbed.Proofs.Machine.Callback
import WasmEmbed.Proofs.Realm.Executing

/-! The boundary between code and the functions of the host, for whole uses of a store. Whatever the
callback does, wherever code comes to calling it: just the operands get out, just an answer of the
declared types gets in, and everything else is the end of the use. -/
namespace WasmEmbed
open WasmEmbed.Code
variable {σ : Type}

/-- A use ends with a failure of the host's: by the trap without a code that tells of it, with the
heap, the fuel and the host as they were then. -/
structure Store.FailsBy (s : Store σ) (world : σ) (u : Use σ) (instantiation : Bool) (e : Error)
    (r : Resources σ) : Prop where
  result : (s.perform world u).result =
    .error (.trap none ("host function failed: " ++ e.message) instantiation)
  left : ∃ c, (s.perform world u).store = s.withContents c ∧
    c.resources (s.perform world u).world = r

/-- What becomes of a use that calls a host function where the operands on a stack are `stack`, the
heap is `heap`, the host is at `w` and `callers` wait: the function is handed `operands`, it leaves
`answer` and the host at `after`, and execution comes to `p`. -/
structure Store.Heeds (s : Store σ) (world : σ) (u : Use σ) (instantiation : Bool)
    (f : HostFunc σ) (stack : List Operand) (heap : Heap σ) (w : σ) (maxFrames : Nat)
    (callers : List Frame) (p : Progress σ) (operands : List Operand)
    (answer : Except Error (List Val)) (fuel : Option Nat) (after : σ) : Prop where
  typed : operands.map Operand.type = f.type.params
  same : operands = (stack.take f.type.params.length).reverse
  answers : f.Answers operands w answer after
  goesOn : ∀ values, answer = .ok values →
    p = Machine.resume ⟨heap, fuel, after⟩ maxFrames callers (values.map .val)
  stops : ∀ e, answer = .error e →
    p = .stopped (.hostFailed e) ⟨heap, fuel, after⟩ ∧
      s.FailsBy world u instantiation e ⟨heap, fuel, after⟩

section Left
variable {s : Store σ} {world : σ} {u : Use σ} {instantiation : Bool} {back : Resources σ}
  {addr : Nat} {args : List Operand}

theorem build_world (s : Store σ) (ref : StoreRef) (c : Contents σ) (world : σ) (m : Module)
    (ds : List (Definition σ)) {heap : Heap σ} {imported : Link} {result : Except Error Link}
    {after : Resources σ} (hprovided : c.heap.provideAll {} ds = (heap, imported))
    (hmade : Resources.instantiate ⟨heap, c.fuel, world⟩ s.config.bulkMemory s.maxFrames m.artifact
      imported = (result, after)) : (Instance.build s ref c world m ds).world = after.world := by
  simp only [Instance.build, hprovided, Contents.resources, hmade]
  cases result with
  | error e => rfl
  | ok l => rfl

/-- A use that runs a function leaves the store and the host with what the function left of them.
The two ways to call differ only in how arguments are converted, and an instance is made up to its
start function. -/
theorem runs_left (h : s.Runs world u instantiation back addr args) :
    ∃ c, (s.perform world u).store = s.withContents c ∧
      c.resources (s.perform world u).world = (back.call s.maxFrames addr args).2 := by
  have hcall {α : Type} (convert : α → ValType → Position → Nat → Except Error Val) {f : Func}
      {args : List α} {vs : List Val} {c : Contents σ}
      (hc : s.contentsFor f.store "function" = .ok c) (hargs : f.prepare s args convert = .ok vs) :
      ∃ d, (f.callWith convert s world args).store = s.withContents d ∧
        d.resources (f.callWith convert s world args).world =
          ((c.resources world).call s.maxFrames f.addr (vs.map .val)).2 := by
    rcases callWith_cases convert f s args with ⟨e, hp, _⟩ | ⟨c', vs', hc', hp, hrun⟩
    · exact nomatch hp.symm.trans hargs
    · rw [hrun, ← Except.ok.inj (hp.symm.trans hargs),
        Option.some.inj ((contentsFor_ok hc).2.symm.trans hc')]
      obtain ⟨d, hstore, hleft, _⟩ := run_store f s c' world vs'
      exact ⟨d, hstore, hleft⟩
  cases h with
  | call hc hargs => exact hcall coerce hc hargs
  | callTyped hc hargs => exact hcall checkType hc hargs
  | @start m imports r copied imported l i hlinked hcopied hstart =>
    obtain @⟨ref, c, ds, heap, imported, href, hc, hm, hds, hprovided⟩ := hlinked
    have hmade := instantiate_started s.maxFrames hcopied hstart
    obtain ⟨d, hstore, hheap, hfuel, _⟩ := build_made s ref c world m ds hprovided hmade
    have hworld := build_world s ref c world m ds hprovided hmade
    change ∃ d : Contents σ, (Instance.create s world m imports).store = _ ∧
      d.resources (Instance.create s world m imports).world = _
    rw [(create_of_resolve href hc hm imports world).2 ds hds]
    refine ⟨d, hstore, ?_⟩
    rw [Contents.resources, hheap, hfuel, hworld]

/-- Once a host function has failed, the use is over. -/
theorem failsBy_of_call {e : Error} {r : Resources σ}
    (hruns : s.Runs world u instantiation back addr args)
    (h : back.call s.maxFrames addr args = (.hostFailed e, r)) :
    s.FailsBy world u instantiation e r := by
  have hends := Store.Ends.ran hruns
  have hleft := runs_left hruns
  rw [h] at hends hleft
  exact ⟨(perform_stops_iff (executes_of_runs hruns) (.trap _ _)).mpr ⟨_, hends, rfl⟩, hleft⟩

theorem heeds_of_heed {f : HostFunc σ} {stack : List Operand} {heap : Heap σ} {w after : σ}
    {maxFrames : Nat} {callers : List Frame} {p : Progress σ} {fuel : Option Nat}
    {answer : Except Error (List Val)}
    (htypes : (stack.take f.type.params.length).reverse.map Operand.type = f.type.params)
    (h : f.Answers (topOf f.type.params stack) w answer after)
    (hp : p = Machine.heed ⟨heap, fuel, after⟩ maxFrames callers answer)
    (hstop : ∀ e, p = .stopped (.hostFailed e) ⟨heap, fuel, after⟩ →
      back.call s.maxFrames addr args = (.hostFailed e, ⟨heap, fuel, after⟩))
    (hruns : s.Runs world u instantiation back addr args) :
    s.Heeds world u instantiation f stack heap w maxFrames callers p (topOf f.type.params stack)
      answer fuel after := by
  refine ⟨map_type_fitAll _ _, fitAll_of_types htypes, h, ?_, ?_⟩
  · rintro values rfl
    exact hp
  · rintro e rfl
    exact ⟨hp, failsBy_of_call hruns (hstop e hp)⟩

/-- A function of the host that code calls finds operands of its types on the stack. -/
theorem operands_of_callsHost {m : Machine σ} {owed : List ValType} {f : HostFunc σ}
    {stack : List Operand} {inPlace : Bool} (hm : m.Typed owed)
    (hcalls : m.CallsHost f stack inPlace) :
    (stack.take f.type.params.length).reverse.map Operand.type = f.type.params := by
  obtain ⟨addr, hcalls, hf⟩ := hcalls
  obtain ⟨g, hg, htypes⟩ := operands_of_calls hm hcalls
  rw [← Option.some.inj (hf.symm.trans hg)] at htypes
  exact htypes

theorem types_of_args {ts : List ValType} (htypes : args.map Operand.type = ts) :
    (args.reverse.take ts.length).reverse.map Operand.type = ts := by
  have hlength : ts.length = args.reverse.length := by
    rw [← htypes, List.length_map, List.length_reverse]
  rw [hlength, List.take_length, List.reverse_reverse, htypes]

end Left

/-- In every run, and for every store: wherever the code that a use runs comes to calling a host
function, and where the function that runs is itself one, the callback is handed just the operands,
which are of the types that it declares, and its answer is heeded just if it is of the declared types;
else the use ends there. All other steps leave the host alone. -/
theorem host_function_boundary {history : List (Event σ)} {r : Realm σ} (hr : Run history r)
    {s : Store σ} (hs : s ∈ r.stores) {world : σ} {u : Use σ} (given : u.Given history)
    {instantiation : Bool} {back : Resources σ} {addr : Nat} {args : List Operand}
    (hruns : s.Runs world u instantiation back addr args) :
    (∀ m, back.Visits s.maxFrames addr args m →
      ((∀ f stack inPlace, ¬ m.CallsHost f stack inPlace) →
        m.step.resources.world = m.resources.world) ∧
      ∀ f stack inPlace, m.CallsHost f stack inPlace → ∃ operands answer fuel after,
        s.Heeds world u instantiation f stack m.resources.heap m.resources.world m.maxFrames
          (m.waiting f.type.params.length stack inPlace) m.step operands answer fuel after) ∧
    ∀ f, back.heap.funcs[addr]? = some (.host f) → ∃ operands answer fuel after,
      s.Heeds world u instantiation f args.reverse back.heap back.world s.maxFrames []
        (Machine.invoke back s.maxFrames [] addr args.reverse) operands answer fuel after := by
  have hrunnable := runnable_of_runs hr hs given hruns
  constructor
  · -- code that was validated has operands of the declared types wherever it calls
    intro m hvisits
    obtain ⟨owed, htyped⟩ := visits_typed hrunnable hvisits
    obtain ⟨n, start, hn, hinvoke, hsteps⟩ := hvisits
    refine ⟨step_world, ?_⟩
    intro f stack inPlace hcalls
    have htypes := operands_of_callsHost htyped hcalls
    have hanswers := answers_host_call f (topOf f.type.params stack) m.resources.world
    obtain ⟨fuel, hstep⟩ := step_callsHost hcalls hanswers
    refine ⟨_, _, fuel, _, heeds_of_heed htypes hanswers hstep ?_ hruns⟩
    intro e hstop
    rw [Resources.call, hinvoke]
    exact run_of_steps hsteps hn hstop
  · -- a function of the host that the host itself calls was handed arguments that were checked
    intro f hf
    obtain ⟨g, hg, htypes⟩ := hrunnable.function
    rw [← Option.some.inj (hf.symm.trans hg)] at htypes
    have hanswers := answers_host_call f (topOf f.type.params args.reverse) back.world
    have hinvoke := invoke_host s.maxFrames [] hf hanswers
    refine ⟨_, _, back.fuel, _, heeds_of_heed (types_of_args htypes) hanswers hinvoke ?_ hruns⟩
    intro e hstop
    rw [Resources.call, hstop]

section Noting

/-- Bytes that read as a valid module are compiled to it. -/
theorem compile_of_read {e : Engine} {bytes : List UInt8} {a : Artifact}
    (hheader : Module.checkHeader bytes = .ok ())
    (hnew : e.cached? (e.digest bytes) bytes = none)
    (hread : Binary.readModule e.config.features.referenceTypes bytes = .ok a)
    (hcheck : Typing.checkModule e.config.features a = .ok ()) :
    Module.compile e bytes = (.ok (.ofArtifact e bytes a), e.keep (e.digest bytes) bytes a) := by
  have hcompile : Typing.compile e.config.features bytes = .ok a := by
    rw [Typing.compile, hread]
    change (Typing.checkModule e.config.features a >>= _) = _
    rw [hcheck]
    rfl
  rw [Module.compile, hheader]
  dsimp only
  rw [hnew, Module.compileBytes, hcompile]

/-- The bytes of a module whose code hands a number to an imported function. -/
def notingBytes : List UInt8 :=
  [0, 97, 115, 109, 1, 0, 0, 0, 1, 11, 2, 96, 0, 0, 96, 1, 127, 3, 127, 125, 124,
    2, 7, 1, 1, 104, 1, 102, 0, 1, 3, 2, 1, 0, 7, 5, 1, 1, 103, 0, 1,
    10, 11, 1, 9, 0, 65, 7, 16, 0, 26, 26, 26, 11]

def notingEngine : Engine := { id := 0, config := {} }

def notingArtifact : Artifact where
  types := [⟨[], []⟩, ⟨[.i32], [.i32, .f32, .f64]⟩]
  imports := [⟨"h", "f", .func 1⟩]
  funcs := [0]
  exports := [⟨"g", .function, 1⟩]
  bodies := [⟨[], [.const (.i32 7), .call 0, .drop, .drop, .drop]⟩]

def notingModule : Module := .ofArtifact notingEngine notingBytes notingArtifact

/-- A function of the host that notes what it is handed, and whose second result is of a wrong type. -/
def notingFunc : HostFunc (List (List Val)) :=
  ⟨⟨[.i32], [.i32, .f32, .f64]⟩, fun vs notes => (.ok [.i32 1, .i64 2, .i32 3], vs :: notes)⟩

def notingImports : Imports (List (List Val)) := ⟨[(("h", "f"), .host notingFunc)]⟩

def notingCaller : Func := ⟨⟨1, 2⟩, 0, 0, "g", ⟨[], []⟩, 1, .bound⟩

/-- A host with an engine and an empty store, which has noted nothing. -/
def notingRealm : Realm (List (List Val)) where
  engines := [notingEngine]
  stores := [⟨1, 0, {}, some { heap := { limit := none }, fuel := none }, some 2⟩]
  next := 3
  world := []

/-- The store once the module has an instance. -/
def notingStore : Store (List (List Val)) where
  id := 1
  engine := 0
  config := {}
  contents := some
    { heap := { limit := none
                funcs := #[.host notingFunc, .code ⟨⟨[], []⟩, [],
                  [.const (.i32 7), .call 0, .drop, .drop, .drop], "func[1]", 0⟩]
                links := #[{ types := notingArtifact.types, funcs := [0, 1] }] }
      fuel := none
      nextInstance := 1 }
  token := some 2

theorem noting_compiled : Module.compile notingEngine notingBytes =
    (.ok (.ofArtifact notingEngine notingBytes notingArtifact),
      notingEngine.keep (notingEngine.digest notingBytes) notingBytes notingArtifact) := by
  have hheader : Module.checkHeader notingBytes = .ok () := rfl
  have hnew : notingEngine.cached? (notingEngine.digest notingBytes) notingBytes = none := rfl
  have hread : Binary.readModule notingEngine.config.features.referenceTypes notingBytes =
    .ok notingArtifact := rfl
  have hcheck : Typing.checkModule notingEngine.config.features notingArtifact = .ok () := rfl
  exact compile_of_read hheader hnew hread hcheck

/-- The caller is a function of an instance in a run of its own, whose compilation is evaluated
apart from the rest. -/
theorem run_noting : ∃ (history : List (Event (List (List Val)))) (r : Realm (List (List Val))),
    Run history r ∧ r.stores = [notingStore] ∧ (Item.func notingCaller).Given history := by
  have hengine := (Run.start ([] : List (List Val))).request (.newEngine {}) trivial
  have hopened : Run _ notingRealm := hengine.request (.newStore 0 {}) List.mem_cons_self
  have hanswer : notingRealm.perform (.compile 0 (.bytes notingBytes)) =
      (.reply (.ok (.module notingModule)) none, notingRealm.setEngine
        (notingEngine.keep (notingEngine.digest notingBytes) notingBytes notingArtifact)) := by
    have hfound : notingRealm.engine? 0 = some notingEngine := rfl
    rw [Realm.perform, hfound]
    dsimp only [Realm.compile, Source.load]
    rw [noting_compiled]
    rfl
  have hcompiled := hopened.request (.compile 0 (.bytes notingBytes)) List.mem_cons_self
  rw [hanswer] at hcompiled
  have hmade := hcompiled.request (.use 1 (.instantiate notingModule notingImports))
    ⟨List.mem_cons_self, List.mem_filterMap.mpr ⟨_, List.getElem_mem (n := 2) (by simp), rfl⟩,
      fun e he => by
        rw [List.mem_singleton.mp he]
        trivial⟩
  refine ⟨_, _, hmade, rfl, ?_⟩
  exact ⟨_, List.mem_filterMap.mpr ⟨_, List.getElem_mem (n := 3) (by simp), rfl⟩, _,
      List.mem_cons_self, rfl⟩

/-- The callback saw the number, and the first of the two wrong results is told of. One step puts
the number on the stack, and the next one calls. -/
theorem mistyped_result_traps : ∃ (history : List (Event (List (List Val))))
    (r : Realm (List (List Val))), Run history r ∧ ∃ s ∈ r.stores,
      let out := s.perform [] (.callTyped notingCaller [])
      out.world = [[.i32 7]] ∧ out.result = .error (.trap none
        "host function failed: Type mismatch for result 1: expected f32, got i64" false) := by
  obtain ⟨history, r, hr, hstores, hgiven⟩ := run_noting
  have hgiven : (Use.callTyped notingCaller []).Given history := hgiven
  have hs : notingStore ∈ r.stores := by
    rw [hstores]
    exact List.mem_cons_self
  have hargs : notingCaller.prepare notingStore [] checkType = .ok [] := rfl
  have hruns : notingStore.Runs [] (.callTyped notingCaller []) false _ _ _ := .callTyped rfl hargs
  obtain ⟨hcode, _⟩ := host_function_boundary hr hs hgiven hruns
  obtain ⟨_, hcalls⟩ := hcode _ ⟨1, _, Nat.one_lt_two_pow (by decide), rfl, .succ rfl (.zero _)⟩
  obtain ⟨operands, answer, fuel, after, hheeds⟩ := hcalls notingFunc _ false ⟨_, .call rfl, rfl⟩
  have hcall := host_call_of_answers hheeds.answers
  rw [hheeds.same] at hcall
  obtain ⟨hanswer, hafter⟩ := Prod.mk.inj hcall
  obtain ⟨_, hfails⟩ := hheeds.stops _ hanswer.symm
  obtain ⟨c, _, hleft⟩ := hfails.left
  exact ⟨history, r, hr, notingStore, hs, (congrArg Resources.world hleft).trans hafter.symm,
    hfails.result⟩

end Noting

end WasmEmbed
