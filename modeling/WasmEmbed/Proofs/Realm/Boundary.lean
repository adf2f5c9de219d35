import WasmEmbed.Proofs.Call.Agreement
import WasmEmbed.Proofs.Realm.Limits

/-! Types at the boundary of a store. Whatever goes in, be it an argument, the answer of a host
function or a value that is written, is of the type that is declared where it goes; whatever comes
out is of the type that is declared where it comes from, and a reference to a function does not come
out at all. -/
namespace WasmEmbed
open WasmEmbed.Code
variable {σ : Type}

/-- What the variable has now. -/
def Global.Has (x : Global) (s : Store σ) (o : Operand) : Prop :=
  ∃ c g, s.contents = some c ∧ c.heap.globals[x.addr]? = some g ∧ g.type = x.type ∧ g.value = o

/-- What comes of reading a variable: a refusal, or what it has if that may leave the store. -/
inductive Global.Reads (x : Global) (s : Store σ) : Prop where
  | refused {e : Error} (h : s.contentsFor x.store "global" = .error e) (hget : x.get s = .error e)
  | value {v : Val} (hhas : x.Has s (.val v)) (htype : v.type = x.type.content)
    (hget : x.get s = .ok v)
  | reference {addr : Nat} (hhas : x.Has s (.func addr)) (htype : x.type.content = .ref .func)
    (hget : x.get s = .error (.type .global 0 "null reference" "non-null reference to a function"))

/-- What comes of writing a value of the host to a variable: a refusal, or a store in which the variable
has what the value stands for. -/
inductive Global.Writes (x : Global) (s : Store σ) (value : HostValue) :
    Except Error (Store σ) → Prop where
  | refused {e : Error} (h : s.contentsFor x.store "global" = .error e) :
    Writes x s value (.error e)
  | constant {c : Contents σ} (h : s.contentsFor x.store "global" = .ok c)
    (hconstant : x.type.isMutable = false) : Writes x s value (.error (.immutableGlobal x.name))
  | unfit {c : Contents σ} {e : Error} (h : s.contentsFor x.store "global" = .ok c)
    (hmutable : x.type.isMutable = true) (hcoerce : coerce value x.type.content .global 0 = .error e) :
    Writes x s value (.error e)
  | written {c : Contents σ} {v : Val} {t : Store σ} (h : s.contentsFor x.store "global" = .ok c)
    (hmutable : x.type.isMutable = true) (hcoerce : coerce value x.type.content .global 0 = .ok v)
    (htype : v.type = x.type.content) (hhas : x.Has t (.val v)) (hget : x.get t = .ok v) :
    Writes x s value (.ok t)

/-- The function is called with these values, which the host's arguments were prepared as. It has the
type that the handle tells, and takes the values from the stack as they are. -/
structure Func.Enters (f : Func) (s : Store σ) (c : Contents σ) (prepared : Except Error (List Val))
    (vs : List Val) : Prop where
  prepared : prepared = .ok vs
  contents : s.contents = some c
  held : c.heap.Holds f.addr (.func f.type)
  params : vs.map Val.type = f.type.params
  taken : topOf f.type.params (vs.map .val).reverse = vs.map .val

/-- What comes of a call with arguments that were prepared in this way: a refusal, the report of what
stopped the code, or what may leave the store of the operands that it gave. -/
inductive Func.Crosses (f : Func) (s : Store σ) (world : σ) (prepared : Except Error (List Val)) :
    Except Error (List Val) → Prop where
  | refused {e : Error} (h : prepared = .error e) : Crosses f s world prepared (.error e)
  | stopped {c : Contents σ} {vs : List Val} {e : Error} (h : f.Enters s c prepared vs)
    (hcall : ((c.resources world).call s.maxFrames f.addr (vs.map .val)).1.report false = .error e) :
    Crosses f s world prepared (.error e)
  | finished {c : Contents σ} {vs : List Val} {os : List Operand} {result : Except Error (List Val)}
    (h : f.Enters s c prepared vs)
    (hcall : ((c.resources world).call s.maxFrames f.addr (vs.map .val)).1 = .finished os)
    (hresults : os.map Operand.type = f.type.results) (hhanded : Handed .result os result) :
    Crosses f s world prepared result

/-- What comes of code's call of a host function: the answer of the host if it is of the declared
types, and else the end of what the host asked for. -/
structure HostFunc.Admits (h : HostFunc σ) (operands : List Operand) (w : σ)
    (result : Except Error Reply) (instantiation : Bool) : Prop where
  params : operands.map Operand.type = h.type.params
  answers : ∀ values, (h.call operands w).1 = .ok values ↔ ∃ vs : List Val,
    operands = vs.map .val ∧ (h.callback vs w).1 = .ok values ∧
      values.map Val.type = h.type.results
  fails : ∀ e, (h.call operands w).1 = .error e →
    result = .error (.trap none ("host function failed: " ++ e.message) instantiation)

variable {history : List (Event σ)} {r : Realm σ} {s : Store σ} {c : Contents σ} {f : Func}
  {x : Global} {world : σ} {α : Type} {convert : α → ValType → Position → Nat → Except Error Val}
  {vs ws : List Val}

section Convert

/-- Whatever `convert` makes is of the type that it is asked for. -/
def Makes {α : Type} (convert : α → ValType → Position → Nat → Except Error Val) : Prop :=
  ∀ x t position i v, convert x t position i = .ok v → v.type = t

theorem makes_coerce : Makes coerce := by
  intro x t position i v h
  unfold coerce at h
  split at h
  · rename_i w hw
    rw [← Except.ok.inj h]
    exact toVal?_type hw
  · contradiction

theorem makes_checkType : Makes checkType := by
  intro x t position i v h
  unfold checkType at h
  split at h
  · rename_i htype
    rw [← Except.ok.inj h]
    exact htype
  · contradiction

/-- Arguments that convert are of the types of the parameters. -/
theorem convertAll_makes (hconvert : Makes convert) {i : Nat} {ts : List ValType} {xs : List α}
    {vs : List Val} (hlength : ts.length = xs.length) (h : convertAll convert i ts xs = .ok vs) :
    vs.map Val.type = ts := by
  induction ts generalizing i xs vs with
  | nil =>
    rw [← Except.ok.inj h]
    rfl
  | cons t ts ih =>
    cases xs with
    | nil => exact absurd hlength (by simp)
    | cons x xs =>
      obtain ⟨v, hv, h⟩ := except_bind_ok h
      obtain ⟨vs', hrest, h⟩ := except_bind_ok h
      rw [← Except.ok.inj h, List.map_cons, hconvert x t _ i v hv,
        ih (Nat.succ.inj hlength) hrest]

/-- Arguments that are accepted are of the types of the parameters, and as many. -/
theorem prepare_makes (hconvert : Makes convert) {args : List α} {vs : List Val}
    (h : f.prepare s args convert = .ok vs) : vs.map Val.type = f.type.params := by
  obtain ⟨c, _, h⟩ := except_bind_ok h
  obtain ⟨hlength, h⟩ := except_guard_ok h
  exact convertAll_makes hconvert (not_not.mp hlength) h

end Convert

section Globals
variable {o : Operand} {value : HostValue}

/-- Reading a variable gives what it has, unless that cannot leave the store. -/
theorem get_of_has (hstore : x.store.id = s.id) (h : x.Has s o) : x.get s = o.leave .global 0 := by
  obtain ⟨c, g, hc, hg, _, rfl⟩ := h
  rw [Global.get, contentsFor_live hstore hc]
  dsimp only [bind, Except.bind]
  rw [hg]

theorem type_of_has (h : x.Has s o) : o.type = x.type.content := by
  obtain ⟨c, g, _, _, htype, rfl⟩ := h
  rw [g.typed, htype]

/-- A variable takes only values of its type, and only if it may change. -/
theorem has_of_set {v : Val} (hc : s.contents = some c) (h : x.Has s o)
    (hmutable : x.type.isMutable = true) (htype : v.type = x.type.content) :
    x.Has (s.withContents { c with heap := c.heap.perform (.global x.addr (.val v)) }) (.val v) := by
  obtain ⟨c', g, hc', hg, hsame, _⟩ := h
  obtain rfl := Option.some.inj (hc.symm.trans hc')
  have hkept : (g.set (.val v)).value = .val v := by
    have hfits : g.type.isMutable = true ∧ (Operand.val v).type = g.type.content := by
      rw [hsame]
      exact ⟨hmutable, htype⟩
    unfold GlobalObj.set
    rw [dif_pos hfits]
  refine ⟨_, g.set (.val v), rfl, ?_, (g.type_set _).trans hsame, hkept⟩
  change (c.heap.globals.modify x.addr (·.set (.val v)))[x.addr]? = _
  rw [Array.getElem?_modify, if_pos rfl, hg]
  rfl

/-- A variable that the host was given has a value of its type, as long as its store is alive. -/
theorem has_of_given (hr : Run history r) (hs : s ∈ r.stores) (hx : (Item.global x).Given history)
    (hfor : s.contentsFor x.store "global" = .ok c) : ∃ o, x.Has s o := by
  obtain ⟨hstore, hc⟩ := contentsFor_ok hfor
  have hkeeps := keeps_of_run hr (store?_of_mem (consistent_of_run hr) hs) hc
  obtain ⟨g, hg, htype⟩ := hkeeps.holds (.global x) hx hstore
  exact ⟨g.value, c, g, hc, hg, htype, rfl⟩

/-- Whatever is read from a variable is of its type. -/
theorem reads_of_given (hr : Run history r) (hs : s ∈ r.stores)
    (hx : (Item.global x).Given history) : x.Reads s := by
  cases hfor : s.contentsFor x.store "global" with
  | error e =>
    refine .refused hfor ?_
    rw [Global.get, hfor]
    rfl
  | ok c =>
    obtain ⟨o, hhas⟩ := has_of_given hr hs hx hfor
    have hget := get_of_has (contentsFor_ok hfor).1 hhas
    have htype := type_of_has hhas
    cases o with
    | val v => exact .value hhas htype hget
    | func addr => exact .reference hhas htype.symm hget

/-- Whatever is written to a variable is of its type. -/
theorem writes_of_given (hr : Run history r) (hs : s ∈ r.stores)
    (hx : (Item.global x).Given history) (value : HostValue) :
    x.Writes s value (x.set s value) := by
  unfold Global.set
  cases hfor : s.contentsFor x.store "global" with
  | error e => exact .refused hfor
  | ok c =>
    obtain ⟨hstore, hc⟩ := contentsFor_ok hfor
    obtain ⟨o, hhas⟩ := has_of_given hr hs hx hfor
    cases hmutable : x.type.isMutable with
    | false => exact .constant hfor hmutable
    | true =>
      cases hcoerce : coerce value x.type.content .global 0 with
      | error e => exact .unfit hfor hmutable hcoerce
      | ok v =>
        have htype := makes_coerce _ _ _ _ _ hcoerce
        have hafter := has_of_set hc hhas hmutable htype
        exact .written hfor hmutable hcoerce htype hafter
          (get_of_has (s := s.withContents _) hstore hafter)

end Globals

section Calls

/-- The first argument was pushed first, so the list is read from its end. -/
theorem topOf_vals {ts : List ValType} (htypes : vs.map Val.type = ts) :
    topOf ts (vs.map .val).reverse = vs.map .val := by
  have hlength : ts.length = (vs.map Operand.val).reverse.length := by
    rw [← htypes, List.length_reverse, List.length_map, List.length_map]
  rw [topOf, hlength, List.take_length, List.reverse_reverse]
  apply fitAll_of_types
  rw [List.map_map]
  exact htypes

/-- Arguments go in, and results come out, with the types of the function. -/
theorem crosses_of_given (hr : Run history r) (hs : s ∈ r.stores) (hf : (Item.func f).Given history)
    (hconvert : Makes convert) (world : σ) (args : List α) :
    f.Crosses s world (f.prepare s args convert) (f.callWith convert s world args).result := by
  cases hp : f.prepare s args convert with
  | error e =>
    rw [Func.callWith, hp]
    exact .refused rfl
  | ok vs =>
    obtain ⟨c, hfor, _⟩ := except_bind_ok hp
    obtain ⟨hown, hc⟩ := contentsFor_ok hfor
    have hkeeps := keeps_of_run hr (store?_of_mem (consistent_of_run hr) hs) hc
    have hparams := prepare_makes hconvert hp
    have henters : f.Enters s c (.ok vs) vs :=
      ⟨rfl, hc, hkeeps.holds (.func f) hf hown, hparams, topOf_vals hparams⟩
    rw [callWith_result convert hfor hp world]
    cases hreport : ((c.resources world).call s.maxFrames f.addr (vs.map .val)).1.report false with
    | error e => exact .stopped henters hreport
    | ok os =>
      have hcall := report_ok hreport
      exact .finished henters hcall (finished_types hr hs hf hfor hcall)
        (handed_leaveAll .result os)

theorem types_of_crosses {prepared : Except Error (List Val)}
    (h : f.Crosses s world prepared (.ok ws)) : ws.map Val.type = f.type.results := by
  generalize hresult : Except.ok ws = result at h
  cases h with
  | refused h => contradiction
  | stopped h hcall => contradiction
  | finished h hcall hresults hhanded =>
    rw [← hresult] at hhanded
    rw [types_of_handed hhanded, hresults]

end Calls

section Host
variable {h : HostFunc σ} {operands : List Operand} {w : σ} {back : Resources σ} {u : Use σ}
  {instantiation : Bool} {addr : Nat} {args : List Operand}

/-- A host function is consulted with operands of its parameters. -/
theorem params_of_consults {maxFrames : Nat}
    (h' : back.Consults maxFrames addr args h operands w) :
    operands.map Operand.type = h.type.params := by
  cases h' with
  | atOnce hf => exact map_type_fitAll _ _
  | later hm hsteps hn hcall hf => exact map_type_fitAll _ _

theorem admits_of_runs (hruns : s.Runs world u instantiation back addr args)
    (hconsults : back.Consults s.maxFrames addr args h operands w) :
    h.Admits operands w (s.perform world u).result instantiation where
  params := params_of_consults hconsults
  answers := fun _ => host_call_ok_iff
  fails := fun _ => perform_hostFailed hruns hconsults

end Host

/-- In every run, and for every store, a variable has a value of its type, which a module declares, also
while code is executed. A handle of a variable is told a value of that type, or refused for a
reference; what is written through it is a value of that type too. A function gets values of the
types of its parameters, and a call that succeeds hands back values of the types of its results, as
many and in order; it fails, with its place, for the first result that is a reference. The answer of
a host function counts just if it is of the declared types, or else ends what the host asked for. -/
theorem types_kept_at_boundary {history : List (Event σ)} {r : Realm σ} (hr : Run history r)
    {s : Store σ} (hs : s ∈ r.stores) :
    (∀ c, s.contents = some c → ∀ g ∈ c.heap.globals, g.value.type = g.type.content ∧
      ∃ m, Tried history s.id m ∧ ∃ d ∈ m.artifact.globals, d.type = g.type) ∧
    (∀ x : Global, (Item.global x).Given history →
      x.Reads s ∧ ∀ value, x.Writes s value (x.set s value)) ∧
    (∀ f : Func, (Item.func f).Given history → ∀ world,
      (∀ args, let result := (f.callTyped s world args).result
        f.Crosses s world (f.prepare s args checkType) result ∧
          ∀ ws, result = .ok ws → ws.map Val.type = f.type.results) ∧
      ∀ args, ∃ result, f.Crosses s world (f.prepare s args coerce) result ∧
        (f.call s world args).result = result.map (fun ws => .ofList (ws.map .ofVal)) ∧
          ∀ ws, result = .ok ws → ws.map Val.type = f.type.results) ∧
    ∀ world u instantiation back addr args, s.Runs world u instantiation back addr args →
      (∀ m, back.Reaches s.maxFrames addr args m →
        ∀ g ∈ m.resources.heap.globals, g.value.type = g.type.content) ∧
      ∀ h operands w, back.Consults s.maxFrames addr args h operands w →
        h.Admits operands w (s.perform world u).result instantiation := by
  have hfound := store?_of_mem (consistent_of_run hr) hs
  refine ⟨?_, ?_, ?_, ?_⟩
  · intro c hc g hg
    refine ⟨g.typed, (declared_of_run hr hfound hc).globals g.type ?_⟩
    exact List.mem_map_of_mem (Array.mem_toList_iff.mpr hg)
  · intro x hx
    exact ⟨reads_of_given hr hs hx, writes_of_given hr hs hx⟩
  · intro f hf world
    refine ⟨fun args => ?_, fun args => ?_⟩
    · have hcrosses := crosses_of_given hr hs hf makes_checkType world args
      refine ⟨hcrosses, fun ws hws => ?_⟩
      have hws : (f.callWith checkType s world args).result = .ok ws := hws
      rw [hws] at hcrosses
      exact types_of_crosses hcrosses
    · have hcrosses := crosses_of_given hr hs hf makes_coerce world args
      refine ⟨_, hcrosses, rfl, fun ws hws => ?_⟩
      rw [hws] at hcrosses
      exact types_of_crosses hcrosses
  · intro world u instantiation back addr args hruns
    exact ⟨fun m _ g _ => g.typed, fun h operands w => admits_of_runs hruns⟩

/-- A function of the host that gives an integer where it declares another number. -/
def lyingFunc : HostFunc Unit := ⟨⟨[.f32], [.f32]⟩, fun _ world => (.ok [.i32 0], world)⟩

def lyingImports : Imports Unit := ⟨[(("h", "f"), .host lyingFunc)]⟩

def lyingHistory : List (Event Unit) :=
  pairHistory ++ [⟨.compile 0 (.bytes echoBytes), .reply (.ok (.module echoModule)) none⟩,
    ⟨.use 1 (.instantiate echoModule lyingImports),
      .reply (.ok (.instance ⟨⟨1, 2⟩, 0, echoModule, [("g", .func echoFunc)]⟩)) none⟩]

theorem run_lying : ∃ r, Run lyingHistory r ∧ ∃ s ∈ r.stores, ∃ c,
    s.contentsFor echoFunc.store "function" = .ok c ∧ c.heap.funcs[0]? = some (.host lyingFunc) ∧
      echoFunc.prepare s [.f32 0] checkType = .ok [.f32 0] := by
  have hcompiled : Run (lyingHistory.take 4) _ :=
    run_pair.request (.compile 0 (.bytes echoBytes)) List.mem_cons_self
  have hmodule : echoModule ∈ (lyingHistory.take 4).filterMap Event.module? :=
    List.mem_filterMap.mpr ⟨(lyingHistory.take 4)[3], List.getElem_mem _, rfl⟩
  have hmade : Run lyingHistory _ :=
    hcompiled.request (.use 1 (.instantiate echoModule lyingImports))
      ⟨List.mem_cons_self, hmodule, fun e he => by
        rw [List.mem_singleton.mp he]
        trivial⟩
  exact ⟨_, hmade, _, List.mem_cons_of_mem _ List.mem_cons_self, _, rfl, rfl, rfl⟩

/-- The integer does not get in: the call fails, and the failure tells what the host function gave. -/
theorem lying_host_refused : ∃ r, Run lyingHistory r ∧ ∃ s ∈ r.stores,
    (s.perform () (.callTyped echoFunc [.f32 0])).result = .error (.trap none
      ("host function failed: " ++ (Error.type .result 0 "f32" "i32").message) false) := by
  obtain ⟨r, hr, s, hs, c, hfor, hfunc, hargs⟩ := run_lying
  obtain ⟨_, _, _, hcode⟩ := types_kept_at_boundary hr hs
  have hadmits := (hcode () _ _ _ _ _ (.callTyped hfor hargs)).2 lyingFunc _ _ (.atOnce hfunc)
  exact ⟨r, hr, s, hs, hadmits.fails (.type .result 0 "f32" "i32") rfl⟩

end WasmEmbed
