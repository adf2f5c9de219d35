import WasmEmbed.Proofs.Heap.Segments
import WasmEmbed.Proofs.Instance.Numbering
import WasmEmbed.Proofs.Store.Untrapped

/-! What the traps are owed to that the making of an instance ends with. One is that the start
function traps, or a host function that it comes to calling fails. The other is that an active segment
does not fit, which stops the making of an instance before any start function is entered: it is
answered with a trap as well, but only where there are operations on bulk memory. -/
namespace WasmEmbed
open WasmEmbed.Code
variable {σ : Type}

/-- The start function of the module is entered, and traps or comes to calling a host function that
fails, which is reported with this code and message. -/
inductive Store.StartTraps (s : Store σ) (world : σ) (m : Module) (imports : Imports σ) :
    Option String → String → Prop where
  | trapped {r : Resources σ} {addr : Nat} {code : TrapCode} {frames : List String}
    (hruns : s.Runs world (.instantiate m imports) true r addr [])
    (htraps : (r.call s.maxFrames addr []).1 = .trapped code frames) :
    StartTraps s world m imports (some code.name) (code.message frames)
  | hostFailed {r : Resources σ} {addr : Nat} {f : HostFunc σ} {operands : List Operand} {w : σ}
    {e : Error} (hruns : s.Runs world (.instantiate m imports) true r addr [])
    (hconsults : r.Consults s.maxFrames addr [] f operands w)
    (hfails : (f.call operands w).1 = .error e) :
    StartTraps s world m imports none ("host function failed: " ++ e.message)

/-- Linking passes and there is room for all that the module defines, but an active segment of it does
not fit. -/
inductive Store.Overruns (s : Store σ) (world : σ) (m : Module) (imports : Imports σ) :
    TrapCode → Prop where
  | intro {r : Resources σ} {imported : Link} {heap : Heap σ} {addr : Nat} {kind : TrapCode}
    (hlinked : s.Linked world m imports r imported)
    (halloc : r.heap.allocate m.artifact imported = .ok (heap, addr))
    (hover : heap.Overrun m.artifact (heap.link addr) kind) : Overruns s world m imports kind

variable {s : Store σ} {world : σ} {u : Use σ} {m : Module} {imports : Imports σ}
  {code : Option String} {message : String} {kind : TrapCode}

section Linked
variable {r r' : Resources σ} {imported imported' : Link} {bulkMemory : Bool} {a : Artifact}

theorem linked_unique (h : s.Linked world m imports r imported)
    (h' : s.Linked world m imports r' imported') : r = r' ∧ imported = imported' := by
  cases h with
  | intro _ hc _ hds hprovided =>
    cases h' with
    | intro _ hc' _ hds' hprovided' =>
      obtain rfl := Option.some.inj (hc.symm.trans hc')
      obtain rfl := Except.ok.inj (hds.symm.trans hds')
      obtain ⟨rfl, rfl⟩ := Prod.mk.inj (hprovided.symm.trans hprovided')
      exact ⟨rfl, rfl⟩

/-- Copying stops only where segments were not checked before. -/
theorem copied_some_iff :
    (∃ l after, r.Copied bulkMemory a imported l (some kind) after) ↔
      bulkMemory = true ∧ ∃ heap addr, r.heap.allocate a imported = .ok (heap, addr) ∧
        heap.Overrun a (heap.link addr) kind := by
  constructor
  · rintro ⟨_, after, @⟨heap, addr, _, _, halloc, hfits, hcopy⟩⟩
    have hover : heap.Overrun a (heap.link addr) kind :=
      copyActive_some_iff.mp (congrArg Prod.fst hcopy)
    refine ⟨hfits.resolve_right fun hcheck => ?_, heap, addr, halloc, hover⟩
    exact checkSegments_ok_iff.mp hcheck kind hover
  · rintro ⟨hbulk, heap, addr, halloc, hover⟩
    have hstop : (Resources.copyActive { r with heap } a (heap.link addr)).1 = some kind :=
      copyActive_some_iff.mpr hover
    exact ⟨_, _, .intro halloc (Or.inl hbulk) (Prod.ext hstop rfl)⟩

theorem not_overrun_of_copied {l : Link} {copied : Resources σ} {heap : Heap σ} {addr : Nat}
    (h : r.Copied bulkMemory a imported l none copied)
    (halloc : r.heap.allocate a imported = .ok (heap, addr)) (kind : TrapCode) :
    ¬ heap.Overrun a (heap.link addr) kind := by
  obtain ⟨halloc', _, hcopy⟩ := h
  obtain ⟨rfl, rfl⟩ := Prod.mk.inj (Except.ok.inj (halloc.symm.trans halloc'))
  intro hover
  have hstop : (Resources.copyActive { r with heap } a (heap.link addr)).1 = some kind :=
    copyActive_some_iff.mpr hover
  rw [hcopy] at hstop
  contradiction

end Linked

section Instantiate

theorem startTraps_iff :
    s.StartTraps world m imports code message ↔
      ∃ r addr, s.Runs world (.instantiate m imports) true r addr [] ∧
        (r.call s.maxFrames addr []).1.report true = .error (.trap code message true) := by
  constructor
  · rintro (⟨hruns, htraps⟩ | ⟨hruns, hconsults, hfails⟩)
    · exact ⟨_, _, hruns, by rw [htraps]; rfl⟩
    · have hstop := call_hostFailed_iff.mpr ⟨_, _, _, hconsults, hfails⟩
      exact ⟨_, _, hruns, by rw [hstop]; rfl⟩
  · rintro ⟨r, addr, hruns, hreport⟩
    cases hstop : (r.call s.maxFrames addr []).1 with
    | finished values =>
      rw [hstop] at hreport
      contradiction
    | trapped kind frames =>
      rw [hstop] at hreport
      obtain ⟨rfl, rfl, _⟩ := Error.trap.inj (Except.error.inj hreport)
      exact .trapped hruns hstop
    | hostFailed e =>
      rw [hstop] at hreport
      obtain ⟨rfl, rfl, _⟩ := Error.trap.inj (Except.error.inj hreport)
      obtain ⟨f, operands, w, hconsults, hfails⟩ := call_hostFailed_iff.mp hstop
      exact .hostFailed hruns hconsults hfails
    | outOfFuel =>
      rw [hstop] at hreport
      exact nomatch Except.error.inj hreport

/-- A module without a start function has none that could trap. -/
theorem start_of_startTraps (h : s.StartTraps world m imports code message) :
    ∃ i, m.artifact.start = some i := by
  have hruns {r : Resources σ} {addr : Nat}
      (hruns : s.Runs world (.instantiate m imports) true r addr []) :
      ∃ i, m.artifact.start = some i := by
    cases hruns with
    | start _ _ hstart => exact ⟨_, hstart⟩
  cases h with
  | trapped h _ => exact hruns h
  | hostFailed h _ _ => exact hruns h

/-- Where a segment does not fit, no start function is entered. -/
theorem not_runs_of_overruns (h : s.Overruns world m imports kind) {r : Resources σ} {addr : Nat}
    {args : List Operand} : ¬ s.Runs world (.instantiate m imports) true r addr args := by
  obtain ⟨hlinked, halloc, hover⟩ := h
  intro hruns
  cases hruns with
  | start hlinked' hcopied _ =>
    obtain ⟨rfl, rfl⟩ := linked_unique hlinked hlinked'
    exact not_overrun_of_copied hcopied halloc kind hover

/-- Where there are no operations on bulk memory, a segment that does not fit is want of room. -/
theorem resource_of_overruns (h : s.Overruns world m imports kind)
    (hbulk : s.config.bulkMemory = false) :
    ∃ reason, (Instance.create s world m imports).result = .error (.resource reason) := by
  obtain @⟨r, imported, heap, addr, _, hlinked, halloc, hover⟩ := h
  obtain ⟨g, hresult⟩ := create_linked hlinked
  cases hcheck : heap.checkSegments m.artifact (heap.link addr) with
  | ok _ => exact absurd hover (checkSegments_ok_iff.mp hcheck kind)
  | error e =>
    obtain ⟨reason, rfl⟩ := checkSegments_error hcheck
    refine ⟨reason, ?_⟩
    rw [hresult, hbulk]
    simp only [Resources.instantiate, halloc, hcheck, Bool.false_eq_true, if_false]
    rfl

/-- The making of an instance ends with a trap for these two reasons. A start function runs only
once everything is copied, so that they exclude each other. -/
theorem create_trap_iff :
    (Instance.create s world m imports).result = .error (.trap code message true) ↔
      s.StartTraps world m imports code message ∨
        s.config.bulkMemory = true ∧ ∃ kind, s.Overruns world m imports kind ∧
          code = some kind.name ∧ message = kind.message [] := by
  rw [create_stops_iff (.trap code message)]
  constructor
  · rintro ⟨r, imported, hlinked, hstops⟩
    rcases (instantiate_stops_iff (.trap code message)).mp hstops with
      ⟨l, kind, after, hcopied, htrap⟩ | ⟨l, copied, i, hcopied, hstart, hreport⟩
    · obtain ⟨hbulk, heap, addr, halloc, hover⟩ := copied_some_iff.mp ⟨l, after, hcopied⟩
      obtain ⟨rfl, rfl, _⟩ := Error.trap.inj htrap
      exact Or.inr ⟨hbulk, kind, .intro hlinked halloc hover, rfl, rfl⟩
    · exact Or.inl (startTraps_iff.mpr ⟨copied, _, .start hlinked hcopied hstart, hreport⟩)
  · rintro (hstart | ⟨hbulk, kind, ⟨hlinked, halloc, hover⟩, rfl, rfl⟩)
    · obtain ⟨copied, addr, hruns, hreport⟩ := startTraps_iff.mp hstart
      cases hruns with
      | start hlinked hcopied hstart =>
        exact ⟨_, _, hlinked, (instantiate_stops_iff (.trap code message)).mpr
          (Or.inr ⟨_, _, _, hcopied, hstart, hreport⟩)⟩
    · obtain ⟨l, after, hcopied⟩ := copied_some_iff.mpr ⟨hbulk, _, _, halloc, hover⟩
      exact ⟨_, _, hlinked, (instantiate_stops_iff (.trap _ _)).mpr
        (Or.inl ⟨l, kind, after, hcopied, rfl⟩)⟩

/-- Every trap that the making of an instance ends with is marked so. -/
theorem create_trap_marked {instantiation : Bool}
    (h : (Instance.create s world m imports).result = .error (.trap code message instantiation)) :
    instantiation = true := by
  cases create_ofInstantiation h with
  | trap _ _ => rfl

end Instantiate

theorem perform_instantiate_error_iff {e : Error} :
    (s.perform world (.instantiate m imports)).result = .error e ↔
      (Instance.create s world m imports).result = .error e := except_map_error_iff

/-- Only the making of an instance is answered with a trap that is marked so. What executes nothing
has no trap to be answered with. -/
theorem instantiate_of_marked
    (h : (s.perform world u).result = .error (.trap code message true)) :
    ∃ m imports, u = .instantiate m imports := by
  by_cases hu : ∃ instantiation, u.Executes instantiation
  · obtain ⟨instantiation, hu⟩ := hu
    cases hu with
    | «instantiate» m imports => exact ⟨m, imports, rfl⟩
    | call f args => nomatch perform_ofCall (.call f args) h
    | callTyped f args => nomatch perform_ofCall (.callTyped f args) h
  · have hnone := perform_untrapped s world (not_exists.mp hu)
    rw [h] at hnone
    contradiction

/-- In every store, a use is answered with a trap that is marked as one of instantiation exactly if it
makes an instance, and the start function of the module is entered and traps, or a host function that
it comes to calling fails, or else an active segment does not fit and there are operations on bulk
memory. A module without a start function has none to trap, and where a segment does not fit none is
entered; without operations on bulk memory the answer is then that there is no room. So if there are
none, or all segments fit, the mark does mean the start function, and a module without one never
traps. -/
theorem instantiation_traps_attributed (s : Store σ) (world : σ) :
    (∀ u code message, (s.perform world u).result = .error (.trap code message true) ↔
      ∃ m imports, u = .instantiate m imports ∧ (s.StartTraps world m imports code message ∨
        s.config.bulkMemory = true ∧ ∃ kind, s.Overruns world m imports kind ∧
          code = some kind.name ∧ message = kind.message [])) ∧
    ∀ m imports,
      (∀ code message instantiation, (Instance.create s world m imports).result =
        .error (.trap code message instantiation) → instantiation = true) ∧
      (m.artifact.start = none → ∀ code message, ¬ s.StartTraps world m imports code message) ∧
      (∀ kind, s.Overruns world m imports kind →
        (∀ r addr args, ¬ s.Runs world (.instantiate m imports) true r addr args) ∧
        (s.config.bulkMemory = false →
          ∃ reason, (Instance.create s world m imports).result = .error (.resource reason))) ∧
      ((s.config.bulkMemory = false ∨ ∀ kind, ¬ s.Overruns world m imports kind) →
        (∀ code message, (Instance.create s world m imports).result =
          .error (.trap code message true) → s.StartTraps world m imports code message) ∧
        (m.artifact.start = none → ∀ e, (Instance.create s world m imports).result = .error e →
          e.isTrap = false)) := by
  have hidle (m : Module) (imports : Imports σ) (hstart : m.artifact.start = none)
      (code : Option String) (message : String) : ¬ s.StartTraps world m imports code message := by
    intro htraps
    obtain ⟨i, hi⟩ := start_of_startTraps htraps
    rw [hstart] at hi
    contradiction
  refine ⟨fun u code message => ⟨?_, ?_⟩, fun m imports => ⟨?_, hidle m imports, ?_, ?_⟩⟩
  · intro h
    obtain ⟨m, imports, rfl⟩ := instantiate_of_marked h
    exact ⟨m, imports, rfl, create_trap_iff.mp (perform_instantiate_error_iff.mp h)⟩
  · rintro ⟨m, imports, rfl, h⟩
    exact perform_instantiate_error_iff.mpr (create_trap_iff.mpr h)
  · intro code message instantiation h
    exact create_trap_marked h
  · intro kind hover
    exact ⟨fun r addr args => not_runs_of_overruns hover, resource_of_overruns hover⟩
  · intro hfits
    have hstarts (code : Option String) (message : String)
        (h : (Instance.create s world m imports).result = .error (.trap code message true)) :
        s.StartTraps world m imports code message := by
      rcases create_trap_iff.mp h with hstarts | ⟨hbulk, kind, hover, _⟩
      · exact hstarts
      · rcases hfits with hfits | hfits
        · exact nomatch hbulk.symm.trans hfits
        · exact absurd hover (hfits kind)
    refine ⟨hstarts, fun hstart e h => ?_⟩
    cases e with
    | trap code message instantiation =>
      obtain rfl := create_trap_marked h
      exact absurd (hstarts code message h) (hidle m imports hstart code message)
    | _ => rfl

/-- A store in which nothing is, with operations on bulk memory. -/
def vacantStore : Store Unit where
  id := 1
  engine := 0
  config := {}
  contents := some { heap := { limit := none }, fuel := none }
  token := some 2

/-- The module with data for an empty memory, and with a start function that would trap. -/
def burstModule : Module :=
  { overfullModule with artifact := { overfullModule.artifact with
    types := [⟨[], []⟩], funcs := [0], bodies := [⟨[], [.unreachable]⟩], start := some 0 } }

/-- The data is what the trap is owed to, as the start function is not entered. -/
theorem burst_not_started :
    (vacantStore.perform () (.instantiate burstModule {})).result = .error
      (.trap (some "MemoryOutOfBounds") "wasm trap: out of bounds memory access" true) ∧
    ∀ r addr args, ¬ vacantStore.Runs () (.instantiate burstModule {}) true r addr args := by
  have hover : vacantStore.Overruns () burstModule {} .memoryOutOfBounds := by
    refine .intro (.intro rfl rfl rfl rfl rfl) rfl (.data ?_ List.mem_cons_self ?_)
    · exact fun e he => absurd he List.not_mem_nil
    · exact fun hfits => absurd (hfits none _ rfl 0 _ rfl) (by decide)
  obtain ⟨htraps, hmade⟩ := instantiation_traps_attributed vacantStore ()
  obtain ⟨_, _, hovers, _⟩ := hmade burstModule {}
  exact ⟨(htraps _ _ _).mpr ⟨burstModule, {}, rfl, Or.inr ⟨rfl, _, hover, rfl, rfl⟩⟩,
    (hovers _ hover).1⟩

/-- A module that has no start function is answered with a trap of instantiation. -/
theorem overfull_traps_without_start : ∃ r, Run retryHistory r ∧
    overfullModule.artifact.start = none ∧
    retryHistory[4] = ⟨.use 1 (.instantiate overfullModule {}), .reply (.error
      (.trap (some "MemoryOutOfBounds") "wasm trap: out of bounds memory access" true)) none⟩ := by
  obtain ⟨r, hr⟩ := run_retry
  exact ⟨r, hr, rfl, rfl⟩

end WasmEmbed
