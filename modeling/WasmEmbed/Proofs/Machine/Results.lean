import WasmEmbed.Proofs.Call.Passing
import WasmEmbed.Proofs.Machine.Consulting
import WasmEmbed.Proofs.Machine.Typed

/-! Execution keeps to types. Wherever well-typed code has come to, the operands on its stack and its
local variables are of the types that validation went by; what the functions that wait are given is
what they called for, and a run that finishes gives what the function declares that was called. -/
namespace WasmEmbed
open WasmEmbed.Code
open WasmEmbed.Typing (Scope)
variable {σ : Type}

/-- What waits for the ends of blocks, and for jumps to them, is well typed: outside the innermost
one, which has these results, a jump out of each takes operands of the types that are listed. -/
inductive Typing.Scope.Encloses (c : Scope) :
    List Label → List (List ValType) → List ValType → Prop where
  | body : Encloses c [] [c.results] c.results
  | block {l : Label} {outer : List Label} {labels : List (List ValType)}
    {outside jump results : List ValType} (enclosed : Encloses c outer labels outside)
    (count : l.results = results.length) (arity : l.arity = jump.length)
    (rest : { c with labels }.Runs l.rest (results.reverse ++ l.below.map Operand.type) outside)
    (back : l.again.elim (jump = results) fun body =>
      { c with labels := jump :: labels }.Runs body jump.reverse results) :
    Encloses c (l :: outer) (jump :: labels) results

/-- The function is one of an instance that has what it may refer to, its local variables are of
their types, and it is in blocks that lead to its results. -/
structure Frame.Within (f : Frame) (h : Heap σ) (c : Scope) (labels : List (List ValType))
    (results : List ValType) : Prop where
  fits : h.Fits f.link c
  locals : f.locals.map Operand.type = c.locals
  owes : f.results = c.results
  blocks : c.Encloses f.labels labels results

/-- With operands of these types the function is well typed. -/
def Frame.Typed (f : Frame) (h : Heap σ) (ts : List ValType) : Prop :=
  ∃ c labels results, f.Within h c labels results ∧ { c with labels }.Runs f.code ts results

/-- With values of these types the functions that wait can go on, and in the end give to the outside
what is owed. -/
inductive Heap.Awaits (h : Heap σ) (owed : List ValType) : List ValType → List Frame → Prop where
  | outside : Awaits h owed owed []
  | caller {f : Frame} {ts : List ValType} {callers : List Frame}
    (typed : f.Typed h (ts.reverse ++ f.stack.map Operand.type))
    (rest : Awaits h owed f.results callers) : Awaits h owed ts (f :: callers)

structure Machine.Typed (m : Machine σ) (owed : List ValType) : Prop where
  heap : m.resources.heap.Sound
  frame : m.frame.Typed m.resources.heap (m.frame.stack.map Operand.type)
  callers : m.resources.heap.Awaits owed m.frame.results m.callers

def Progress.Typed (p : Progress σ) (owed : List ValType) : Prop :=
  match p with
  | .running m => m.Typed owed
  | .stopped (.finished values) _ => values.map Operand.type = owed
  | .stopped _ _ => True

variable {m m' : Machine σ} {r : Resources σ} {h k : Heap σ} {c : Scope} {f : Frame}
  {callers : List Frame} {labels : List (List ValType)} {results owed ts types below : List ValType}
  {addr maxFrames depth n : Nat} {stack args : List Operand} {i : Instr} {rest : List Instr}
  {inPlace : Bool}

section Grows

theorem within_grows (hg : h.Grows k) (hf : f.Within h c labels results) :
    f.Within k c labels results := { hf with fits := fits_grows hg hf.fits }

theorem frame_typed_grows (hg : h.Grows k) (hf : f.Typed h ts) : f.Typed k ts := by
  obtain ⟨c, labels, results, hwithin, hcode⟩ := hf
  exact ⟨c, labels, results, within_grows hg hwithin, hcode⟩

theorem awaits_grows (hg : h.Grows k) (hcallers : h.Awaits owed ts callers) :
    k.Awaits owed ts callers := by
  induction hcallers with
  | outside => exact .outside
  | caller typed _ ih => exact .caller (frame_typed_grows hg typed) ih

end Grows

section Calls

/-- What is on the stack, and to be charged, plays no part. -/
theorem frame_typed_values (hf : f.Typed h ts) (stack : List Operand) (pending : Nat) :
    Frame.Typed { f with stack, pending } h ts := by
  obtain ⟨c, labels, results, hwithin, hcode⟩ := hf
  exact ⟨c, labels, results, ⟨hwithin.fits, hwithin.locals, hwithin.owes, hwithin.blocks⟩, hcode⟩

theorem resume_typed (hheap : r.heap.Sound) {values : List Operand}
    (hcallers : r.heap.Awaits owed (values.map Operand.type) callers) :
    (Machine.resume r maxFrames callers values).Typed owed := by
  generalize hts : values.map Operand.type = ts at hcallers
  cases hcallers with
  | outside => exact hts
  | @caller f _ callers typed rest =>
    refine ⟨hheap, ?_, rest⟩
    change Frame.Typed _ _ ((values.reverse ++ f.stack).map Operand.type)
    rw [List.map_append, List.map_reverse, hts]
    exact frame_typed_values typed _ _

/-- What is returned was made to fit the results of the function. -/
theorem leave_typed (hheap : m.resources.heap.Sound)
    (hcallers : m.resources.heap.Awaits owed m.frame.results m.callers) : m.leave.Typed owed := by
  refine resume_typed (r := m.settle.resources) hheap ?_
  rw [topOf, map_type_fitAll]
  exact hcallers

theorem meter_typed (hm : m.Typed owed) : m.meter.Typed owed := by
  unfold Machine.meter
  split
  · trivial
  · exact hm

/-- A function starts with its arguments and the zeros of its other local variables. -/
theorem enter_typed (hheap : r.heap.Sound) {f : Closure} (hf : r.heap.Checks f)
    (hargs : args.map Operand.type = f.type.params)
    (hcallers : r.heap.Awaits owed f.type.results callers) :
    (Machine.enter r maxFrames callers f args).Typed owed := by
  unfold Machine.enter
  dsimp only
  split
  · trivial
  · -- the body was validated in the scope that has the types of just these variables
    obtain ⟨c, b, hfits, hbody, hlocals, hcode⟩ := hf
    refine meter_typed ⟨hheap, ?_, hcallers⟩
    refine ⟨{ c with locals := f.type.params ++ b.locals, results := f.type.results },
      [f.type.results], f.type.results, ⟨hfits, ?_, rfl, .body⟩, ?_⟩
    · have hzeros : Operand.type ∘ Operand.default = id := funext Operand.type_default
      change (args ++ f.locals.map Operand.default).map Operand.type = f.type.params ++ b.locals
      rw [List.map_append, hargs, List.map_map, hzeros, List.map_id, hlocals]
    · have hruns := runs_of_body hbody
      rw [hcode] at hruns
      exact hruns

/-- A function may be invoked if those that wait can go on with its results. -/
theorem invoke_typed (hheap : r.heap.Sound)
    (hcallers : ∀ f, r.heap.funcs[addr]? = some f → r.heap.Awaits owed f.type.results callers) :
    (Machine.invoke r maxFrames callers addr stack).Typed owed := by
  unfold Machine.invoke
  split
  · trivial
  · rename_i f hf
    exact enter_typed hheap (hheap addr f hf) (map_type_fitAll _ _) (hcallers _ hf)
  · rename_i f hf
    split
    · trivial
    · -- a host function answers at once, with values of the types that it declares
      rename_i values world hcall
      refine resume_typed (r := { r with world }) hheap ?_
      obtain ⟨vs, _, _, htypes⟩ := host_call_ok_iff.mp (congrArg Prod.fst hcall)
      rw [List.map_map]
      change r.heap.Awaits owed (values.map Val.type) callers
      rw [htypes]
      exact hcallers _ hf

end Calls

section Blocks

/-- A jump that does not leave the function finds the block that it is to. Labels and their types
are dropped together, one block at a time. -/
theorem encloses_drop (hblocks : c.Encloses f.labels labels results)
    (ht : labels[depth]? = some types) {l : Label} {outer : List Label}
    (hl : f.labels.drop depth = l :: outer) :
    ∃ labels' results', c.Encloses (l :: outer) (types :: labels') results' := by
  generalize f.labels = ls at hblocks hl
  induction depth generalizing ls labels results with
  | zero =>
    cases hblocks with
    | body => contradiction
    | @block _ _ labels _ _ results enclosed count arity rest back =>
      obtain rfl := Option.some.inj ht
      rw [← hl]
      exact ⟨labels, results, .block enclosed count arity rest back⟩
  | succ depth ih =>
    cases hblocks with
    | body => contradiction
    | block enclosed count arity rest back => exact ih ht _ enclosed hl

theorem types_take (hstack : stack.map Operand.type = types.reverse ++ below) :
    (stack.take types.length).map Operand.type = types.reverse := by
  rw [List.map_take, hstack, List.take_left' List.length_reverse]

theorem jump_typed (hheap : m.resources.heap.Sound)
    (hcallers : m.resources.heap.Awaits owed m.frame.results m.callers)
    (hframe : m.frame.Within m.resources.heap c labels results)
    (ht : labels[depth]? = some types)
    (hstack : m.frame.stack.map Operand.type = types.reverse ++ below) :
    (m.jump depth).Typed owed := by
  unfold Machine.jump
  split
  · exact leave_typed hheap hcallers
  · rename_i l outer hl
    obtain ⟨labels', results', hblocks⟩ := encloses_drop hframe.blocks ht hl
    have hoperands := types_take hstack
    cases hblocks with
    | @block _ _ _ outside _ _ enclosed count arity rest back =>
      rw [← arity] at hoperands
      dsimp only
      split
      · -- out of a block its results go to the code after it
        rename_i hagain
        rw [hagain] at back
        have back : types = results' := back
        refine ⟨hheap, ⟨c, labels', outside, ⟨hframe.fits, hframe.locals, hframe.owes, enclosed⟩, ?_⟩,
          hcallers⟩
        change Scope.Runs _ l.rest ((m.frame.stack.take l.arity ++ l.below).map Operand.type) _
        rw [List.map_append, hoperands, back]
        exact rest
      · -- back to a loop its parameters go to its body
        rename_i body hagain
        have hblocks := Scope.Encloses.block enclosed count arity rest back
        rw [hagain] at back
        refine meter_typed ⟨hheap, ⟨c, types :: labels', results',
          ⟨hframe.fits, hframe.locals, hframe.owes, hblocks⟩, ?_⟩, hcallers⟩
        change Scope.Runs _ body ((m.frame.stack.take l.arity).map Operand.type) _
        rw [hoperands]
        exact back

/-- At the end of the body the function returns, at the end of a block the code after it is next. -/
theorem finish_typed (hheap : m.resources.heap.Sound)
    (hcallers : m.resources.heap.Awaits owed m.frame.results m.callers)
    (hframe : m.frame.Within m.resources.heap c labels results)
    (hcode : { c with labels }.Runs [] (m.frame.stack.map Operand.type) results) :
    m.finish.Typed owed := by
  have hstack := runs_nil hcode
  obtain ⟨hfits, hlocals, howes, hblocks⟩ := hframe
  unfold Machine.finish
  generalize m.frame.labels = ls at hblocks
  cases hblocks with
  | body => exact leave_typed hheap hcallers
  | @block l outer labels' outside _ _ enclosed count arity rest back =>
    refine ⟨hheap, ⟨c, labels', outside, ⟨hfits, hlocals, howes, enclosed⟩, ?_⟩, hcallers⟩
    change Scope.Runs _ l.rest ((m.frame.stack.take l.results ++ l.below).map Operand.type) _
    rw [← List.append_nil results.reverse] at hstack
    rw [List.map_append, count, types_take hstack]
    exact rest

theorem blockType_typed {type : BlockType} {t : FuncType}
    (hc : m.resources.heap.Fits m.frame.link c) (ht : c.block type = .ok t) :
    m.blockType type = t := by
  cases type with
  | empty => exact Except.ok.inj ht
  | value type =>
    obtain ⟨_, _, ht⟩ := except_bind_ok ht
    exact Except.ok.inj ht
  | index j =>
    obtain ⟨_, _, ht⟩ := except_bind_ok ht
    change m.link.types.getD j default = t
    rw [Machine.link, fits_type hc, List.getD_eq_getElem?_getD, lookup_ok ht]
    rfl

theorem block_typed {type : BlockType} {t : FuncType} {body : List Instr} (isLoop : Bool)
    (hframe : m.frame.Within m.resources.heap c labels results)
    (htype : c.block type = .ok t)
    (hstack : m.frame.stack.map Operand.type = t.params.reverse ++ below)
    (hbody : { c with labels := (if isLoop then t.params else t.results) :: labels }.Runs body
      t.params.reverse t.results)
    (hrest : { c with labels }.Runs m.frame.code (t.results.reverse ++ below) results) :
    (m.block type body isLoop).frame.Typed m.resources.heap
      ((m.block type body isLoop).frame.stack.map Operand.type) := by
  obtain rfl := blockType_typed hframe.fits htype
  have hoperands := types_take hstack
  have hbelow := types_drop hstack
  generalize hjump : (if isLoop then (m.blockType type).params else (m.blockType type).results) =
    jump at hbody
  refine ⟨c, jump :: labels, (m.blockType type).results,
    ⟨hframe.fits, hframe.locals, hframe.owes, .block hframe.blocks rfl ?_ ?_ ?_⟩, ?_⟩
  · rw [← hjump]
    cases isLoop <;> rfl
  · change Scope.Runs _ m.frame.code (_ ++ (m.frame.stack.drop _).map Operand.type) _
    rw [hbelow]
    exact hrest
  · -- a jump to a loop takes parameters back to its body, a jump to a block results out of it
    cases isLoop with
    | true =>
      subst hjump
      exact hbody
    | false => exact hjump.symm
  · change Scope.Runs _ body ((m.frame.stack.take _).map Operand.type) _
    rw [hoperands]
    exact hbody

end Blocks

section Step

/-- The function that an index of code stands for has the type that validation went by. -/
theorem called_typed (hc : m.resources.heap.Fits m.frame.link c) {func : Nat} {t : FuncType}
    (ht : c.func func = .ok t) : ∃ f,
      m.resources.heap.funcs[m.link.funcs.getD func 0]? = some f ∧ f.type = t := by
  have hlisted : (c.typesOf .function)[func]? = some (.func t) := by
    rw [Scope.typesOf, List.getElem?_map, lookup_ok ht]
    rfl
  obtain ⟨addr, haddr, f, hf, htype⟩ := fits_addr hc hlisted
  have haddr : m.link.funcs[func]? = some addr := haddr
  refine ⟨f, ?_, htype⟩
  rw [List.getD_eq_getElem?_getD, haddr]
  exact hf

theorem target_ok {l : Link} {table type j : Nat} (h : Heap σ)
    (htarget : h.target l table type j = .ok addr) :
    ∃ f, h.funcs[addr]? = some f ∧ l.types[type]? = some f.type := by
  unfold Heap.target at htarget
  split at htarget
  · contradiction
  · split at htarget
    · contradiction
    · split at htarget
      · contradiction
      · split at htarget
        · contradiction
        · rename_i f hf
          split at htarget
          · rename_i htype
            rw [← Except.ok.inj htarget]
            exact ⟨f, hf, htype.symm⟩
          · contradiction

/-- A function in a table was found to have the signature that the code names. -/
theorem found_typed (hc : m.resources.heap.Fits m.frame.link c) {table type j : Nat} {t : FuncType}
    (ht : c.callable table type = .ok t)
    (htarget : m.resources.heap.target m.link table type j = .ok addr) :
    ∃ f, m.resources.heap.funcs[addr]? = some f ∧ f.type = t := by
  obtain ⟨element, _, ht⟩ := except_bind_ok ht
  obtain ⟨f, hf, htype⟩ := target_ok _ htarget
  refine ⟨f, hf, ?_⟩
  rw [Machine.link, fits_type hc, lookup_ok (except_guard_ok ht).2] at htype
  exact (Option.some.inj htype).symm

theorem tail_ok {t : FuncType} (h : c.tail t = .ok ()) : t.results = c.results := by
  unfold Scope.tail at h
  split at h
  · assumption
  · contradiction

/-- The function that is called is there, and its arguments are on the stack. With its results the
present function can go on, or in its place give them to those that wait. -/
theorem callee_typed (hframe : m.frame.Within m.resources.heap c labels results)
    (hruns : { c with labels }.Runs m.frame.code (m.frame.stack.map Operand.type) results)
    (hcalls : m.Calls addr stack inPlace) : ∃ f below,
      m.resources.heap.funcs[addr]? = some f ∧
      stack.map Operand.type = f.type.params.reverse ++ below ∧
      if inPlace then f.type.results = c.results
      else { c with labels }.Runs m.frame.code.tail (f.type.results.reverse ++ below) results := by
  cases hcalls with
  | call hcode =>
    rw [hcode] at hruns ⊢
    obtain ⟨_, hi, hrest⟩ := runs_cons hruns
    obtain ⟨t, ht, happly⟩ := except_bind_ok hi
    obtain ⟨below, hstack, rfl⟩ := apply_ofTypes happly
    obtain ⟨f, hf, rfl⟩ := called_typed hframe.fits ht
    exact ⟨f, below, hf, hstack, hrest _ rfl⟩
  | callIndirect hcode htarget =>
    -- the index is on top of the arguments, and is gone once the function is found
    rw [hcode] at hruns ⊢
    obtain ⟨_, hi, hrest⟩ := runs_cons hruns
    obtain ⟨t, ht, hi⟩ := except_bind_ok hi
    obtain ⟨_, hindex, happly⟩ := except_bind_ok hi
    obtain ⟨_, hstack, rfl⟩ := popOf_ofTypes hindex
    obtain ⟨below, rfl, rfl⟩ := apply_ofTypes happly
    obtain ⟨f, hf, rfl⟩ := found_typed hframe.fits ht htarget
    exact ⟨f, below, hf, types_tail hstack, hrest _ rfl⟩
  | returnCall hcode =>
    -- in place of the present function only its own results may be given
    rw [hcode] at hruns
    obtain ⟨_, hi, _⟩ := runs_cons hruns
    obtain ⟨t, ht, hi⟩ := except_bind_ok hi
    obtain ⟨_, hpop, hi⟩ := except_bind_ok hi
    obtain ⟨below, hstack, _⟩ := popAll_ofTypes hpop
    obtain ⟨_, htail, _⟩ := except_bind_ok hi
    obtain ⟨f, hf, rfl⟩ := called_typed hframe.fits ht
    exact ⟨f, below, hf, hstack, tail_ok htail⟩
  | returnCallIndirect hcode htarget =>
    rw [hcode] at hruns
    obtain ⟨_, hi, _⟩ := runs_cons hruns
    obtain ⟨t, ht, hi⟩ := except_bind_ok hi
    obtain ⟨_, hindex, hi⟩ := except_bind_ok hi
    obtain ⟨_, hstack, rfl⟩ := popOf_ofTypes hindex
    obtain ⟨_, hpop, hi⟩ := except_bind_ok hi
    obtain ⟨_, htail, _⟩ := except_bind_ok hi
    obtain ⟨below, rfl, _⟩ := popAll_ofTypes hpop
    obtain ⟨f, hf, rfl⟩ := found_typed hframe.fits ht htarget
    exact ⟨f, below, hf, types_tail hstack, tail_ok htail⟩

/-- The function that is called goes on with the operands that were handed over, which are off the
stack of the caller. -/
theorem call_typed (hheap : m.resources.heap.Sound)
    (hcallers : m.resources.heap.Awaits owed m.frame.results m.callers)
    (hframe : m.frame.Within m.resources.heap c labels results)
    (hruns : { c with labels }.Runs m.frame.code (m.frame.stack.map Operand.type) results)
    (hcalls : m.Calls addr stack inPlace) : m.step.Typed owed := by
  obtain ⟨f, below, hf, hstack, hafter⟩ := callee_typed hframe hruns hcalls
  obtain ⟨fuel, hstep⟩ := step_of_calls hcalls
  rw [hstep]
  refine invoke_typed (r := { m.resources with fuel }) hheap fun g hg => ?_
  obtain rfl := Option.some.inj (hf.symm.trans hg)
  cases inPlace with
  | true =>
    have hafter : f.type.results = c.results := hafter
    rw [hafter, ← hframe.owes]
    exact hcallers
  | false =>
    have harity : m.arityAt addr = f.type.params.length := by rw [Machine.arityAt, hf]
    refine .caller ⟨c, labels, results,
      ⟨hframe.fits, hframe.locals, hframe.owes, hframe.blocks⟩, ?_⟩ hcallers
    change Scope.Runs _ m.frame.code.tail (_ ++ (stack.drop _).map Operand.type) _
    rw [harity, types_drop hstack]
    exact hafter

theorem plain_step_typed (hheap : m.resources.heap.Sound)
    (hcallers : m.resources.heap.Awaits owed m.frame.results m.callers)
    (hframe : m.frame.Within m.resources.heap c labels results) (hplain : i.isPlain = true)
    {s : Typing.Operands}
    (htype : Typing.plain { c with labels } i (.ofTypes (m.frame.stack.map Operand.type)) = .ok s)
    (hrest : ∀ ts, s = .ofTypes ts → { c with labels }.Runs m.frame.code ts results) :
    (m.plain i).Typed owed := by
  unfold Machine.plain
  split
  · trivial
  · rename_i e he
    obtain ⟨hstack, hlocals⟩ := plain_typed (c := { c with labels }) hplain hframe.fits hframe.locals
      htype he
    have hgrows := grows_performAll m.resources.heap e.writes
    exact ⟨sound_performAll hheap e.writes,
      ⟨c, labels, results, ⟨fits_grows hgrows hframe.fits, hlocals, hframe.owes, hframe.blocks⟩,
        hrest _ hstack⟩, awaits_grows hgrows hcallers⟩

/-- An instruction that a function comes to finds the operands that it takes. -/
theorem execute_typed (hheap : m.resources.heap.Sound)
    (hcallers : m.resources.heap.Awaits owed m.frame.results m.callers)
    (hframe : m.frame.Within m.resources.heap c labels results)
    (hcode : m.frame.code = i :: rest)
    (hruns : { c with labels }.Runs m.frame.code (m.frame.stack.map Operand.type) results) :
    m.step.Typed owed := by
  have hcoderuns := hruns
  rw [hcode] at hruns
  obtain ⟨s, hi, hrest⟩ := runs_cons hruns
  have hwithin (stack : List Operand) (pending : Nat) : Frame.Within
      { m.frame with stack, pending, code := rest } m.resources.heap c labels results :=
    ⟨hframe.fits, hframe.locals, hframe.owes, hframe.blocks⟩
  cases i with
  | unreachable =>
    rw [step_of_cons hcode]
    trivial
  | nop =>
    rw [step_of_cons hcode]
    exact ⟨hheap, ⟨c, labels, results, hwithin _ _, hrest _ (Except.ok.inj hi).symm⟩, hcallers⟩
  | block type body =>
    obtain ⟨t, below, ht, hstack, hs, hbody⟩ := block_ofTypes FuncType.results hi
    rw [step_of_cons hcode]
    exact ⟨hheap, block_typed (m := m.taken _ rest) false (hwithin _ _) ht hstack hbody (hrest _ hs),
      hcallers⟩
  | loop type body =>
    obtain ⟨t, below, ht, hstack, hs, hbody⟩ := block_ofTypes FuncType.params hi
    rw [step_of_cons hcode]
    exact meter_typed ⟨hheap, block_typed (m := m.taken _ rest) true (hwithin _ _) ht hstack hbody
      (hrest _ hs), hcallers⟩
  | ifElse type onTrue onFalse =>
    obtain ⟨t, ht, hi⟩ := except_bind_ok hi
    obtain ⟨_, hcond, hi⟩ := except_bind_ok hi
    obtain ⟨_, hstack, rfl⟩ := popOf_ofTypes hcond
    obtain ⟨_, hpop, hi⟩ := except_bind_ok hi
    obtain ⟨below, rfl, rfl⟩ := popAll_ofTypes hpop
    obtain ⟨_, htrue, hi⟩ := except_bind_ok hi
    obtain ⟨_, htrueClosed, hi⟩ := except_bind_ok hi
    obtain ⟨_, hfalse, hi⟩ := except_bind_ok hi
    obtain ⟨_, hfalseClosed, hi⟩ := except_bind_ok hi
    have hbelow := types_tail hstack
    have hbranch : { c with labels := t.results :: labels }.Runs
        (if (m.frame.stack.getD 0 (.ofI32 0)).bits = 0 then onFalse else onTrue)
        t.params.reverse t.results := by
      split
      · exact runs_of_closed _ hfalse hfalseClosed
      · exact runs_of_closed _ htrue htrueClosed
    rw [step_of_cons hcode]
    refine ⟨hheap, block_typed (m := (m.taken _ rest).popped) false (hwithin _ _) ht hbelow hbranch
      (hrest _ ?_), hcallers⟩
    rw [← Except.ok.inj hi, pushAll_ofTypes]
  | br depth =>
    obtain ⟨types, ht, hi⟩ := except_bind_ok hi
    obtain ⟨_, hpop, _⟩ := except_bind_ok hi
    obtain ⟨below, hstack, _⟩ := popAll_ofTypes hpop
    rw [step_of_cons hcode]
    exact jump_typed (m := m.taken _ rest) hheap hcallers (hwithin _ _) (lookup_ok ht) hstack
  | brIf depth =>
    obtain ⟨_, hcond, hi⟩ := except_bind_ok hi
    obtain ⟨_, hstack, rfl⟩ := popOf_ofTypes hcond
    obtain ⟨types, ht, happly⟩ := except_bind_ok hi
    obtain ⟨below, rfl, rfl⟩ := apply_ofTypes happly
    have hbelow := types_tail hstack
    rw [step_of_cons hcode]
    unfold Machine.execute
    dsimp only
    split
    · refine ⟨hheap, ⟨c, labels, results, hwithin _ _, ?_⟩, hcallers⟩
      change Scope.Runs _ rest ((m.frame.stack.drop _).map Operand.type) _
      rw [hbelow]
      exact hrest _ rfl
    · exact jump_typed (m := (m.taken _ rest).popped) hheap hcallers (hwithin _ _) (lookup_ok ht)
        hbelow
  | brTable depths default =>
    obtain ⟨below, hstack, hdepths⟩ := brTable_ofTypes hi
    obtain ⟨types, under, ht, hunder⟩ := hdepths (m.frame.stack.getD 0 (.ofI32 0)).bits
    have hbelow := types_tail hstack
    rw [hunder] at hbelow
    rw [step_of_cons hcode]
    exact jump_typed (m := (m.taken _ rest).popped) hheap hcallers (hwithin _ _) (lookup_ok ht)
      hbelow
  | ret =>
    rw [step_of_cons hcode]
    exact leave_typed (m := m.taken _ rest) hheap hcallers
  | call func => exact call_typed hheap hcallers hframe hcoderuns (.call hcode)
  | callIndirect table type =>
    cases htarget : m.resources.heap.target m.link table type
        (m.frame.stack.getD 0 (.ofI32 0)).bits with
    | error code =>
      rw [step_of_cons hcode]
      change Progress.Typed (Machine.callTable (m.taken _ rest) table type false) owed
      rw [callTable_of_error (m := m.taken _ rest) htarget]
      trivial
    | ok addr => exact call_typed hheap hcallers hframe hcoderuns (.callIndirect hcode htarget)
  | returnCall func => exact call_typed hheap hcallers hframe hcoderuns (.returnCall hcode)
  | returnCallIndirect table type =>
    cases htarget : m.resources.heap.target m.link table type
        (m.frame.stack.getD 0 (.ofI32 0)).bits with
    | error code =>
      rw [step_of_cons hcode]
      change Progress.Typed (Machine.callTable (m.taken _ rest) table type true) owed
      rw [callTable_of_error (m := m.taken _ rest) htarget]
      trivial
    | ok addr =>
      exact call_typed hheap hcallers hframe hcoderuns (.returnCallIndirect hcode htarget)
  | _ =>
    -- all other instructions work on operands alone
    unfold Typing.instr at hi
    rw [step_of_cons hcode]
    exact plain_step_typed (m := m.taken _ rest) hheap hcallers (hwithin _ _) rfl hi hrest

theorem step_typed (hm : m.Typed owed) : m.step.Typed owed := by
  obtain ⟨hheap, ⟨c, labels, results, hframe, hruns⟩, hcallers⟩ := hm
  cases hcode : m.frame.code with
  | nil =>
    rw [hcode] at hruns
    unfold Machine.step
    rw [hcode]
    exact finish_typed hheap hcallers hframe hruns
  | cons i rest => exact execute_typed hheap hcallers hframe hcode hruns

/-- What a function is called with is of the types that it declares. -/
theorem operands_of_calls (hm : m.Typed owed) (hcalls : m.Calls addr stack inPlace) : ∃ f,
    m.resources.heap.funcs[addr]? = some f ∧
      (stack.take f.type.params.length).reverse.map Operand.type = f.type.params := by
  obtain ⟨_, ⟨c, labels, results, hframe, hruns⟩, _⟩ := hm
  obtain ⟨f, below, hf, hstack, _⟩ := callee_typed hframe hruns hcalls
  refine ⟨f, hf, ?_⟩
  rw [List.map_reverse, types_take hstack, List.reverse_reverse]

/-- What sets a variable finds a mutable one, and a value of its type. -/
theorem operand_of_globalSet (hm : m.Typed owed) {j : Nat}
    (hcode : m.frame.code = .globalSet j :: rest) : ∃ addr g v below,
      m.resources.heap.global? m.link j = some (addr, g) ∧ m.frame.stack = v :: below ∧
        g.type.isMutable = true ∧ v.type = g.type.content := by
  obtain ⟨_, ⟨c, labels, results, hframe, hruns⟩, _⟩ := hm
  rw [hcode] at hruns
  obtain ⟨s, hi, _⟩ := runs_cons hruns
  unfold Typing.instr at hi
  exact globalSet_typed (c := { c with labels }) hframe.fits hi

end Step

section Run

/-- Validation at the beginning is enough: each step hands it on. -/
theorem steps_typed (h : Machine.Steps n m m') (hm : m.Typed owed) : m'.Typed owed := by
  induction h with
  | zero m => exact hm
  | succ hstep h ih =>
    have htyped := step_typed hm
    rw [hstep] at htyped
    exact ih htyped

/-- A run that finishes gives what is owed. What is owed to the outside is the same at every step.
-/
theorem run_typed (bound : Nat) (hm : m.Typed owed) {values : List Operand}
    (hrun : (m.run bound).1 = .finished values) : values.map Operand.type = owed := by
  induction bound generalizing m with
  | zero => contradiction
  | succ bound ih =>
    have hstep := step_typed hm
    rw [Machine.run] at hrun
    generalize m.step = p at hstep hrun
    cases p with
    | running m' => exact ih hstep hrun
    | stopped s r =>
      have hs : s = .finished values := hrun
      rw [hs] at hstep
      exact hstep

/-- A function that is called from outside owes the outside its results. -/
theorem called_from_outside (hheap : r.heap.Sound) {f : FuncObj σ}
    (hf : r.heap.funcs[addr]? = some f) (maxFrames : Nat) (stack : List Operand) :
    (Machine.invoke r maxFrames [] addr stack).Typed f.type.results := by
  refine invoke_typed hheap fun g hg => ?_
  rw [Option.some.inj (hf.symm.trans hg)]
  exact .outside

/-- A function that is called from outside, and finishes, gives values of the types it declares. -/
theorem call_types (hheap : r.heap.Sound) {f : FuncObj σ} (hf : r.heap.funcs[addr]? = some f)
    {values : List Operand} (hcall : (r.call maxFrames addr args).1 = .finished values) :
    values.map Operand.type = f.type.results := by
  have hinvoke := called_from_outside hheap hf maxFrames args.reverse
  unfold Resources.call at hcall
  generalize Machine.invoke r maxFrames [] addr args.reverse = p at hinvoke hcall
  cases p with
  | running m => exact run_typed maxSteps hinvoke hcall
  | stopped s r' =>
    have hs : s = .finished values := hcall
    rw [hs] at hinvoke
    exact hinvoke

end Run

end WasmEmbed
