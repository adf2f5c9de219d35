import WasmEmbed.Proofs.Heap.Sound
import WasmEmbed.Proofs.Machine.Effects
import WasmEmbed.Proofs.Typing.Operands
import WasmEmbed.Proofs.Typing.Operators

/-! Instructions on operands of the right types. An instruction that does not change the flow of control
finds the operands that validation says, and leaves those that it says. -/
namespace WasmEmbed
open WasmEmbed.Code
open WasmEmbed.Typing (Scope)
variable {σ : Type}

/-- Whether the instruction only works on operands, and the code after it is next. -/
def Code.Instr.isPlain : Instr → Bool
  | .unreachable | .nop | .block .. | .loop .. | .ifElse .. | .br _ | .brIf _ | .brTable .. | .ret
  | .call _ | .callIndirect .. | .returnCall _ | .returnCallIndirect .. => false
  | _ => true

variable {h : Heap σ} {place : Nat} {c : Scope} {locals stack : List Operand} {i : Instr}
  {e : Effect} {s : Typing.Operands} {p : List ValType} {t : ValType} {o : Operand}

section Fits

/-- An index that the code was checked with leads to a thing of the type it was checked for. -/
theorem fits_addr (hc : h.Fits place c) {kind : ExternKind} {j : Nat} {type : ExternType}
    (htype : (c.typesOf kind)[j]? = some type) :
    ∃ addr, ((h.link place).addrs kind)[j]? = some addr ∧ h.Holds addr type := by
  obtain ⟨l, hl, _, htyped⟩ := hc
  rw [link_of_found hl]
  exact typed_addr htyped htype

theorem fits_type (hc : h.Fits place c) : (h.link place).types = c.types := by
  obtain ⟨l, hl, htypes, _⟩ := hc
  rw [link_of_found hl]
  exact htypes

/-- A variable that the code was checked with is there, with its type. -/
theorem fits_global (hc : h.Fits place c) {j : Nat} {type : GlobalType}
    (htype : c.globals[j]? = some type) :
    ∃ addr g, h.global? (h.link place) j = some (addr, g) ∧ g.type = type := by
  have hlisted : (c.typesOf .global)[j]? = some (.global type) := by
    rw [Scope.typesOf, List.getElem?_map, htype]
    rfl
  obtain ⟨addr, haddr, g, hg, rfl⟩ := fits_addr hc hlisted
  refine ⟨addr, g, ?_, rfl⟩
  have haddr : (h.link place).globals[j]? = some addr := haddr
  simp [Heap.global?, haddr, hg]

/-- A table that the code was checked with is there, with its elements. -/
theorem fits_table (hc : h.Fits place c) {j : Nat} {element : ValType}
    (htable : c.table j = .ok element) {addr : Nat} {u : TableObj}
    (hu : h.table? (h.link place) j = some (addr, u)) : u.type.element = element := by
  obtain ⟨type, hlookup, rfl⟩ := except_map_ok_iff.mp htable
  have hlisted : (c.typesOf .table)[j]? = some (.table type) := by
    rw [Scope.typesOf, List.getElem?_map, lookup_ok hlookup]
    rfl
  obtain ⟨addr', haddr, u', hu', rfl⟩ := fits_addr hc hlisted
  have haddr : (h.link place).tables[j]? = some addr' := haddr
  obtain ⟨hknown, hfound⟩ := table?_some hu
  obtain rfl := Option.some.inj (haddr.symm.trans hknown)
  rw [Option.some.inj (hu'.symm.trans hfound)]

end Fits

section Stack

/-- The operands that an instruction takes are on top of the stack. -/
theorem types_drop {below : List ValType} (hstack : stack.map Operand.type = p.reverse ++ below) :
    (stack.drop p.length).map Operand.type = below := by
  rw [List.map_drop, hstack, List.drop_left' (List.length_reverse)]

theorem types_tail {below : List ValType} (hstack : stack.map Operand.type = t :: below) :
    (stack.drop 1).map Operand.type = below := types_drop (p := [t]) hstack

theorem popped {below : List ValType} (hstack : stack.map Operand.type = t :: below) :
    Typing.Operands.ofTypes below = .ofTypes ((stack.drop 1).map Operand.type) := by
  rw [types_tail hstack]

/-- An instruction that gives nothing leaves the operands below those it takes. -/
theorem applied_drop (h : Typing.apply (.ofTypes (stack.map Operand.type)) p [] = .ok s) :
    s = .ofTypes ((stack.drop p.length).map Operand.type) := by
  obtain ⟨below, hstack, rfl⟩ := apply_ofTypes h
  rw [types_drop hstack]
  rfl

/-- An instruction that gives one value leaves it on the operands below those it takes. -/
theorem applied_push (h : Typing.apply (.ofTypes (stack.map Operand.type)) p [t] = .ok s)
    (ho : o.type = t) : s = .ofTypes ((o :: stack.drop p.length).map Operand.type) := by
  obtain ⟨below, hstack, rfl⟩ := apply_ofTypes h
  rw [List.map_cons, types_drop hstack, ho]
  rfl

theorem pushed (h : (.ok ((Typing.Operands.ofTypes (stack.map Operand.type)).push t) :
    Except Binary.Fault Typing.Operands) = .ok s) (ho : o.type = t) :
    s = .ofTypes ((o :: stack).map Operand.type) := by
  rw [← Except.ok.inj h, List.map_cons, ho]
  rfl

theorem getD_of_types {j : Nat} {types : List ValType} (htypes : stack.map Operand.type = types)
    (ht : types[j]? = some t) : (stack.getD j (.ofI32 0)).type = t := by
  rw [← htypes, List.getElem?_map] at ht
  obtain ⟨o, ho, rfl⟩ := Option.map_eq_some_iff.mp ht
  rw [List.getD_eq_getElem?_getD, ho]
  rfl

theorem types_set {j : Nat} {types : List ValType} (htypes : locals.map Operand.type = types)
    (ht : types[j]? = some t) (ho : o.type = t) : (locals.set j o).map Operand.type = types := by
  obtain ⟨hj, ht⟩ := List.getElem?_eq_some_iff.mp ht
  rw [List.map_set, htypes, ho, ← ht, List.set_getElem_self hj]

end Stack

/-- Of two operands of one type, whichever is chosen is of the type. -/
theorem chosen {below : List ValType} (hstack : stack.map Operand.type = .i32 :: t :: t :: below) :
    Typing.Operands.ofTypes (t :: below) =
      .ofTypes (((if (stack.getD 0 (.ofI32 0)).bits = 0 then stack.getD 1 (.ofI32 0)
        else stack.getD 2 (.ofI32 0)) :: stack.drop 3).map Operand.type) := by
  have hbelow : (stack.drop 3).map Operand.type = below := types_drop (p := [t, t, .i32]) hstack
  rw [List.map_cons, hbelow]
  split
  · rw [getD_of_types hstack (t := t) rfl]
  · rw [getD_of_types hstack (t := t) rfl]

/-- Of two operands with known types, which are then the same, either may be left. -/
theorem select_typed {type : Option (List ValType)}
    (htype : Typing.plain c (.select type) (.ofTypes (stack.map Operand.type)) = .ok s) :
    s = .ofTypes (((if (stack.getD 0 (.ofI32 0)).bits = 0 then stack.getD 1 (.ofI32 0)
      else stack.getD 2 (.ofI32 0)) :: stack.drop 3).map Operand.type) := by
  cases type with
  | none =>
    obtain ⟨_, hcond, htype⟩ := except_bind_ok htype
    obtain ⟨_, hstack, rfl⟩ := popOf_ofTypes hcond
    obtain ⟨⟨_, _⟩, hfirst, htype⟩ := except_bind_ok htype
    obtain ⟨t, _, rfl, rfl, rfl⟩ := pop_ofTypes hfirst
    obtain ⟨⟨_, _⟩, hsecond, htype⟩ := except_bind_ok htype
    obtain ⟨t', below, rfl, rfl, rfl⟩ := pop_ofTypes hsecond
    dsimp only at htype
    split at htype
    · contradiction
    · contradiction
    · contradiction
    · contradiction
    · rename_i a b _ _ ha hb
      obtain rfl := Option.some.inj ha
      obtain rfl := Option.some.inj hb
      split at htype
      · rename_i hsame
        rw [← hsame] at hstack
        exact (Except.ok.inj htype).symm.trans (chosen hstack)
      · contradiction
  | some types =>
    obtain ⟨_, _, htype⟩ := except_bind_ok htype
    split at htype
    · rename_i t
      obtain ⟨_, _, happly⟩ := except_bind_ok htype
      obtain ⟨below, hstack, rfl⟩ := apply_ofTypes happly
      exact chosen hstack
    · contradiction

/-- Whether a reference is null, is told of an operand of any type of references. -/
theorem refIsNull_typed (htype : Typing.plain c .refIsNull (.ofTypes (stack.map Operand.type)) = .ok s)
    (ho : o.type = .i32) : s = .ofTypes ((o :: stack.drop 1).map Operand.type) := by
  obtain ⟨_, _, htype⟩ := except_bind_ok htype
  obtain ⟨⟨u, _⟩, hpop, htype⟩ := except_bind_ok htype
  obtain ⟨t, below, hstack, rfl, rfl⟩ := pop_ofTypes hpop
  have hpushed : s = .ofTypes (.i32 :: below) := by
    dsimp only at htype
    split at htype
    · contradiction
    · exact (Except.ok.inj htype).symm
    · contradiction
  rw [hpushed, List.map_cons, ho, types_tail hstack]

/-- What validation takes and gives for an instruction that has to do with tables or memories, is as
many operands, and of the type, as the instruction does. -/
theorem applies_of_uses {before : Typing.Operands} {taken : Nat} {given : Option ValType}
    (hi : i.uses = some (taken, given)) (htype : Typing.plain c i before = .ok s) :
    ∃ p : List ValType, p.length = taken ∧ Typing.apply before p given.toList = .ok s := by
  cases i with
  | tableSet table =>
    cases hi
    obtain ⟨_, _, htype⟩ := except_bind_ok htype
    obtain ⟨element, _, happly⟩ := except_bind_ok htype
    exact ⟨_, rfl, happly⟩
  | tableSize table =>
    cases hi
    obtain ⟨_, _, htype⟩ := except_bind_ok htype
    obtain ⟨_, _, htype⟩ := except_bind_ok htype
    exact ⟨[], rfl, htype⟩
  | tableGrow table =>
    cases hi
    obtain ⟨_, _, htype⟩ := except_bind_ok htype
    obtain ⟨element, _, happly⟩ := except_bind_ok htype
    exact ⟨_, rfl, happly⟩
  | tableFill table =>
    cases hi
    obtain ⟨_, _, htype⟩ := except_bind_ok htype
    obtain ⟨element, _, happly⟩ := except_bind_ok htype
    exact ⟨_, rfl, happly⟩
  | tableCopy target source =>
    cases hi
    obtain ⟨_, _, htype⟩ := except_bind_ok htype
    obtain ⟨_, _, htype⟩ := except_bind_ok htype
    obtain ⟨_, _, htype⟩ := except_bind_ok htype
    exact ⟨_, rfl, (except_guard_ok htype).2⟩
  | tableInit table elem =>
    cases hi
    obtain ⟨_, _, htype⟩ := except_bind_ok htype
    obtain ⟨_, _, htype⟩ := except_bind_ok htype
    obtain ⟨_, _, htype⟩ := except_bind_ok htype
    exact ⟨_, rfl, (except_guard_ok htype).2⟩
  | elemDrop elem =>
    cases hi
    obtain ⟨_, _, htype⟩ := except_bind_ok htype
    obtain ⟨_, _, htype⟩ := except_bind_ok htype
    exact ⟨[], rfl, htype⟩
  | load access at_ =>
    cases hi
    obtain ⟨_, _, happly⟩ := except_bind_ok htype
    exact ⟨_, rfl, happly⟩
  | store access at_ =>
    cases hi
    obtain ⟨_, _, happly⟩ := except_bind_ok htype
    exact ⟨_, rfl, happly⟩
  | memorySize memory =>
    cases hi
    obtain ⟨_, _, htype⟩ := except_bind_ok htype
    exact ⟨[], rfl, htype⟩
  | memoryGrow memory =>
    cases hi
    obtain ⟨_, _, happly⟩ := except_bind_ok htype
    exact ⟨_, rfl, happly⟩
  | memoryInit memory data =>
    cases hi
    obtain ⟨_, _, htype⟩ := except_bind_ok htype
    obtain ⟨_, _, htype⟩ := except_bind_ok htype
    exact ⟨_, rfl, (except_guard_ok htype).2⟩
  | dataDrop data =>
    cases hi
    obtain ⟨_, _, htype⟩ := except_bind_ok htype
    exact ⟨[], rfl, (except_guard_ok htype).2⟩
  | memoryCopy target source =>
    cases hi
    obtain ⟨_, _, htype⟩ := except_bind_ok htype
    obtain ⟨_, _, htype⟩ := except_bind_ok htype
    obtain ⟨_, _, happly⟩ := except_bind_ok htype
    exact ⟨_, rfl, happly⟩
  | memoryFill memory =>
    cases hi
    obtain ⟨_, _, htype⟩ := except_bind_ok htype
    obtain ⟨_, _, happly⟩ := except_bind_ok htype
    exact ⟨_, rfl, happly⟩
  | vecLoad kind at_ =>
    cases hi
    obtain ⟨_, _, htype⟩ := except_bind_ok htype
    obtain ⟨_, _, happly⟩ := except_bind_ok htype
    exact ⟨_, rfl, happly⟩
  | vecStore at_ =>
    cases hi
    obtain ⟨_, _, htype⟩ := except_bind_ok htype
    obtain ⟨_, _, happly⟩ := except_bind_ok htype
    exact ⟨_, rfl, happly⟩
  | vecLoadLane lane at_ index =>
    cases hi
    obtain ⟨_, _, htype⟩ := except_bind_ok htype
    obtain ⟨_, _, htype⟩ := except_bind_ok htype
    exact ⟨_, rfl, (except_guard_ok htype).2⟩
  | vecStoreLane lane at_ index =>
    cases hi
    obtain ⟨_, _, htype⟩ := except_bind_ok htype
    obtain ⟨_, _, htype⟩ := except_bind_ok htype
    exact ⟨_, rfl, (except_guard_ok htype).2⟩
  | _ => contradiction

/-- An instruction that has to do with tables or memories leaves the operands that validation says. -/
theorem uses_typed {taken : Nat} {given : Option ValType}
    (hlocals : locals.map Operand.type = c.locals) (hi : i.uses = some (taken, given))
    (htype : Typing.plain c i (.ofTypes (stack.map Operand.type)) = .ok s)
    (he : plainEffect h place locals stack i = .ok e) :
    s = .ofTypes (e.stack.map Operand.type) ∧ e.locals.map Operand.type = c.locals := by
  obtain ⟨p, rfl, happly⟩ := applies_of_uses hi htype
  cases given with
  | none =>
    obtain ⟨hstack, rfl⟩ := takes_of_ok he hi
    rw [hstack]
    exact ⟨applied_drop happly, hlocals⟩
  | some t =>
    obtain ⟨o, ho, hstack, rfl⟩ := gives_of_ok he hi
    rw [hstack]
    exact ⟨applied_push happly ho, hlocals⟩

/-- The instruction leaves the operands that validation says, and local variables of their types. -/
theorem plain_typed (hplain : i.isPlain = true) (hc : h.Fits place c)
    (hlocals : locals.map Operand.type = c.locals)
    (htype : Typing.plain c i (.ofTypes (stack.map Operand.type)) = .ok s)
    (he : plainEffect h place locals stack i = .ok e) :
    s = .ofTypes (e.stack.map Operand.type) ∧ e.locals.map Operand.type = c.locals := by
  cases hi : i.uses with
  | some used => exact uses_typed hlocals hi htype he
  | none =>
    cases i with
    | drop =>
      obtain ⟨⟨u, _⟩, hpop, htype⟩ := except_bind_ok htype
      obtain ⟨t, below, hstack, rfl, rfl⟩ := pop_ofTypes hpop
      obtain rfl := Except.ok.inj htype
      obtain rfl := Except.ok.inj he
      exact ⟨popped hstack, hlocals⟩
    | select type =>
      obtain rfl := Except.ok.inj he
      exact ⟨select_typed htype, hlocals⟩
    | localGet j =>
      obtain ⟨t, ht, htype⟩ := except_bind_ok htype
      obtain rfl := Except.ok.inj he
      exact ⟨pushed htype (getD_of_types hlocals (lookup_ok ht)), hlocals⟩
    | localSet j =>
      obtain ⟨t, ht, hpop⟩ := except_bind_ok htype
      obtain ⟨below, hstack, rfl⟩ := popOf_ofTypes hpop
      obtain rfl := Except.ok.inj he
      exact ⟨popped hstack, types_set hlocals (lookup_ok ht) (getD_of_types hstack rfl)⟩
    | localTee j =>
      obtain ⟨t, ht, happly⟩ := except_bind_ok htype
      obtain ⟨below, hstack, rfl⟩ := apply_ofTypes happly
      obtain rfl := Except.ok.inj he
      refine ⟨?_, types_set hlocals (lookup_ok ht) (getD_of_types hstack rfl)⟩
      rw [hstack]
    | globalGet j =>
      obtain ⟨t, ht, htype⟩ := except_bind_ok htype
      obtain ⟨addr, g, hg, rfl⟩ := fits_global hc (lookup_ok ht)
      simp only [plainEffect, hg] at he
      obtain rfl := Except.ok.inj he
      exact ⟨pushed htype g.typed, hlocals⟩
    | globalSet j =>
      obtain ⟨t, ht, htype⟩ := except_bind_ok htype
      obtain ⟨addr, g, hg, rfl⟩ := fits_global hc (lookup_ok ht)
      obtain ⟨below, hstack, rfl⟩ := popOf_ofTypes (except_guard_ok htype).2
      simp only [plainEffect, hg] at he
      obtain rfl := Except.ok.inj he
      exact ⟨popped hstack, hlocals⟩
    | tableGet table =>
      obtain ⟨_, _, htype⟩ := except_bind_ok htype
      obtain ⟨element, helement, happly⟩ := except_bind_ok htype
      obtain ⟨⟨addr, u⟩, hu, _, rfl⟩ := checked_ok he
      refine ⟨applied_push happly ?_, hlocals⟩
      rw [TableObj.type_get, fits_table hc helement hu]
    | const v =>
      obtain ⟨_, _, htype⟩ := except_bind_ok htype
      obtain rfl := Except.ok.inj he
      exact ⟨pushed htype rfl, hlocals⟩
    | num op =>
      obtain ⟨v, hv, he⟩ := except_bind_ok he
      obtain rfl := Except.ok.inj he
      exact ⟨applied_push htype (type_numEval hv), hlocals⟩
    | vec op =>
      obtain ⟨_, _, htype⟩ := except_bind_ok htype
      obtain rfl := Except.ok.inj he
      exact ⟨applied_push (except_guard_ok htype).2 (type_vecEval op _), hlocals⟩
    | refNull kind =>
      obtain ⟨_, _, htype⟩ := except_bind_ok htype
      obtain rfl := Except.ok.inj he
      exact ⟨pushed htype rfl, hlocals⟩
    | refIsNull =>
      obtain rfl := Except.ok.inj he
      exact ⟨refIsNull_typed htype rfl, hlocals⟩
    | refFunc func =>
      obtain ⟨_, _, htype⟩ := except_bind_ok htype
      obtain ⟨_, _, htype⟩ := except_bind_ok htype
      simp only [plainEffect] at he
      split at he
      · obtain rfl := Except.ok.inj he
        exact ⟨pushed (except_guard_ok htype).2 rfl, hlocals⟩
      · obtain rfl := Except.ok.inj he
        exact ⟨pushed (except_guard_ok htype).2 rfl, hlocals⟩
    | _ => contradiction

/-- What is set is a mutable variable, to a value of its type. -/
theorem globalSet_typed {j : Nat} (hc : h.Fits place c)
    (htype : Typing.plain c (.globalSet j) (.ofTypes (stack.map Operand.type)) = .ok s) :
    ∃ addr g v below, h.global? (h.link place) j = some (addr, g) ∧ stack = v :: below ∧
      g.type.isMutable = true ∧ v.type = g.type.content := by
  obtain ⟨t, ht, htype⟩ := except_bind_ok htype
  obtain ⟨addr, g, hg, rfl⟩ := fits_global hc (lookup_ok ht)
  obtain ⟨hmutable, hpop⟩ := except_guard_ok htype
  obtain ⟨below, hstack, _⟩ := popOf_ofTypes hpop
  obtain ⟨v, rest, hv, hvtype, _⟩ := List.map_eq_cons_iff.mp hstack
  refine ⟨addr, g, v, rest, hg, hv, ?_, hvtype⟩
  simpa using hmutable

end WasmEmbed
