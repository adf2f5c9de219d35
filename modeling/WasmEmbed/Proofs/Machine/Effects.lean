import WasmEmbed.Machine.Plain
import WasmEmbed.Proofs.Failure.Except

/-! What instructions do that do not change the flow of control. Those that have to do with tables and
memories all look a thing up, check a range, and take some operands for what they write or give
(`uses_of_ok`). No instruction writes to anything but what its instance knows by an index
(`plainEffect_writes`). -/
namespace WasmEmbed
open WasmEmbed.Code
variable {σ : Type}

section Known
variable {h : Heap σ} {l : Link} {i addr : Nat}

theorem global?_some {g : GlobalObj} (hg : h.global? l i = some (addr, g)) :
    l.globals[i]? = some addr ∧ h.globals[addr]? = some g := by
  obtain ⟨a, ha, hg⟩ := Option.bind_eq_some_iff.mp hg
  obtain ⟨g', hg', heq⟩ := Option.bind_eq_some_iff.mp hg
  obtain ⟨rfl, rfl⟩ := Prod.mk.inj (Option.some.inj heq)
  exact ⟨ha, hg'⟩

theorem memory?_some {o : MemoryObj h.limit} (ho : h.memory? l i = some (addr, o)) :
    l.memories[i]? = some addr ∧ h.memories[addr]? = some o := by
  obtain ⟨a, ha, ho⟩ := Option.bind_eq_some_iff.mp ho
  obtain ⟨o', ho', heq⟩ := Option.bind_eq_some_iff.mp ho
  obtain ⟨rfl, rfl⟩ := Prod.mk.inj (Option.some.inj heq)
  exact ⟨ha, ho'⟩

theorem table?_some {t : TableObj} (ht : h.table? l i = some (addr, t)) :
    l.tables[i]? = some addr ∧ h.tables[addr]? = some t := by
  obtain ⟨a, ha, ht⟩ := Option.bind_eq_some_iff.mp ht
  obtain ⟨t', ht', heq⟩ := Option.bind_eq_some_iff.mp ht
  obtain ⟨rfl, rfl⟩ := Prod.mk.inj (Option.some.inj heq)
  exact ⟨ha, ht'⟩

end Known

/-- The writes that an instruction of an instance may ask for: to what the instance knows by an index,
of the topmost operand to a variable, with bytes that are within the memory and pages that it may
have. -/
inductive Write.Proper (h : Heap σ) (place : Nat) (stack : List Operand) : Instr → Write → Prop where
  | global {i addr : Nat} {g : GlobalObj} (known : (h.link place).globals[i]? = some addr)
    (found : h.globals[addr]? = some g) :
    Proper h place stack (.globalSet i) (.global addr (stack.getD 0 (.ofI32 0)))
  | bytes {instr : Instr} {i addr offset : Nat} {bs : List UInt8} {o : MemoryObj h.limit}
    (known : (h.link place).memories[i]? = some addr) (found : h.memories[addr]? = some o)
    (fits : offset + bs.length ≤ o.size) : Proper h place stack instr (.bytes addr offset bs)
  | growMemory {instr : Instr} {i addr delta : Nat} {o : MemoryObj h.limit}
    (known : (h.link place).memories[i]? = some addr) (found : h.memories[addr]? = some o)
    (admits : o.type.Admits h.limit (o.pages + delta)) :
    Proper h place stack instr (.growMemory addr delta)
  | elements {instr : Instr} {i addr offset : Nat} {xs : List (Option Nat)}
    (known : (h.link place).tables[i]? = some addr) :
    Proper h place stack instr (.elements addr offset xs)
  | growTable {instr : Instr} {i addr delta : Nat} {x : Option Nat}
    (known : (h.link place).tables[i]? = some addr) :
    Proper h place stack instr (.growTable addr delta x)
  | dropElem {instr : Instr} (i : Nat) : Proper h place stack instr (.dropElem place i)
  | dropData {instr : Instr} (i : Nat) : Proper h place stack instr (.dropData place i)

/-- An instruction asks for one write at most, and for a proper one. -/
inductive Write.Only (h : Heap σ) (place : Nat) (stack : List Operand) (i : Instr) :
    List Write → Prop where
  | none : Only h place stack i []
  | one {w : Write} (proper : w.Proper h place stack i) : Only h place stack i [w]

/-- How many operands an instruction takes that has to do with tables or memories, and the type of the
one that it gives. What is got out of a table has the type of the table's elements. -/
def Code.Instr.uses : Instr → Option (Nat × Option ValType)
  | .tableSize _ | .memorySize _ => some (0, some .i32)
  | .elemDrop _ | .dataDrop _ => some (0, none)
  | .memoryGrow _ => some (1, some .i32)
  | .load access _ => some (1, some access.type)
  | .vecLoad .. => some (1, some .v128)
  | .tableGrow _ => some (2, some .i32)
  | .vecLoadLane .. => some (2, some .v128)
  | .tableSet _ | .store .. | .vecStore _ | .vecStoreLane .. => some (2, none)
  | .tableFill _ | .tableCopy .. | .tableInit .. | .memoryInit .. | .memoryCopy .. | .memoryFill _ =>
    some (3, none)
  | _ => none

/-- The effect of an instruction that takes operands, gives one of a type or none, and writes. -/
inductive Effect.Uses (h : Heap σ) (place : Nat) (locals stack : List Operand) (i : Instr) :
    Effect → Option (Nat × Option ValType) → Prop where
  | takes {n : Nat} {ws : List Write} (writes : Write.Only h place stack i ws) :
    Uses h place locals stack i ⟨stack.drop n, locals, ws⟩ (some (n, none))
  | gives {n : Nat} {o : Operand} {t : ValType} {ws : List Write} (type : o.type = t)
    (writes : Write.Only h place stack i ws) :
    Uses h place locals stack i ⟨o :: stack.drop n, locals, ws⟩ (some (n, some t))
  | other (e : Effect) : Uses h place locals stack i e none

variable {h : Heap σ} {place n : Nat} {locals stack : List Operand} {i : Instr} {e : Effect}
  {t : ValType} {w : Write}

theorem writeNumber_proper {at_ : MemArg} {base : Operand} {count number : Nat}
    (hw : h.writeNumber (h.link place) at_ base count number = .ok w) :
    w.Proper h place stack i := by
  obtain ⟨⟨addr, o⟩, ho, hfits, rfl⟩ := checked_ok hw
  obtain ⟨known, found⟩ := memory?_some ho
  refine .bytes known found ?_
  rw [Bytes.length_ofNat]
  exact of_decide_eq_true hfits

/-- The thing that is looked up, its range and what is written are each the instruction's own. -/
theorem uses_of_ok (he : plainEffect h place locals stack i = .ok e) :
    e.Uses h place locals stack i i.uses := by
  cases i with
  | tableSet table =>
    obtain ⟨⟨addr, t⟩, ht, _, rfl⟩ := checked_ok he
    exact .takes (.one (.elements (table?_some ht).1))
  | tableSize table =>
    simp only [plainEffect] at he
    split at he
    · obtain rfl := Except.ok.inj he
      exact .gives rfl .none
    · obtain rfl := Except.ok.inj he
      exact .gives rfl .none
  | tableGrow table =>
    simp only [plainEffect] at he
    split at he
    · rename_i addr t ht
      split at he
      · obtain rfl := Except.ok.inj he
        exact .gives rfl (.one (.growTable (table?_some ht).1))
      · obtain rfl := Except.ok.inj he
        exact .gives rfl .none
    · obtain rfl := Except.ok.inj he
      exact .gives rfl .none
  | tableFill table =>
    obtain ⟨⟨addr, t⟩, ht, _, rfl⟩ := checked_ok he
    exact .takes (.one (.elements (table?_some ht).1))
  | tableCopy target source =>
    obtain ⟨⟨⟨addr, t⟩, _, u⟩, hboth, _, rfl⟩ := checked_ok he
    exact .takes (.one (.elements (table?_some (both_some hboth).1).1))
  | tableInit table elem =>
    obtain ⟨⟨⟨addr, t⟩, xs⟩, hboth, _, rfl⟩ := checked_ok he
    exact .takes (.one (.elements (table?_some (both_some hboth).1).1))
  | elemDrop elem =>
    obtain rfl := Except.ok.inj he
    exact .takes (.one (.dropElem elem))
  | dataDrop data =>
    obtain rfl := Except.ok.inj he
    exact .takes (.one (.dropData data))
  | load access at_ =>
    obtain ⟨number, _, he⟩ := except_bind_ok he
    obtain rfl := Except.ok.inj he
    exact .gives (Val.type_ofBits _ _) .none
  | store access at_ =>
    obtain ⟨w, hw, he⟩ := except_bind_ok he
    obtain rfl := Except.ok.inj he
    exact .takes (.one (writeNumber_proper hw))
  | memorySize memory =>
    simp only [plainEffect] at he
    split at he
    · obtain rfl := Except.ok.inj he
      exact .gives rfl .none
    · obtain rfl := Except.ok.inj he
      exact .gives rfl .none
  | memoryGrow memory =>
    simp only [plainEffect] at he
    split at he
    · rename_i addr o ho
      obtain ⟨known, found⟩ := memory?_some ho
      split at he
      · rename_i grown hgrown
        obtain rfl := Except.ok.inj he
        refine .gives rfl (.one (.growMemory known found ?_))
        rw [MemoryObj.grow?_eq] at hgrown
        split at hgrown
        · assumption
        · contradiction
      · obtain rfl := Except.ok.inj he
        exact .gives rfl .none
    · obtain rfl := Except.ok.inj he
      exact .gives rfl .none
  | memoryInit memory data =>
    obtain ⟨⟨⟨addr, o⟩, bs⟩, hboth, hfits, rfl⟩ := checked_ok he
    obtain ⟨known, found⟩ := memory?_some (both_some hboth).1
    exact .takes (.one (.bytes known found (of_decide_eq_true hfits)))
  | memoryCopy target source =>
    obtain ⟨⟨⟨addr, o⟩, _, o'⟩, hboth, hfits, rfl⟩ := checked_ok he
    obtain ⟨known, found⟩ := memory?_some (both_some hboth).1
    refine .takes (.one (.bytes known found ?_))
    rw [Sparse.length_slice]
    exact of_decide_eq_true (Bool.and_eq_true_iff.mp hfits).1
  | memoryFill memory =>
    obtain ⟨⟨addr, o⟩, ho, hfits, rfl⟩ := checked_ok he
    obtain ⟨known, found⟩ := memory?_some ho
    refine .takes (.one (.bytes known found ?_))
    rw [List.length_replicate]
    exact of_decide_eq_true hfits
  | vecLoad kind at_ =>
    obtain ⟨number, _, he⟩ := except_bind_ok he
    obtain rfl := Except.ok.inj he
    exact .gives rfl .none
  | vecStore at_ =>
    obtain ⟨w, hw, he⟩ := except_bind_ok he
    obtain rfl := Except.ok.inj he
    exact .takes (.one (writeNumber_proper hw))
  | vecLoadLane lane at_ index =>
    obtain ⟨number, _, he⟩ := except_bind_ok he
    obtain rfl := Except.ok.inj he
    exact .gives rfl .none
  | vecStoreLane lane at_ index =>
    obtain ⟨w, hw, he⟩ := except_bind_ok he
    obtain rfl := Except.ok.inj he
    exact .takes (.one (writeNumber_proper hw))
  | _ => exact .other e

theorem takes_of_ok (he : plainEffect h place locals stack i = .ok e)
    (hi : i.uses = some (n, none)) : e.stack = stack.drop n ∧ e.locals = locals := by
  have huses := uses_of_ok he
  rw [hi] at huses
  cases huses with
  | takes writes => exact ⟨rfl, rfl⟩

theorem gives_of_ok (he : plainEffect h place locals stack i = .ok e)
    (hi : i.uses = some (n, some t)) :
    ∃ o, o.type = t ∧ e.stack = o :: stack.drop n ∧ e.locals = locals := by
  have huses := uses_of_ok he
  rw [hi] at huses
  cases huses with
  | gives type writes => exact ⟨_, type, rfl, rfl⟩

/-- Of all other instructions only the one that sets a variable writes. -/
theorem plainEffect_writes (he : plainEffect h place locals stack i = .ok e) :
    Write.Only h place stack i e.writes := by
  have huses := uses_of_ok he
  generalize hi : i.uses = used at huses
  cases huses with
  | takes writes => exact writes
  | gives type writes => exact writes
  | other =>
    cases i with
    | globalSet j =>
      simp only [plainEffect] at he
      split at he
      · rename_i addr g hg
        obtain rfl := Except.ok.inj he
        obtain ⟨known, found⟩ := global?_some hg
        exact .one (.global known found)
      · obtain rfl := Except.ok.inj he
        exact .none
    | globalGet j =>
      simp only [plainEffect] at he
      split at he
      · obtain rfl := Except.ok.inj he
        exact .none
      · obtain rfl := Except.ok.inj he
        exact .none
    | tableGet table =>
      obtain ⟨_, _, _, rfl⟩ := checked_ok he
      exact .none
    | num op =>
      obtain ⟨v, _, he⟩ := except_bind_ok he
      obtain rfl := Except.ok.inj he
      exact .none
    | refFunc func =>
      simp only [plainEffect] at he
      split at he
      · obtain rfl := Except.ok.inj he
        exact .none
      · obtain rfl := Except.ok.inj he
        exact .none
    | _ =>
      first
      | contradiction
      | obtain rfl := Except.ok.inj he
        exact .none

end WasmEmbed
