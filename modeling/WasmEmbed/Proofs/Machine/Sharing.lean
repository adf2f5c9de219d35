import WasmEmbed.Proofs.Machine.Log
import WasmEmbed.Proofs.Machine.Results

/-! What code reads and writes. Wherever code has come to, an index of its instance leads to the thing
that has the address there, as it is then; and what code writes to a thing, the thing has from then
on. -/
namespace WasmEmbed
open WasmEmbed.Code
variable {σ : Type}

/-- What a write has made of a thing: the value, the bytes or the pages that were written are the
thing's, and nothing else of it has changed. -/
inductive Thing.Written : Thing σ → Write → Thing σ → Prop where
  | global {g g' : GlobalObj} {addr : Nat} {v : Operand} (type : g'.type = g.type)
    (value : g'.value = v) : Written (.global g) (.global addr v) (.global g')
  | bytes {t : MemoryType} {pages addr offset : Nat} {bytes bytes' : Sparse UInt8}
    {bs : List UInt8} (size : bytes'.size = bytes.size) (fits : offset + bs.length ≤ bytes.size)
    (inside : bytes'.slice offset bs.length = bs)
    (outside : ∀ i, i < offset ∨ offset + bs.length ≤ i → bytes'.get i = bytes.get i) :
    Written (.memory t pages bytes) (.bytes addr offset bs) (.memory t pages bytes')
  | pages {t : MemoryType} {pages addr delta : Nat} {bytes bytes' : Sparse UInt8}
    (size : bytes'.size = bytes.size + delta * pageSize)
    (kept : ∀ i, bytes'.get i = bytes.get i) :
    Written (.memory t pages bytes) (.growMemory addr delta) (.memory t (pages + delta) bytes')

/-- The thing that a write is to is in the first heap, and the second has what the write has made of
it. -/
def Heap.Written (h k : Heap σ) (w : Write) : Prop :=
  ∃ kind addr x x', w.target = some (kind, addr) ∧ h.thing? kind addr = some x ∧
    k.thing? kind addr = some x' ∧ x.Written w x'

/-- Where code uses a variable by an index that stands for it, it gets the value, and asks for what it
sets to be written. -/
structure Machine.SharesGlobal (m : Machine σ) (addr : Nat) (g : GlobalObj) : Prop where
  get : ∀ i rest, m.frame.code = .globalGet i :: rest → m.link.globals[i]? = some addr →
    ∃ m', m.step = .running m' ∧ m.asks = [] ∧ m'.frame.stack = g.value :: m.frame.stack
  set : ∀ i rest v below, m.frame.code = .globalSet i :: rest → m.link.globals[i]? = some addr →
    m.frame.stack = v :: below →
      ∃ m', m.step = .running m' ∧ m.asks = [.global addr v] ∧ m'.frame.stack = below

/-- Where code uses a memory by an index that stands for it, it is told the pages and gets the bytes,
and asks for what it stores and for the pages that may be added; beyond the memory it traps. -/
structure Machine.SharesMemory (m : Machine σ) (addr : Nat) (t : MemoryType) (pages : Nat)
    (bytes : Sparse UInt8) : Prop where
  found : ∀ i : Nat, m.link.memories[i]? = some addr → ∃ o, m.resources.heap.memory? m.link i =
    some (addr, o) ∧ o.type = t ∧ o.pages = pages ∧ o.bytes = bytes
  size : ∀ i rest, m.frame.code = .memorySize i :: rest → m.link.memories[i]? = some addr →
    ∃ m', m.step = .running m' ∧ m.asks = [] ∧ m'.frame.stack = .ofI32 pages :: m.frame.stack
  load : ∀ (access : Access) (at_ : MemArg) rest base below,
    m.frame.code = .load access at_ :: rest → m.link.memories[at_.memory]? = some addr →
    m.frame.stack = base :: below →
      if base.bits + at_.offset + access.bytes ≤ bytes.size then
        ∃ m', m.step = .running m' ∧ m.asks = [] ∧ m'.frame.stack = .val (access.value
          (Bytes.toNat (bytes.slice (base.bits + at_.offset) access.bytes))) :: below
      else m.step = m.trap .memoryOutOfBounds
  store : ∀ (access : Access) (at_ : MemArg) rest v base below,
    m.frame.code = .store access at_ :: rest → m.link.memories[at_.memory]? = some addr →
    m.frame.stack = v :: base :: below →
      if base.bits + at_.offset + access.bytes ≤ bytes.size then
        ∃ m', m.step = .running m' ∧ m.asks = [.bytes addr (base.bits + at_.offset)
          (Bytes.ofNat access.bytes v.bits)] ∧ m'.frame.stack = below
      else m.step = m.trap .memoryOutOfBounds
  grow : ∀ i rest delta below, m.frame.code = .memoryGrow i :: rest →
    m.link.memories[i]? = some addr → m.frame.stack = delta :: below →
      if t.Admits m.resources.heap.limit (pages + delta.bits) then
        ∃ m', m.step = .running m' ∧ m.asks = [.growMemory addr delta.bits] ∧
          m'.frame.stack = .ofI32 pages :: below
      else ∃ m', m.step = .running m' ∧ m.asks = [] ∧
        m'.frame.stack = .ofI32 (2 ^ (32 : Nat) - 1) :: below

variable {h : Heap σ} {m : Machine σ} {addr : Nat} {g : GlobalObj} {t : MemoryType} {pages : Nat}
  {bytes : Sparse UInt8} {w : Write} {x : Thing σ}

section Written

theorem slice_write {offset : Nat} {bs : List UInt8} (hfits : offset + bs.length ≤ bytes.size) :
    (bytes.write offset bs).slice offset bs.length = bs := by
  apply List.ext_getElem
  · exact Sparse.length_slice _ _ _
  · intro i hi hi'
    simp only [Sparse.slice, List.getElem_map, List.getElem_range]
    rw [Sparse.get_write _ _ _ hfits, if_pos (by omega), Nat.add_sub_cancel_left,
      List.getElem?_eq_getElem hi']
    rfl

theorem written_global {v : Operand} (limit : Option Nat) (hmutable : g.type.isMutable = true)
    (htype : v.type = g.type.content) :
    Thing.Written (σ := σ) (.global g) (.global addr v)
      (Thing.take limit (.global g) (.global addr v)) := by
  have hset : g.set v = { g with value := v, typed := htype } := dif_pos ⟨hmutable, htype⟩
  refine .global (GlobalObj.type_set g v) ?_
  rw [hset]

theorem written_bytes {offset : Nat} {bs : List UInt8} (limit : Option Nat)
    (hfits : offset + bs.length ≤ bytes.size) :
    Thing.Written (σ := σ) (.memory t pages bytes) (.bytes addr offset bs)
      (Thing.take limit (.memory t pages bytes) (.bytes addr offset bs)) := by
  refine .bytes (Sparse.size_write _ _ _) hfits (slice_write hfits) fun i hi => ?_
  rw [Sparse.get_write _ _ _ hfits, if_neg (by omega)]

theorem written_pages {limit : Option Nat} {delta : Nat} (hadmits : t.Admits limit (pages + delta)) :
    Thing.Written (σ := σ) (.memory t pages bytes) (.growMemory addr delta)
      (Thing.take limit (.memory t pages bytes) (.growMemory addr delta)) := by
  rw [Thing.take, if_pos hadmits]
  exact .pages rfl fun _ => rfl

end Written

section Thing

theorem globals_of_thing? (hg : h.thing? .global addr = some (.global g)) :
    h.globals[addr]? = some g := by
  obtain ⟨g', hg', heq⟩ := Option.map_eq_some_iff.mp hg
  obtain rfl := Thing.global.inj heq
  exact hg'

theorem memories_of_thing? (ho : h.thing? .memory addr = some (.memory t pages bytes)) :
    ∃ o, h.memories[addr]? = some o ∧ o.type = t ∧ o.pages = pages ∧ o.bytes = bytes := by
  obtain ⟨o, ho, heq⟩ := Option.map_eq_some_iff.mp ho
  obtain ⟨htype, hpages, hbytes⟩ := Thing.memory.inj heq
  exact ⟨o, ho, htype, hpages, hbytes⟩

theorem global?_of_thing? {l : Link} {i : Nat} (hi : l.globals[i]? = some addr)
    (hg : h.thing? .global addr = some (.global g)) : h.global? l i = some (addr, g) := by
  unfold Heap.global?
  rw [hi, Option.bind_eq_bind, Option.bind_some, globals_of_thing? hg]
  rfl

theorem memory?_of_thing? {l : Link} {i : Nat} (hi : l.memories[i]? = some addr)
    (ho : h.thing? .memory addr = some (.memory t pages bytes)) :
    ∃ o, h.memory? l i = some (addr, o) ∧ o.type = t ∧ o.pages = pages ∧ o.bytes = bytes := by
  obtain ⟨o, ho, hall⟩ := memories_of_thing? ho
  refine ⟨o, ?_, hall⟩
  unfold Heap.memory?
  rw [hi, Option.bind_eq_bind, Option.bind_some, ho]
  rfl

/-- All instructions that load take their bytes so. -/
theorem readNumber_of_thing? {l : Link} {at_ : MemArg} (hi : l.memories[at_.memory]? = some addr)
    (ho : h.thing? .memory addr = some (.memory t pages bytes)) (base : Operand) (count : Nat) :
    h.readNumber l at_ base count =
      if base.bits + at_.offset + count ≤ bytes.size then
        .ok (Bytes.toNat (bytes.slice (base.bits + at_.offset) count))
      else .error .memoryOutOfBounds := by
  obtain ⟨o, hfound, _, _, rfl⟩ := memory?_of_thing? hi ho
  simp only [Heap.readNumber, hfound, checked, decide_eq_true_eq]
  rfl

/-- All instructions that store put their bytes so. -/
theorem writeNumber_of_thing? {l : Link} {at_ : MemArg} (hi : l.memories[at_.memory]? = some addr)
    (ho : h.thing? .memory addr = some (.memory t pages bytes)) (base : Operand)
    (count number : Nat) :
    h.writeNumber l at_ base count number =
      if base.bits + at_.offset + count ≤ bytes.size then
        .ok (.bytes addr (base.bits + at_.offset) (Bytes.ofNat count number))
      else .error .memoryOutOfBounds := by
  obtain ⟨o, hfound, _, _, rfl⟩ := memory?_of_thing? hi ho
  simp only [Heap.writeNumber, hfound, checked, decide_eq_true_eq]
  rfl

end Thing

section Plain
variable {instr : Instr} {rest : List Instr} {e : Effect}

/-- An instruction that does not change the flow of control does what its effect tells. -/
theorem plain_step (hcode : m.frame.code = instr :: rest)
    (hplain : ∀ m' : Machine σ, m'.execute instr = m'.plain instr)
    (he : plainEffect m.resources.heap m.frame.link m.frame.locals m.frame.stack instr = .ok e) :
    ∃ m', m.step = .running m' ∧ m.asks = e.writes ∧ m'.frame.stack = e.stack := by
  unfold Machine.step Machine.asks
  rw [hcode]
  dsimp only
  rw [hplain]
  unfold Machine.plain Frame.asks
  dsimp only
  rw [he]
  exact ⟨_, rfl, rfl, rfl⟩

/-- An effect that fails is a trap of the step. -/
theorem plain_trap {code : TrapCode} (hcode : m.frame.code = instr :: rest)
    (hplain : ∀ m' : Machine σ, m'.execute instr = m'.plain instr)
    (he : plainEffect m.resources.heap m.frame.link m.frame.locals m.frame.stack instr =
      .error code) : m.step = m.trap code := by
  unfold Machine.step
  rw [hcode]
  dsimp only
  rw [hplain]
  unfold Machine.plain
  dsimp only
  rw [he]
  rfl

end Plain

/-- Whatever instruction comes next, it reads and writes a variable as the thing that it is. -/
theorem sharesGlobal_of_thing? (hg : m.resources.heap.thing? .global addr = some (.global g)) :
    m.SharesGlobal addr g where
  get := by
    intro i rest hcode hi
    have hfound := global?_of_thing? hi hg
    refine plain_step hcode (fun _ => rfl) (e := ⟨g.value :: m.frame.stack, m.frame.locals, []⟩) ?_
    simp only [plainEffect]
    change m.resources.heap.global? (m.resources.heap.link m.frame.link) i = _ at hfound
    rw [hfound]
    rfl
  set := by
    intro i rest v below hcode hi hstack
    have hfound := global?_of_thing? hi hg
    refine plain_step hcode (fun _ => rfl) (e := ⟨below, m.frame.locals, [.global addr v]⟩) ?_
    simp only [plainEffect]
    change m.resources.heap.global? (m.resources.heap.link m.frame.link) i = _ at hfound
    rw [hfound, hstack]
    rfl

/-- Whatever instruction comes next, it reads, writes and grows a memory as the thing that it is. -/
theorem sharesMemory_of_thing?
    (ho : m.resources.heap.thing? .memory addr = some (.memory t pages bytes)) :
    m.SharesMemory addr t pages bytes := by
  constructor
  · intro i hi
    exact memory?_of_thing? hi ho
  · intro i rest hcode hi
    obtain ⟨o, hfound, _, rfl, _⟩ := memory?_of_thing? hi ho
    refine plain_step hcode (fun _ => rfl)
      (e := ⟨.ofI32 o.pages :: m.frame.stack, m.frame.locals, []⟩) ?_
    simp only [plainEffect]
    change m.resources.heap.memory? (m.resources.heap.link m.frame.link) i = _ at hfound
    rw [hfound]
    rfl
  · intro access at_ rest base below hcode hi hstack
    have hread := readNumber_of_thing? hi ho base access.bytes
    change m.resources.heap.readNumber (m.resources.heap.link m.frame.link) _ _ _ = _ at hread
    split
    · rename_i hfits
      rw [if_pos hfits] at hread
      refine plain_step hcode (fun _ => rfl) (e := ⟨_ :: below, m.frame.locals, []⟩) ?_
      simp only [plainEffect, hstack, List.getD_cons_zero, hread]
      rfl
    · rename_i hfits
      rw [if_neg hfits] at hread
      refine plain_trap hcode (fun _ => rfl) ?_
      simp only [plainEffect, hstack, List.getD_cons_zero, hread]
      rfl
  · intro access at_ rest v base below hcode hi hstack
    have hwrite := writeNumber_of_thing? hi ho base access.bytes v.bits
    change m.resources.heap.writeNumber (m.resources.heap.link m.frame.link) _ _ _ _ = _ at hwrite
    split
    · rename_i hfits
      rw [if_pos hfits] at hwrite
      refine plain_step hcode (fun _ => rfl) (e := ⟨below, m.frame.locals, [_]⟩) ?_
      simp only [plainEffect, hstack, List.getD_cons_zero, List.getD_cons_succ, hwrite]
      rfl
    · rename_i hfits
      rw [if_neg hfits] at hwrite
      refine plain_trap hcode (fun _ => rfl) ?_
      simp only [plainEffect, hstack, List.getD_cons_zero, List.getD_cons_succ, hwrite]
      rfl
  · -- growing is asked for only where it succeeds; else code is told so by all ones
    intro i rest delta below hcode hi hstack
    obtain ⟨o, hfound, rfl, rfl, _⟩ := memory?_of_thing? hi ho
    change m.resources.heap.memory? (m.resources.heap.link m.frame.link) i = _ at hfound
    split
    · rename_i hadmits
      refine plain_step hcode (fun _ => rfl) (e := ⟨.ofI32 o.pages :: below, m.frame.locals,
        [.growMemory addr delta.bits]⟩) ?_
      simp only [plainEffect, hstack, List.getD_cons_zero, hfound, MemoryObj.grow?_eq,
        dif_pos hadmits]
      rfl
    · rename_i hadmits
      refine plain_step hcode (fun _ => rfl) (e := ⟨.ofI32 (2 ^ (32 : Nat) - 1) :: below,
        m.frame.locals, []⟩) ?_
      simp only [plainEffect, hstack, List.getD_cons_zero, hfound, MemoryObj.grow?_eq,
        dif_neg hadmits]
      rfl

/-- The thing that a step writes to is what the write makes of it. -/
theorem thing?_step (hw : w ∈ m.asks) {kind : ExternKind} (htarget : w.target = some (kind, addr))
    (hx : m.resources.heap.thing? kind addr = some x) :
    m.step.resources.heap.thing? kind addr = some (x.take m.resources.heap.limit w) := by
  rw [step_asks, (asks_of_mem hw).1]
  exact (thing?_perform_target htarget).trans (congrArg _ hx)

/-- What well-typed code writes to a variable or a memory, that has once the step is done. -/
theorem written_of_asks {owed : List ValType} {kind : ExternKind} (hm : m.Typed owed)
    (hw : w ∈ m.asks) (htarget : w.target = some (kind, addr)) (hkind : kind ≠ .table) :
    m.resources.heap.Written m.step.resources.heap w := by
  have hafter := fun x hx => thing?_step (x := x) hw htarget hx
  obtain ⟨_, instr, rest, hcode, hproper⟩ := asks_of_mem hw
  cases hproper with
  | @global i a g known found =>
    obtain ⟨rfl, rfl⟩ := Prod.mk.inj (Option.some.inj htarget)
    have hx : m.resources.heap.thing? .global a = some (.global g) :=
      congrArg (Option.map _) found
    obtain ⟨a', g', v, below, hg, hstack, hmutable, htype⟩ := operand_of_globalSet hm hcode
    -- the variable that validation went by is the one that is there
    obtain ⟨rfl, rfl⟩ := Prod.mk.inj
      (Option.some.inj (hg.symm.trans (global?_of_thing? (l := m.link) known hx)))
    rw [hstack] at hafter ⊢
    exact ⟨_, _, _, _, rfl, hx, hafter _ hx, written_global _ hmutable htype⟩
  | @bytes _ i a offset bs o known found fits =>
    obtain ⟨rfl, rfl⟩ := Prod.mk.inj (Option.some.inj htarget)
    have hx : m.resources.heap.thing? .memory a = some (.memory o.type o.pages o.bytes) :=
      congrArg (Option.map _) found
    exact ⟨_, _, _, _, rfl, hx, hafter _ hx, written_bytes _ fits⟩
  | @growMemory _ i a delta o known found admits =>
    obtain ⟨rfl, rfl⟩ := Prod.mk.inj (Option.some.inj htarget)
    have hx : m.resources.heap.thing? .memory a = some (.memory o.type o.pages o.bytes) :=
      congrArg (Option.map _) found
    exact ⟨_, _, _, _, rfl, hx, hafter _ hx, written_pages admits⟩
  -- these write to tables, or to what no handle leads to
  | elements known => exact absurd (Prod.mk.inj (Option.some.inj htarget)).1.symm hkind
  | growTable known => exact absurd (Prod.mk.inj (Option.some.inj htarget)).1.symm hkind
  | dropElem i => contradiction
  | dropData i => contradiction

end WasmEmbed
