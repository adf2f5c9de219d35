import WasmEmbed.Proofs.Heap.Thing
import WasmEmbed.Proofs.Store.Use

/-! What a write of the host leaves alone. A write is to one thing; all other things of the store, its
fuel and what it counts are as they were, and every handle of another thing reads what it read. -/
namespace WasmEmbed
variable {σ : Type}

/-- The two contents are the same but for the thing of a kind with an address. -/
structure Contents.SameBut (c d : Contents σ) (kind : ExternKind) (addr : Nat) : Prop where
  fuel : d.fuel = c.fuel
  metrics : d.metrics = c.metrics
  nextInstance : d.nextInstance = c.nextInstance
  limit : d.heap.limit = c.heap.limit
  links : d.heap.links = c.heap.links
  things : ∀ k a, k ≠ kind ∨ a ≠ addr → d.heap.thing? k a = c.heap.thing? k a

/-- The two stores are the same but for the thing of a kind with an address, whether one looks at what
they hold or asks them. -/
structure Store.SameBut (s t : Store σ) (kind : ExternKind) (addr : Nat) : Prop where
  alike : t.Alike s
  contents : ∃ c d, s.contents = some c ∧ t.contents = some d ∧ c.SameBut d kind addr
  fuel : t.fuel = s.fuel
  metrics : t.metrics = s.metrics
  globals : ∀ x : Global, kind ≠ .global ∨ x.addr ≠ addr → x.get t = x.get s
  sizes : ∀ x : Memory, kind ≠ .memory ∨ x.addr ≠ addr →
    x.size t = x.size s ∧ x.dataSize t = x.dataSize s
  bytes : ∀ x : Memory, kind ≠ .memory ∨ x.addr ≠ addr → ∀ offset len,
    x.read t offset len = x.read s offset len
  tables : ∀ x : Table, kind ≠ .table ∨ x.addr ≠ addr → x.size t = x.size s

variable {s t : Store σ} {c d : Contents σ} {w : Write} {kind : ExternKind} {addr : Nat}

section Reading

/-- The number of pages. What is no memory has none. -/
def Thing.pages : Thing σ → Nat
  | .memory _ pages _ => pages
  | _ => 0

def Thing.bytes : Thing σ → Sparse UInt8
  | .memory _ _ bytes => bytes
  | _ => .ofSize 0

theorem get_eq_thing (x : Global) (s : Store σ) :
    x.get s = s.contentsFor x.store "global" >>= fun c =>
      match c.heap.thing? .global x.addr with
      | some (.global g) => g.value.leave .global 0
      | _ => .ok (.default x.type.content) := by
  unfold Global.get
  apply congrArg (s.contentsFor x.store "global" >>= ·)
  funext c
  have hthing : c.heap.thing? .global x.addr = c.heap.globals[x.addr]?.map .global := rfl
  rw [hthing]
  cases c.heap.globals[x.addr]? <;> rfl

theorem memorySize_eq_thing (x : Memory) (s : Store σ) :
    x.size s = s.contentsFor x.store "memory" >>= fun c =>
      .ok (((c.heap.thing? .memory x.addr).map Thing.pages).getD 0) := by
  unfold Memory.size Memory.find
  rw [bind_assoc]
  apply congrArg (s.contentsFor x.store "memory" >>= ·)
  funext c
  unfold Heap.thing?
  rw [Option.map_map]
  rfl

theorem dataSize_eq_thing (x : Memory) (s : Store σ) :
    x.dataSize s = s.contentsFor x.store "memory" >>= fun c =>
      .ok (((c.heap.thing? .memory x.addr).map (·.bytes.size)).getD 0) := by
  unfold Memory.dataSize Memory.find
  rw [bind_assoc]
  apply congrArg (s.contentsFor x.store "memory" >>= ·)
  funext c
  unfold Heap.thing?
  rw [Option.map_map]
  rfl

theorem read_eq_thing (x : Memory) (s : Store σ) (offset len : Nat) :
    x.read s offset len = s.contentsFor x.store "memory" >>= fun c => do
      checkRange offset len (((c.heap.thing? .memory x.addr).map (·.bytes.size)).getD 0)
      return ((c.heap.thing? .memory x.addr).map (·.bytes.slice offset len)).getD [] := by
  unfold Memory.read Memory.find
  rw [bind_assoc]
  apply congrArg (s.contentsFor x.store "memory" >>= ·)
  funext c
  unfold Heap.thing?
  rw [Option.map_map, Option.map_map]
  rfl

theorem tableSize_eq_thing (x : Table) (s : Store σ) :
    x.size s = s.contentsFor x.store "table" >>= fun c =>
      match c.heap.thing? .table x.addr with
      | some (.table t) => .ok t.size
      | _ => .ok 0 := by
  unfold Table.size
  apply congrArg (s.contentsFor x.store "table" >>= ·)
  funext c
  have hthing : c.heap.thing? .table x.addr = c.heap.tables[x.addr]?.map .table := rfl
  rw [hthing]
  cases c.heap.tables[x.addr]? <;> rfl

/-- What is asked of two stores under one number has one answer, if it is told by a part of their
contents that is the same in both. -/
theorem contentsFor_bind_same {α : Type} (hid : t.id = s.id) (hc : s.contents = some c)
    (hd : t.contents = some d) (owner : StoreRef) (what : String)
    {f : Contents σ → Except Error α} (hf : f d = f c) :
    t.contentsFor owner what >>= f = s.contentsFor owner what >>= f := by
  by_cases howner : owner.id = s.id
  · rw [contentsFor_live howner hc, contentsFor_live (howner.trans hid.symm) hd]
    exact hf
  · have howner' : owner.id ≠ t.id := by rwa [hid]
    rw [contentsFor_foreign howner, contentsFor_foreign howner']

theorem get_same (hid : t.id = s.id) (hc : s.contents = some c) (hd : t.contents = some d)
    {x : Global} (h : d.heap.thing? .global x.addr = c.heap.thing? .global x.addr) :
    x.get t = x.get s := by
  rw [get_eq_thing, get_eq_thing]
  apply contentsFor_bind_same hid hc hd
  rw [h]

end Reading

section Frame

/-- Only dropping a segment changes what is said about instances, and a segment is no thing. -/
theorem sameBut_of_target (hw : w.target = some (kind, addr)) (c : Contents σ) :
    c.SameBut { c with heap := c.heap.perform w } kind addr where
  fuel := rfl
  metrics := rfl
  nextInstance := rfl
  limit := Heap.limit_perform c.heap w
  links := by
    cases w with
    | dropElem link i => contradiction
    | dropData link i => contradiction
    | _ => rfl
  things := by
    intro k a hother
    apply thing?_perform_other
    intro htarget
    obtain ⟨hkind, haddr⟩ := Prod.mk.inj (Option.some.inj (hw.symm.trans htarget))
    exact hother.elim (fun h => h hkind.symm) (fun h => h haddr.symm)

theorem store_sameBut (halike : t.Alike s) (hc : s.contents = some c)
    (hd : t.contents = some d) (h : c.SameBut d kind addr) : s.SameBut t kind addr where
  alike := halike
  contents := ⟨c, d, hc, hd, h⟩
  fuel := by
    simp only [Store.fuel, live_of_contents hc, live_of_contents hd, bind, Except.bind, h.fuel]
  metrics := by
    simp only [Store.metrics, live_of_contents hc, live_of_contents hd, bind, Except.bind, h.metrics]
  globals := by
    intro x hx
    exact get_same halike.id hc hd (h.things .global x.addr (hx.imp Ne.symm id))
  sizes := by
    intro x hx
    have hthing := h.things .memory x.addr (hx.imp Ne.symm id)
    rw [memorySize_eq_thing, memorySize_eq_thing, dataSize_eq_thing, dataSize_eq_thing]
    constructor
    · apply contentsFor_bind_same halike.id hc hd
      rw [hthing]
    · apply contentsFor_bind_same halike.id hc hd
      rw [hthing]
  bytes := by
    intro x hx offset len
    have hthing := h.things .memory x.addr (hx.imp Ne.symm id)
    rw [read_eq_thing, read_eq_thing]
    apply contentsFor_bind_same halike.id hc hd
    rw [hthing]
  tables := by
    intro x hx
    have hthing := h.things .table x.addr (hx.imp Ne.symm id)
    rw [tableSize_eq_thing, tableSize_eq_thing]
    apply contentsFor_bind_same halike.id hc hd
    rw [hthing]

/-- A write to one thing leaves all else in the store as it is. -/
theorem sameBut_withContents (hc : s.contents = some c) (hw : w.target = some (kind, addr)) :
    s.SameBut (s.withContents { c with heap := c.heap.perform w }) kind addr :=
  store_sameBut (store_alike_withContents hc _) hc rfl (sameBut_of_target hw c)

end Frame

end WasmEmbed
