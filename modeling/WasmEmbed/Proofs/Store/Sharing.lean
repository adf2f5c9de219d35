import WasmEmbed.Proofs.Machine.Sharing
import WasmEmbed.Proofs.Realm.Boundary
import WasmEmbed.Proofs.Store.Log

/-! What the host reads and writes through handles. Every handle with an address is a handle of the one
thing that has it: it reads what the thing is now, and what is written through it the thing has from
then on. -/
namespace WasmEmbed
open WasmEmbed.Code
variable {σ : Type}

/-- All handles with this address read the variable `g`. -/
def Store.SharesGlobal (s : Store σ) (addr : Nat) (g : GlobalObj) : Prop :=
  ∀ x : Global, x.store.id = s.id → x.addr = addr → x.get s = g.value.leave .global 0

/-- All handles with this address read a memory of so many pages with these bytes. -/
structure Store.SharesMemory (s : Store σ) (addr pages : Nat) (bytes : Sparse UInt8) : Prop where
  size : ∀ x : Memory, x.store.id = s.id → x.addr = addr → x.size s = .ok pages
  dataSize : ∀ x : Memory, x.store.id = s.id → x.addr = addr → x.dataSize s = .ok bytes.size
  read : ∀ x : Memory, x.store.id = s.id → x.addr = addr → ∀ offset len,
    x.read s offset len = if offset + len ≤ bytes.size then .ok (bytes.slice offset len)
      else .error (.outOfBounds offset len bytes.size)

/-- What the host is answered that has written to a thing, and the write that this was. -/
inductive Use.Writes : Use σ → Reply → Write → Prop where
  | global {x : Global} {value : HostValue} {v : Val} (mutable : x.type.isMutable = true)
    (coerced : coerce value x.type.content .global 0 = .ok v) :
    Writes (.setGlobal x value) .done (.global x.addr (.val v))
  | bytes {x : Memory} {offset : Nat} {bs : List UInt8} :
    Writes (.writeMemory x offset bs) .done (.bytes x.addr offset bs)
  | pages {x : Memory} {delta previous : Nat} :
    Writes (.growMemory x delta) (.number previous) (.growMemory x.addr delta)

/-- What comes of writing to a thing: a refusal that leaves the store as it is, or one write that is
done. -/
inductive Store.HostWrites (s : Store σ) (c : Contents σ) (world : σ) (u : Use σ) : Prop where
  | refused {e : Error} (result : (s.perform world u).result = .error e)
    (log : s.log world u = []) (same : (s.perform world u).store = s)
  | done (reply : Reply) {w : Write} {d : Contents σ}
    (result : (s.perform world u).result = .ok reply) (writes : u.Writes reply w)
    (log : s.log world u = [w]) (left : (s.perform world u).store = s.withContents d)
    (written : c.heap.Written d.heap w)

variable {s : Store σ} {c : Contents σ} {world : σ} {u : Use σ} {addr pages : Nat}
  {g : GlobalObj} {type : MemoryType} {bytes : Sparse UInt8}

section Reading

theorem store_sharesGlobal (hc : s.contents = some c)
    (hg : c.heap.thing? .global addr = some (.global g)) : s.SharesGlobal addr g := by
  rintro x hstore rfl
  rw [Global.get, contentsFor_live hstore hc]
  dsimp only [bind, Except.bind]
  rw [globals_of_thing? hg]

theorem find_of_thing? {x : Memory} (hstore : x.store.id = s.id) (hc : s.contents = some c)
    (ho : c.heap.thing? .memory x.addr = some (.memory type pages bytes)) :
    ∃ o, x.find s = .ok ⟨c, some o⟩ ∧ o.pages = pages ∧ o.bytes = bytes := by
  obtain ⟨o, ho, _, hpages, hbytes⟩ := memories_of_thing? ho
  exact ⟨o, find_live hstore hc ho, hpages, hbytes⟩

/-- A range of a memory is checked as if there were no limit to numbers. -/
theorem checked_range {α : Type} {limit : Option Nat} (o : MemoryObj limit) (offset len : Nat)
    (a : α) :
    (checkRange offset len o.size >>= fun _ => pure a) =
      if offset + len ≤ o.bytes.size then .ok a
      else .error (.outOfBounds offset len o.bytes.size) := by
  rw [checkRange_eq o.size_lt]
  change (if offset + len ≤ o.bytes.size then _ else _) >>= _ = _
  by_cases hfits : offset + len ≤ o.bytes.size
  · rw [if_pos hfits, if_pos hfits]
    rfl
  · rw [if_neg hfits, if_neg hfits]
    rfl

theorem store_sharesMemory (hc : s.contents = some c)
    (ho : c.heap.thing? .memory addr = some (.memory type pages bytes)) :
    s.SharesMemory addr pages bytes := by
  refine ⟨?_, ?_, ?_⟩
  · rintro x hstore rfl
    obtain ⟨o, hfind, rfl, _⟩ := find_of_thing? hstore hc ho
    rw [Memory.size, hfind]
    rfl
  · rintro x hstore rfl
    obtain ⟨o, hfind, _, rfl⟩ := find_of_thing? hstore hc ho
    rw [Memory.dataSize, hfind]
    rfl
  · rintro x hstore rfl offset len
    obtain ⟨o, hfind, _, rfl⟩ := find_of_thing? hstore hc ho
    rw [Memory.read, hfind]
    exact checked_range o offset len (o.bytes.slice offset len)

end Reading

section Writing

/-- A thing that is there has, after a write to it, what the write makes of it. -/
theorem written_of_perform {h : Heap σ} {w : Write} {kind : ExternKind} {x : Thing σ}
    (htarget : w.target = some (kind, addr)) (hx : h.thing? kind addr = some x)
    (hw : x.Written w (x.take h.limit w)) : h.Written (h.perform w) w :=
  ⟨kind, addr, x, _, htarget, hx, (thing?_perform_target htarget).trans (congrArg _ hx), hw⟩

/-- The handle tells the type of the variable, so that the value fits and is taken. -/
theorem hostWrites_global {x : Global} {value : HostValue} (hc : s.contents = some c)
    (hheld : c.heap.Holds x.addr (.global x.type)) : s.HostWrites c world (.setGlobal x value) := by
  cases hset : x.set s value with
  | error e => refine .refused (e := e) ?_ ?_ ?_ <;> simp only [Store.perform, Store.log, hset] <;> rfl
  | ok t =>
    obtain ⟨c', v, _, hc', hmutable, hv, rfl⟩ := setGlobal_ok hset
    obtain rfl := Option.some.inj (hc.symm.trans hc')
    obtain ⟨g, hg, htype⟩ := hheld
    have hx : c.heap.thing? .global x.addr = some (.global g) := thing?_of_global hg
    have hfits : (Operand.val v).type = g.type.content := by
      rw [htype]
      exact makes_coerce _ _ _ _ _ hv
    have hchanges : g.type.isMutable = true := by rw [htype, hmutable]
    refine .done .done (d := { c with heap := c.heap.perform (.global x.addr (.val v)) })
      ?_ (.global hmutable hv) ?_ ?_ (written_of_perform rfl hx (written_global _ hchanges hfits))
    · simp only [Store.perform, hset]
      rfl
    · simp only [Store.log, hset, hv]
      rfl
    · simp only [Store.perform, hset]
      rfl

/-- The bytes are within the memory that is there, or nothing is written. -/
theorem hostWrites_bytes {x : Memory} {offset : Nat} {bs : List UInt8} (hc : s.contents = some c)
    (hheld : c.heap.Holds x.addr (.memory x.type)) :
    s.HostWrites c world (.writeMemory x offset bs) := by
  cases hwrite : x.write s offset bs with
  | error e =>
    refine .refused (e := e) ?_ ?_ ?_ <;> simp only [Store.perform, Store.log, hwrite] <;> rfl
  | ok t =>
    obtain ⟨c', _, hc', hfits, rfl⟩ := writeMemory_ok hwrite
    obtain rfl := Option.some.inj (hc.symm.trans hc')
    obtain ⟨o, ho, _⟩ := hheld
    have hx := thing?_of_memory ho
    rw [ho] at hfits
    refine .done .done
      (d := { c with heap := c.heap.perform (.bytes x.addr offset bs) })
      ?_ .bytes ?_ ?_ (written_of_perform rfl hx (written_bytes _ hfits))
    · simp only [Store.perform, hwrite]
      rfl
    · simp only [Store.log, hwrite]
    · simp only [Store.perform, hwrite]
      rfl

theorem hostWrites_pages {x : Memory} {delta : Nat} (hc : s.contents = some c) :
    s.HostWrites c world (.growMemory x delta) := by
  cases hgrow : x.grow s delta with
  | error e =>
    refine .refused (e := e) ?_ ?_ ?_ <;> simp only [Store.perform, Store.log, hgrow] <;> rfl
  | ok grown =>
    obtain ⟨c', o, _, hc', ho, hadmits, hprevious, hstore⟩ := growMemory_ok hgrow
    obtain rfl := Option.some.inj (hc.symm.trans hc')
    have hx := thing?_of_memory ho
    refine .done (.number grown.1)
      (d := { c with heap := c.heap.perform (.growMemory x.addr delta) })
      ?_ .pages ?_ ?_ (written_of_perform rfl hx (written_pages hadmits))
    · simp only [Store.perform, hgrow]
      rfl
    · simp only [Store.log, hgrow]
    · simp only [Store.perform, hgrow]
      exact hstore

end Writing

end WasmEmbed
