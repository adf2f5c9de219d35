import WasmEmbed.Proofs.Store.Frame
import WasmEmbed.Proofs.Store.Sharing

/-! Memories that the host writes to and makes larger. Main statements: what ranges of bytes are
accepted, and what is left of a memory by writing to one (`ranges_of_held`), and what numbers of pages
are, and what they leave (`growth_of_held`). -/
namespace WasmEmbed
variable {σ : Type}

/-- The bytes are the old ones, but for new ones from an offset on. -/
structure Sparse.Overwritten (old : Sparse UInt8) (offset : Nat) (bs : List UInt8)
    (new : Sparse UInt8) : Prop where
  size : new.size = old.size
  inside : ∀ (i : Nat) (h : i < bs.length), new.get (offset + i) = bs[i]
  outside : ∀ i, i < offset ∨ offset + bs.length ≤ i → new.get i = old.get i

/-- The bytes are the old ones, and zeros after them. -/
structure Sparse.Lengthened (old : Sparse UInt8) (added : Nat) (new : Sparse UInt8) : Prop where
  size : new.size = old.size + added
  kept : ∀ i < old.size, new.get i = old.get i
  zero : ∀ i, old.size ≤ i → i < new.size → new.get i = 0

/-- So many pages are more than the type allows, or than any memory may have, or than a limit on bytes
leaves room for. -/
def MemoryType.Exceeded (t : MemoryType) (limit : Option Nat) (pages : Nat) : Prop :=
  (∃ n ∈ t.maximum, n < pages) ∨ 65536 < pages ∨ ∃ l ∈ limit, l < pages * 65536

/-- The handle's memory has so many pages and these bytes. Ranges are accepted just if they end within
the bytes; what is refused changes neither the store nor the reader's buffer, and what is written
changes these bytes alone. -/
structure Memory.Ranges (x : Memory) (s : Store σ) (pages : Nat) (bytes : Sparse UInt8) : Prop where
  read : ∀ world offset len, s.perform world (.readMemory x offset len) =
    ⟨if offset + len ≤ bytes.size then .ok (.bytes (bytes.slice offset len))
      else .error (.outOfBounds offset len bytes.size), none, s, world⟩
  buffer : ∀ offset buffer, x.readInto s offset buffer =
    if offset + buffer.length ≤ bytes.size then (.ok (), bytes.slice offset buffer.length)
    else (.error (.outOfBounds offset buffer.length bytes.size), buffer)
  refused : ∀ world offset bs, bytes.size < offset + bs.length →
    s.perform world (.writeMemory x offset bs) =
      ⟨.error (.outOfBounds offset bs.length bytes.size), none, s, world⟩
  written : ∀ world offset bs, offset + bs.length ≤ bytes.size → ∃ t new,
    s.perform world (.writeMemory x offset bs) = ⟨.ok .done, none, t, world⟩ ∧
      s.SameBut t .memory x.addr ∧ t.SharesMemory x.addr pages new ∧
      bytes.Overwritten offset bs new

/-- The handle's memory of so many pages, in a store with a limit on bytes. It grows just if the pages
are not too many, and then by zeros alone; to grow by a sum is to grow by one part and then by the
other. -/
structure Memory.Growth (x : Memory) (s : Store σ) (limit : Option Nat) (pages : Nat)
    (bytes : Sparse UInt8) : Prop where
  refused : ∀ world delta, x.type.Exceeded limit (pages + delta) →
    s.perform world (.growMemory x delta) =
      ⟨.error (.resource ("Memory '" ++ x.name ++ "' cannot grow: failed to grow memory by `" ++
        toString delta ++ "`")), none, s, world⟩
  grown : ∀ world delta, ¬ x.type.Exceeded limit (pages + delta) → ∃ t new,
    s.perform world (.growMemory x delta) = ⟨.ok (.number pages), none, t, world⟩ ∧
      s.SameBut t .memory x.addr ∧ t.SharesMemory x.addr (pages + delta) new ∧
      bytes.Lengthened (65536 * delta) new
  parts : ∀ world a b, (s.perform world (.growMemory x (a + b))).result.isOk = true → ∃ t,
    s.perform world (.growMemory x a) = ⟨.ok (.number pages), none, t, world⟩ ∧
      t.perform world (.growMemory x b) = ⟨.ok (.number (pages + a)), none,
        (s.perform world (.growMemory x (a + b))).store, world⟩

variable {s : Store σ} {c : Contents σ} {x : Memory} {limit : Option Nat} {pages offset delta : Nat}
  {bytes : Sparse UInt8} {bs : List UInt8} {type : MemoryType}

section Bytes

theorem overwritten_write (h : offset + bs.length ≤ bytes.size) :
    bytes.Overwritten offset bs (bytes.write offset bs) where
  size := Sparse.size_write bytes offset bs
  inside := by
    intro i hi
    have hwithin : offset ≤ offset + i ∧ offset + i < offset + bs.length := by omega
    rw [Sparse.get_write bytes offset bs h, if_pos hwithin, Nat.add_sub_cancel_left,
      List.getElem?_eq_getElem hi]
    rfl
  outside := by
    intro i hi
    have hbeyond : ¬ (offset ≤ i ∧ i < offset + bs.length) := by omega
    rw [Sparse.get_write bytes offset bs h, if_neg hbeyond]

theorem lengthened_grow (bytes : Sparse UInt8) (added : Nat) :
    bytes.Lengthened added (bytes.grow added) where
  size := Sparse.size_grow bytes added
  kept := by
    intro i _
    exact Sparse.get_grow bytes added i
  zero := by
    intro i hbehind _
    rw [Sparse.get_grow]
    exact Sparse.get_of_size_le bytes i hbehind

theorem sparse_grow_grow (bytes : Sparse UInt8) (a b : Nat) :
    (bytes.grow a).grow b = bytes.grow (a + b) := by
  unfold Sparse.grow
  simp only [Nat.add_assoc]

end Bytes

section Limits

/-- A size is refused for one of these reasons just if it is not admitted. -/
theorem exceeded_iff (t : MemoryType) (limit : Option Nat) (pages : Nat) :
    t.Exceeded limit pages ↔ ¬ t.Admits limit pages := by
  unfold MemoryType.Exceeded MemoryType.Admits
  have hmaximum : (∀ n ∈ t.maximum, pages ≤ n) ↔ ¬ ∃ n ∈ t.maximum, n < pages := by
    push Not
    exact Iff.rfl
  have hpages : pages ≤ maxPages ↔ ¬ 65536 < pages := Nat.not_lt.symm
  have hlimit : (∀ l ∈ limit, pages * pageSize ≤ l) ↔ ¬ ∃ l ∈ limit, l < pages * 65536 := by
    push Not
    exact Iff.rfl
  rw [hmaximum, hpages, hlimit, not_and_or, not_and_or, not_not, not_not, not_not]

theorem admits_mono {less : Nat} (hle : less ≤ pages) (h : type.Admits limit pages) :
    type.Admits limit less := by
  obtain ⟨hmaximum, hpages, hlimit⟩ := h
  refine ⟨?_, Nat.le_trans hle hpages, ?_⟩
  · intro n hn
    exact Nat.le_trans hle (hmaximum n hn)
  · intro l hl
    exact Nat.le_trans (Nat.mul_le_mul_right pageSize hle) (hlimit l hl)

end Limits

section Growing

/-- A memory that can grow by a sum can grow by its parts, one after the other. -/
theorem grow?_add {o : MemoryObj limit} {a b : Nat}
    (h : o.type.Admits limit (o.pages + (a + b))) :
    ∃ k, o.grow? a = some k ∧ k.type = o.type ∧ k.pages = o.pages + a ∧
      k.grow? b = o.grow? (a + b) := by
  have hfirst : o.type.Admits limit (o.pages + a) := admits_mono (by omega) h
  have hsecond : (o.lengthen a hfirst).type.Admits limit ((o.lengthen a hfirst).pages + b) := by
    change o.type.Admits limit (o.pages + a + b)
    rwa [Nat.add_assoc]
  refine ⟨o.lengthen a hfirst, (o.grow?_eq a).trans (dif_pos hfirst), rfl, rfl, ?_⟩
  rw [MemoryObj.grow?_eq, MemoryObj.grow?_eq, dif_pos hsecond, dif_pos h]
  apply congrArg some
  apply MemoryObj.ext
  · rfl
  · exact Nat.add_assoc _ _ _
  · change (o.bytes.grow (a * pageSize)).grow (b * pageSize) = o.bytes.grow ((a + b) * pageSize)
    rw [sparse_grow_grow, Nat.add_mul]

theorem modify_modify {α : Type} {xs : Array α} {i : Nat} {y : α} {f g k : α → α}
    (hy : xs[i]? = some y) (h : g (f y) = k y) : (xs.modify i f).modify i g = xs.modify i k := by
  apply Array.ext_getElem?
  intro j
  rw [Array.getElem?_modify, Array.getElem?_modify, Array.getElem?_modify]
  by_cases hj : i = j
  · subst hj
    rw [if_pos rfl, if_pos rfl, if_pos rfl, hy]
    exact congrArg some h
  · rw [if_neg hj, if_neg hj, if_neg hj]

/-- Growing twice is growing by the sum, as far as that is admitted. -/
theorem perform_grow_grow {h : Heap σ} {addr a b : Nat} {o : MemoryObj h.limit}
    (ho : h.memories[addr]? = some o) (hadmits : o.type.Admits h.limit (o.pages + (a + b))) :
    (h.perform (.growMemory addr a)).perform (.growMemory addr b) =
      h.perform (.growMemory addr (a + b)) := by
  obtain ⟨k, hk, _, _, hboth⟩ := grow?_add hadmits
  have hgrown : (o.grow? (a + b)).isSome := by
    rw [MemoryObj.grow?_eq, dif_pos hadmits]
    rfl
  have hmemories : (h.memories.modify addr fun m => (m.grow? a).getD m).modify addr
        (fun m => (m.grow? b).getD m) =
      h.memories.modify addr fun m => (m.grow? (a + b)).getD m := by
    apply modify_modify ho
    obtain ⟨l, hl⟩ := Option.isSome_iff_exists.mp hgrown
    rw [hl] at hboth
    rw [hk, hl, Option.getD_some, hboth]
    rfl
  exact congrArg (fun memories => { h with memories }) hmemories

end Growing

section Held
variable {o : MemoryObj c.heap.limit}

/-- Bytes are written if their range is within the memory, and nothing else matters. -/
theorem write_held (hstore : x.store.id = s.id) (hc : s.contents = some c)
    (ho : c.heap.memories[x.addr]? = some o) (offset : Nat) (bs : List UInt8) :
    x.write s offset bs = if offset + bs.length ≤ o.bytes.size then
        .ok (s.withContents { c with heap := c.heap.perform (.bytes x.addr offset bs) })
      else .error (.outOfBounds offset bs.length o.bytes.size) := by
  rw [Memory.write, find_live hstore hc ho]
  exact checked_range o offset bs.length (s.withContents _)

/-- A memory grows if the size is admitted, and nothing else matters. -/
theorem grow_held (hstore : x.store.id = s.id) (hc : s.contents = some c)
    (ho : c.heap.memories[x.addr]? = some o) (delta : Nat) :
    x.grow s delta = if o.type.Admits c.heap.limit (o.pages + delta) then
        .ok (o.pages,
          s.withContents { c with heap := c.heap.perform (.growMemory x.addr delta) })
      else .error (.resource ("Memory '" ++ x.name ++ "' cannot grow: failed to grow memory by `"
        ++ toString delta ++ "`")) := by
  rw [Memory.grow, find_live hstore hc ho]
  dsimp only [bind, Except.bind, Option.bind]
  rw [MemoryObj.grow?_eq]
  by_cases hadmits : o.type.Admits c.heap.limit (o.pages + delta)
  · rw [dif_pos hadmits, if_pos hadmits]
    rfl
  · rw [dif_neg hadmits, if_neg hadmits]
    rfl

/-- Growing in two parts is growing by the sum, since the memory is there again after the first
part. -/
theorem grow_grow {a b : Nat} (hstore : x.store.id = s.id) (hc : s.contents = some c)
    (ho : c.heap.memories[x.addr]? = some o)
    (hadmits : o.type.Admits c.heap.limit (o.pages + (a + b))) :
    ∃ t, x.grow s a = .ok (o.pages, t) ∧ x.grow t b = .ok (o.pages + a,
      s.withContents { c with heap := c.heap.perform (.growMemory x.addr (a + b)) }) := by
  have hfirst : o.type.Admits c.heap.limit (o.pages + a) := admits_mono (by omega) hadmits
  obtain ⟨k, hk, htype, hpages, _⟩ := grow?_add hadmits
  have hthere : (c.heap.perform (.growMemory x.addr a)).memories[x.addr]? = some k := by
    change (c.heap.memories.modify x.addr fun m => (m.grow? a).getD m)[x.addr]? = some k
    rw [Array.getElem?_modify, if_pos rfl, ho, Option.map_some, hk]
    rfl
  have hsecond : k.type.Admits c.heap.limit (k.pages + b) := by
    rw [htype, hpages, Nat.add_assoc]
    exact hadmits
  refine ⟨_, (grow_held hstore hc ho a).trans (if_pos hfirst), ?_⟩
  have hdone := (grow_held (s := s.withContents _)
    (c := { c with heap := c.heap.perform (.growMemory x.addr a) }) hstore rfl hthere b).trans
      (if_pos hsecond)
  rw [hpages, perform_grow_grow ho hadmits] at hdone
  exact hdone

/-- What handles read of a memory once something was written to it is what the write made of it. -/
theorem sharesMemory_written {w : Write} {addr : Nat} (s : Store σ)
    (ho : c.heap.memories[addr]? = some o) (hw : w.target = some (.memory, addr))
    (htake : (Thing.memory (σ := σ) o.type o.pages o.bytes).take c.heap.limit w =
      .memory type pages bytes) :
    (s.withContents { c with heap := c.heap.perform w }).SharesMemory addr pages bytes := by
  have hthing := thing?_perform_target (h := c.heap) hw
  rw [thing?_of_memory ho, Option.map_some, htake] at hthing
  exact store_sharesMemory rfl hthing

/-- Reading and writing a memory accept just the ranges within it. -/
theorem ranges_of_held (hstore : x.store.id = s.id) (hc : s.contents = some c)
    (ho : c.heap.memories[x.addr]? = some o) : x.Ranges s o.pages o.bytes where
  read := by
    intro world offset len
    have hread := (store_sharesMemory hc (thing?_of_memory ho)).read x hstore rfl offset len
    simp only [Store.perform, Store.observe, hread]
    split <;> rfl
  buffer := by
    intro offset buffer
    have hread := (store_sharesMemory hc (thing?_of_memory ho)).read x hstore rfl offset buffer.length
    rw [Memory.readInto, hread]
    by_cases hfits : offset + buffer.length ≤ o.bytes.size
    · rw [if_pos hfits, if_pos hfits]
    · rw [if_neg hfits, if_neg hfits]
  refused := by
    intro world offset bs hbeyond
    have hrefused := write_held hstore hc ho offset bs
    rw [if_neg (Nat.not_le.mpr hbeyond)] at hrefused
    exact update_refused hrefused world
  written := by
    intro world offset bs hfits
    have hdone := write_held hstore hc ho offset bs
    rw [if_pos hfits] at hdone
    refine ⟨s.withContents { c with heap := c.heap.perform (.bytes x.addr offset bs) },
      o.bytes.write offset bs, ?_, ?_, ?_, ?_⟩
    · exact update_done hdone world
    · exact sameBut_withContents hc rfl
    · exact sharesMemory_written s ho rfl rfl
    · exact overwritten_write hfits

/-- A memory that is there grows, at once or in parts, exactly as far as its type and the limit admit. -/
theorem growth_of_held (hstore : x.store.id = s.id) (hc : s.contents = some c)
    (ho : c.heap.memories[x.addr]? = some o) (htype : o.type = x.type) :
    x.Growth s c.heap.limit o.pages o.bytes where
  refused := by
    intro world delta hexceeded
    have hnot : ¬ o.type.Admits c.heap.limit (o.pages + delta) := by
      rw [htype]
      exact (exceeded_iff _ _ _).mp hexceeded
    have hrefused := grow_held hstore hc ho delta
    rw [if_neg hnot] at hrefused
    exact update_refused hrefused world
  grown := by
    intro world delta hfits
    have hadmits : o.type.Admits c.heap.limit (o.pages + delta) := by
      rw [exceeded_iff, not_not, ← htype] at hfits
      exact hfits
    have hdone := grow_held hstore hc ho delta
    rw [if_pos hadmits] at hdone
    refine ⟨s.withContents { c with heap := c.heap.perform (.growMemory x.addr delta) },
      o.bytes.grow (65536 * delta), ?_, ?_, ?_, ?_⟩
    · exact update_done hdone world
    · exact sameBut_withContents hc rfl
    · apply sharesMemory_written s ho rfl
      rw [Nat.mul_comm]
      exact if_pos hadmits
    · exact lengthened_grow o.bytes (65536 * delta)
  parts := by
    intro world a b hok
    have hsum := grow_held hstore hc ho (a + b)
    have hadmits : o.type.Admits c.heap.limit (o.pages + (a + b)) := by
      by_contra hnot
      rw [if_neg hnot] at hsum
      have hrefused : s.perform world (.growMemory x (a + b)) = _ := update_refused hsum world
      rw [hrefused] at hok
      contradiction
    rw [if_pos hadmits] at hsum
    obtain ⟨t, hfirst, hsecond⟩ := grow_grow hstore hc ho hadmits
    have hboth : s.perform world (.growMemory x (a + b)) = _ := update_done hsum world
    refine ⟨t, update_done hfirst world, ?_⟩
    rw [hboth]
    exact update_done hsecond world

end Held

end WasmEmbed
