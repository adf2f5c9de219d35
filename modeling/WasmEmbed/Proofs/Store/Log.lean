import WasmEmbed.Proofs.Instance.Stages
import WasmEmbed.Proofs.Machine.Log

/-! The writes of a use. Whatever is done with a store, what it leaves of the heap is the heap that was
there, perhaps with a new instance beside it, after writes that can be told beforehand. -/
namespace WasmEmbed
open WasmEmbed.Code
variable {σ : Type}

/-- The writes of making an instance: those of its segments, and of its start function if they all
fit. -/
def Resources.makeLog (r : Resources σ) (bulkMemory : Bool) (maxFrames : Nat) (a : Artifact)
    (imported : Link) : List Write :=
  match r.heap.allocate a imported with
  | .error _ => []
  | .ok (heap, addr) =>
    let r := { r with heap }
    let l := heap.link addr
    match if bulkMemory then .ok () else heap.checkSegments a l with
    | .error _ => []
    | .ok () =>
      r.copyLog a l ++
        match r.copyActive a l, a.start with
        | (none, r), some i => r.log maxFrames (l.funcs.getD i 0) []
        | _, _ => []

namespace Instance

/-- The writes of making an instance with linked imports. -/
def buildLog (s : Store σ) (c : Contents σ) (world : σ) (m : Module) (ds : List (Definition σ)) :
    List Write :=
  let (heap, imported) := c.heap.provideAll {} ds
  ({ c.resources world with heap }).makeLog s.config.bulkMemory s.maxFrames m.artifact imported

/-- The writes of an attempt to make an instance: none if it is refused. -/
def log (s : Store σ) (world : σ) (m : Module) (imports : Imports σ) : List Write :=
  match s.ref with
  | .error _ => []
  | .ok _ =>
    if m.engine ≠ s.engine then []
    else
      match imports.resolve s.id m with
      | .error _ => []
      | .ok ds =>
        match s.live with
        | .error _ => []
        | .ok c => buildLog s c world m ds

end Instance

/-- The writes of a call. -/
def Func.log {α : Type} (convert : α → ValType → Position → Nat → Except Error Val) (f : Func)
    (s : Store σ) (world : σ) (args : List α) : List Write :=
  match s.live, f.prepare s args convert with
  | .ok c, .ok vs => (c.resources world).log s.maxFrames f.addr (vs.map .val)
  | _, _ => []

namespace Store

/-- The writes of a use. -/
def log (s : Store σ) (world : σ) : Use σ → List Write
  | .instantiate m imports => Instance.log s world m imports
  | .call f args => f.log coerce s world args
  | .callTyped f args => f.log checkType s world args
  | .setGlobal g value =>
    match g.set s value with
    | .ok _ =>
      (coerce value g.type.content .global 0).toOption.toList.map fun v => .global g.addr (.val v)
    | .error _ => []
  | .writeMemory m offset bytes =>
    match m.write s offset bytes with
    | .ok _ => [.bytes m.addr offset bytes]
    | .error _ => []
  | .growMemory m delta =>
    match m.grow s delta with
    | .ok _ => [.growMemory m.addr delta]
    | .error _ => []
  | _ => []

end Store

variable {s t : Store σ} {c d : Contents σ} {world : σ} {u : Use σ} {kind : ExternKind}
  {addr : Nat}

section Making
variable {r : Resources σ} {bulkMemory : Bool} {maxFrames : Nat} {a : Artifact} {imported : Link}

theorem instantiate_heap (r : Resources σ) (bulkMemory : Bool) (maxFrames : Nat) (a : Artifact)
    (imported : Link) : ∃ h, r.heap.Adjoins h ∧
      (r.instantiate bulkMemory maxFrames a imported).2.heap =
        h.performAll (r.makeLog bulkMemory maxFrames a imported) := by
  unfold Resources.instantiate Resources.makeLog
  cases halloc : r.heap.allocate a imported with
  | error e => exact ⟨r.heap, adjoins_refl r.heap, rfl⟩
  | ok p =>
    obtain ⟨heap, addr⟩ := p
    refine ⟨heap, adjoins_allocate halloc, ?_⟩
    dsimp only
    cases (if bulkMemory then .ok () else heap.checkSegments a (heap.link addr) :
      Except Error Unit) with
    | error e => rfl
    | ok _ =>
      have hcopied := copyActive_heap { r with heap } a (heap.link addr)
      dsimp only
      rw [performAll_append, ← hcopied]
      cases Resources.copyActive { r with heap } a (heap.link addr) with
      | mk failed copied =>
        cases failed with
        | some code => rfl
        | none =>
          cases a.start with
          | none => rfl
          | some i => exact call_heap copied maxFrames ((heap.link addr).funcs.getD i 0) []

theorem build_heap (s : Store σ) (ref : StoreRef) (c : Contents σ) (world : σ) (m : Module)
    (ds : List (Definition σ)) : ∃ d h,
      (Instance.build s ref c world m ds).store = s.withContents d ∧ c.heap.Adjoins h ∧
        d.heap = h.performAll (Instance.buildLog s c world m ds) := by
  have hprovided := adjoins_provideAll c.heap {} ds
  unfold Instance.buildLog
  cases hlinked : c.heap.provideAll {} ds with
  | mk heap imported =>
    rw [hlinked] at hprovided
    obtain ⟨h, hadjoins, hleft⟩ := instantiate_heap (Resources.mk heap c.fuel world)
      s.config.bulkMemory s.maxFrames m.artifact imported
    cases hout : Resources.instantiate (Resources.mk heap c.fuel world) s.config.bulkMemory
      s.maxFrames m.artifact imported with
    | mk result after =>
      obtain ⟨d, hstore, hheap, _⟩ := build_made s ref c world m ds hlinked hout
      rw [hout] at hleft
      exact ⟨d, h, hstore, adjoins_trans hprovided hadjoins, hheap.trans hleft⟩

/-- The checks are those of the attempt itself, in its order. -/
theorem create_heap {m : Module} {imports : Imports σ}
    (hd : (Instance.create s world m imports).store.contents = some d) :
    ∃ c h, s.contents = some c ∧ c.heap.Adjoins h ∧
      d.heap = h.performAll (Instance.log s world m imports) := by
  have hrefused (hsame : s.contents = some d) :
      ∃ c h, s.contents = some c ∧ c.heap.Adjoins h ∧ d.heap = h.performAll [] :=
    ⟨d, d.heap, hsame, adjoins_refl d.heap, rfl⟩
  unfold Instance.create at hd
  unfold Instance.log
  cases href : s.ref with
  | error e =>
    rw [href] at hd
    exact hrefused hd
  | ok ref =>
    rw [href] at hd
    dsimp only at hd ⊢
    by_cases hm : m.engine ≠ s.engine
    · rw [if_pos hm] at hd ⊢
      exact hrefused hd
    · rw [if_neg hm] at hd ⊢
      cases hds : imports.resolve s.id m with
      | error e =>
        rw [hds] at hd
        exact hrefused hd
      | ok ds =>
        rw [hds] at hd
        cases hlive : s.live with
        | error e =>
          rw [hlive] at hd
          exact hrefused hd
        | ok c =>
          rw [hlive] at hd
          obtain ⟨d', h, hstore, hadjoins, hleft⟩ := build_heap s ref c world m ds
          dsimp only at hd
          rw [hstore] at hd
          rw [← Option.some.inj hd]
          exact ⟨c, h, live_ok hlive, hadjoins, hleft⟩

end Making

section Using

theorem callWith_heap {α : Type} (convert : α → ValType → Position → Nat → Except Error Val)
    {f : Func} {args : List α} (hd : (f.callWith convert s world args).store.contents = some d) :
    ∃ c, s.contents = some c ∧ d.heap = c.heap.performAll (f.log convert s world args) := by
  unfold Func.log
  rcases callWith_cases convert f s args with ⟨e, hp, hrefused⟩ | ⟨c, vs, hc, hp, hrun⟩
  · rw [hrefused] at hd
    refine ⟨d, hd, ?_⟩
    rw [hp]
    cases s.live <;> rfl
  · obtain ⟨d', hstore, hleft, _⟩ := run_store f s c world vs
    rw [hrun, hstore] at hd
    rw [← Option.some.inj hd, hp]
    have hheap := call_heap (c.resources world) s.maxFrames f.addr (vs.map .val)
    rw [← hleft] at hheap
    rw [live_of_contents hc]
    exact ⟨c, hc, hheap⟩

/-- A use leaves the heap that there was, with its writes, and beside it what it may have added. -/
theorem perform_log (hd : (s.perform world u).store.contents = some d) :
    ∃ c h, s.contents = some c ∧ c.heap.Adjoins h ∧ d.heap = h.performAll (s.log world u) := by
  have hplain (h : ∃ c, s.contents = some c ∧ d.heap = c.heap.performAll (s.log world u)) :
      ∃ c h, s.contents = some c ∧ c.heap.Adjoins h ∧ d.heap = h.performAll (s.log world u) := by
    obtain ⟨c, hc, hheap⟩ := h
    exact ⟨c, c.heap, hc, adjoins_refl c.heap, hheap⟩
  cases u with
  | instantiate m imports => exact create_heap hd
  | call f args => exact hplain (callWith_heap coerce hd)
  | callTyped f args => exact hplain (callWith_heap checkType hd)
  | setGlobal g value =>
    apply hplain
    have hd : (s.update world ((g.set s value).map fun s => (.done, s))).store.contents = some d := hd
    unfold Store.log
    dsimp only
    cases hset : g.set s value with
    | error e =>
      rw [hset] at hd
      exact ⟨d, hd, rfl⟩
    | ok t =>
      rw [hset] at hd
      obtain ⟨c, v, _, hc, _, hv, rfl⟩ := setGlobal_ok hset
      dsimp only
      rw [hv, ← Option.some.inj hd]
      exact ⟨c, hc, rfl⟩
  | writeMemory m offset bytes =>
    apply hplain
    have hd : (s.update world ((m.write s offset bytes).map fun s => (.done, s))).store.contents =
      some d := hd
    unfold Store.log
    dsimp only
    cases hwrite : m.write s offset bytes with
    | error e =>
      rw [hwrite] at hd
      exact ⟨d, hd, rfl⟩
    | ok t =>
      rw [hwrite] at hd
      obtain ⟨c, _, hc, _, rfl⟩ := writeMemory_ok hwrite
      rw [← Option.some.inj hd]
      exact ⟨c, hc, rfl⟩
  | growMemory m delta =>
    apply hplain
    have hd : (s.update world ((m.grow s delta).map fun p => (.number p.1, p.2))).store.contents =
      some d := hd
    unfold Store.log
    dsimp only
    cases hgrow : m.grow s delta with
    | error e =>
      rw [hgrow] at hd
      exact ⟨d, hd, rfl⟩
    | ok p =>
      rw [hgrow] at hd
      obtain ⟨c, o, _, hc, _, _, _, hstore⟩ := growMemory_ok hgrow
      have hd : p.2.contents = some d := hd
      rw [hstore] at hd
      rw [← Option.some.inj hd]
      exact ⟨c, hc, rfl⟩
  | setFuel amount =>
    apply hplain
    have hd : (s.update world ((s.setFuel amount).map fun s => (.done, s))).store.contents =
      some d := hd
    cases hset : s.setFuel amount with
    | error e =>
      rw [hset] at hd
      exact ⟨d, hd, rfl⟩
    | ok t =>
      rw [hset] at hd
      obtain ⟨c, hc, rfl⟩ := setFuel_ok hset
      rw [← Option.some.inj hd]
      exact ⟨c, hc, rfl⟩
  | destroy => contradiction
  | _ => exact hplain ⟨d, hd, rfl⟩

/-- What becomes of a thing by a use is told by those of the writes that are to it. -/
theorem thing?_perform_use {t : Thing σ} (hc : s.contents = some c)
    (hd : (s.perform world u).store.contents = some d) (ht : c.heap.thing? kind addr = some t) :
    d.heap.thing? kind addr = some (t.replay c.heap.limit kind addr (s.log world u)) := by
  obtain ⟨c', h, hc', hadjoins, hheap⟩ := perform_log hd
  obtain rfl := Option.some.inj (hc.symm.trans hc')
  rw [hheap, thing?_performAll (hadjoins.2 kind addr t ht), hadjoins.1]

end Using

end WasmEmbed
