import WasmEmbed.Proofs.Heap.Typed

/-! Code in a heap. What a function may refer to in its instance is what validation went by, and goes
on being it, so that the code is and stays well typed. -/
namespace WasmEmbed
open WasmEmbed.Code
open WasmEmbed.Typing (Scope)
variable {σ : Type}

/-- The types of the things of a kind that code may refer to, by index. -/
def Typing.Scope.typesOf (c : Scope) : ExternKind → List ExternType
  | .function => c.funcs.map .func
  | .table => c.tables.map .table
  | .memory => c.memories.map .memory
  | .global => c.globals.map .global

/-- All that code may refer to is there in the instance at a place, with the types that it has for
validation. -/
def Heap.Fits (h : Heap σ) (place : Nat) (c : Scope) : Prop :=
  ∃ l, h.links[place]? = some l ∧ l.types = c.types ∧ l.Typed h c.typesOf

/-- The function is well typed in its instance. -/
def Heap.Checks (h : Heap σ) (f : Closure) : Prop :=
  ∃ c b, h.Fits f.link c ∧ Typing.body c f.type b = .ok () ∧ b.locals = f.locals ∧ b.code = f.code

/-- All code is well typed. -/
def Heap.Sound (h : Heap σ) : Prop :=
  ∀ (addr : Nat) (f : Closure), h.funcs[addr]? = some (.code f) → h.Checks f

variable {h k : Heap σ} {place addr : Nat} {c : Scope} {f : Closure} {imported : Link} {a : Artifact}

/-- Code that fits a heap fits what the heap grows to. -/
theorem fits_grows (hg : h.Grows k) (hc : h.Fits place c) : k.Fits place c := by
  obtain ⟨l, hl, htypes, htyped⟩ := hc
  obtain ⟨l', hl', hbecomes⟩ := hg.links place l hl
  refine ⟨l', hl', hbecomes.types.trans htypes, fun kind => ?_⟩
  rw [addrs_becomes hbecomes]
  exact (htyped kind).imp fun _ _ => holds_grows hg

theorem checks_grows (hg : h.Grows k) (hf : h.Checks f) : k.Checks f := by
  obtain ⟨c, b, hc, hbody⟩ := hf
  exact ⟨c, b, fits_grows hg hc, hbody⟩

/-- Code that was there stays sound, so only what is new has to be looked at. -/
theorem sound_grows (hg : h.Grows k) (hs : h.Sound)
    (hnew : ∀ (addr : Nat) (f : Closure), k.funcs[addr]? = some (.code f) →
      h.funcs[addr]? = some (.code f) ∨ k.Checks f) : k.Sound := by
  intro addr f hf
  rcases hnew addr f hf with hold | hchecks
  · exact checks_grows hg (hs addr f hold)
  · exact hchecks

/-- No write changes what code was checked against. -/
theorem sound_performAll (hs : h.Sound) (ws : List Write) : (h.performAll ws).Sound := by
  refine sound_grows (grows_performAll h ws) hs fun addr c hc => Or.inl ?_
  rw [Heap.funcs_performAll] at hc
  exact hc

/-- Imports bring functions of the host, and no code. -/
theorem sound_provide (hs : h.Sound) (l : Link) (d : Definition σ) : (h.provide l d).1.Sound := by
  refine sound_grows (grows_provide h l d) hs fun addr c hc => Or.inl ?_
  cases d with
  | host f =>
    have hc : (h.funcs.push (.host f))[addr]? = some (.code c) := hc
    rw [Array.getElem?_push] at hc
    split at hc
    · exact nomatch Option.some.inj hc
    · exact hc
  | item x =>
    cases x with
    | func f => exact hc
    | global g => exact hc
    | memory m => exact hc
    | table t => exact hc

theorem sound_provideAll (hs : h.Sound) (l : Link) (ds : List (Definition σ)) :
    (h.provideAll l ds).1.Sound := by
  induction ds generalizing h l with
  | nil => exact hs
  | cons d rest ih => exact ih (sound_provide hs l d) _

/-- What validation went by is what is there once the module has an instance. -/
theorem fits_typed {l : Link} (features : Features) (hlink : h.links[place]? = some l)
    (htypes : l.types = a.types) (hl : l.Typed h a.typesOf) :
    h.Fits place (Typing.scopeOf features a) := by
  refine ⟨l, hlink, htypes, typed_congr hl fun kind => ?_⟩
  cases kind with
  | function => exact List.map_map.symm
  | table => rfl
  | memory => rfl
  | global => rfl

/-- Code of a valid module fits the heap that its instance was allocated in. -/
theorem sound_allocate (hvalid : a.Valid) (hs : h.Sound)
    (hl : imported.Typed h fun kind => a.importTypes.flatMap fun i => i.type.ofKind kind)
    (halloc : h.allocate a imported = .ok (k, addr)) : k.Sound := by
  obtain ⟨l, hlink, htypes, htyped⟩ := typed_allocate hvalid hl halloc
  obtain ⟨features, hchecked⟩ := hvalid.checked
  refine sound_grows (grows_allocate halloc) hs ?_
  intro at_ f hf
  rcases allocate_func halloc hf with hold | ⟨j, f', hf', hcode⟩
  · exact Or.inl hold
  · -- a function that the module defines
    right
    obtain rfl := FuncObj.code.inj hcode
    obtain ⟨p, hp, htype, hbody, hlocals, hown⟩ := closures_get hf'
    refine ⟨Typing.scopeOf features a, p.2, ?_, ?_, hlocals.symm, hbody.symm⟩
    · rw [hown]
      exact fits_typed features hlink htypes htyped
    · rw [htype]
      exact hchecked p (List.mem_of_getElem? hp)

end WasmEmbed
