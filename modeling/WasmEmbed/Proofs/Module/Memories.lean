import WasmEmbed.Proofs.Text.Types
import WasmEmbed.Proofs.Typing.Promises

/-! No module has a memory with wide addresses. The binary format has a mark for them, but no reader
accepts it, so that all memories that are declared or imported in a run have addresses of 32 bits. -/
namespace WasmEmbed
open WasmEmbed.Code

/-- What the module imports and defines as memories has no wide addresses. -/
structure Code.Artifact.Narrow (a : Artifact) : Prop where
  imports : ∀ i ∈ a.imports, ∀ t, i.desc = .memory t → t.memory64 = false
  memories : ∀ t ∈ a.memories, t.memory64 = false

namespace Binary

/-- Whatever the reader gives has a property. -/
def Gives {α : Type} (x : Reader α) (p : α → Prop) : Prop :=
  ∀ bs a rest, x bs = .ok (a, rest) → p a

section Readers
variable {α β : Type} {x : Reader α} {f : α → Reader β} {p : α → Prop} {r : β → Prop}

theorem gives_pure {a : α} (h : p a) : Gives (pure a) p := by
  intro bs a' rest ha
  obtain ⟨rfl, _⟩ := Prod.mk.inj (Except.ok.inj ha)
  exact h

theorem gives_throw (fault : Fault) : Gives (throw fault : Reader α) p := by
  intro bs a rest h
  contradiction

/-- What holds of all that is read first may be used for what is read then. -/
theorem gives_bind (hx : Gives x p) (hf : ∀ a, p a → Gives (f a) r) : Gives (x >>= f) r := by
  intro bs b rest h
  obtain ⟨⟨a, left⟩, ha, hb⟩ := except_bind_ok h
  exact hf a (hx bs a left ha) left b rest hb

/-- What comes first may be anything. -/
theorem gives_after (hf : ∀ a, Gives (f a) r) : Gives (x >>= f) r :=
  gives_bind (p := fun _ => True) (fun _ _ _ _ => trivial) fun a _ => hf a

/-- What holds of all that is read once holds of each that is read several times. -/
theorem gives_replicate (hx : Gives x p) (n : Nat) : Gives (replicate x n) fun as => ∀ a ∈ as, p a := by
  induction n with
  | zero => exact gives_pure fun a ha => absurd ha List.not_mem_nil
  | succ n ih =>
    refine gives_bind hx fun a ha => gives_bind ih fun as has => gives_pure ?_
    exact List.forall_mem_cons.mpr ⟨ha, has⟩

theorem gives_vector (hx : Gives x p) (limit : Nat) (what : String) :
    Gives (vector x limit what) fun as => ∀ a ∈ as, p a := by
  apply gives_after
  intro n
  dsimp only
  split
  · exact gives_throw _
  · exact gives_replicate hx n

/-- A part with its length in front is read as the part. -/
theorem gives_sized (hx : Gives x p) (what : String) : Gives (sized what x) p := by
  apply gives_after
  intro n
  apply gives_after
  intro bs
  split
  · rename_i a ha
    exact gives_pure (hx bs a [] ha)
  · exact gives_throw _
  · exact gives_throw _

end Readers

section Memories

/-- The reader refuses memories with wide addresses. -/
theorem gives_memoryType : Gives memoryType fun t => t.memory64 = false :=
  gives_after fun _ => gives_pure rfl

theorem gives_importEntry :
    Gives importEntry fun i => ∀ t, i.desc = .memory t → t.memory64 = false := by
  refine gives_after fun module => gives_after fun item => gives_after fun code => ?_
  split
  · exact gives_after fun _ => gives_pure fun _ h => nomatch h
  · exact gives_after fun _ => gives_pure fun _ h => nomatch h
  · refine gives_bind gives_memoryType fun t ht => gives_pure fun u hu => ?_
    rw [← ImportDesc.memory.inj hu]
    exact ht
  · exact gives_after fun _ => gives_pure fun _ h => nomatch h
  · exact gives_throw _

variable {a : Artifact}

theorem gives_customSection (ha : a.Narrow) : Gives (customSection a) Artifact.Narrow := by
  refine gives_after fun title => gives_after fun content => ?_
  dsimp only
  split
  · exact gives_throw _
  · split
    · exact gives_pure ha
    · exact gives_pure ⟨ha.imports, ha.memories⟩

/-- No other section has memories in it, and one that is not known ends the reading. -/
theorem gives_sectionContent (referenceTypes : Bool) (id : UInt8) (ha : a.Narrow) :
    Gives (sectionContent referenceTypes id a) Artifact.Narrow := by
  unfold sectionContent
  split
  · exact gives_after fun _ => gives_pure ⟨ha.imports, ha.memories⟩
  · exact gives_bind (gives_vector gives_importEntry maxItems "imports") fun is his =>
      gives_pure ⟨his, ha.memories⟩
  · exact gives_after fun _ => gives_pure ⟨ha.imports, ha.memories⟩
  · exact gives_after fun _ => gives_pure ⟨ha.imports, ha.memories⟩
  · exact gives_bind (gives_vector gives_memoryType maxStorages "memories") fun ts hts =>
      gives_pure ⟨ha.imports, hts⟩
  all_goals first
    | exact gives_throw _
    | exact gives_after fun _ => gives_pure ⟨ha.imports, ha.memories⟩

/-- By induction on the sections that may be left, each of which is added to a narrow module. -/
theorem gives_sections (referenceTypes : Bool) (fuel last : Nat) (ha : a.Narrow) :
    Gives (sections referenceTypes fuel last a) Artifact.Narrow := by
  induction fuel generalizing last a with
  | zero => exact gives_pure ha
  | succ fuel ih =>
    unfold sections
    apply gives_after
    intro done
    dsimp only
    split
    · exact gives_pure ha
    · apply gives_after
      intro id
      split
      · exact gives_bind (gives_sized (gives_customSection ha) "section") fun b hb => ih last hb
      · split
        · exact gives_throw _
        · split
          · exact gives_throw _
          · exact gives_bind (gives_sized (gives_sectionContent referenceTypes id ha) "section")
              fun b hb => ih _ hb

/-- No module that is read has a memory with wide addresses. -/
theorem readModule_narrow {referenceTypes : Bool} {bs : List UInt8}
    (h : readModule referenceTypes bs = .ok a) : a.Narrow := by
  have hnothing : ({} : Artifact).Narrow :=
    ⟨fun i hi => absurd hi List.not_mem_nil, fun t ht => absurd ht List.not_mem_nil⟩
  obtain ⟨⟨header, rest⟩, _, h⟩ := except_bind_ok h
  obtain ⟨_, h⟩ := except_guard_ok h
  obtain ⟨_, h⟩ := except_guard_ok h
  obtain ⟨⟨b, left⟩, hsections, h⟩ := except_bind_ok h
  obtain ⟨_, h⟩ := except_guard_ok h
  have hb : b.Narrow := gives_sections referenceTypes _ 0 hnothing rest b left hsections
  rwa [← Except.ok.inj (counted_ok h)]

end Memories

end Binary

section Types
variable {a : Artifact}

theorem memory_narrow {t : MemoryType} (h : t.memory64 = false) :
    (ExternType.memory t).narrow = .memory t := by
  rw [ExternType.narrow, ← h]

/-- No module that is read imports a memory with wide addresses. -/
theorem importTypes_narrow (ha : a.Narrow) : ∀ i ∈ a.importTypes, i.type.narrow = i.type := by
  intro i hi
  obtain ⟨j, hj, rfl⟩ := List.mem_map.mp hi
  cases hdesc : j.desc with
  | memory t => exact memory_narrow (ha.imports j hj t hdesc)
  | _ => rfl

theorem allMemories_narrow (ha : a.Narrow) : ∀ t ∈ a.allMemories, t.memory64 = false := by
  intro t ht
  rcases List.mem_append.mp ht with ht | ht
  · obtain ⟨j, hj, hdesc⟩ := List.mem_filterMap.mp ht
    split at hdesc
    · rename_i u hu
      rw [← Option.some.inj hdesc]
      exact ha.imports j hj u hu
    · contradiction
  · exact ha.memories t ht

theorem externType_narrow (ha : a.Narrow) (kind : ExternKind) (i : Nat) :
    (a.externType kind i).narrow = a.externType kind i := by
  cases kind with
  | memory =>
    apply memory_narrow
    rw [List.getD_eq_getElem?_getD]
    cases hfound : a.allMemories[i]? with
    | none => rfl
    | some t => exact allMemories_narrow ha t (List.mem_of_getElem? hfound)
  | _ => rfl

theorem exportTypes_narrow (ha : a.Narrow) : ∀ e ∈ a.exportTypes, e.type.narrow = e.type := by
  intro e he
  obtain ⟨x, _, rfl⟩ := List.mem_map.mp he
  exact externType_narrow ha x.kind x.index

end Types

end WasmEmbed
