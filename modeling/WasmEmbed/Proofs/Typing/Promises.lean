import WasmEmbed.Module
import WasmEmbed.Proofs.Store.Use

/-! What the validation of modules promises to whoever runs them: exports exist and have different
names, a start function takes and gives nothing, every function has a body, and every body is well
typed. -/
namespace WasmEmbed
open WasmEmbed.Code
open WasmEmbed.Typing (Scope)
open WasmEmbed.Binary (Fault)

/-- The types of the things of a kind, by index. -/
def Code.Artifact.typesOf (a : Artifact) : ExternKind → List ExternType
  | .function => a.allFuncs.map fun i => .func (a.typeAt i)
  | .table => a.allTables.map .table
  | .memory => a.allMemories.map .memory
  | .global => a.allGlobals.map .global

/-- What a valid module keeps to. -/
structure Code.Artifact.Valid (a : Artifact) : Prop where
  bodies : a.funcs.length = a.bodies.length
  exports : ∀ e ∈ a.exports, e.index < (a.typesOf e.kind).length
  names : (a.exports.map (·.name)).Nodup
  start : ∀ i, a.start = some i → (a.typesOf .function)[i]? = some (.func ⟨[], []⟩)
  checked : ∃ features, ∀ p ∈ a.funcs.zip a.bodies,
    Typing.body (Typing.scopeOf features a) (a.typeAt p.1) p.2 = .ok ()

theorem lookup_ok {α : Type} {what : String} {xs : List α} {i : Nat} {x : α}
    (h : Scope.lookup what xs i = .ok x) : xs[i]? = some x := by
  unfold Scope.lookup at h
  split at h
  · rename_i y hy
    rw [hy, Except.ok.inj h]
  · contradiction

section Module
variable {features : Features} {a : Artifact}

theorem unrepeated_ok {names : List String} {k : Unit → Except Fault Unit}
    (h : (match names with
      | s :: _ => throw (Fault.duplicateExport s) >>= k
      | [] => k ()) = .ok ()) : names = [] ∧ k () = .ok () := by
  split at h
  · contradiction
  · exact ⟨rfl, h⟩

/-- Names among which none is repeated differ. -/
theorem nodup_of_repeated {names : List String} (h : Typing.repeated names = []) : names.Nodup := by
  induction names with
  | nil => exact List.nodup_nil
  | cons s rest ih =>
    rw [Typing.repeated] at h
    split at h
    · contradiction
    · rename_i hnew
      rw [List.contains_iff_mem] at hnew
      exact List.nodup_cons.mpr ⟨hnew, ih h⟩

theorem start_ok {start : Option Nat} {c : Scope} {k : Unit → Except Fault Unit}
    (h : (match start with
      | some i => c.func i >>= fun t =>
        if t ≠ FuncType.mk [] [] then throw Fault.typeMismatch >>= k else k ()
      | none => k ()) = .ok ()) :
    (∀ i, start = some i → c.funcs[i]? = some ⟨[], []⟩) ∧ k () = .ok () := by
  split at h
  · rename_i i
    obtain ⟨t, ht, h⟩ := except_bind_ok h
    obtain ⟨htype, h⟩ := except_guard_ok h
    refine ⟨fun j hj => ?_, h⟩
    rw [← Option.some.inj hj, lookup_ok ht, Decidable.not_not.mp htype]
  · exact ⟨fun i hi => by contradiction, h⟩

theorem lookup_lt {α : Type} {what : String} {xs : List α} {i : Nat} {x : α}
    (h : Scope.lookup what xs i = .ok x) : i < xs.length :=
  (List.getElem?_eq_some_iff.mp (lookup_ok h)).1

/-- An export has the index of something of its kind. -/
theorem exists_of_lookups {e : Export} {c : Scope} (hc : c = Typing.scopeOf features a)
    (h : (match e.kind with
      | .function => c.func e.index >>= fun _ => pure ()
      | .table => c.table e.index >>= fun _ => pure ()
      | .memory => c.memory e.index >>= fun _ => pure ()
      | .global => Scope.lookup "global" c.globals e.index >>= fun _ => pure ()) = .ok ()) :
    e.index < (a.typesOf e.kind).length := by
  subst hc
  obtain ⟨name, kind, index⟩ := e
  cases kind with
  | function =>
    obtain ⟨_, hfound, _⟩ := except_bind_ok h
    simpa [Artifact.typesOf, Typing.scopeOf] using lookup_lt hfound
  | table =>
    obtain ⟨_, hfound, _⟩ := except_bind_ok h
    obtain ⟨t, ht, _⟩ := except_map_ok_iff.mp hfound
    simpa [Artifact.typesOf, Typing.scopeOf] using lookup_lt ht
  | memory =>
    obtain ⟨_, hfound, _⟩ := except_bind_ok h
    simpa [Artifact.typesOf, Typing.scopeOf] using lookup_lt hfound
  | global =>
    obtain ⟨_, hfound, _⟩ := except_bind_ok h
    simpa [Artifact.typesOf, Typing.scopeOf] using lookup_lt hfound

/-- A module that is accepted has exports that exist and have different names, a start function that
takes and gives nothing, and bodies of their types. -/
theorem checkModule_ok (h : Typing.checkModule features a = .ok ()) :
    (∀ e ∈ a.exports, e.index < (a.typesOf e.kind).length) ∧ (a.exports.map (·.name)).Nodup ∧
      (∀ i, a.start = some i → (Typing.scopeOf features a).funcs[i]? = some ⟨[], []⟩) ∧
      ∀ p ∈ a.funcs.zip a.bodies, Typing.body (Typing.scopeOf features a) (a.typeAt p.1) p.2 = .ok () := by
  obtain ⟨_, _, h⟩ := except_bind_ok h
  obtain ⟨_, _, h⟩ := except_bind_ok h
  obtain ⟨_, _, h⟩ := except_bind_ok h
  obtain ⟨_, _, h⟩ := except_bind_ok h
  obtain ⟨_, _, h⟩ := except_bind_ok h
  replace h := except_check_ok (except_check_ok (except_check_ok h))
  obtain ⟨_, _, h⟩ := except_bind_ok h
  obtain ⟨hnames, h⟩ := unrepeated_ok h
  obtain ⟨_, hexports, h⟩ := except_bind_ok h
  obtain ⟨hstart, h⟩ := start_ok h
  obtain ⟨_, _, h⟩ := except_bind_ok h
  obtain ⟨_, _, h⟩ := except_bind_ok h
  obtain ⟨_, hbodies, _⟩ := except_bind_ok h
  refine ⟨?_, nodup_of_repeated hnames, hstart, ?_⟩
  · intro e he
    exact exists_of_lookups rfl (except_forM_ok hexports e he)
  · intro p hp
    have hround := except_forIn_ok (fun x s hs => ?_) hbodies p hp
    · obtain ⟨_, hbody, _⟩ := except_bind_ok (except_guard_ok hround).2
      exact hbody
    · obtain ⟨_, _, hs⟩ := except_bind_ok (except_guard_ok hs).2
      exact (Except.ok.inj hs).symm

theorem counted_ok {count : Option Nat} {length : Nat} {k : Unit → Except Fault Artifact}
    (h : (match count with
      | some n =>
        if (n != length) = true then
          throw (Fault.inconsistent "data count and data section") >>= k
        else k ()
      | none => k ()) = .ok a) : k () = .ok a := by
  split at h
  · exact (except_guard_ok h).2
  · exact h

/-- A module that is read has a body for each function. -/
theorem readModule_ok {bs : List UInt8} {referenceTypes : Bool}
    (h : Binary.readModule referenceTypes bs = .ok a) : a.funcs.length = a.bodies.length := by
  obtain ⟨_, _, h⟩ := except_bind_ok h
  replace h := (except_guard_ok (except_guard_ok h).2).2
  obtain ⟨⟨b, _⟩, _, h⟩ := except_bind_ok h
  obtain ⟨hlength, h⟩ := except_guard_ok h
  rw [← Except.ok.inj (counted_ok h)]
  simpa using hlength

/-- What is compiled keeps the promises of validation. -/
theorem compile_valid {bs : List UInt8} (h : Typing.compile features bs = .ok a) : a.Valid := by
  obtain ⟨b, hread, h⟩ := except_bind_ok h
  obtain ⟨_, hcheck, h⟩ := except_bind_ok h
  obtain rfl := Except.ok.inj h
  obtain ⟨hexports, hnames, hstart, hbodies⟩ := checkModule_ok hcheck
  refine ⟨readModule_ok hread, hexports, hnames, fun i hi => ?_, features, hbodies⟩
  have htypes : (b.typesOf .function) = (Typing.scopeOf features b).funcs.map .func :=
    List.map_map.symm
  rw [htypes, List.getElem?_map, hstart i hi]
  rfl

end Module

end WasmEmbed
