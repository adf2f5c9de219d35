import WasmEmbed.Proofs.Instance.Numbering
import WasmEmbed.Proofs.Module.Memories
import WasmEmbed.Proofs.Realm.Keeping

/-! Link errors that show a difference. What is reported of an import and of its definition are the
descriptions of two different types, and of the types that come up in a run no two have one
description, since the only thing that descriptions leave out is the same for all of them. -/
namespace WasmEmbed
open WasmEmbed.Code
variable {σ : Type} {history : List (Event σ)} {r : Realm σ} {m : Module} {imports : Imports σ}
  {x : Item} {d : Definition σ} {missing mismatched : List String}

section Narrow

/-- What is compiled has no memory with wide addresses. -/
theorem compileBytes_narrow {features : Features} {bytes : List UInt8} {a : Artifact}
    (h : Module.compileBytes features bytes = .ok a) : a.Narrow := by
  unfold Module.compileBytes at h
  split at h
  · rename_i b hcompile
    obtain ⟨b', hread, hcheck⟩ := except_bind_ok hcompile
    obtain ⟨_, _, hb⟩ := except_bind_ok hcheck
    rw [← Except.ok.inj h, ← Except.ok.inj hb]
    exact Binary.readModule_narrow hread
  · contradiction

theorem narrow_of_run (hr : Run history r) (hm : m ∈ history.filterMap Event.module?) :
    m.artifact.Narrow := by
  obtain ⟨e, src, he, hload⟩ := loaded_of_run hr m hm
  obtain ⟨bytes, a, ha, rfl⟩ := load_compiled he hload
  exact compileBytes_narrow ha

theorem imports_narrow (hr : Run history r) (hm : m ∈ history.filterMap Event.module?) :
    ∀ i ∈ m.imports, i.type.narrow = i.type := by
  rw [(valid_of_run hr m hm).imports]
  exact importTypes_narrow (narrow_of_run hr hm)

theorem exports_narrow (hr : Run history r) (hm : m ∈ history.filterMap Event.module?) :
    ∀ e ∈ m.exports, e.type.narrow = e.type := by
  rw [declares_of_run hr m hm]
  exact exportTypes_narrow (narrow_of_run hr hm)

/-- Handles tell the types that the module declares, none of which is wide. -/
theorem handles_narrow {a : Artifact} (ha : a.Narrow) {ref : StoreRef} {id : Nat} {l : Link}
    {y : String × Item} (hy : y ∈ Instance.handles ref id a l) : y.2.type.narrow = y.2.type := by
  obtain ⟨j, hj, rfl⟩ := List.mem_mapIdx.mp hy
  dsimp only
  rw [Item.type_ofType]
  exact externType_narrow ha _ _

/-- The types that handles tell are those that modules declare. A new handle is an export of the
module that the instance is made of. -/
theorem given_narrow (hr : Run history r) (hx : x.Given history) : x.type.narrow = x.type := by
  induction hr generalizing x with
  | start world =>
    obtain ⟨i, hi, _⟩ := hx
    exact absurd hi List.not_mem_nil
  | elsewhere before world ih => exact ih hx
  | @request history r before q given ih =>
    rcases given_request before given hx with hold | ⟨u, i, state, rfl, ha, y, hy, hfresh⟩
    · exact ih hold
    · rw [← (fresh_eq hfresh).2.2]
      cases hs : r.store? x.store.id with
      | none =>
        rw [perform_use_missing hs] at ha
        contradiction
      | some s =>
        rw [perform_use hs] at ha
        have hresult := (Answer.reply.inj ha).1
        rcases reply_cases hresult with ⟨j, hj, ⟨m, imports, rfl⟩, _⟩ | ⟨j, name, _, hj⟩ | hplain
        · obtain ⟨_, _, l, hexports⟩ := create_made (create_of_reply hresult)
          rw [hexports] at hy
          exact handles_narrow (narrow_of_run before given.2.1) hy
        · contradiction
        · exact False.elim hplain

theorem definition_narrow (hr : Run history r) (hd : d.Given history) : d.type.narrow = d.type := by
  cases d with
  | host f => rfl
  | item x => exact given_narrow hr hd

end Narrow

section Reports

/-- An entry is of an import and of the definition under its names, if that has another type. -/
theorem mem_mistyped_iff {is : List ImportType} {p : ImportType × ExternType} :
    p ∈ imports.mistyped is ↔ ∃ i ∈ is, ∃ d, imports.get? i.module i.name = some d ∧
      d.type ≠ i.type ∧ p = (i, d.type) := by
  rw [Imports.mistyped, List.mem_filterMap]
  refine exists_congr fun i => and_congr_right fun _ => ?_
  rw [Option.bind_eq_some_iff]
  refine exists_congr fun d => and_congr_right fun _ => ?_
  split
  · rename_i htype
    exact ⟨fun h => by contradiction, fun h => absurd htype h.1⟩
  · rename_i htype
    exact ⟨fun h => ⟨htype, (Option.some.inj h).symm⟩, fun h => congrArg some h.2.symm⟩

/-- The mismatches of a link error are those of a module and of a table that the host had. Only an
attempt that linking refuses ends with a link error. -/
theorem mismatched_of_run (hr : Run history r) {id : Nat} {state : Option FuncState}
    (he : (⟨.use id (.instantiate m imports), .reply (.error (.link missing mismatched)) state⟩ :
      Event σ) ∈ history) :
    ∃ before r₀, Run before r₀ ∧ (Use.instantiate m imports).Given before ∧
      mismatched = (imports.mistyped m.imports).map fun p => Imports.mismatch p.1 p.2 := by
  obtain ⟨before, after, hsplit⟩ := List.append_of_mem he
  obtain ⟨r₀, hr₀, given, ha⟩ := run_split hr before after hsplit
  refine ⟨before, r₀, hr₀, given.2, ?_⟩
  dsimp only at ha
  cases hs : r₀.store? id with
  | none =>
    rw [perform_use_missing hs] at ha
    contradiction
  | some s =>
    obtain ⟨hmem, rfl⟩ := store?_eq_some hs
    have hattempt := create_attempt (consistent_of_run hr₀) hmem m imports
    generalize r₀.perform (.use s.id (.instantiate m imports)) = out at ha hattempt
    cases hattempt with
    | unlinked _ _ _ _ =>
      obtain ⟨_, rfl⟩ := Error.link.inj (Except.error.inj (Answer.reply.inj ha).1)
      rfl
    | failed _ _ _ _ hrefusal _ _ =>
      rw [← Except.error.inj (Answer.reply.inj ha).1] at hrefusal
      contradiction
    | made _ _ _ _ _ _ _ => nomatch (Answer.reply.inj ha).1
    | _ => nomatch Except.error.inj (Answer.reply.inj ha).1

end Reports

/-- Descriptions tell types apart up to whether the addresses of memories are wide, and the texts of
signatures tell all signatures apart. In every run, no module and no handle has the type of a memory
with wide addresses; and each entry about a wrong type in a link error is about an import of the
module and the definition that stands under its names, and shows two descriptions that differ. -/
theorem mismatches_show_difference (hr : Run history r) :
    (∀ t u : ExternType, t.describe = u.describe ↔ t.narrow = u.narrow) ∧
    (∀ t u : FuncType, t.text = u.text ↔ t = u) ∧
    (∀ m ∈ history.filterMap Event.module?, (∀ i ∈ m.imports, i.type.narrow = i.type) ∧
      ∀ e ∈ m.exports, e.type.narrow = e.type) ∧
    (∀ x : Item, x.Given history → x.type.narrow = x.type) ∧
    ∀ id m imports missing mismatched state,
      (⟨.use id (.instantiate m imports), .reply (.error (.link missing mismatched)) state⟩ :
        Event σ) ∈ history →
      ∀ entry ∈ mismatched, ∃ i ∈ m.imports, ∃ d, imports.get? i.module i.name = some d ∧
        entry = i.path ++ " (expected " ++ i.type.describe ++ ", found " ++ d.type.describe ++ ")" ∧
        i.type.describe ≠ d.type.describe := by
  refine ⟨fun t u => describe_eq_iff, fun t u => ⟨signature_injective, congrArg FuncType.text⟩,
    fun m hm => ⟨imports_narrow hr hm, exports_narrow hr hm⟩, fun x => given_narrow hr, ?_⟩
  intro id m imports missing mismatched state he entry hentry
  obtain ⟨before, r₀, hr₀, given, rfl⟩ := mismatched_of_run hr he
  obtain ⟨p, hp, rfl⟩ := List.mem_map.mp hentry
  obtain ⟨i, hi, d, hd, htype, rfl⟩ := mem_mistyped_iff.mp hp
  refine ⟨i, hi, d, hd, rfl, fun hsame => ?_⟩
  obtain ⟨e, hdefined, rfl⟩ := mem_of_get? hd
  rw [describe_eq_iff, imports_narrow hr₀ given.1 i hi,
    definition_narrow hr₀ (given.2 e hdefined)] at hsame
  exact htype hsame.symm

/-- The bytes of a module that imports a memory. -/
def needyBytes : List UInt8 :=
  [0, 97, 115, 109, 1, 0, 0, 0, 2, 8, 1, 1, 97, 1, 98, 2, 0, 1]

def needyModule : Module where
  engine := 0
  artifact := { imports := [⟨"a", "b", .memory ⟨1, none, false⟩⟩] }
  exports := []
  imports := [⟨"a", "b", .memory ⟨1, none, false⟩⟩]
  contentHash := SipHash.contentDigest needyBytes

/-- A table with a function where the memory should be. -/
def unfitImports : Imports Unit :=
  Imports.insert {} "a" "b" (.host ⟨⟨[], []⟩, fun _ world => (.ok [], world)⟩)

def unfitHistory : List (Event Unit) :=
  [⟨.newEngine {}, .reply (.ok (.engine 0)) none⟩,
    ⟨.newStore 0 {}, .reply (.ok (.store 1)) none⟩,
    ⟨.compile 0 (.bytes needyBytes), .reply (.ok (.module needyModule)) none⟩,
    ⟨.use 1 (.instantiate needyModule unfitImports), .reply (.error
      (.link [] ["a::b (expected memory 1..None, found function () -> ())"])) none⟩]

theorem run_unfit : ∃ r, Run unfitHistory r := by
  have hengine : Run (unfitHistory.take 1) _ := (Run.start ()).request (.newEngine {}) trivial
  have hopened : Run (unfitHistory.take 2) _ :=
    hengine.request (.newStore 0 {}) List.mem_cons_self
  have hcompiled : Run (unfitHistory.take 3) _ :=
    hopened.request (.compile 0 (.bytes needyBytes)) List.mem_cons_self
  have hmodule : needyModule ∈ (unfitHistory.take 3).filterMap Event.module? :=
    List.mem_filterMap.mpr ⟨(unfitHistory.take 3)[2], List.getElem_mem _, rfl⟩
  have hrefused : Run unfitHistory _ :=
    hcompiled.request (.use 1 (.instantiate needyModule unfitImports))
      ⟨List.mem_cons_self, hmodule, fun e he => by rw [List.mem_singleton.mp he]; trivial⟩
  exact ⟨_, hrefused⟩

/-- What is wanted and what is found are told by two descriptions that differ. -/
theorem memory_wanted_function_found : ∃ r, Run unfitHistory r ∧
    ∃ i ∈ needyModule.imports, ∃ d, unfitImports.get? i.module i.name = some d ∧
      "a::b (expected memory 1..None, found function () -> ())" =
        i.path ++ " (expected " ++ i.type.describe ++ ", found " ++ d.type.describe ++ ")" ∧
      i.type.describe ≠ d.type.describe := by
  obtain ⟨r, hr⟩ := run_unfit
  obtain ⟨_, _, _, _, hentries⟩ := mismatches_show_difference hr
  exact ⟨r, hr, hentries 1 needyModule unfitImports [] _ none (List.getElem_mem (n := 3) (by decide)) _
    List.mem_cons_self⟩

end WasmEmbed
