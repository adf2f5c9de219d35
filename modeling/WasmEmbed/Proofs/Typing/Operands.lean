import WasmEmbed.Proofs.Typing.Promises

/-! Operands whose types are all known. From such operands validation comes to such operands again,
unless a jump comes between, so that it says of all code that is reached what is on the stack. -/
namespace WasmEmbed
open WasmEmbed.Code
open WasmEmbed.Typing (Scope)

/-- Operands of these types, last pushed first, and nothing below. -/
def Typing.Operands.ofTypes (ts : List ValType) : Typing.Operands := ⟨ts.map some, false⟩

/-- The code takes operands of the types `ts`, last pushed first, to exactly these results. -/
def Typing.Scope.Runs (c : Scope) (is : List Instr) (ts results : List ValType) : Prop :=
  ∃ s, Typing.instrs c is (.ofTypes ts) = .ok s ∧ Typing.closed results s = .ok ()

variable {c : Scope} {ts ps rs : List ValType} {t : ValType} {u : Option ValType}
  {s : Typing.Operands} {i : Instr} {rest : List Instr}

section Known
open Typing.Operands (ofTypes)

theorem pop_ofTypes (h : (ofTypes ts).pop = .ok (u, s)) :
    ∃ t below, ts = t :: below ∧ u = some t ∧ s = ofTypes below := by
  cases ts with
  | nil => contradiction
  | cons t below =>
    obtain ⟨hu, hs⟩ := Prod.mk.inj (Except.ok.inj h)
    exact ⟨t, below, rfl, hu.symm, hs.symm⟩

/-- An operand of a type can be taken if it is on top. -/
theorem popOf_ofTypes (h : (ofTypes ts).popOf t = .ok s) :
    ∃ below, ts = t :: below ∧ s = ofTypes below := by
  obtain ⟨⟨u, s'⟩, hpop, h⟩ := except_bind_ok h
  obtain ⟨t', below, rfl, rfl, rfl⟩ := pop_ofTypes hpop
  dsimp only at h
  split at h
  · rename_i htype
    rw [← htype]
    exact ⟨below, rfl, (Except.ok.inj h).symm⟩
  · contradiction

/-- The last of the types is on top, so they come off in reverse. -/
theorem popAll_ofTypes (h : (ofTypes ts).popAll ps = .ok s) :
    ∃ below, ts = ps.reverse ++ below ∧ s = ofTypes below := by
  unfold Typing.Operands.popAll at h
  generalize ps.reverse = qs at h
  induction qs generalizing ts with
  | nil => exact ⟨ts, rfl, (Except.ok.inj h).symm⟩
  | cons q qs ih =>
    rw [List.foldlM_cons] at h
    obtain ⟨_, hpop, h⟩ := except_bind_ok h
    obtain ⟨below, rfl, rfl⟩ := popOf_ofTypes hpop
    obtain ⟨below, rfl, hs⟩ := ih h
    exact ⟨below, rfl, hs⟩

theorem pushAll_ofTypes (ts rs : List ValType) :
    (ofTypes ts).pushAll rs = ofTypes (rs.reverse ++ ts) := by
  unfold Typing.Operands.pushAll
  induction rs generalizing ts with
  | nil => rfl
  | cons r rs ih =>
    rw [List.foldl_cons, List.reverse_cons, List.append_assoc]
    exact ih (r :: ts)

/-- Taking and giving leaves what is below. -/
theorem apply_ofTypes (h : Typing.apply (ofTypes ts) ps rs = .ok s) :
    ∃ below, ts = ps.reverse ++ below ∧ s = ofTypes (rs.reverse ++ below) := by
  obtain ⟨_, hpop, h⟩ := except_bind_ok h
  obtain ⟨below, rfl, rfl⟩ := popAll_ofTypes hpop
  refine ⟨below, rfl, ?_⟩
  rw [← pushAll_ofTypes]
  exact (Except.ok.inj h).symm

/-- A block that closes leaves just its results. -/
theorem closed_ofTypes (h : Typing.closed rs (ofTypes ts) = .ok ()) : ts = rs.reverse := by
  obtain ⟨_, hpop, h⟩ := except_bind_ok h
  obtain ⟨below, rfl, rfl⟩ := popAll_ofTypes hpop
  cases below with
  | nil => exact List.append_nil _
  | cons t below => contradiction

/-- Wherever a table of jumps leads, the operands are there that the jump takes. Beyond the table is
the default, which was taken off last; the others were only looked at. -/
theorem brTable_ofTypes {depths : List Nat} {default : Nat}
    (h : Typing.plain c (.brTable depths default) (ofTypes ts) = .ok s) :
    ∃ below, ts = .i32 :: below ∧ ∀ j, ∃ types under,
      c.label (depths.getD j default) = .ok types ∧ below = types.reverse ++ under := by
  obtain ⟨_, hpop, h⟩ := except_bind_ok h
  obtain ⟨below, rfl, rfl⟩ := popOf_ofTypes hpop
  obtain ⟨types, ht, h⟩ := except_bind_ok h
  obtain ⟨_, hothers, h⟩ := except_bind_ok h
  obtain ⟨_, htypes, _⟩ := except_bind_ok h
  refine ⟨below, rfl, fun j => ?_⟩
  rw [List.getD_eq_getElem?_getD]
  cases hj : depths[j]? with
  | none =>
    obtain ⟨under, hunder, _⟩ := popAll_ofTypes htypes
    exact ⟨types, under, ht, hunder⟩
  | some depth =>
    have hround := except_forIn_ok (fun x step hstep => ?_) hothers depth (List.mem_of_getElem? hj)
    · obtain ⟨others, hlabel, hround⟩ := except_bind_ok hround
      obtain ⟨_, hpopped, _⟩ := except_bind_ok (except_guard_ok hround).2
      obtain ⟨under, hunder, _⟩ := popAll_ofTypes hpopped
      exact ⟨others, under, hlabel, hunder⟩
    · -- no round ends the loop
      obtain ⟨_, _, hstep⟩ := except_bind_ok hstep
      obtain ⟨_, _, hstep⟩ := except_bind_ok (except_guard_ok hstep).2
      exact (Except.ok.inj hstep).symm

end Known

section Code

/-- At its end, code has exactly its results. -/
theorem runs_nil (h : c.Runs [] ts rs) : ts = rs.reverse := by
  obtain ⟨s, hs, hclosed⟩ := h
  rw [← Except.ok.inj hs] at hclosed
  exact closed_ofTypes hclosed

/-- Code runs if its first instruction does, and the rest on what that leaves. -/
theorem runs_cons (h : c.Runs (i :: rest) ts rs) :
    ∃ s, Typing.instr c i (.ofTypes ts) = .ok s ∧
      ∀ ts', s = .ofTypes ts' → c.Runs rest ts' rs := by
  obtain ⟨s, hs, hclosed⟩ := h
  obtain ⟨s', hi, hrest⟩ := except_bind_ok hs
  refine ⟨s', hi, fun ts' hts' => ?_⟩
  rw [hts'] at hrest
  exact ⟨s, hrest, hclosed⟩

theorem runs_of_closed {body : List Instr} (labels : List (List ValType)) {inner : Typing.Operands}
    (hbody : Typing.instrs { c with labels } body
      ((⟨[], false⟩ : Typing.Operands).pushAll ps) = .ok inner)
    (hclosed : Typing.closed rs inner = .ok ()) : { c with labels }.Runs body ps.reverse rs := by
  have hstart : (⟨[], false⟩ : Typing.Operands).pushAll ps = .ofTypes ps.reverse := by
    rw [← List.append_nil ps.reverse]
    exact pushAll_ofTypes [] ps
  rw [hstart] at hbody
  exact ⟨inner, hbody, hclosed⟩

/-- A block takes its parameters and gives its results, and its body runs on the parameters alone. What a
jump to it takes differs between blocks and loops. -/
theorem block_ofTypes (jump : FuncType → List ValType) {type : BlockType}
    {body : List Instr}
    (h : (do
      let t ← c.block type
      let below ← (Typing.Operands.ofTypes ts).popAll t.params
      let inner ← Typing.instrs { c with labels := jump t :: c.labels } body
        ((⟨[], false⟩ : Typing.Operands).pushAll t.params)
      Typing.closed t.results inner
      return below.pushAll t.results) = .ok s) :
    ∃ t below, c.block type = .ok t ∧ ts = t.params.reverse ++ below ∧
      s = .ofTypes (t.results.reverse ++ below) ∧
      { c with labels := jump t :: c.labels }.Runs body t.params.reverse t.results := by
  obtain ⟨t, ht, h⟩ := except_bind_ok h
  obtain ⟨_, hpop, h⟩ := except_bind_ok h
  obtain ⟨below, hstack, rfl⟩ := popAll_ofTypes hpop
  obtain ⟨inner, hbody, h⟩ := except_bind_ok h
  obtain ⟨_, hclosed, h⟩ := except_bind_ok h
  refine ⟨t, below, ht, hstack, ?_, runs_of_closed _ hbody hclosed⟩
  rw [← Except.ok.inj h, pushAll_ofTypes]

/-- The body of a function starts without operands. -/
theorem runs_of_body {type : FuncType} {b : Body} (h : Typing.body c type b = .ok ()) :
    { c with locals := type.params ++ b.locals, results := type.results,
             labels := [type.results] }.Runs b.code [] type.results := by
  obtain ⟨_, _, h⟩ := except_bind_ok h
  obtain ⟨s, hcode, hclosed⟩ := except_bind_ok h
  exact ⟨s, hcode, hclosed⟩

end Code

end WasmEmbed
