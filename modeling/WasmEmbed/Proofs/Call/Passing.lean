import WasmEmbed.Proofs.Store.Use

/-! What passes between code and the host. Values leave a store as they are, and a reference to a
function does not leave it; the answer of a host function gets in as it is, or not at all. -/
namespace WasmEmbed
variable {σ : Type} {position : Position} {i : Nat} {os operands : List Operand}
  {vs ws : List Val} {e : Error}

/-- What is handed out of operands at a place: all of them as values, or none for the first that is a
reference to a function. -/
inductive Handed (position : Position) : List Operand → Except Error (List Val) → Prop where
  | all (vs : List Val) : Handed position (vs.map .val) (.ok vs)
  | kept (before : List Val) (addr : Nat) (rest : List Operand) :
    Handed position (before.map .val ++ .func addr :: rest) (.error (.type position before.length
      "null reference" "non-null reference to a function"))

section Leave

/-- Operands are all values of the host, or some first one is a reference to a function. -/
theorem vals_or_func (os : List Operand) : (∃ vs : List Val, os = vs.map .val) ∨
    ∃ (before : List Val) (addr : Nat) (rest : List Operand),
      os = before.map .val ++ .func addr :: rest := by
  induction os with
  | nil => exact Or.inl ⟨[], rfl⟩
  | cons o os ih =>
    cases o with
    | func addr => exact Or.inr ⟨[], addr, os, rfl⟩
    | val v =>
      rcases ih with ⟨vs, rfl⟩ | ⟨before, addr, rest, rfl⟩
      · exact Or.inl ⟨v :: vs, rfl⟩
      · exact Or.inr ⟨v :: before, addr, rest, rfl⟩

theorem leaveAll_vals (position : Position) (i : Nat) (vs : List Val) :
    leaveAll position i (vs.map .val) = .ok vs := by
  induction vs generalizing i with
  | nil => rfl
  | cons v vs ih =>
    rw [List.map_cons, leaveAll, ih]
    rfl

/-- The place is counted from where the list begins, not from the first value of it. -/
theorem leaveAll_kept (position : Position) (i : Nat) (before : List Val) (addr : Nat)
    (rest : List Operand) :
    leaveAll position i (before.map .val ++ .func addr :: rest) = .error (.type position
      (i + before.length) "null reference" "non-null reference to a function") := by
  induction before generalizing i with
  | nil => rfl
  | cons v before ih =>
    have hplace : i + 1 + before.length = i + (v :: before).length := by
      rw [List.length_cons]
      omega
    rw [List.map_cons, List.cons_append, leaveAll, ih, hplace]
    rfl

/-- Operands are handed to the host one by one, up to the first that it may not have. -/
theorem handed_leaveAll (position : Position) (os : List Operand) :
    Handed position os (leaveAll position 0 os) := by
  rcases vals_or_func os with ⟨vs, rfl⟩ | ⟨before, addr, rest, rfl⟩
  · rw [leaveAll_vals]
    exact .all vs
  · rw [leaveAll_kept, Nat.zero_add]
    exact .kept before addr rest

theorem leaveAll_ok (h : leaveAll position i os = .ok ws) : os = ws.map .val := by
  rcases vals_or_func os with ⟨vs, rfl⟩ | ⟨before, addr, rest, rfl⟩
  · rw [leaveAll_vals] at h
    rw [Except.ok.inj h]
  · rw [leaveAll_kept] at h
    contradiction

theorem leaveAll_error (h : leaveAll position i os = .error e) :
    ∃ index expected got, e = .type position index expected got := by
  rcases vals_or_func os with ⟨vs, rfl⟩ | ⟨before, addr, rest, rfl⟩
  · rw [leaveAll_vals] at h
    contradiction
  · rw [leaveAll_kept] at h
    exact ⟨_, _, _, (Except.error.inj h).symm⟩

/-- What is handed over keeps its types. -/
theorem types_of_handed (h : Handed position os (.ok vs)) :
    vs.map Val.type = os.map Operand.type := by
  generalize hresult : Except.ok vs = result at h
  cases h with
  | all ws =>
    rw [Except.ok.inj hresult, List.map_map]
    rfl
  | kept before addr rest => contradiction

end Leave

section Host
variable {f : HostFunc σ} {w : σ}

theorem checkType_type (v : Val) (position : Position) (i : Nat) :
    checkType v v.type position i = .ok v := if_pos rfl

theorem checkTypes_types (position : Position) (i : Nat) (vs : List Val) :
    checkTypes position i vs (vs.map Val.type) = .ok vs := by
  induction vs generalizing i with
  | nil => rfl
  | cons v vs ih =>
    rw [List.map_cons, checkTypes, checkType_type, ih]
    rfl

/-- Results that pass are of the declared types and pass as they are. -/
theorem checkTypes_ok {ts : List ValType} (hlength : vs.length = ts.length)
    (hok : checkTypes position i vs ts = .ok ws) : ws = vs ∧ vs.map Val.type = ts := by
  induction vs generalizing i ts ws with
  | nil =>
    rw [List.length_eq_zero_iff.mp hlength.symm]
    exact ⟨(Except.ok.inj hok).symm, rfl⟩
  | cons v vs ih =>
    cases ts with
    | nil => exact absurd hlength (by simp)
    | cons t ts =>
      obtain ⟨v', hv, hok⟩ := except_bind_ok hok
      obtain ⟨ws', hrest, hok⟩ := except_bind_ok hok
      obtain ⟨hsame, htypes⟩ := ih (Nat.succ.inj hlength) hrest
      unfold checkType at hv
      split at hv
      · rename_i htype
        rw [← Except.ok.inj hok, ← Except.ok.inj hv, hsame, List.map_cons, htype, htypes]
        exact ⟨rfl, rfl⟩
      · contradiction

/-- The answer of the host counts just if it is of the types that its function declares, and then as
it is. -/
theorem host_call_ok_iff : (f.call operands w).1 = .ok ws ↔ ∃ vs : List Val,
    operands = vs.map .val ∧ (f.callback vs w).1 = .ok ws ∧ ws.map Val.type = f.type.results := by
  unfold HostFunc.call
  constructor
  · intro hcall
    rcases vals_or_func operands with ⟨vs, rfl⟩ | ⟨before, addr, rest, rfl⟩
    · refine ⟨vs, rfl, ?_⟩
      rw [leaveAll_vals] at hcall
      dsimp only at hcall
      split at hcall
      · contradiction
      · rename_i returned after hout
        split at hcall
        · contradiction
        · rename_i hlength
          obtain ⟨rfl, htypes⟩ := checkTypes_ok (Decidable.not_not.mp hlength) hcall
          rw [hout]
          exact ⟨rfl, htypes⟩
    · -- not even the arguments get to the host
      rw [leaveAll_kept] at hcall
      contradiction
  · rintro ⟨vs, rfl, hback, htypes⟩
    have hlength : ws.length = f.type.results.length := by rw [← htypes, List.length_map]
    rw [leaveAll_vals]
    cases hout : f.callback vs w with
    | mk answer after =>
      rw [hout] at hback
      have hanswer : answer = .ok ws := hback
      subst hanswer
      dsimp only
      rw [hout]
      dsimp only
      rw [if_neg (Decidable.not_not.mpr hlength), ← htypes, checkTypes_types]

/-- A host function whose callback fails has failed with that error. -/
theorem host_call_of_callback (hargs : leaveAll .argument 0 operands = .ok vs)
    (hfails : (f.callback vs w).1 = .error e) : (f.call operands w).1 = .error e := by
  unfold HostFunc.call
  rw [hargs]
  dsimp only
  cases hout : f.callback vs w with
  | mk answer after =>
    rw [hout] at hfails
    have hanswer : answer = .error e := hfails
    subst hanswer
    rfl

end Host

end WasmEmbed
