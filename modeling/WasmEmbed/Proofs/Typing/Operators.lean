import WasmEmbed.Proofs.Typing.Promises

/-! What operators give. The result of an operator is of the type that validation takes it to be,
whatever the operands are. -/
namespace WasmEmbed
open WasmEmbed.Code

theorem type_int (w : Width) (n : BitVec w.bits) : (w.int n).type = w.intType := by
  cases w <;> rfl

theorem type_float (w : Width) (n : Nat) : (w.float n).type = w.floatType := by
  cases w <;> rfl

/-- A numeric operator gives a number of its result type, whatever it is applied to. -/
theorem type_numEval {op : NumOp} {args : List Val} {v : Val} (h : op.eval args = .ok v) :
    v.type = op.result := by
  cases op with
  | intUnary w op =>
    rw [← Except.ok.inj h]
    exact type_int w _
  | intBinary w op =>
    obtain ⟨n, _, rfl⟩ := except_map_ok_iff.mp h
    exact type_int w n
  | floatUnary w op =>
    rw [← Except.ok.inj h]
    exact type_float w _
  | floatBinary w op =>
    rw [← Except.ok.inj h]
    exact type_float w _
  | truncate target source signed =>
    unfold NumOp.eval at h
    dsimp only at h
    split at h
    · contradiction
    · split at h
      · rw [← Except.ok.inj h]
        exact type_int target _
      · contradiction
  | truncateSat target source signed =>
    rw [← Except.ok.inj h]
    exact type_int target _
  | convert target source signed =>
    rw [← Except.ok.inj h]
    exact type_float target _
  | reinterpretInt w =>
    rw [← Except.ok.inj h]
    exact type_float w _
  | reinterpretFloat w =>
    rw [← Except.ok.inj h]
    exact type_int w _
  | _ =>
    rw [← Except.ok.inj h]
    rfl

theorem type_vecEval (op : VecOp) (args : List Val) : (op.eval args).type = op.result := by
  cases op with
  | bitwise op => cases op <;> rfl
  | extractLane l signed index => cases l <;> rfl
  | _ => rfl

end WasmEmbed
