import Mathlib.Tactic.FieldSimp
import Mathlib.Tactic.Ring
import Mathlib.Algebra.Order.Field.Rat
import WasmEmbed.Ieee.Basic

/-! The rational number that a pattern denotes, as the format defines it by sign, exponent and
fraction. What decoding gives in integers is that number, so that the integers among the patterns are
told exactly. -/
namespace WasmEmbed.Ieee

/-- The number that a pattern stands for: a sign, a significand that is a fraction of two, and a biased
exponent. Infinities and NaNs, whose exponent field is all ones, stand for none. -/
def Format.value? (f : Format) (bits : Nat) : Option ℚ :=
  let sign : ℚ := if f.isNegative bits then -1 else 1
  let fraction : ℚ := f.fracField bits / 2 ^ f.fracBits
  let bias : ℤ := 2 ^ (f.expBits - 1) - 1
  if f.expField bits = 2 ^ f.expBits - 1 then none
  else if f.expField bits = 0 then some (sign * fraction * 2 ^ (1 - bias))
  else some (sign * (1 + fraction) * 2 ^ (f.expField bits - bias))

/-- The number of a datum. -/
def Datum.value? : Datum → Option ℚ
  | .finite neg mag exp => some ((if neg then -1 else 1) * mag * 2 ^ exp)
  | _ => none

variable {f : Format} {bits mag : Nat} {neg : Bool} {exp n : Int}

section Decode

/-- The exponent of an integral significand is lower by the width of the fraction. -/
theorem fraction_scaled (x : ℚ) (k : ℤ) (width : ℕ) :
    x / 2 ^ width * 2 ^ k = x * (2 : ℚ) ^ (k - width) := by
  have htwo : (2 : ℚ) ≠ 0 := two_ne_zero
  rw [zpow_sub₀ htwo, zpow_natCast]
  ring

/-- The leading one of the significand is written as a part of the fraction. -/
theorem value?_decode (f : Format) (bits : Nat) : (f.decode bits).value? = f.value? bits := by
  unfold Format.decode Format.value? Format.expMask
  dsimp only
  by_cases hspecial : f.expField bits = 2 ^ f.expBits - 1
  · -- all ones in the exponent field: an infinity or a NaN
    rw [if_pos hspecial, if_pos hspecial]
    split
    · rfl
    · rfl
  · rw [if_neg hspecial, if_neg hspecial]
    by_cases hzero : f.expField bits = 0
    · rw [if_pos hzero, if_pos hzero, Datum.value?]
      have hexp : f.minExp = 1 - (2 ^ (f.expBits - 1) - 1) - (f.fracBits : ℤ) := by
        unfold Format.minExp
        ring
      rw [mul_assoc _ (_ / _), fraction_scaled, hexp, mul_assoc]
    · rw [if_neg hzero, if_neg hzero, Datum.value?]
      have hone : 1 ≤ f.expField bits := Nat.one_le_iff_ne_zero.mpr hzero
      have hexp : f.minExp + (f.expField bits - 1 : Nat) =
          f.expField bits - (2 ^ (f.expBits - 1) - 1) - (f.fracBits : ℤ) := by
        unfold Format.minExp
        rw [Nat.cast_sub hone]
        push_cast
        ring
      have hsignificand : (1 + (f.fracField bits : ℚ) / 2 ^ f.fracBits) =
          ((2 ^ f.fracBits + f.fracField bits : ℕ) : ℚ) / 2 ^ f.fracBits := by
        push_cast
        field_simp
      rw [hsignificand, mul_assoc _ (_ / _), fraction_scaled, hexp, mul_assoc]

end Decode

section Integers

/-- A power of two is a quotient of powers with exponents that are not negative. -/
theorem magnitude_quotient (mag : Nat) (exp : Int) :
    (mag : ℚ) * 2 ^ exp = ((mag * 2 ^ exp.toNat : ℕ) : ℚ) / ((2 ^ (-exp).toNat : ℕ) : ℚ) := by
  push_cast
  rcases le_total 0 exp with h | h
  · obtain ⟨k, rfl⟩ := Int.eq_ofNat_of_zero_le h
    have hdown : (-(k : ℤ)).toNat = 0 := by omega
    rw [hdown, Int.toNat_natCast, zpow_natCast, pow_zero, div_one]
  · obtain ⟨k, hk⟩ := Int.eq_ofNat_of_zero_le (Int.neg_nonneg.mpr h)
    have hexp : exp = -(k : ℤ) := by omega
    have hup : exp.toNat = 0 := by omega
    have hdown : (-exp).toNat = k := by omega
    rw [hdown, hup, hexp, zpow_neg, zpow_natCast, pow_zero, mul_one]
    rfl

/-- A quotient of natural numbers is an integer exactly if nothing remains. -/
theorem quotient_eq_iff {a b : Nat} {z : Int} (hb : 0 < b) :
    (a : ℚ) / b = z ↔ a % b = 0 ∧ ((a / b : ℕ) : ℤ) = z := by
  have hb' : (b : ℚ) ≠ 0 := Nat.cast_ne_zero.mpr (Nat.ne_of_gt hb)
  have hpos : (b : ℤ) ≠ 0 := Int.natCast_ne_zero.mpr (Nat.ne_of_gt hb)
  rw [div_eq_iff hb']
  constructor
  · intro h
    have hproduct : (a : ℤ) = z * b := by exact_mod_cast h
    have hdvd : b ∣ a := Int.natCast_dvd_natCast.mp ⟨z, by rw [hproduct, mul_comm]⟩
    refine ⟨Nat.mod_eq_zero_of_dvd hdvd, ?_⟩
    calc ((a / b : ℕ) : ℤ) = z * b / b := by rw [Int.natCast_ediv, hproduct]
      _ = z := Int.mul_ediv_cancel z hpos
  · rintro ⟨hmod, rfl⟩
    have hproduct : a = a / b * b := (Nat.div_mul_cancel (Nat.dvd_of_mod_eq_zero hmod)).symm
    exact_mod_cast hproduct

/-- The integer of a datum is told exactly if the number of the datum is an integer. The sign is
moved over to the integer, so that both sides speak of the magnitude. -/
theorem toInt?_eq_some_iff (d : Datum) (n : Int) : d.toInt? = some n ↔ d.value? = some (n : ℚ) := by
  cases d with
  | nan neg payload => exact iff_of_false (Option.some_ne_none _).symm (Option.some_ne_none _).symm
  | infinite neg => exact iff_of_false (Option.some_ne_none _).symm (Option.some_ne_none _).symm
  | finite neg mag exp =>
    have hsign (q : ℚ) : (if neg then (-1 : ℚ) else 1) * q = n ↔
        q = ((if neg then -n else n : ℤ) : ℚ) := by
      cases neg with
      | false => simp
      | true => simp [neg_eq_iff_eq_neg]
    have hsigned (k : ℤ) : (if neg then -k else k) = n ↔ k = if neg then -n else n := by
      cases neg with
      | false => simp
      | true => simp [neg_eq_iff_eq_neg]
    have hpos : 0 < 2 ^ (-exp).toNat := Nat.two_pow_pos _
    have hquotient := quotient_eq_iff (a := mag * 2 ^ exp.toNat) (z := if neg then -n else n) hpos
    rw [Datum.value?, Option.some_inj, mul_assoc, hsign, magnitude_quotient, hquotient, ← hsigned,
      Datum.toInt?, Datum.truncate]
    split
    · rename_i hmod
      rw [Option.some_inj]
      exact ⟨fun h => ⟨hmod, h⟩, fun h => h.2⟩
    · rename_i hmod
      exact iff_of_false (Option.some_ne_none _).symm (fun h => hmod h.1)

theorem decode_toInt?_iff (f : Format) (bits : Nat) (n : Int) :
    (f.decode bits).toInt? = some n ↔ f.value? bits = some (n : ℚ) := by
  rw [toInt?_eq_some_iff, value?_decode]

/-- The exponent field is all ones, as for infinities and NaNs, or all zeros and the number is not
zero. -/
def Format.Irregular (f : Format) (bits : Nat) : Prop :=
  f.expField bits = 2 ^ f.expBits - 1 ∨ f.expField bits = 0 ∧ f.fracField bits ≠ 0

/-- A subnormal number is less than one, so that it is no integer, and neither are infinities and
NaNs. The unit is so small that a whole fraction field of units stays below one. -/
theorem irregular_no_integer (hbits : 2 ≤ f.expBits) (h : f.Irregular bits) (n : Int) :
    f.value? bits ≠ some (n : ℚ) := by
  rcases h with hspecial | ⟨hexp, hfrac⟩
  · unfold Format.value?
    dsimp only
    rw [if_pos hspecial]
    exact fun h => nomatch h
  · rw [ne_eq, ← decode_toInt?_iff]
    have hpow : 2 ^ 1 ≤ 2 ^ (f.expBits - 1) := Nat.pow_le_pow_right Nat.two_pos (by omega)
    have hwhole : 2 ^ 1 ≤ 2 ^ f.expBits := Nat.pow_le_pow_right Nat.two_pos (by omega)
    have hmask : ¬ 0 = f.expMask := by
      unfold Format.expMask
      omega
    have hdecode : f.decode bits = .finite (f.isNegative bits) (f.fracField bits) f.minExp := by
      unfold Format.decode
      dsimp only
      rw [hexp, if_neg hmask, if_pos rfl]
    have hleast : f.minExp ≤ -(f.fracBits : ℤ) := by
      have hcast : ((2 ^ (f.expBits - 1) : ℕ) : ℤ) = 2 ^ (f.expBits - 1) := by
        push_cast
        rfl
      unfold Format.minExp
      omega
    have hup : f.minExp.toNat = 0 := by omega
    have hunit : f.fracBits ≤ (-f.minExp).toNat := by omega
    have hbelow : f.fracField bits < 2 ^ (-f.minExp).toNat :=
      Nat.lt_of_lt_of_le (Nat.mod_lt _ (Nat.two_pow_pos _))
        (Nat.pow_le_pow_right Nat.two_pos hunit)
    rw [hdecode, Datum.toInt?, hup, Nat.pow_zero, Nat.mul_one, Nat.mod_eq_of_lt hbelow,
      if_neg hfrac]
    exact fun h => nomatch h

end Integers

end WasmEmbed.Ieee
