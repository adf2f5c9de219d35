import WasmEmbed.Proofs.Ieee.Rounding

/-! Conversion between formats. A NaN stays a NaN and an infinity the same infinity. A number is rounded,
with its sign kept; nothing changes where the other format has a place for every number. -/
namespace WasmEmbed.Ieee

/-- What a datum stands for. -/
def Datum.number : Datum → Number
  | .nan _ _ => .nan
  | .infinite neg => .infinite neg
  | .finite neg mag exp => .finite neg (signOf neg * (mag * 2 ^ exp))

/-- What a number becomes in a format: it keeps its sign, is an infinity if its absolute value is at
least `bound`, and else the nearest of the numbers there. -/
def Number.RoundsTo (x : Number) (f : Format) (bound : ℚ) (bits : Nat) : Prop :=
  match x with
  | .nan => f.number bits = .nan
  | .infinite neg => f.number bits = .infinite neg
  | .finite neg q =>
    (bound ≤ |q| → f.number bits = .infinite neg) ∧
      (|q| < bound → (∃ w, f.number bits = .finite neg w) ∧ f.Nearest q bits)

/-- What a number becomes does not depend on bits beyond the fields. -/
theorem roundsTo_mod (x : Number) (f : Format) (bound : ℚ) (bits : Nat) :
    x.RoundsTo f bound (bits % 2 ^ (1 + f.expBits + f.fracBits)) ↔ x.RoundsTo f bound bits := by
  unfold Number.RoundsTo Format.Nearest
  rw [number_mod, value?_mod, (fields_mod f bits).2.2]

variable (f g : Format) {bits payload mag : Nat} {neg : Bool} {exp : Int}

section Decode

/-- A pattern and what it decodes to denote the same number. -/
theorem number_decode (bits : Nat) : f.number bits = (f.decode bits).number := by
  unfold Format.number
  rw [← value?_decode]
  unfold Format.decode
  dsimp only
  by_cases hspecial : f.expField bits = f.expMask
  · rw [if_pos hspecial]
    by_cases hfrac : f.fracField bits = 0
    · simp only [if_pos hfrac]
      rfl
    · simp only [if_neg hfrac]
      rfl
  · rw [if_neg hspecial]
    by_cases hzero : f.expField bits = 0
    · rw [if_pos hzero, Datum.value?, Datum.number, signOf, mul_assoc]
    · rw [if_neg hzero, Datum.value?, Datum.number, signOf, mul_assoc]

theorem decode_nan (h : f.decode bits = .nan neg payload) : payload < 2 ^ f.fracBits := by
  unfold Format.decode at h
  dsimp only at h
  split at h
  · split at h
    · contradiction
    · rw [← (Datum.nan.inj h).2]
      exact Nat.mod_lt _ (Nat.two_pow_pos _)
  · split at h
    · contradiction
    · contradiction

/-- A number that was decoded is one of the scale. -/
theorem decode_finite (h : f.decode bits = .finite neg mag exp) :
    ∃ magnitude < f.infMagnitude, f.scale magnitude = (mag : ℚ) * 2 ^ exp := by
  have hvalue := value?_decode f bits
  rw [h, Datum.value?] at hvalue
  obtain ⟨hbelow, hx⟩ := value?_eq_some f hvalue.symm
  refine ⟨f.magnitude bits, hbelow, ?_⟩
  have hmag : (0 : ℚ) ≤ mag * 2 ^ exp := mul_nonneg (Nat.cast_nonneg _) (zpow_pos two_pos _).le
  have habs := congrArg abs hx
  rw [mul_assoc, ← signOf, abs_signOf_mul, abs_signOf_mul, abs_of_nonneg hmag,
    abs_of_nonneg (scale_nonneg f _)] at habs
  exact habs.symm

end Decode

section Nan

theorem number_of_fields (hexp : f.expField bits = f.expMask) (hfrac : f.fracField bits ≠ 0) :
    f.number bits = .nan := by
  rw [number_decode, Format.decode, if_pos hexp, if_neg hfrac]
  rfl

theorem expField_eq (bits : Nat) : f.expField bits = f.magnitude bits / 2 ^ f.fracBits := by
  have hfrac : f.fracField bits < 2 ^ f.fracBits := Nat.mod_lt _ (Nat.two_pow_pos _)
  rw [magnitude_fields, Nat.mul_comm, Nat.mul_add_div (Nat.two_pow_pos _), Nat.div_eq_of_lt hfrac,
    Nat.add_zero]

/-- With the quiet bit set, a payload leaves a NaN a NaN. -/
theorem number_quieten (hfrac : f.fracBits ≠ 0) (neg : Bool) (h : payload < 2 ^ f.fracBits) :
    f.number (f.quieten (f.withSign neg (f.infMagnitude + payload))) = .nan := by
  have hquiet : f.quietWeight < 2 ^ f.fracBits := Nat.pow_lt_pow_right Nat.one_lt_two (by omega)
  have hwidth : f.infMagnitude + payload < f.signWeight := by
    have hmask : f.expMask + 1 = 2 ^ f.expBits := Nat.sub_add_cancel (Nat.two_pow_pos _)
    rw [Format.signWeight, Nat.pow_add, ← hmask, Nat.add_mul, Nat.one_mul, Format.infMagnitude]
    omega
  have hmagnitude := magnitude_withSign f neg hwidth
  apply number_of_fields
  · -- the quiet bit is none of the exponent
    have hexp : f.expField (f.withSign neg (f.infMagnitude + payload)) = f.expMask := by
      rw [expField_eq, hmagnitude, Format.infMagnitude, Nat.mul_comm,
        Nat.mul_add_div (Nat.two_pow_pos _), Nat.div_eq_of_lt h, Nat.add_zero]
    unfold Format.expField at hexp ⊢
    rw [Format.quieten, Nat.or_div_two_pow, Nat.div_eq_of_lt hquiet, Nat.or_zero, hexp]
  · rw [Format.fracField, Format.quieten, Nat.or_mod_two_pow, Nat.mod_eq_of_lt hquiet]
    exact fun hzero => (Nat.two_pow_pos _).ne' (Nat.or_eq_zero_iff.mp hzero).2

end Nan

section Convert

/-- A NaN stays one, also where bits beyond the new fraction are cut off. -/
theorem convert_nan (hfrac : g.fracBits ≠ 0) (h : f.decode bits = .nan neg payload) :
    g.number (f.convert g bits) = .nan := by
  unfold Format.convert
  rw [h]
  refine number_quieten g hfrac neg (Nat.div_lt_of_lt_mul ?_)
  have hsum : f.fracBits + (g.fracBits - f.fracBits) = f.fracBits - g.fracBits + g.fracBits := by omega
  rw [← Nat.pow_add, ← hsum, Nat.pow_add]
  exact Nat.mul_lt_mul_of_pos_right (decode_nan f h) (Nat.two_pow_pos _)

/-- Between formats numbers are rounded to the nearest, ties to even, and infinities stay what they
are. -/
theorem convert_rounds (hfrac : g.fracBits ≠ 0) (hexp : g.expBits ≠ 0) (bits : Nat) :
    (f.number bits).RoundsTo g g.overflow (f.convert g bits) := by
  rw [number_decode]
  cases h : f.decode bits with
  | nan neg payload => exact convert_nan f g hfrac h
  | infinite neg =>
    rw [Format.convert, h]
    exact number_infinity g neg
  | finite neg mag exp =>
    obtain ⟨hover, hnear⟩ := round_number hfrac hexp neg mag Nat.one_ne_zero exp
    have hmag : (0 : ℚ) ≤ mag * 2 ^ exp := mul_nonneg (Nat.cast_nonneg _) (zpow_pos two_pos _).le
    rw [Nat.cast_one, div_one] at hover hnear
    rw [Format.convert, h, Datum.number, Number.RoundsTo, abs_signOf_mul, abs_of_nonneg hmag]
    exact ⟨hover, hnear⟩

/-- A format with finer units, longer significands and greater exponents has every number of another
one. -/
theorem convert_exact (hfrac : g.fracBits ≠ 0) (hwider : f.fracBits ≤ g.fracBits)
    (hleast : g.minExp ≤ f.minExp) (hgreatest : f.scale f.infMagnitude ≤ g.scale g.infMagnitude)
    (bits : Nat) : g.number (f.convert g bits) = f.number bits := by
  rw [number_decode f]
  cases h : f.decode bits with
  | nan neg payload => exact convert_nan f g hfrac h
  | infinite neg =>
    rw [Format.convert, h]
    exact number_infinity g neg
  | finite neg mag exp =>
    obtain ⟨magnitude, hbelow, hscale⟩ := decode_finite f h
    obtain ⟨m, e, hparts, hm, he⟩ := scale_parts f magnitude
    have hpow : 2 ^ f.fracBits ≤ 2 ^ g.fracBits := Nat.pow_le_pow_right Nat.two_pos hwider
    obtain ⟨place, hplace⟩ := exists_scale g (m := m) (by omega) (hleast.trans he)
    have hsame : g.scale place = mag * 2 ^ exp := by rw [hplace, ← hparts, hscale]
    have hplaced : place < g.infMagnitude := by
      rw [← (scale_strictMono g).lt_iff_lt, hsame, ← hscale]
      exact ((scale_strictMono f) hbelow).trans_le hgreatest
    have hvalue : (mag : ℚ) / (1 : ℕ) * 2 ^ exp = g.scale place := by
      rw [Nat.cast_one, div_one, hsame]
    rw [Format.convert, h]
    dsimp only
    rw [round_exact hfrac one_ne_zero hplaced hvalue neg, number_withSign g neg hplaced, hsame]
    rfl

end Convert

end WasmEmbed.Ieee
