import Mathlib.Algebra.Order.Field.Basic
import Mathlib.Tactic.Linarith
import WasmEmbed.Proofs.Ieee.Denotation

/-! The scale of a format. Patterns without their sign bit stand in the order of the numbers that they
denote: each is one unit above the one before, and the unit doubles whenever the fraction field has
run through. The scale goes on where the format has infinities, which makes room for what would be
there if exponents had no end. -/
namespace WasmEmbed.Ieee

/-- How often the unit has doubled where a magnitude stands. -/
def Format.doublings (f : Format) (magnitude : Nat) : Nat := magnitude / 2 ^ f.fracBits - 1

/-- The number at which a magnitude stands. -/
def Format.scale (f : Format) (magnitude : Nat) : ℚ :=
  ((magnitude - f.doublings magnitude * 2 ^ f.fracBits : ℕ) : ℚ) *
    2 ^ (f.minExp + f.doublings magnitude)

/-- A sign as a factor. -/
def signOf (neg : Bool) : ℚ := if neg then -1 else 1

/-- What a pattern stands for. Zeros have a sign; NaNs are not told apart. -/
inductive Number where
  | nan
  | infinite (neg : Bool)
  | finite (neg : Bool) (value : ℚ)

/-- What a pattern stands for: its number if it has one, and else an infinity or a NaN. -/
def Format.number (f : Format) (bits : Nat) : Number :=
  match f.value? bits with
  | some x => .finite (f.isNegative bits) x
  | none => if f.fracField bits = 0 then .infinite (f.isNegative bits) else .nan

theorem abs_signOf_mul (neg : Bool) (x : ℚ) : |signOf neg * x| = |x| := by
  cases neg with
  | false => exact congrArg abs (one_mul x)
  | true => exact (congrArg abs (neg_one_mul x)).trans (abs_neg x)

variable (f : Format) {u q m bits magnitude : Nat} {neg : Bool} {e : Int}

section Scale

/-- Up to the next doubling, `q` units stand `q` places above the place of zero units. -/
theorem scale_eq (hq : q ≤ 2 * 2 ^ f.fracBits) (hu : u = 0 ∨ 2 ^ f.fracBits ≤ q) :
    f.scale (u * 2 ^ f.fracBits + q) = (q : ℚ) * 2 ^ (f.minExp + u) := by
  have hpos : 0 < 2 ^ f.fracBits := Nat.two_pow_pos _
  unfold Format.scale Format.doublings
  generalize 2 ^ f.fracBits = width at hq hu hpos
  rcases Nat.eq_or_lt_of_le hq with rfl | hlt
  · -- the place of the next doubling is reached from below with twice the significand
    have hdiv : (u * width + 2 * width) / width - 1 = u + 1 := by
      rw [← Nat.add_mul, Nat.mul_div_cancel _ hpos]
      rfl
    have hsig : u * width + 2 * width - (u + 1) * width = width := by
      rw [Nat.add_mul, Nat.one_mul]
      omega
    rw [hdiv, hsig, Nat.cast_add, Nat.cast_one, ← add_assoc, zpow_add_one₀ two_ne_zero]
    push_cast
    ring
  · have hdiv : (u * width + q) / width - 1 = u := by
      rw [Nat.mul_comm, Nat.mul_add_div hpos]
      rcases hu with rfl | hle
      · have hsmall : q / width < 2 := Nat.div_lt_of_lt_mul (by omega)
        omega
      · have hone : q / width = 1 := Nat.div_eq_of_lt_le (by omega) (by omega)
        omega
    rw [hdiv, Nat.add_sub_cancel_left]

/-- Every magnitude is so many units above a place of doubling. -/
theorem exists_parts (magnitude : Nat) : ∃ u q, magnitude = u * 2 ^ f.fracBits + q ∧
    q < 2 * 2 ^ f.fracBits ∧ (u = 0 ∨ 2 ^ f.fracBits ≤ q) := by
  have hpos : 0 < 2 ^ f.fracBits := Nat.two_pow_pos _
  generalize 2 ^ f.fracBits = width at hpos
  have hsplit := Nat.div_add_mod magnitude width
  have hmod := Nat.mod_lt magnitude hpos
  generalize magnitude / width = high at hsplit
  cases high with
  | zero => exact ⟨0, magnitude, by omega, by omega, Or.inl rfl⟩
  | succ u =>
    refine ⟨u, width + magnitude % width, ?_, by omega, Or.inr (by omega)⟩
    rw [Nat.mul_comm, Nat.succ_mul] at hsplit
    omega

/-- Each place of the scale is above the one before. -/
theorem scale_lt_succ (magnitude : Nat) : f.scale magnitude < f.scale (magnitude + 1) := by
  obtain ⟨u, q, rfl, hq, hu⟩ := exists_parts f magnitude
  have hunit : (0 : ℚ) < 2 ^ (f.minExp + u) := zpow_pos two_pos _
  have hnext := scale_eq f (u := u) (q := q + 1) (by omega) (hu.imp_right fun h => by omega)
  rw [Nat.add_assoc, hnext, scale_eq f hq.le hu]
  push_cast
  linarith

theorem scale_strictMono : StrictMono f.scale := strictMono_nat_of_lt_succ (scale_lt_succ f)

theorem scale_zero : f.scale 0 = 0 := by
  have h := scale_eq f (u := 0) (q := 0) (Nat.zero_le _) (Or.inl rfl)
  rwa [Nat.zero_mul, Nat.cast_zero, zero_mul] at h

theorem scale_nonneg (magnitude : Nat) : 0 ≤ f.scale magnitude :=
  scale_zero f ▸ (scale_strictMono f).monotone (Nat.zero_le magnitude)

/-- On the scale is every number that is a significand times a power of two, if that is no less than
the least unit. A significand without a leading one is doubled, and the unit halved, until it has
one. -/
theorem exists_scale (hm : m ≤ 2 * 2 ^ f.fracBits) (he : f.minExp ≤ e) :
    ∃ magnitude, f.scale magnitude = (m : ℚ) * 2 ^ e := by
  obtain ⟨u, rfl⟩ := Int.le.dest he
  induction u generalizing m with
  | zero => exact ⟨_, scale_eq f (u := 0) hm (Or.inl rfl)⟩
  | succ u ih =>
    by_cases hlead : 2 ^ f.fracBits ≤ m
    · exact ⟨_, scale_eq f hm (Or.inr hlead)⟩
    · obtain ⟨magnitude, h⟩ := ih (m := 2 * m) (by omega) (by omega)
      refine ⟨magnitude, h.trans ?_⟩
      rw [Nat.cast_succ, ← add_assoc, zpow_add_one₀ two_ne_zero]
      push_cast
      ring

/-- A number of the scale is a significand times a power of two. -/
theorem scale_parts (magnitude : Nat) : ∃ m : ℕ, ∃ e : ℤ,
    f.scale magnitude = (m : ℚ) * 2 ^ e ∧ m < 2 * 2 ^ f.fracBits ∧ f.minExp ≤ e := by
  obtain ⟨u, q, rfl, hq, hu⟩ := exists_parts f magnitude
  exact ⟨q, f.minExp + u, scale_eq f hq.le hu, hq, by omega⟩

/-- From the place of a doubling on, all numbers of the scale are whole units; those before are less
than it. -/
theorem scale_whole_or_below (u magnitude : Nat) :
    (∃ z : ℕ, f.scale magnitude = (z : ℚ) * 2 ^ (f.minExp + u)) ∨
      u ≠ 0 ∧ f.scale magnitude < (2 ^ f.fracBits : ℕ) * 2 ^ (f.minExp + u) := by
  obtain ⟨v, q, rfl, hq, hv⟩ := exists_parts f magnitude
  rw [scale_eq f hq.le hv]
  rcases Nat.lt_or_ge v u with hlt | hge
  · obtain ⟨k, rfl⟩ := Nat.exists_eq_add_of_lt hlt
    refine Or.inr ⟨by omega, ?_⟩
    have hunit : (0 : ℚ) < 2 ^ (f.minExp + v) := zpow_pos two_pos _
    have hup : (2 : ℚ) ^ (f.minExp + (v + k + 1 : ℕ)) = 2 ^ (f.minExp + v) * 2 ^ (k + 1) := by
      rw [← zpow_natCast, ← zpow_add₀ two_ne_zero]
      congr 1
      push_cast
      ring
    have hsmall : q < 2 ^ f.fracBits * 2 ^ (k + 1) := by
      have hdouble : 2 ^ f.fracBits * 2 ^ 1 ≤ 2 ^ f.fracBits * 2 ^ (k + 1) :=
        Nat.mul_le_mul_left _ (Nat.pow_le_pow_right Nat.two_pos (by omega))
      omega
    have hcast : (q : ℚ) < (2 ^ f.fracBits : ℕ) * 2 ^ (k + 1) := by exact_mod_cast hsmall
    calc (q : ℚ) * 2 ^ (f.minExp + v) < (2 ^ f.fracBits : ℕ) * 2 ^ (k + 1) * 2 ^ (f.minExp + v) :=
          mul_lt_mul_of_pos_right hcast hunit
      _ = (2 ^ f.fracBits : ℕ) * 2 ^ (f.minExp + (v + k + 1 : ℕ)) := by
          rw [hup]
          ring
  · obtain ⟨k, rfl⟩ := Nat.exists_eq_add_of_le hge
    refine Or.inl ⟨q * 2 ^ k, ?_⟩
    rw [Nat.cast_add, ← add_assoc, zpow_add₀ two_ne_zero, zpow_natCast]
    push_cast
    ring

end Scale

section Patterns

/-- The fields of a pattern, one behind the other, are its place. -/
theorem magnitude_fields (bits : Nat) :
    f.magnitude bits = f.expField bits * 2 ^ f.fracBits + f.fracField bits := by
  unfold Format.magnitude Format.signWeight Format.expField Format.fracField
  rw [Nat.pow_add, Nat.mul_comm, Nat.mod_mul, Nat.add_comm, Nat.mul_comm]

theorem fracField_eq (bits : Nat) : f.fracField bits = f.magnitude bits % 2 ^ f.fracBits := by
  rw [magnitude_fields, Nat.mul_comm, Nat.mul_add_mod]
  exact (Nat.mod_mod _ _).symm

/-- A pattern with a number has a magnitude below that of the infinities, and stands at it. -/
theorem value?_eq (bits : Nat) : f.value? bits =
    if f.magnitude bits < f.infMagnitude then
      some (signOf (f.isNegative bits) * f.scale (f.magnitude bits))
    else none := by
  have hpos : 0 < 2 ^ f.fracBits := Nat.two_pow_pos _
  have hfrac : f.fracField bits < 2 ^ f.fracBits := Nat.mod_lt _ hpos
  have hexp : f.expField bits < 2 ^ f.expBits := Nat.mod_lt _ (Nat.two_pow_pos _)
  rw [← value?_decode, magnitude_fields]
  unfold Format.decode Format.infMagnitude
  dsimp only
  by_cases hspecial : f.expField bits = f.expMask
  · have hnot : ¬ f.expField bits * 2 ^ f.fracBits + f.fracField bits < f.expMask * 2 ^ f.fracBits := by
      rw [hspecial]
      exact Nat.not_lt.mpr (Nat.le_add_right _ _)
    rw [if_pos hspecial, if_neg hnot]
    split
    · rfl
    · rfl
  · have hbelow : f.expField bits * 2 ^ f.fracBits + f.fracField bits < f.expMask * 2 ^ f.fracBits := by
      have hnext : (f.expField bits + 1) * 2 ^ f.fracBits ≤ f.expMask * 2 ^ f.fracBits :=
        Nat.mul_le_mul_right _ (by unfold Format.expMask at *; omega)
      rw [Nat.succ_mul] at hnext
      omega
    rw [if_neg hspecial, if_pos hbelow]
    by_cases hzero : f.expField bits = 0
    · have hscale := scale_eq f (u := 0) (q := f.fracField bits) (by omega) (Or.inl rfl)
      rw [if_pos hzero, hzero, hscale, Datum.value?, signOf, Nat.cast_zero, add_zero, mul_assoc]
    · -- the leading one, which is not written, makes up for the exponent that is one too great
      obtain ⟨u, hu⟩ := Nat.exists_eq_succ_of_ne_zero hzero
      have hscale := scale_eq f (u := u) (q := 2 ^ f.fracBits + f.fracField bits) (by omega)
        (Or.inr (by omega))
      rw [if_neg hzero, hu, Datum.value?, signOf, Nat.succ_mul, Nat.add_assoc, hscale, mul_assoc]
      rfl

/-- A pattern with a number is below the infinities, and its number is that of its place. -/
theorem value?_eq_some {x : ℚ} (h : f.value? bits = some x) :
    f.magnitude bits < f.infMagnitude ∧
      x = signOf (f.isNegative bits) * f.scale (f.magnitude bits) := by
  rw [value?_eq] at h
  split at h
  · exact ⟨‹_›, (Option.some.inj h).symm⟩
  · contradiction

theorem infMagnitude_lt : f.infMagnitude < f.signWeight := by
  unfold Format.infMagnitude Format.expMask Format.signWeight
  rw [Nat.pow_add]
  exact Nat.mul_lt_mul_of_pos_right (Nat.sub_lt (Nat.two_pow_pos _) Nat.one_pos) (Nat.two_pow_pos _)

/-- The infinities stand at the power of two that the exponents end before. -/
theorem scale_infMagnitude {k : Nat} (hmask : f.expMask ≠ 0)
    (hk : f.minExp + (f.expMask - 1 : Nat) = k) :
    f.scale f.infMagnitude = 2 ^ (f.fracBits + k) := by
  have hparts : f.infMagnitude = (f.expMask - 1) * 2 ^ f.fracBits + 2 ^ f.fracBits := by
    rw [← Nat.succ_mul, Nat.succ_eq_add_one, Nat.sub_add_cancel (Nat.pos_of_ne_zero hmask),
      Format.infMagnitude]
  rw [hparts, scale_eq f (by omega) (Or.inr (Nat.le_refl _)), hk, zpow_natCast, pow_add]
  push_cast
  rfl

theorem magnitude_withSign (neg : Bool) (h : magnitude < f.signWeight) :
    f.magnitude (f.withSign neg magnitude) = magnitude := by
  unfold Format.magnitude Format.withSign
  cases neg with
  | false => rw [if_neg Bool.false_ne_true, Nat.zero_add, Nat.mod_eq_of_lt h]
  | true => rw [if_pos rfl, Nat.add_mod_left, Nat.mod_eq_of_lt h]

/-- A sign that is put in front is read back. -/
theorem isNegative_withSign (neg : Bool) (h : magnitude < f.signWeight) :
    f.isNegative (f.withSign neg magnitude) = neg := by
  have hpos : 0 < f.signWeight := Nat.lt_of_le_of_lt (Nat.zero_le _) h
  unfold Format.isNegative Format.withSign
  cases neg with
  | false =>
    rw [if_neg Bool.false_ne_true, Nat.zero_add, Nat.div_eq_of_lt h]
    rfl
  | true =>
    rw [if_pos rfl, Nat.add_div_left _ hpos, Nat.div_eq_of_lt h]
    rfl

/-- A place below the infinities denotes its number, with the sign that it was given. -/
theorem value?_withSign (neg : Bool) (h : magnitude < f.infMagnitude) :
    f.value? (f.withSign neg magnitude) = some (signOf neg * f.scale magnitude) := by
  have hwidth := h.trans (infMagnitude_lt f)
  rw [value?_eq, magnitude_withSign f neg hwidth, isNegative_withSign f neg hwidth, if_pos h]

theorem number_withSign (neg : Bool) (h : magnitude < f.infMagnitude) :
    f.number (f.withSign neg magnitude) = .finite neg (signOf neg * f.scale magnitude) := by
  rw [Format.number, value?_withSign f neg h, isNegative_withSign f neg (h.trans (infMagnitude_lt f))]

theorem number_infinity (neg : Bool) : f.number (f.infinity neg) = .infinite neg := by
  have hwidth := infMagnitude_lt f
  have hmagnitude := magnitude_withSign f neg hwidth
  have hfrac : f.fracField (f.infinity neg) = 0 := by
    rw [fracField_eq, Format.infinity, hmagnitude, Format.infMagnitude, Nat.mul_mod_left]
  rw [Format.number, value?_eq, Format.infinity, hmagnitude, if_neg (Nat.lt_irrefl _)]
  dsimp only
  rw [← Format.infinity, if_pos hfrac, Format.infinity, isNegative_withSign f neg hwidth]

/-- Of a pattern only the bits of the three fields count. -/
theorem fields_mod (bits : Nat) : let low := bits % 2 ^ (1 + f.expBits + f.fracBits)
    f.isNegative low = f.isNegative bits ∧ f.expField low = f.expField bits ∧
      f.fracField low = f.fracField bits := by
  intro low
  have hsign : low = bits % (f.signWeight * 2) := by
    rw [Format.signWeight, Nat.mul_comm, ← Nat.pow_succ', Nat.succ_eq_add_one, Nat.add_comm _ 1,
      ← Nat.add_assoc]
  have hexp : low = bits % (2 ^ f.fracBits * 2 ^ f.expBits * 2) := by
    rw [hsign, Format.signWeight, Nat.pow_add, Nat.mul_comm (2 ^ f.expBits)]
  refine ⟨?_, ?_, ?_⟩
  · rw [Format.isNegative, hsign, Nat.mod_mul_right_div_self, Nat.mod_mod]
    rfl
  · rw [Format.expField, hexp, Nat.mul_assoc, Nat.mod_mul_right_div_self, Nat.mod_mul_right_mod]
    rfl
  · rw [Format.fracField, hexp, Nat.mul_assoc, Nat.mod_mul_right_mod]
    rfl

theorem value?_mod (bits : Nat) :
    f.value? (bits % 2 ^ (1 + f.expBits + f.fracBits)) = f.value? bits := by
  obtain ⟨hsign, hexp, hfrac⟩ := fields_mod f bits
  unfold Format.value?
  rw [hsign, hexp, hfrac]

theorem number_mod (bits : Nat) :
    f.number (bits % 2 ^ (1 + f.expBits + f.fracBits)) = f.number bits := by
  obtain ⟨hsign, _, hfrac⟩ := fields_mod f bits
  unfold Format.number
  rw [value?_mod, hsign, hfrac]

end Patterns

end WasmEmbed.Ieee
