import WasmEmbed.Ieee.Arith
import WasmEmbed.Proofs.Ieee.Scale

/-! Rounding. What a number is rounded to is the nearest place of the scale, and of two that are equally
near the even one. So a number of the scale is not changed, and the infinities begin half a unit
above the greatest number. -/
namespace WasmEmbed.Ieee

/-- No place of the scale is nearer to `x`, and if another one is as near, this is even. -/
def Format.NearestAt (f : Format) (x : ℚ) (magnitude : Nat) : Prop :=
  ∀ other, |x - f.scale magnitude| ≤ |x - f.scale other| ∧
    (|x - f.scale magnitude| = |x - f.scale other| → other = magnitude ∨ magnitude % 2 = 0)

/-- The pattern has a number to which none of the format is preferred: each other is farther from `x`,
or as far, and then the significand of this one is even. -/
def Format.Nearest (f : Format) (x : ℚ) (bits : Nat) : Prop :=
  ∃ v, f.value? bits = some v ∧ ∀ other w, f.value? other = some w →
    w = v ∨ |x - v| < |x - w| ∨ |x - v| = |x - w| ∧ f.fracField bits % 2 = 0

/-- Half a unit above the greatest number. -/
def Format.overflow (f : Format) : ℚ :=
  (f.scale (f.infMagnitude - 1) + f.scale f.infMagnitude) / 2

variable {f : Format} {x t : ℚ} {a b num den magnitude other u q : Nat} {neg : Bool} {exp : Int}

section Quotients

/-- The nearest integer differs from the quotient by what the quotient of a small remainder is.
Below the middle it is what is left, above it what is missing. -/
theorem divNearestEven_remainder (hb : 0 < b) : ∃ d : ℤ, (a : ℤ) = b * divNearestEven a b + d ∧
    2 * |d| ≤ b ∧ (2 * |d| = b → divNearestEven a b % 2 = 0) := by
  have hsplit : (b : ℤ) * (a / b : ℕ) + (a % b : ℕ) = a := by exact_mod_cast Nat.div_add_mod a b
  have hmod := Nat.mod_lt a hb
  have hup : (b : ℤ) * ((a / b + 1 : ℕ) : ℤ) = b * (a / b : ℕ) + b := by
    push_cast
    ring
  unfold divNearestEven
  dsimp only
  have hdown : |((a % b : ℕ) : ℤ)| = (a % b : ℕ) := abs_of_nonneg (Int.natCast_nonneg _)
  have hmiss : |((a % b : ℕ) : ℤ) - b| = b - (a % b : ℕ) := by
    rw [abs_of_nonpos (by omega)]
    ring
  split
  · refine ⟨(a % b : ℕ), by omega, ?_, ?_⟩
    · rw [hdown]
      omega
    · rw [hdown]
      omega
  · split
    · refine ⟨(a % b : ℕ) - b, by rw [hup]; omega, ?_, ?_⟩
      · rw [hmiss]
        omega
      · rw [hmiss]
        omega
    · split
      · refine ⟨(a % b : ℕ), by omega, ?_, fun _ => ‹_›⟩
        rw [hdown]
        omega
      · refine ⟨(a % b : ℕ) - b, by rw [hup]; omega, ?_, fun _ => by omega⟩
        rw [hmiss]
        omega

/-- No quotient is more than a half from its nearest integer, and only an even one is just that far.
-/
theorem divNearestEven_half (hb : 0 < b) : |(a : ℚ) / b - divNearestEven a b| ≤ 1 / 2 ∧
    (|(a : ℚ) / b - divNearestEven a b| = 1 / 2 → divNearestEven a b % 2 = 0) := by
  obtain ⟨d, hd, hsmall, heven⟩ := divNearestEven_remainder (a := a) hb
  have hpos : (0 : ℚ) < b := Nat.cast_pos.mpr hb
  have hdiff : (a : ℚ) / b - divNearestEven a b = d / b := by
    have hd : (a : ℚ) = b * divNearestEven a b + d := by exact_mod_cast hd
    rw [hd]
    field_simp
    ring
  rw [hdiff, abs_div, abs_of_pos hpos, div_le_iff₀ hpos, div_eq_iff hpos.ne']
  constructor
  · have hsmall : (2 : ℚ) * |(d : ℚ)| ≤ b := by exact_mod_cast hsmall
    linarith
  · intro h
    have htwice : (2 : ℚ) * |(d : ℚ)| = b := by linarith
    exact heven (by exact_mod_cast htwice)

/-- A number within half of `t` is nearest to it among the integers. -/
theorem nearest_of_half (h : |t - q| ≤ 1 / 2) (heven : |t - q| = 1 / 2 → q % 2 = 0) (z : Nat) :
    |t - q| ≤ |t - z| ∧ (|t - q| = |t - z| → z = q ∨ q % 2 = 0) := by
  by_cases hz : z = q
  · rw [hz]
    exact ⟨le_refl _, fun _ => Or.inl rfl⟩
  · have hapart : (1 : ℚ) ≤ |(z : ℚ) - q| := by
      have hne : ((z : ℤ) - q) ≠ 0 := by omega
      exact_mod_cast Int.one_le_abs hne
    have hsum : |(z : ℚ) - q| ≤ |t - q| + |t - z| := by
      calc |(z : ℚ) - q| = |(t - q) - (t - z)| := by rw [sub_sub_sub_cancel_left]
        _ ≤ |t - q| + |t - z| := abs_sub _ _
    exact ⟨by linarith, fun hsame => Or.inr (heven (by linarith))⟩

/-- No other integer is as near, unless this one is even. -/
theorem divNearestEven_nearest (hb : 0 < b) (z : Nat) :
    |(a : ℚ) / b - divNearestEven a b| ≤ |(a : ℚ) / b - z| ∧
      (|(a : ℚ) / b - divNearestEven a b| = |(a : ℚ) / b - z| →
        z = divNearestEven a b ∨ divNearestEven a b % 2 = 0) :=
  nearest_of_half (divNearestEven_half hb).1 (divNearestEven_half hb).2 z

/-- The logarithm of a quotient, rounded down. The logarithms of both leave two possibilities, which
the comparison tells apart. -/
theorem floorLog2Ratio_spec (hnum : num ≠ 0) (hden : den ≠ 0) :
    (2 : ℚ) ^ floorLog2Ratio num den ≤ num / den ∧
      (num : ℚ) / den < 2 ^ (floorLog2Ratio num den + 1) := by
  have hpos : (0 : ℚ) < den := Nat.cast_pos.mpr (Nat.pos_of_ne_zero hden)
  have hlow (n : ℕ) (hn : n ≠ 0) : (2 : ℚ) ^ (n.log2 : ℤ) ≤ n := by
    rw [zpow_natCast]
    exact_mod_cast Nat.log2_self_le hn
  have hhigh (n : ℕ) : (n : ℚ) < 2 ^ ((n.log2 : ℤ) + 1) := by
    have h : n < 2 ^ (n.log2 + 1) := Nat.lt_log2_self
    exact_mod_cast h
  have habove : (num : ℚ) / den < 2 ^ ((num.log2 : ℤ) - den.log2 + 1) := by
    rw [div_lt_iff₀ hpos]
    calc (num : ℚ) < 2 ^ ((num.log2 : ℤ) + 1) := hhigh num
      _ = 2 ^ ((num.log2 : ℤ) - den.log2 + 1) * 2 ^ (den.log2 : ℤ) := by
        rw [← zpow_add₀ two_ne_zero]
        congr 1
        ring
      _ ≤ 2 ^ ((num.log2 : ℤ) - den.log2 + 1) * den :=
        mul_le_mul_of_nonneg_left (hlow den hden) (zpow_pos two_pos _).le
  have hbelow : (2 : ℚ) ^ ((num.log2 : ℤ) - den.log2 - 1) ≤ num / den := by
    rw [le_div_iff₀ hpos]
    calc (2 : ℚ) ^ ((num.log2 : ℤ) - den.log2 - 1) * den
        ≤ 2 ^ ((num.log2 : ℤ) - den.log2 - 1) * 2 ^ ((den.log2 : ℤ) + 1) :=
          mul_le_mul_of_nonneg_left (hhigh den).le (zpow_pos two_pos _).le
      _ = 2 ^ (num.log2 : ℤ) := by
        rw [← zpow_add₀ two_ne_zero]
        congr 1
        ring
      _ ≤ num := hlow num hnum
  have hcompare (k : ℤ) : den * 2 ^ k.toNat ≤ num * 2 ^ (-k).toNat ↔ (2 : ℚ) ^ k ≤ num / den := by
    have hquotient := magnitude_quotient den k
    have hdown : (0 : ℚ) < ((2 ^ (-k).toNat : ℕ) : ℚ) := by exact_mod_cast Nat.two_pow_pos _
    rw [le_div_iff₀ hpos, mul_comm (2 ^ k : ℚ), hquotient, div_le_iff₀ hdown]
    exact_mod_cast Iff.rfl
  unfold floorLog2Ratio
  dsimp only
  split
  · rename_i hle
    exact ⟨(hcompare _).mp hle, habove⟩
  · rename_i hlt
    rw [hcompare, not_le] at hlt
    rw [sub_add_cancel]
    exact ⟨hbelow, hlt⟩

end Quotients

section Nearest

/-- The integer nearest to a number of units is as many units above the place of a doubling.
Rounding does not leave the stretch between two doublings. -/
theorem nearestAt_units (hfrac : f.fracBits ≠ 0) (hx : x = t * 2 ^ (f.minExp + u))
    (hhigh : t ≤ (2 * 2 ^ f.fracBits : ℕ)) (hlow : u = 0 ∨ ((2 ^ f.fracBits : ℕ) : ℚ) ≤ t)
    (hq : ∀ z : ℕ, |t - q| ≤ |t - z| ∧ (|t - q| = |t - z| → z = q ∨ q % 2 = 0)) :
    f.NearestAt x (u * 2 ^ f.fracBits + q) := by
  have hunit : (0 : ℚ) < 2 ^ (f.minExp + u) := zpow_pos two_pos _
  have hqhigh : q ≤ 2 * 2 ^ f.fracBits := by
    by_contra hlt
    have hlt : ((2 * 2 ^ f.fracBits : ℕ) : ℚ) < q := Nat.cast_lt.mpr (not_le.mp hlt)
    have hnear := (hq (2 * 2 ^ f.fracBits)).1
    rw [abs_of_nonpos (by linarith), abs_of_nonpos (by linarith)] at hnear
    linarith
  have hqlow : u = 0 ∨ 2 ^ f.fracBits ≤ q := by
    refine hlow.imp_right fun hle => ?_
    by_contra hlt
    have hlt : (q : ℚ) < (2 ^ f.fracBits : ℕ) := Nat.cast_lt.mpr (not_le.mp hlt)
    have hnear := (hq (2 ^ f.fracBits)).1
    rw [abs_of_nonneg (by linarith), abs_of_nonneg (by linarith)] at hnear
    linarith
  have hscale := scale_eq f hqhigh hqlow
  have hdist (z : ℕ) : |x - z * 2 ^ (f.minExp + u)| = |t - z| * 2 ^ (f.minExp + u) := by
    rw [hx, ← sub_mul, abs_mul, abs_of_pos hunit]
  have hparity : (u * 2 ^ f.fracBits + q) % 2 = q % 2 := by
    have hdvd : 2 ∣ u * 2 ^ f.fracBits := Dvd.dvd.mul_left (dvd_pow_self 2 hfrac) u
    omega
  intro other
  rw [hscale, hdist, hparity]
  rcases scale_whole_or_below f u other with ⟨z, hz⟩ | ⟨hu, hz⟩
  · rw [hz, hdist]
    refine ⟨mul_le_mul_of_nonneg_right (hq z).1 hunit.le, fun hsame => ?_⟩
    refine ((hq z).2 (mul_right_cancel₀ hunit.ne' hsame)).imp_left fun hzq => ?_
    exact (scale_strictMono f).injective (by rw [hscale, hz, hzq])
  · -- what is before the doubling is farther than the place of the doubling itself
    have hbound := hlow.resolve_left hu
    have hnear := (hq (2 ^ f.fracBits)).1
    have hfar : |t - q| * 2 ^ (f.minExp + u) < |x - f.scale other| := by
      calc |t - q| * 2 ^ (f.minExp + u)
          ≤ |t - (2 ^ f.fracBits : ℕ)| * 2 ^ (f.minExp + u) :=
            mul_le_mul_of_nonneg_right hnear hunit.le
        _ = x - (2 ^ f.fracBits : ℕ) * 2 ^ (f.minExp + u) := by
            rw [abs_of_nonneg (by linarith), hx, sub_mul]
        _ < x - f.scale other := by linarith
        _ ≤ |x - f.scale other| := le_abs_self _
    exact ⟨hfar.le, fun hsame => absurd hsame hfar.ne⟩

/-- A number of the scale is nearest to itself only. -/
theorem nearestAt_exact (h : f.NearestAt (f.scale magnitude) other) : other = magnitude := by
  have hzero := (h magnitude).1
  rw [sub_self, abs_zero] at hzero
  have hsame := abs_eq_zero.mp (le_antisymm hzero (abs_nonneg _))
  exact ((scale_strictMono f).injective (sub_eq_zero.mp hsame)).symm

/-- Rounding passes an odd place exactly from the middle to the next one on. Below the middle the
odd place itself would be nearer, or as near as an even one. -/
theorem lt_iff_of_odd (h : f.NearestAt x magnitude) (hodd : other % 2 = 1) :
    other < magnitude ↔ (f.scale other + f.scale (other + 1)) / 2 ≤ x := by
  have hmono := (scale_strictMono f).monotone
  have hstep := scale_lt_succ f other
  constructor
  · intro hlt
    have habove : f.scale (other + 1) ≤ f.scale magnitude := hmono hlt
    by_contra hless
    rw [not_le] at hless
    have hother : |x - f.scale other| < f.scale (other + 1) - x := by
      rw [abs_lt]
      constructor
      · linarith
      · linarith
    have hhere : f.scale (other + 1) - x ≤ |x - f.scale magnitude| := by
      rw [abs_sub_comm]
      exact (sub_le_sub_right habove x).trans (le_abs_self _)
    exact absurd (h other).1 (not_le.mpr (hother.trans_le hhere))
  · intro hmiddle
    by_contra hle
    have hle := not_lt.mp hle
    have hbelow := hmono hle
    have hnear := (h (other + 1)).1
    have hhere : |x - f.scale magnitude| = x - f.scale magnitude := abs_of_nonneg (by linarith)
    rcases le_total x (f.scale (other + 1)) with hx | hx
    · have hnext : |x - f.scale (other + 1)| = f.scale (other + 1) - x := by
        rw [abs_of_nonpos (by linarith)]
        ring
      rw [hhere, hnext] at hnear
      have hsame : f.scale magnitude = f.scale other := by linarith
      have hplace := (scale_strictMono f).injective hsame
      rcases (h (other + 1)).2 (by rw [hhere, hnext]; linarith) with heq | heven
      · omega
      · omega
    · rw [hhere, abs_of_nonneg (by linarith)] at hnear
      linarith

/-- Rounding comes to the infinities from the overflow on, and not before. -/
theorem overflow_le_iff (hfrac : f.fracBits ≠ 0) (hexp : f.expBits ≠ 0)
    (h : f.NearestAt x magnitude) : f.infMagnitude ≤ magnitude ↔ f.overflow ≤ x := by
  have heven : 2 ∣ f.infMagnitude := Dvd.dvd.mul_left (dvd_pow_self 2 hfrac) f.expMask
  have hpos : 0 < f.infMagnitude := by
    have htwo : 2 ^ 1 ≤ 2 ^ f.expBits := Nat.pow_le_pow_right Nat.two_pos (by omega)
    exact Nat.mul_pos (by unfold Format.expMask; omega) (Nat.two_pow_pos _)
  have hodd : (f.infMagnitude - 1) % 2 = 1 := by omega
  have hlt := lt_iff_of_odd h hodd
  rw [Nat.sub_add_cancel hpos] at hlt
  rw [Format.overflow, ← hlt]
  omega

/-- The number of the nearest place, with a sign, is nearest among all numbers of the format. -/
theorem nearest_withSign (hfrac : f.fracBits ≠ 0) (h : f.NearestAt x magnitude) (hx : 0 ≤ x)
    (hbelow : magnitude < f.infMagnitude) (neg : Bool) :
    f.Nearest (signOf neg * x) (f.withSign neg magnitude) := by
  have hwidth := hbelow.trans (infMagnitude_lt f)
  have hparity : f.fracField (f.withSign neg magnitude) % 2 = magnitude % 2 := by
    rw [fracField_eq, magnitude_withSign f neg hwidth]
    exact Nat.mod_mod_of_dvd _ (dvd_pow_self 2 hfrac)
  refine ⟨_, value?_withSign f neg hbelow, fun other w hw => ?_⟩
  obtain ⟨_, rfl⟩ := value?_eq_some f hw
  rw [hparity, ← mul_sub, abs_signOf_mul]
  by_cases hsign : f.isNegative other = neg
  · rw [hsign, ← mul_sub, abs_signOf_mul]
    rcases (h (f.magnitude other)).1.lt_or_eq with hlt | hsame
    · exact Or.inr (Or.inl hlt)
    · rcases (h (f.magnitude other)).2 hsame with heq | heven
      · exact Or.inl (by rw [heq])
      · exact Or.inr (Or.inr ⟨hsame, heven⟩)
  · -- numbers of the other sign are no nearer than zero is
    have hopposite : signOf (f.isNegative other) = -signOf neg := by
      cases neg <;> cases hn : f.isNegative other <;> simp_all [signOf]
    have hfar : |signOf neg * x - signOf (f.isNegative other) * f.scale (f.magnitude other)| =
        x + f.scale (f.magnitude other) := by
      rw [hopposite, neg_mul, sub_neg_eq_add, ← mul_add, abs_signOf_mul]
      exact abs_of_nonneg (add_nonneg hx (scale_nonneg f _))
    have hzero := h 0
    rw [scale_zero, sub_zero, abs_of_nonneg hx] at hzero
    have hnonneg := scale_nonneg f (f.magnitude other)
    rw [hfar]
    rcases (hzero.1.trans (le_add_of_nonneg_right hnonneg)).lt_or_eq with hlt | hsame
    · exact Or.inr (Or.inl hlt)
    · refine Or.inr (Or.inr ⟨hsame, ?_⟩)
      rcases hzero.2 (by linarith [hzero.1]) with heq | heven
      · omega
      · exact heven

end Nearest

section Round

/-- Rounding finds the nearest place of the scale, and all places from the infinities on become
these. The unit is that of the leading bit, or the least one if that is greater. -/
theorem round_eq (hfrac : f.fracBits ≠ 0) (neg : Bool) (num : Nat) (hden : den ≠ 0) (exp : Int) :
    ∃ magnitude, f.round neg num den exp = f.withSign neg (min magnitude f.infMagnitude) ∧
      f.NearestAt (num / den * 2 ^ exp) magnitude := by
  unfold Format.round
  by_cases hnum : num = 0
  · refine ⟨0, ?_, fun other => ⟨?_, fun _ => Or.inr rfl⟩⟩
    · rw [if_pos hnum, Nat.zero_min, Format.zero]
    · rw [hnum, Nat.cast_zero, zero_div, zero_mul, scale_zero, sub_zero, abs_zero]
      exact abs_nonneg _
  · rw [if_neg hnum]
    dsimp only
    obtain ⟨hlog, hlog'⟩ := floorLog2Ratio_spec hnum hden
    set log := floorLog2Ratio num den
    obtain ⟨u, hu⟩ := Int.le.dest (le_max_left f.minExp (log + exp - f.fracBits))
    rw [← hu, add_sub_cancel_left, Int.toNat_natCast]
    set unit := f.minExp + (u : ℤ)
    refine ⟨_, rfl, nearestAt_units hfrac (t := num / den * 2 ^ (exp - unit)) ?_ ?_ ?_ ?_⟩
    · rw [mul_assoc, ← zpow_add₀ two_ne_zero, sub_add_cancel]
    · have hle : log + 1 + (exp - unit) ≤ (f.fracBits + 1 : ℕ) := by omega
      calc (num : ℚ) / den * 2 ^ (exp - unit) ≤ 2 ^ (log + 1) * 2 ^ (exp - unit) :=
            mul_le_mul_of_nonneg_right hlog'.le (zpow_pos two_pos _).le
        _ = 2 ^ (log + 1 + (exp - unit)) := (zpow_add₀ two_ne_zero _ _).symm
        _ ≤ 2 ^ ((f.fracBits + 1 : ℕ) : ℤ) := zpow_le_zpow_right₀ one_le_two hle
        _ = (2 * 2 ^ f.fracBits : ℕ) := by
            rw [zpow_natCast, pow_succ]
            push_cast
            ring
    · rcases Nat.eq_zero_or_pos u with hzero | hpos
      · exact Or.inl hzero
      · refine Or.inr ?_
        have hle : (f.fracBits : ℤ) ≤ log + (exp - unit) := by omega
        calc ((2 ^ f.fracBits : ℕ) : ℚ) = 2 ^ (f.fracBits : ℤ) := by
              rw [zpow_natCast]
              push_cast
              rfl
          _ ≤ 2 ^ (log + (exp - unit)) := zpow_le_zpow_right₀ one_le_two hle
          _ = 2 ^ log * 2 ^ (exp - unit) := zpow_add₀ two_ne_zero _ _
          _ ≤ num / den * 2 ^ (exp - unit) :=
              mul_le_mul_of_nonneg_right hlog (zpow_pos two_pos _).le
    · have hdown : 0 < den * 2 ^ (-(exp - unit)).toNat :=
        Nat.mul_pos (Nat.pos_of_ne_zero hden) (Nat.two_pow_pos _)
      have hquotient : (num : ℚ) / den * 2 ^ (exp - unit) =
          ((num * 2 ^ (exp - unit).toNat : ℕ) : ℚ) /
            ((den * 2 ^ (-(exp - unit)).toNat : ℕ) : ℚ) := by
        rw [div_mul_eq_mul_div, magnitude_quotient, div_div, Nat.cast_mul den, mul_comm (den : ℚ)]
      rw [hquotient]
      exact divNearestEven_nearest hdown

/-- A number of the format is rounded to itself. -/
theorem round_exact (hfrac : f.fracBits ≠ 0) (hden : den ≠ 0) (hbelow : magnitude < f.infMagnitude)
    (h : (num : ℚ) / den * 2 ^ exp = f.scale magnitude) (neg : Bool) :
    f.round neg num den exp = f.withSign neg magnitude := by
  obtain ⟨other, hround, hnear⟩ := round_eq hfrac neg num hden exp
  rw [h] at hnear
  rw [hround, nearestAt_exact hnear, min_eq_left hbelow.le]

/-- Rounding keeps the sign. It gives an infinity from half a unit above the greatest number on, and
else the nearest number. -/
theorem round_number (hfrac : f.fracBits ≠ 0) (hexp : f.expBits ≠ 0) (neg : Bool) (num : Nat)
    (hden : den ≠ 0) (exp : Int) :
    (f.overflow ≤ num / den * 2 ^ exp → f.number (f.round neg num den exp) = .infinite neg) ∧
      (num / den * 2 ^ exp < f.overflow →
        (∃ w, f.number (f.round neg num den exp) = .finite neg w) ∧
          f.Nearest (signOf neg * (num / den * 2 ^ exp)) (f.round neg num den exp)) := by
  obtain ⟨magnitude, hround, hnear⟩ := round_eq hfrac neg num hden exp
  have hx : (0 : ℚ) ≤ num / den * 2 ^ exp :=
    mul_nonneg (div_nonneg (Nat.cast_nonneg _) (Nat.cast_nonneg _)) (zpow_pos two_pos _).le
  rw [hround, ← overflow_le_iff hfrac hexp hnear, ← not_le, ← overflow_le_iff hfrac hexp hnear]
  constructor
  · intro hle
    rw [min_eq_right hle]
    exact number_infinity f neg
  · intro hlt
    have hlt := not_le.mp hlt
    rw [min_eq_left hlt.le]
    exact ⟨⟨_, number_withSign f neg hlt⟩, nearest_withSign hfrac hnear hx hlt neg⟩

end Round

end WasmEmbed.Ieee
