import Mathlib.Data.Nat.Cast.Order.Field
import WasmEmbed.Proofs.Ieee.Conversion

/-! Range tests and integer parts. Patterns compare as the numbers that they denote, so that what lies
between two numbers has a number itself, and a pattern is its own integer part exactly if its number
is an integer. What an integer is rounded to is an integer again. -/
namespace WasmEmbed.Ieee

/-- The number that stands as many places above zero, or below it. -/
def Format.numberAt (f : Format) (key : Int) : ℚ :=
  if key < 0 then -f.scale key.natAbs else f.scale key.natAbs

variable {f g : Format} {a b low high bits mag magnitude : Nat} {neg : Bool} {exp lo hi n : Int}
  {x y l h : ℚ}

section Comparison

theorem natAbs_orderKey (f : Format) (bits : Nat) :
    (f.orderKey bits).natAbs = f.magnitude bits := by
  unfold Format.orderKey
  split
  · rw [Int.natAbs_neg, Int.natAbs_natCast]
  · exact Int.natAbs_natCast _

/-- A negative zero has the same place as the positive one. -/
theorem numberAt_orderKey (f : Format) (bits : Nat) :
    f.numberAt (f.orderKey bits) = signOf (f.isNegative bits) * f.scale (f.magnitude bits) := by
  unfold Format.numberAt
  rw [natAbs_orderKey]
  unfold Format.orderKey signOf
  cases f.isNegative bits with
  | false =>
    have hnonneg : ¬ ((f.magnitude bits : ℕ) : Int) < 0 := not_lt.mpr (Int.natCast_nonneg _)
    rw [if_neg Bool.false_ne_true, if_neg Bool.false_ne_true, if_neg hnonneg, one_mul]
  | true =>
    rw [if_pos rfl, if_pos rfl, neg_one_mul]
    rcases Nat.eq_zero_or_pos (f.magnitude bits) with hzero | hpos
    · rw [hzero, scale_zero, neg_zero, ite_self]
    · rw [if_pos (by omega)]

/-- The numbers stand in the order of their places. -/
theorem numberAt_lt (f : Format) {k j : Int} (hkj : k < j) : f.numberAt k < f.numberAt j := by
  have hmono := scale_strictMono f
  unfold Format.numberAt
  by_cases hk : k < 0
  · have hbelow : 0 < f.scale k.natAbs := by
      rw [← scale_zero f]
      exact hmono (by omega)
    rw [if_pos hk]
    split
    · exact neg_lt_neg (hmono (by omega))
    · exact (neg_neg_of_pos hbelow).trans_le (scale_nonneg f _)
  · rw [if_neg hk, if_neg (by omega)]
    exact hmono (by omega)

theorem numberAt_le_iff (f : Format) (k j : Int) : f.numberAt k ≤ f.numberAt j ↔ k ≤ j :=
  StrictMono.le_iff_le fun _ _ => numberAt_lt f

theorem numberAt_inj (f : Format) (k j : Int) : f.numberAt k = f.numberAt j ↔ k = j :=
  (StrictMono.injective fun _ _ => numberAt_lt f).eq_iff

/-- A pattern with a number is no NaN, and has the place of its number among all. -/
theorem place_of_value? (hx : f.value? bits = some x) :
    f.isNan bits = false ∧ x = f.numberAt (f.orderKey bits) := by
  obtain ⟨hbelow, rfl⟩ := value?_eq_some f hx
  exact ⟨decide_eq_false (not_lt.mpr hbelow.le), (numberAt_orderKey f bits).symm⟩

/-- Patterns compare as their numbers do. -/
theorem le_iff (hx : f.value? a = some x) (hy : f.value? b = some y) :
    f.le a b = true ↔ x ≤ y := by
  obtain ⟨ha, rfl⟩ := place_of_value? hx
  obtain ⟨hb, rfl⟩ := place_of_value? hy
  rw [Format.le, ha, hb, numberAt_le_iff]
  exact decide_eq_true_iff

/-- Patterns are equal, as floats, if their numbers are. -/
theorem eq_iff (hx : f.value? a = some x) (hy : f.value? b = some y) :
    f.eq a b = true ↔ x = y := by
  obtain ⟨ha, rfl⟩ := place_of_value? hx
  obtain ⟨hb, rfl⟩ := place_of_value? hy
  rw [Format.eq, ha, hb, numberAt_inj]
  exact beq_iff_eq

/-- A NaN is neither below nor above anything, and infinities are not within numbers. -/
theorem within_iff (hl : f.value? low = some l) (hh : f.value? high = some h) :
    (f.le low bits && f.le bits high) = true ↔ ∃ x, f.value? bits = some x ∧ l ≤ x ∧ x ≤ h := by
  rw [Bool.and_eq_true]
  constructor
  · rintro ⟨hlow, hhigh⟩
    have hbelow : f.magnitude bits < f.infMagnitude := by
      have hlowest := (value?_eq_some f hl).1
      have hhighest := (value?_eq_some f hh).1
      rw [← natAbs_orderKey] at hlowest hhighest ⊢
      simp only [Format.le, Bool.and_eq_true, decide_eq_true_eq] at hlow hhigh
      omega
    have hx : f.value? bits = some _ := (value?_eq f bits).trans (if_pos hbelow)
    exact ⟨_, hx, (le_iff hl hx).mp hlow, (le_iff hx hh).mp hhigh⟩
  · rintro ⟨x, hx, hlow, hhigh⟩
    exact ⟨(le_iff hl hx).mpr hlow, (le_iff hx hh).mpr hhigh⟩

end Comparison

section IntegerPart

theorem decode_mag_lt (hd : f.decode bits = .finite neg mag exp) : mag < 2 * 2 ^ f.fracBits := by
  have hfrac : f.fracField bits < 2 ^ f.fracBits := Nat.mod_lt _ (Nat.two_pow_pos _)
  unfold Format.decode at hd
  dsimp only at hd
  split at hd
  · split at hd
    · contradiction
    · contradiction
  · split at hd
    · obtain ⟨_, rfl, _⟩ := Datum.finite.inj hd
      omega
    · obtain ⟨_, rfl, _⟩ := Datum.finite.inj hd
      omega

theorem finite_of_truncate {d : Datum} (hn : d.truncate = some n) :
    ∃ neg mag exp, d = .finite neg mag exp := by
  cases d with
  | finite neg mag exp => exact ⟨neg, mag, exp, rfl⟩
  | _ => contradiction

/-- The integer part is a number of the format, for its significand is no longer than that of the
number. -/
theorem value?_trunc (hfrac : f.fracBits ≠ 0) (hleast : f.minExp ≤ 0)
    (hn : (f.decode bits).truncate = some n) : f.value? (f.trunc bits) = some (n : ℚ) := by
  obtain ⟨neg, mag, exp, hd⟩ := finite_of_truncate hn
  unfold Format.trunc Format.toIntegral
  rw [hd] at hn ⊢
  dsimp only
  by_cases hexp : 0 ≤ exp
  · have hwhole : mag * 2 ^ exp.toNat % 2 ^ (-exp).toNat = 0 := by
      have hdown : (-exp).toNat = 0 := by omega
      rw [hdown, Nat.pow_zero, Nat.mod_one]
    rw [if_pos hexp, ← decode_toInt?_iff, hd, Datum.toInt?, if_pos hwhole]
    exact hn
  · have hup : exp.toNat = 0 := by omega
    have hless : mag / 2 ^ (-exp).toNat ≤ mag := Nat.div_le_self _ _
    have hinteger : n = if neg then -((mag / 2 ^ (-exp).toNat : ℕ) : ℤ)
        else ((mag / 2 ^ (-exp).toNat : ℕ) : ℤ) := by
      rw [← Option.some.inj hn, hup, Nat.pow_zero, Nat.mul_one]
    obtain ⟨other, hbelow, hscale⟩ := decode_finite f hd
    obtain ⟨place, hplace⟩ := exists_scale f (m := mag / 2 ^ (-exp).toNat)
      (hless.trans (decode_mag_lt hd).le) hleast
    rw [zpow_zero, mul_one] at hplace
    have hplaced : place < f.infMagnitude := by
      have hquotient : ((mag / 2 ^ (-exp).toNat : ℕ) : ℚ) ≤ mag * 2 ^ exp := by
        rw [magnitude_quotient, hup, Nat.pow_zero, Nat.mul_one]
        exact Nat.cast_div_le
      rw [← (scale_strictMono f).lt_iff_lt, hplace]
      exact (hquotient.trans hscale.ge).trans_lt ((scale_strictMono f) hbelow)
    have hvalue : ((mag / 2 ^ (-exp).toNat : ℕ) : ℚ) / (1 : ℕ) * 2 ^ (0 : ℤ) = f.scale place := by
      rw [hplace, Nat.cast_one, div_one, zpow_zero, mul_one]
    rw [if_neg hexp, round_exact hfrac one_ne_zero hplaced hvalue neg, value?_withSign f neg hplaced,
      hplace, hinteger]
    cases neg with
    | false => rw [signOf, if_neg Bool.false_ne_true, if_neg Bool.false_ne_true, one_mul,
        Int.cast_natCast]
    | true => rw [signOf, if_pos rfl, if_pos rfl, neg_one_mul, Int.cast_neg, Int.cast_natCast]

/-- An integer is its own integer part. -/
theorem truncate_of_value? (hn : f.value? bits = some (n : ℚ)) :
    (f.decode bits).truncate = some n := by
  have hint := (decode_toInt?_iff f bits n).mpr hn
  unfold Datum.toInt? at hint
  split at hint
  · rename_i hd
    rw [hd]
    split at hint
    · exact hint
    · contradiction
  · contradiction

/-- A number is not changed by cutting off what is behind its point exactly if it is an integer. -/
theorem trunc_eq_iff (hfrac : f.fracBits ≠ 0) (hleast : f.minExp ≤ 0)
    (hx : f.value? bits = some x) :
    f.eq (f.trunc bits) bits = true ↔ ∃ n : Int, x = n := by
  constructor
  · intro hsame
    have hdatum := value?_decode f bits
    rw [hx] at hdatum
    cases hd : f.decode bits with
    | finite neg mag exp =>
      have htrunc := value?_trunc hfrac hleast (congrArg Datum.truncate hd)
      exact ⟨_, ((eq_iff htrunc hx).mp hsame).symm⟩
    | _ =>
      rw [hd] at hdatum
      contradiction
  · rintro ⟨n, rfl⟩
    exact (eq_iff (value?_trunc hfrac hleast (truncate_of_value? hx)) hx).mpr rfl

/-- A saturating cast takes the integer part, or the bound that it is beyond. -/
theorem truncateSaturating_eq (hn : (f.decode bits).truncate = some n) :
    f.truncateSaturating lo hi bits = if n < lo then lo else if hi < n then hi else n := by
  obtain ⟨neg, mag, exp, hd⟩ := finite_of_truncate hn
  unfold Format.truncateSaturating
  rw [hd] at hn ⊢
  dsimp only
  rw [hn]

/-- A saturating cast leaves integers within its bounds as they are. -/
theorem truncateSaturating_of_value? (hn : f.value? bits = some (n : ℚ)) (hlow : lo ≤ n)
    (hhigh : n ≤ hi) : f.truncateSaturating lo hi bits = n := by
  rw [truncateSaturating_eq (truncate_of_value? hn), if_neg (not_lt.mpr hlow),
    if_neg (not_lt.mpr hhigh)]

/-- A saturating cast of whatever pattern is within its bounds, if zero is. -/
theorem truncateSaturating_within (hlow : lo ≤ 0) (hhigh : 0 ≤ hi) :
    lo ≤ f.truncateSaturating lo hi bits ∧ f.truncateSaturating lo hi bits ≤ hi := by
  unfold Format.truncateSaturating
  split
  · exact ⟨hlow, hhigh⟩
  · split
    · omega
    · omega
  · split
    · split
      · omega
      · split
        · omega
        · omega
    · exact ⟨hlow, hhigh⟩

/-- A saturating cast makes the bounds of the infinities. -/
theorem truncateSaturating_infinite (hinfinite : f.number bits = .infinite neg) :
    f.truncateSaturating lo hi bits = if neg then lo else hi := by
  rw [number_decode] at hinfinite
  unfold Format.truncateSaturating
  cases hd : f.decode bits with
  | infinite sign =>
    rw [hd] at hinfinite
    rw [← Number.infinite.inj hinfinite]
  | _ =>
    rw [hd] at hinfinite
    contradiction

end IntegerPart

section Rounding

/-- From twice the significand with just a leading one on, all places are integers, and all integers up
to there are places. So nearest to an integer is an integer. -/
theorem nearestAt_integral (hleast : f.minExp ≤ 0) {m : Nat} (hnear : f.NearestAt m magnitude) :
    ∃ z : ℕ, f.scale magnitude = z := by
  obtain ⟨u, hu⟩ := Int.le.dest hleast
  by_cases hsmall : m ≤ 2 * 2 ^ f.fracBits
  · obtain ⟨place, hplace⟩ := exists_scale f hsmall hleast
    rw [zpow_zero, mul_one] at hplace
    rw [← hplace] at hnear
    rw [nearestAt_exact hnear]
    exact ⟨m, hplace⟩
  · rcases scale_whole_or_below f u magnitude with ⟨z, hz⟩ | ⟨_, hbelow⟩
    · rw [hu, zpow_zero, mul_one] at hz
      exact ⟨z, hz⟩
    · obtain ⟨place, hplace⟩ := exists_scale f (m := 2 * 2 ^ f.fracBits) (le_refl _) hleast
      rw [hu, zpow_zero, mul_one] at hbelow
      rw [zpow_zero, mul_one] at hplace
      have hwide : ((2 * 2 ^ f.fracBits : ℕ) : ℚ) ≤ m := Nat.cast_le.mpr (not_le.mp hsmall).le
      have htwice : ((2 ^ f.fracBits : ℕ) : ℚ) ≤ (2 * 2 ^ f.fracBits : ℕ) :=
        Nat.cast_le.mpr (by omega)
      have hcloser := (hnear place).1
      rw [hplace, abs_of_nonneg (by linarith), abs_of_nonneg (by linarith)] at hcloser
      linarith

/-- What an integer is rounded to is an integer, or the infinity of its sign. -/
theorem ofInt_integral (hfrac : f.fracBits ≠ 0) (hleast : f.minExp ≤ 0) (n : Int) :
    (∃ z : Int, f.value? (f.ofInt n) = some (z : ℚ)) ∨
      f.number (f.ofInt n) = .infinite (n < 0) := by
  obtain ⟨magnitude, hround, hnear⟩ := round_eq hfrac (decide (n < 0)) n.natAbs one_ne_zero 0
  rw [Nat.cast_one, div_one, zpow_zero, mul_one] at hnear
  obtain ⟨z, hz⟩ := nearestAt_integral hleast hnear
  rw [Format.ofInt, hround]
  rcases Nat.lt_or_ge magnitude f.infMagnitude with hlt | hge
  · left
    rw [min_eq_left hlt.le, value?_withSign f _ hlt, hz]
    refine ⟨if n < 0 then -z else z, ?_⟩
    unfold signOf
    split
    · rw [if_pos (of_decide_eq_true ‹_›)]
      push_cast
      rw [neg_one_mul]
    · rw [if_neg (fun hneg => ‹¬ _› (decide_eq_true hneg))]
      push_cast
      rw [one_mul]
  · right
    rw [min_eq_right hge]
    exact number_infinity f _

/-- An integer that survives rounding and the way back is the number that it was rounded to. -/
theorem value?_of_saturated (hfrac : f.fracBits ≠ 0) (hleast : f.minExp ≤ 0) (hlow : lo < n)
    (hhigh : n < hi) (hsame : f.truncateSaturating lo hi (f.ofInt n) = n) :
    f.value? (f.ofInt n) = some (n : ℚ) := by
  rcases ofInt_integral hfrac hleast n with ⟨z, hz⟩ | hinfinite
  · rw [truncateSaturating_eq (truncate_of_value? hz)] at hsame
    have hzn : z = n := by
      split at hsame
      · omega
      · split at hsame
        · omega
        · exact hsame
    rw [hz, hzn]
  · rw [truncateSaturating_infinite hinfinite] at hsame
    split at hsame
    · omega
    · omega

end Rounding

section Widths

/-- Patterns of the same number have the same value, also in different formats. -/
theorem value?_of_number (h : f.number a = g.number b) : f.value? a = g.value? b := by
  unfold Format.number at h
  cases hf : f.value? a with
  | some x =>
    rw [hf] at h
    cases hg : g.value? b with
    | some y =>
      rw [hg] at h
      rw [(Number.finite.inj h).2]
    | none =>
      rw [hg] at h
      dsimp only at h
      split at h
      · contradiction
      · contradiction
  | none =>
    rw [hf] at h
    cases hg : g.value? b with
    | none => rfl
    | some y =>
      rw [hg] at h
      dsimp only at h
      split at h
      · contradiction
      · contradiction

theorem scale_infMagnitude_single : single.scale single.infMagnitude = 2 ^ 128 :=
  scale_infMagnitude (k := 105) single (by decide) (by decide)

theorem scale_infMagnitude_double : double.scale double.infMagnitude = 2 ^ 1024 :=
  scale_infMagnitude (k := 972) double (by decide) (by decide)

/-- The doubles have every number of the singles. -/
theorem number_convert_double (bits : Nat) :
    double.number (single.convert double bits) = single.number bits := by
  have hgreatest : single.scale single.infMagnitude ≤ double.scale double.infMagnitude := by
    rw [scale_infMagnitude_single, scale_infMagnitude_double]
    exact pow_le_pow_right₀ one_le_two (by omega)
  exact convert_exact single double (by decide) (by decide) (by decide) hgreatest bits

end Widths

end WasmEmbed.Ieee
