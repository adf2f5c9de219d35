import Mathlib.Tactic.NormNum
import WasmEmbed.Proofs.Ieee.Conversion
import WasmEmbed.Proofs.Value.Integers

/-! Host values for floating point numbers. An integer becomes the number that it is or is refused, a
single widens to the same number, and a double is rounded once, as a rational number, to the nearest
single. Where the width is the same every bit is kept. -/
namespace WasmEmbed
open WasmEmbed.Ieee

/-- The integer is a significand of at most `p` binary digits, and as many zeros as one likes after it. -/
def FitsSignificand (p : Nat) (n : Int) : Prop := ∃ (m : Int) (e : Nat), n = m * 2 ^ e ∧ |m| < 2 ^ p

/-- Where values of the type are patterns of a format with significands of `p` digits, the integer
becomes a pattern that denotes just this integer, or is refused because it does not fit. -/
structure BecomesExactly {k : Nat} (n : BitVec 64) (t : ValType) (f : Format) (p : Nat)
    (make : BitVec k → Val) (position : Position) (index : Nat) : Prop where
  accepted : (∃ w, coerce (.int n) t position index = .ok w) ↔ FitsSignificand p n.toInt
  exact : ∀ w, coerce (.int n) t position index = .ok w →
    ∃ b, w = make b ∧ f.value? b.toNat = some (n.toInt : ℚ)
  refused : ∀ e, coerce (.int n) t position index = .error e ↔
    ¬ FitsSignificand p n.toInt ∧ e = .type position index t.text (HostValue.int n).describe

variable {f : Format} {n : Int} {bits : Nat} {t : ValType} {position : Position} {index : Nat}

section Patterns

/-- An integer with a pattern fits the significand of the format. -/
theorem fits_of_value? (h : f.value? bits = some (n : ℚ)) : FitsSignificand (f.fracBits + 1) n := by
  obtain ⟨_, hn⟩ := value?_eq_some f h
  obtain ⟨m, e, hscale, hm, _⟩ := scale_parts f (f.magnitude bits)
  have hwidth : (m : ℤ) < 2 ^ (f.fracBits + 1) := by
    rw [pow_succ]
    exact_mod_cast (Nat.mul_comm 2 _ ▸ hm)
  have habs : |(n : ℚ)| = m * 2 ^ e := by
    rw [hn, abs_signOf_mul, abs_of_nonneg (scale_nonneg f _), hscale]
  rcases le_total 0 e with hup | hdown
  · obtain ⟨k, rfl⟩ := Int.eq_ofNat_of_zero_le hup
    have habs : |n| = m * 2 ^ k := by exact_mod_cast habs
    rcases (abs_eq (by positivity)).mp habs with hpos | hneg
    · exact ⟨m, k, hpos, by rwa [abs_of_nonneg (Int.natCast_nonneg m)]⟩
    · refine ⟨-m, k, by rw [hneg, neg_mul], ?_⟩
      rwa [abs_neg, abs_of_nonneg (Int.natCast_nonneg m)]
  · -- with units below one, an integer is no greater than its significand
    have hsmall : |(n : ℚ)| ≤ m := by
      rw [habs]
      exact mul_le_of_le_one_right (Nat.cast_nonneg m) (zpow_le_one_of_nonpos₀ one_le_two hdown)
    have hsmall : |n| ≤ m := by exact_mod_cast hsmall
    exact ⟨n, 0, by rw [pow_zero, mul_one], hsmall.trans_lt hwidth⟩

/-- An integer that fits is on the scale, so that rounding it changes nothing. -/
theorem value?_of_fits (hfrac : f.fracBits ≠ 0) (hleast : f.minExp ≤ 0)
    (hbelow : |(n : ℚ)| < f.scale f.infMagnitude) (h : FitsSignificand (f.fracBits + 1) n) :
    f.value? (f.ofInt n) = some (n : ℚ) := by
  obtain ⟨m, e, hn, hm⟩ := h
  have hwidth : m.natAbs ≤ 2 * 2 ^ f.fracBits := by
    have hlt : m.natAbs < 2 ^ (f.fracBits + 1) := by
      rw [Int.abs_eq_natAbs] at hm
      exact_mod_cast hm
    rw [Nat.pow_succ] at hlt
    omega
  obtain ⟨place, hplace⟩ := exists_scale f hwidth (hleast.trans (Int.natCast_nonneg e))
  have hsame : f.scale place = n.natAbs := by
    rw [hplace, hn, Int.natAbs_mul, Int.natAbs_pow, zpow_natCast]
    push_cast
    rfl
  have hcast : |(n : ℚ)| = n.natAbs := by rw [← Int.cast_abs, Int.abs_eq_natAbs, Int.cast_natCast]
  rw [hcast, ← hsame, (scale_strictMono f).lt_iff_lt] at hbelow
  have hround : f.ofInt n = f.withSign (n < 0) place := by
    refine round_exact hfrac one_ne_zero hbelow ?_ _
    rw [Nat.cast_one, div_one, zpow_zero, mul_one, hsame]
  rw [hround, value?_withSign f _ hbelow, hsame, ← hcast, signOf]
  rcases lt_or_ge n 0 with hneg | hpos
  · have hneg' : (n : ℚ) < 0 := Int.cast_lt_zero.mpr hneg
    rw [if_pos (decide_eq_true hneg), abs_of_neg hneg', neg_one_mul, neg_neg]
  · have hpos' : (0 : ℚ) ≤ n := Int.cast_nonneg hpos
    have hnot : ¬ (decide (n < 0)) = true := by simpa using hpos
    rw [if_neg hnot, abs_of_nonneg hpos', one_mul]

/-- The pattern that is found is that of the rounded integer, and it denotes the integer itself.
Both bounds of 128 bits are far from an integer of 64. -/
theorem exactPattern?_eq_some_iff (hfrac : f.fracBits ≠ 0) (hunit : f.minExp ≤ 0) (n : BitVec 64) :
    HostValue.exactPattern? f n = some bits ↔
      bits = f.ofInt n.toInt ∧ f.value? bits = some (n.toInt : ℚ) := by
  have hlow := BitVec.le_toInt n
  have hhigh := BitVec.toInt_lt (x := n)
  have hwide : (n.signExtend 128).toInt = n.toInt := BitVec.toInt_signExtend_of_le (by decide)
  unfold HostValue.exactPattern?
  dsimp only
  constructor
  · intro hbits
    split at hbits
    · rename_i hsame
      obtain rfl := Option.some.inj hbits
      have hback := congrArg BitVec.toInt hsame
      obtain ⟨hleast, hgreatest⟩ : -2 ^ 127 ≤ f.truncateSaturating (-2 ^ 127) (2 ^ 127 - 1)
          (f.ofInt n.toInt) ∧
          f.truncateSaturating (-2 ^ 127) (2 ^ 127 - 1) (f.ofInt n.toInt) ≤ 2 ^ 127 - 1 :=
        truncateSaturating_within (by decide) (by decide)
      rw [hwide, Format.toSigned, BitVec.toInt_ofInt_eq_self (by decide) hleast
        (Int.lt_of_le_sub_one hgreatest)] at hback
      exact ⟨rfl, value?_of_saturated hfrac hunit (by omega) (by omega) hback⟩
    · contradiction
  · rintro ⟨rfl, hvalue⟩
    have hsame : (f.toSigned 128 (f.ofInt n.toInt)).toInt = n.toInt :=
      toInt_toSigned (by decide) hvalue (by omega) (by omega)
    rw [if_pos (BitVec.eq_of_toInt_eq (hsame.trans hwide.symm))]

end Patterns

section Coercions

/-- The integers of the host against a format that is wide enough not to overflow. -/
theorem becomesExactly {k p : Nat} {make : BitVec k → Val} (n : BitVec 64)
    (hk : k = 1 + f.expBits + f.fracBits) (hp : p = f.fracBits + 1) (hfrac : f.fracBits ≠ 0)
    (hleast : f.minExp ≤ 0) (hwide : (2 : ℚ) ^ 63 < f.scale f.infMagnitude)
    (htoVal : (HostValue.int n).toVal? t =
      (HostValue.exactPattern? f n).map fun b => make (BitVec.ofNat k b))
    (position : Position) (index : Nat) : BecomesExactly n t f p make position index := by
  have hbelow : |(n.toInt : ℚ)| < f.scale f.infMagnitude := by
    have hlow := BitVec.le_toInt n
    have hhigh := BitVec.toInt_lt (x := n)
    have habs : |n.toInt| ≤ 2 ^ 63 := abs_le.mpr ⟨by omega, by omega⟩
    have hcast : |(n.toInt : ℚ)| ≤ 2 ^ 63 := by exact_mod_cast habs
    exact hcast.trans_lt hwide
  have hdenotes {bits : Nat} (hbits : HostValue.exactPattern? f n = some bits) :
      f.value? bits = some (n.toInt : ℚ) := ((exactPattern?_eq_some_iff hfrac hleast n).mp hbits).2
  have hfound : (∃ bits, HostValue.exactPattern? f n = some bits) ↔
      FitsSignificand p n.toInt := by
    rw [hp]
    constructor
    · rintro ⟨bits, hbits⟩
      exact fits_of_value? (hdenotes hbits)
    · intro hfits
      have hvalue := value?_of_fits hfrac hleast hbelow hfits
      exact ⟨_, (exactPattern?_eq_some_iff hfrac hleast n).mpr ⟨rfl, hvalue⟩⟩
  constructor
  · rw [← hfound]
    constructor
    · rintro ⟨w, hw⟩
      rw [coerce_ok_iff, htoVal, Option.map_eq_some_iff] at hw
      obtain ⟨bits, hbits, _⟩ := hw
      exact ⟨bits, hbits⟩
    · rintro ⟨bits, hbits⟩
      refine ⟨make (BitVec.ofNat k bits), ?_⟩
      rw [coerce_ok_iff, htoVal, hbits]
      rfl
  · intro w hw
    rw [coerce_ok_iff, htoVal, Option.map_eq_some_iff] at hw
    obtain ⟨bits, hbits, rfl⟩ := hw
    refine ⟨_, rfl, ?_⟩
    rw [BitVec.toNat_ofNat, hk, value?_mod]
    exact hdenotes hbits
  · intro e
    rw [coerce_error_iff, htoVal, Option.map_eq_none_iff, Option.eq_none_iff_forall_ne_some,
      ← hfound, not_exists]

/-- Halfway between the greatest single number and the next power of two. -/
theorem overflow_single : single.overflow = 2 ^ 128 - 2 ^ 103 := by
  have hgreatest : single.scale (single.infMagnitude - 1) = (2 ^ 24 - 1) * 2 ^ 104 := by
    have h := scale_eq single (u := 253) (q := 2 ^ 24 - 1) (by decide) (Or.inr (by decide))
    have hexp : single.minExp + (253 : ℕ) = (104 : ℕ) := by decide
    rw [hexp, zpow_natCast] at h
    norm_num at h ⊢
    exact h
  rw [Format.overflow, hgreatest, scale_infMagnitude_single]
  norm_num

/-- A single float becomes the double of the same number. -/
theorem coerce_widened (x : BitVec 32) (position : Position) (index : Nat) :
    ∃ b : BitVec 64, coerce (.float32 x) .f64 position index = .ok (.f64 b) ∧
      double.number b.toNat = single.number x.toNat :=
  ⟨_, (coerce_ok_iff _ _ _ _ _).mpr rfl, number_widen x⟩

/-- A double float becomes the nearest single one. -/
theorem coerce_narrowed (x : BitVec 64) (position : Position) (index : Nat) :
    ∃ b : BitVec 32, coerce (.float x) .f32 position index = .ok (.f32 b) ∧
      (double.number x.toNat).RoundsTo single (2 ^ 128 - 2 ^ 103) b.toNat := by
  refine ⟨_, (coerce_ok_iff _ _ _ _ _).mpr rfl, ?_⟩
  rw [← overflow_single]
  exact (roundsTo_mod _ single _ _).mpr (convert_rounds double single (by decide) (by decide) x.toNat)

end Coercions

/-- An integer becomes a single or a double exactly if its significand fits into 24 or 53 binary digits,
and then the number that it is; else it is refused with an error that tells the place, the type and
the value. A single becomes the double that stands for the same, be it a number, a zero with its
sign, an infinity or a NaN. A double becomes the nearest single, of two the one with the even
significand, with its sign; an infinity exactly from `2^128 - 2^103` on; a NaN of a NaN. No bit
changes where the width is the same. Vectors and null are refused. -/
theorem floats_coerced_exactly (position : Position) (index : Nat) :
    (∀ n : BitVec 64, BecomesExactly n .f32 single 24 Val.f32 position index ∧
      BecomesExactly n .f64 double 53 Val.f64 position index) ∧
    (∀ x : BitVec 32, ∃ b : BitVec 64, coerce (.float32 x) .f64 position index = .ok (.f64 b) ∧
      double.number b.toNat = single.number x.toNat) ∧
    (∀ x : BitVec 64, ∃ b : BitVec 32, coerce (.float x) .f32 position index = .ok (.f32 b) ∧
      (double.number x.toNat).RoundsTo single (2 ^ 128 - 2 ^ 103) b.toNat) ∧
    (∀ x : BitVec 32, coerce (.float32 x) .f32 position index = .ok (.f32 x)) ∧
    (∀ x : BitVec 64, coerce (.float x) .f64 position index = .ok (.f64 x)) ∧
    ∀ v : HostValue, (v = .null ∨ ∃ bits, v = .v128 bits) →
      coerce v .f32 position index = .error (.type position index "f32" v.describe) ∧
        coerce v .f64 position index = .error (.type position index "f64" v.describe) := by
  refine ⟨fun n => ⟨?_, ?_⟩, fun x => coerce_widened x position index,
    fun x => coerce_narrowed x position index, fun _ => rfl, fun _ => rfl, ?_⟩
  · refine becomesExactly n rfl rfl (by decide) (by decide) ?_ rfl position index
    rw [scale_infMagnitude_single]
    exact pow_lt_pow_right₀ one_lt_two (by omega)
  · refine becomesExactly n rfl rfl (by decide) (by decide) ?_ rfl position index
    rw [scale_infMagnitude_double]
    exact pow_lt_pow_right₀ one_lt_two (by omega)
  · rintro v (rfl | ⟨bits, rfl⟩)
    · exact ⟨rfl, rfl⟩
    · exact ⟨rfl, rfl⟩

/-- Halfway between two singles the even significand wins, and halfway above the greatest single
there is only the infinity. -/
example : coerce (.float 0x3FF0000010000000#64) .f32 .argument 0 = .ok (.f32 0x3F800000#32) ∧
    coerce (.float 0x3FF0000030000000#64) .f32 .argument 0 = .ok (.f32 0x3F800002#32) ∧
    coerce (.float 0x47EFFFFFF0000000#64) .f32 .argument 0 = .ok (.f32 0x7F800000#32) := by
  decide +kernel

end WasmEmbed
