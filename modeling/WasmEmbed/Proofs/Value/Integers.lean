import WasmEmbed.Proofs.Ieee.Integral
import WasmEmbed.Value.Coerce

/-! Host values for integers. What becomes an integer of a module is just what denotes one in its range,
as a rational number and not only nearly; it becomes that integer, and everything else is refused by
name and place. -/
namespace WasmEmbed
open WasmEmbed.Ieee

namespace HostValue

/-- The host value denotes this integer, exactly. -/
def Denotes : HostValue → Int → Prop
  | int m, n => m.toInt = n
  | float b, n => double.value? b.toNat = some (n : ℚ)
  | float32 b, n => single.value? b.toNat = some (n : ℚ)
  | _, _ => False

/-- The value denotes this integer, and 32 bits hold it. -/
def DenotesI32 (v : HostValue) (n : Int) : Prop := v.Denotes n ∧ -2 ^ 31 ≤ n ∧ n ≤ 2 ^ 31 - 1

/-- The value is this integer, or denotes it and is so small that no other integer is nearly the
same number. -/
def DenotesI64 : HostValue → Int → Prop
  | int m, n => m.toInt = n
  | v, n => v.Denotes n ∧ |n| ≤ 2 ^ 53 - 1

/-- The value is infinite, or not a number, or a number other than zero without a leading one. -/
def Irregular : HostValue → Prop
  | float b => double.Irregular b.toNat
  | float32 b => single.Irregular b.toNat
  | _ => False

end HostValue

variable {v : HostValue} {n l h : Int} {t : ValType} {low high bits width : Nat} {f : Format}

section Doubles

theorem number_widen (x : BitVec 32) :
    double.number (HostValue.widen x).toNat = single.number x.toNat :=
  (number_mod double _).trans (number_convert_double x.toNat)

theorem value?_widen (x : BitVec 32) :
    double.value? (HostValue.widen x).toNat = single.value? x.toNat :=
  value?_of_number (number_widen x)

/-- Casting a float that denotes an integer of the width gives the integer. -/
theorem toInt_toSigned (hwidth : 0 < width) (hn : f.value? bits = some (n : ℚ))
    (hlow : -2 ^ (width - 1) ≤ n) (hhigh : n < 2 ^ (width - 1)) :
    (f.toSigned width bits).toInt = n := by
  rw [Format.toSigned, truncateSaturating_of_value? hn hlow (by omega)]
  exact BitVec.toInt_ofInt_eq_self hwidth hlow hhigh

/-- The comparisons with two integers, the test against the integer part and the conversion together
accept just the integers between the two, and change none. -/
theorem integral?_eq_some_iff (hwidth : 0 < width) (hl : double.value? low = some (l : ℚ))
    (hh : double.value? high = some (h : ℚ)) (hlow : -2 ^ (width - 1) ≤ l)
    (hhigh : h < 2 ^ (width - 1)) (b : BitVec 64) (m : BitVec width) :
    HostValue.integral? width low high b = some m ↔
      double.value? b.toNat = some (m.toInt : ℚ) ∧ l ≤ m.toInt ∧ m.toInt ≤ h := by
  unfold HostValue.integral?
  dsimp only
  constructor
  · intro hm
    split at hm
    · rename_i hchecks
      obtain ⟨hwithin, hwhole⟩ := Bool.and_eq_true_iff.mp hchecks
      obtain ⟨x, hx, hleast, hgreatest⟩ := (within_iff hl hh).mp hwithin
      obtain ⟨n, rfl⟩ := (trunc_eq_iff (by decide) (by decide) hx).mp hwhole
      have hleast : l ≤ n := Int.cast_le.mp hleast
      have hgreatest : n ≤ h := Int.cast_le.mp hgreatest
      have hsame := toInt_toSigned hwidth hx (hlow.trans hleast) (hgreatest.trans_lt hhigh)
      rw [← Option.some.inj hm, hsame]
      exact ⟨hx, hleast, hgreatest⟩
    · contradiction
  · rintro ⟨hvalue, hleast, hgreatest⟩
    have hwithin := (within_iff hl hh).mpr
      ⟨_, hvalue, Int.cast_le.mpr hleast, Int.cast_le.mpr hgreatest⟩
    have hwhole := (trunc_eq_iff (by decide) (by decide) hvalue).mpr ⟨_, rfl⟩
    have hsame := toInt_toSigned hwidth hvalue (hlow.trans hleast) (hgreatest.trans_lt hhigh)
    rw [if_pos (Bool.and_eq_true_iff.mpr ⟨hwithin, hwhole⟩), BitVec.eq_of_toInt_eq hsame]

/-- A float is taken as an integer of 32 bits just if it denotes it. -/
theorem integralI32?_eq_some_iff (b : BitVec 64) (m : BitVec 32) :
    HostValue.integralI32? b = some m ↔ double.value? b.toNat = some (m.toInt : ℚ) := by
  have hl : double.value? (double.ofInt (-2 ^ (31 : Nat))) = some ((-2 ^ 31 : Int) : ℚ) :=
    (decode_toInt?_iff double _ _).mp (by decide +kernel)
  have hh : double.value? (double.ofInt (2 ^ (31 : Nat) - 1)) = some ((2 ^ 31 - 1 : Int) : ℚ) :=
    (decode_toInt?_iff double _ _).mp (by decide +kernel)
  have hleast := BitVec.le_toInt m
  have hgreatest := BitVec.toInt_lt (x := m)
  rw [HostValue.integralI32?, integral?_eq_some_iff (by decide) hl hh (by decide) (by decide)]
  exact ⟨fun hm => hm.1, fun hvalue => ⟨hvalue, by omega, by omega⟩⟩

/-- The greatest integer without gaps below it is a double, and so is its opposite. -/
theorem safeI64?_eq_some_iff (b m : BitVec 64) :
    HostValue.safeI64? b = some m ↔
      double.value? b.toNat = some (m.toInt : ℚ) ∧ |m.toInt| ≤ 2 ^ 53 - 1 := by
  have hl : double.value? (double.neg (double.ofInt maxSafeInteger)) =
      some ((-(2 ^ 53 - 1) : Int) : ℚ) := (decode_toInt?_iff double _ _).mp (by decide +kernel)
  have hh : double.value? (double.ofInt maxSafeInteger) = some ((2 ^ 53 - 1 : Int) : ℚ) :=
    (decode_toInt?_iff double _ _).mp (by decide +kernel)
  rw [HostValue.safeI64?, integral?_eq_some_iff (by decide) hl hh (by decide) (by decide), abs_le]

end Doubles

theorem toInt_i32 (hlow : -2 ^ 31 ≤ n) (hhigh : n ≤ 2 ^ 31 - 1) : (BitVec.ofInt 32 n).toInt = n :=
  BitVec.toInt_ofInt_eq_self (by decide) hlow (by omega)

theorem toInt_i64 (hn : v.DenotesI64 n) : (BitVec.ofInt 64 n).toInt = n := by
  cases v with
  | int m =>
    have hm : m.toInt = n := hn
    rw [← hm, BitVec.ofInt_toInt]
  | _ =>
    obtain ⟨hlow, hhigh⟩ := abs_le.mp hn.2
    exact BitVec.toInt_ofInt_eq_self (by decide) (by omega) (by omega)

section Values

/-- An integer is narrowed just if 32 bits denote it. -/
theorem narrow?_eq_some_iff (n : BitVec 64) (m : BitVec 32) :
    HostValue.narrow? n = some m ↔ n.toInt = m.toInt := by
  unfold HostValue.narrow?
  constructor
  · intro hm
    split at hm
    · rename_i hfits
      rw [← Option.some.inj hm, toInt_i32 hfits.1 (Int.le_sub_one_of_lt hfits.2)]
    · contradiction
  · intro hsame
    rw [hsame, if_pos ⟨BitVec.le_toInt m, BitVec.toInt_lt⟩, BitVec.ofInt_toInt]

/-- The values that are made of what is found are those that are made of what it is found for. -/
theorem made_iff {α : Type} {found : Option α} {holds : α → Prop}
    (hfound : ∀ m, found = some m ↔ holds m) (make : α → Val) (w : Val) :
    found.map make = some w ↔ ∃ m, w = make m ∧ holds m := by
  rw [Option.map_eq_some_iff]
  refine exists_congr fun m => ?_
  rw [hfound, and_comm, eq_comm]

/-- Every integer of 32 bits is in their range. -/
theorem toVal?_i32_iff (w : Val) :
    v.toVal? .i32 = some w ↔ ∃ m : BitVec 32, w = .i32 m ∧ v.DenotesI32 m.toInt := by
  have hrange (m : BitVec 32) : v.DenotesI32 m.toInt ↔ v.Denotes m.toInt :=
    and_iff_left ⟨BitVec.le_toInt m, Int.le_sub_one_of_lt BitVec.toInt_lt⟩
  simp only [hrange]
  cases v with
  | int n => exact made_iff (narrow?_eq_some_iff n) Val.i32 w
  | float b => exact made_iff (integralI32?_eq_some_iff b) Val.i32 w
  | float32 b =>
    refine made_iff (fun m => ?_) Val.i32 w
    rw [integralI32?_eq_some_iff, value?_widen]
    exact Iff.rfl
  | _ => exact iff_of_false (fun hw => nomatch hw) fun ⟨_, _, hdenotes⟩ => hdenotes

/-- Floats count as integers of 64 bits only as far as all integers are floats. -/
theorem toVal?_i64_iff (w : Val) :
    v.toVal? .i64 = some w ↔ ∃ m : BitVec 64, w = .i64 m ∧ v.DenotesI64 m.toInt := by
  cases v with
  | int n =>
    have hself (m : BitVec 64) : some n = some m ↔ n.toInt = m.toInt := by
      rw [Option.some_inj, BitVec.toInt_inj]
    exact made_iff hself Val.i64 w
  | float b => exact made_iff (safeI64?_eq_some_iff b) Val.i64 w
  | float32 b =>
    refine made_iff (fun m => ?_) Val.i64 w
    rw [safeI64?_eq_some_iff, value?_widen]
    exact Iff.rfl
  | _ => exact iff_of_false (fun hw => nomatch hw) fun ⟨_, _, hdenotes, _⟩ => hdenotes

end Values

/-- Coercion gives what the value converts to. -/
theorem coerce_ok_iff (v : HostValue) (t : ValType) (position : Position) (index : Nat) (w : Val) :
    coerce v t position index = .ok w ↔ v.toVal? t = some w := by
  unfold coerce
  split
  · rename_i x hx
    rw [hx, Option.some_inj, Except.ok.injEq]
  · rename_i hnone
    rw [hnone]
    exact iff_of_false (fun h => nomatch h) (fun h => nomatch h)

/-- Coercion fails, if it does, with the type that was asked for and a description of the value. -/
theorem coerce_error_iff (v : HostValue) (t : ValType) (position : Position) (index : Nat)
    (e : Error) : coerce v t position index = .error e ↔
      v.toVal? t = none ∧ e = .type position index t.text v.describe := by
  unfold coerce
  split
  · rename_i x hx
    rw [hx]
    exact iff_of_false (fun h => nomatch h) (fun h => nomatch h.1)
  · rename_i hnone
    rw [Except.error.injEq]
    exact ⟨fun h => ⟨hnone, h.symm⟩, fun h => h.2.symm⟩

/-- If the integers of a type are made of just those that the value is held to denote, the value becomes
each of these and is refused if there is none. -/
theorem coerce_integer {k : Nat} {make : BitVec k → Val} {holds : Int → Prop}
    (hmake : Function.Injective make) (hrange : ∀ n, holds n → ∃ m : BitVec k, m.toInt = n)
    (h : ∀ w, v.toVal? t = some w ↔ ∃ m, w = make m ∧ holds m.toInt) (position : Position)
    (index : Nat) :
    (∀ n, holds n ↔ ∃ m, coerce v t position index = .ok (make m) ∧ m.toInt = n) ∧
      ∀ e, coerce v t position index = .error e ↔
        (∀ n, ¬ holds n) ∧ e = .type position index t.text v.describe := by
  constructor
  · intro n
    constructor
    · intro hn
      obtain ⟨m, rfl⟩ := hrange n hn
      exact ⟨m, (coerce_ok_iff v t position index _).mpr ((h _).mpr ⟨m, rfl, hn⟩), rfl⟩
    · rintro ⟨m, hok, rfl⟩
      obtain ⟨m', hsame, hm'⟩ := (h _).mp ((coerce_ok_iff v t position index _).mp hok)
      rw [hmake hsame]
      exact hm'
  · intro e
    have hnone : v.toVal? t = none ↔ ∀ n, ¬ holds n := by
      rw [Option.eq_none_iff_forall_ne_some]
      constructor
      · intro hnot n hn
        obtain ⟨m, rfl⟩ := hrange n hn
        exact hnot _ ((h _).mpr ⟨m, rfl, hn⟩)
      · intro hnot w hw
        obtain ⟨m, _, hm⟩ := (h w).mp hw
        exact hnot _ hm
    rw [coerce_error_iff, hnone]

/-- A host value becomes an integer of 32 bits exactly if it denotes one from `-2^31` to `2^31 - 1`, and
an integer of 64 bits exactly if it is given as an integer or is a floating point number that
denotes one of absolute value at most `2^53 - 1`. It becomes just that integer. All else is refused
with an error that tells the place, the type and the value; infinities, NaNs and subnormal numbers
are never among the integers. -/
theorem integers_coerced_exactly (v : HostValue) (position : Position) (index : Nat) :
    (∀ n, v.DenotesI32 n ↔
      ∃ m : BitVec 32, coerce v .i32 position index = .ok (.i32 m) ∧ m.toInt = n) ∧
    (∀ e, coerce v .i32 position index = .error e ↔
      (∀ n, ¬ v.DenotesI32 n) ∧ e = .type position index "i32" v.describe) ∧
    (∀ n, v.DenotesI64 n ↔
      ∃ m : BitVec 64, coerce v .i64 position index = .ok (.i64 m) ∧ m.toInt = n) ∧
    (∀ e, coerce v .i64 position index = .error e ↔
      (∀ n, ¬ v.DenotesI64 n) ∧ e = .type position index "i64" v.describe) ∧
    ∀ n, v.Denotes n → ¬ v.Irregular := by
  obtain ⟨hok, herror⟩ := coerce_integer (fun _ _ => Val.i32.inj)
    (fun n hn => ⟨_, toInt_i32 hn.2.1 hn.2.2⟩) (toVal?_i32_iff (v := v)) position index
  obtain ⟨hok', herror'⟩ := coerce_integer (fun _ _ => Val.i64.inj)
    (fun n hn => ⟨_, toInt_i64 hn⟩) (toVal?_i64_iff (v := v)) position index
  refine ⟨hok, herror, hok', herror', ?_⟩
  intro n hn hirregular
  cases v with
  | float b => exact irregular_no_integer (by decide) hirregular n hn
  | float32 b => exact irregular_no_integer (by decide) hirregular n hn
  | _ => exact hirregular

/-- Both zeros are the integer zero, and the greatest double below `2^31` is no integer. -/
example : coerce (.float 0x8000000000000000#64) .i32 .argument 0 = .ok (.i32 0#32) ∧
    (coerce (.float 0x41DFFFFFFFFFFFFF#64) .i32 .argument 0).isOk = false := by decide +kernel

end WasmEmbed
