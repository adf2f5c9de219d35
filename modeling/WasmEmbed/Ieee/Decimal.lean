import WasmEmbed.Ieee.Arith
/-!
Decimal text of floating point numbers. `shortest` finds the fewest digits that read back as the
same pattern and, among those, the nearest to the number. A `Layout` says how digits are written
out.
-/

namespace WasmEmbed.Ieee

/-- The number `digits * 10^exp`. -/
structure Decimal where
  digits : Nat
  exp : Int
  deriving DecidableEq, Repr

namespace Decimal

/-- Numerator and denominator. -/
def num (d : Decimal) : Nat := d.digits * 10 ^ d.exp.toNat

def den (d : Decimal) : Nat := 10 ^ (-d.exp).toNat

/-- How many decimal digits a number has; 0 has one. -/
def digitCount (n : Nat) : Nat := (Nat.toDigits 10 n).length

/-- Drops trailing zeros, at most `fuel` of them. -/
def stripZeros : Nat → Decimal → Decimal
  | 0, d => d
  | fuel + 1, d =>
    if d.digits ≠ 0 ∧ d.digits % 10 = 0 then stripZeros fuel ⟨d.digits / 10, d.exp + 1⟩ else d

/-- The pattern nearest to a decimal. Decimals far outside every format are settled without large
powers. -/
def toBits (f : Format) (neg : Bool) (d : Decimal) : Nat :=
  if d.digits = 0 then f.zero neg
  else
    let top := d.exp + digitCount d.digits
    if 400 < top then f.infinity neg
    else if top < -400 then f.zero neg
    else f.round neg d.num d.den 0

end Decimal

/-- The greatest `k` with `10^k ≤ mag * 2^exp`, for positive `mag`. -/
def floorLog10 (mag : Nat) (exp : Int) : Int :=
  let le (k : Int) : Bool :=
    10 ^ k.toNat * 2 ^ (-exp).toNat ≤ mag * 2 ^ exp.toNat * 10 ^ (-k).toNat
  let k := Int.fdiv ((mag.log2 + exp) * 30103) 100000
  if !le k then k - 1 else if le (k + 1) then k + 1 else k

/-- The decimal of `n` digits nearest to `mag * 2^exp` among the two around it that read back as
`bits`. -/
def nearestReadingBack (f : Format) (bits mag : Nat) (exp top : Int) (n : Nat) : Option Decimal :=
  let k := top + 1 - n
  let a := mag * 2 ^ exp.toNat * 10 ^ (-k).toNat
  let b := 2 ^ (-exp).toNat * 10 ^ k.toNat
  let lo : Decimal := ⟨a / b, k⟩
  let hi : Decimal := ⟨a / b + 1, k⟩
  let r := a % b
  match decide (lo.toBits f false = bits), decide (hi.toBits f false = bits) with
  | true, true => some (if 2 * r ≤ b then lo else hi)
  | true, false => some lo
  | false, true => some hi
  | false, false => none

/-- Tries one more digit at a time, `more` times at most. -/
def searchDigits (f : Format) (bits mag : Nat) (exp top : Int) : Nat → Nat → Decimal
  | 0, n => ⟨mag * 2 ^ exp.toNat * 10 ^ (n - (top + 1)).toNat / (2 ^ (-exp).toNat * 10 ^ (top + 1 - n).toNat), top + 1 - n⟩
  | more + 1, n =>
    match nearestReadingBack f bits mag exp top n with
    | some d => d
    | none => searchDigits f bits mag exp top more (n + 1)

/-- The shortest decimal that reads back as the positive number `mag * 2^exp`. -/
def shortest (f : Format) (mag : Nat) (exp : Int) : Decimal :=
  if mag = 0 then ⟨0, 0⟩
  else
    let bits := f.round false mag 1 exp
    (searchDigits f bits mag exp (floorLog10 mag exp) 17 1).stripZeros 20

/-- How a number is written out. -/
structure Layout where
  /-- The scientific exponents that are written positionally. -/
  positional : Int → Bool
  /-- Whether an integral positional number ends in `.0`. -/
  markIntegral : Bool

/-- Every number positionally, an integral one without a point. -/
def Layout.plain : Layout := ⟨fun _ => true, false⟩

/-- Every number positionally and with a point. -/
def Layout.pointed : Layout := ⟨fun _ => true, true⟩

/-- Numbers from `1e-5` to below `1e16` positionally and with a point, all others with a signed
exponent. -/
def Layout.scientific : Layout := ⟨fun e => -5 ≤ e && e ≤ 15, true⟩

private def zeros (n : Nat) : String := String.ofList (List.replicate n '0')

/-- The text of a nonnegative decimal. -/
def Layout.decimal (l : Layout) (d : Decimal) : String :=
  let ds := toString d.digits
  let n : Int := ds.length
  let point := n + d.exp
  if l.positional (point - 1) then
    if 0 ≤ d.exp then ds ++ zeros d.exp.toNat ++ (if l.markIntegral then ".0" else "")
    else if 0 < point then
      String.ofList (ds.toList.take point.toNat) ++ "." ++ String.ofList (ds.toList.drop point.toNat)
    else "0." ++ zeros (-point).toNat ++ ds
  else
    let e := point - 1
    let mantissa :=
      if ds.length ≤ 1 then ds
      else String.ofList (ds.toList.take 1) ++ "." ++ String.ofList (ds.toList.drop 1)
    mantissa ++ "e" ++ (if 0 ≤ e then "+" else "-") ++ toString e.natAbs

/-- The text of the number that a pattern denotes. A NaN is written without sign or payload. -/
def Layout.text (l : Layout) (f : Format) (bits : Nat) : String :=
  match f.decode bits with
  | .nan _ _ => "NaN"
  | .infinite neg => if neg then "-inf" else "inf"
  | .finite neg mag exp => (if neg then "-" else "") ++ l.decimal (shortest f mag exp)

end WasmEmbed.Ieee
