import WasmEmbed.Power
/-!
Binary interchange formats: what a bit pattern denotes, and the pattern nearest to a rational
number. A finite pattern denotes `(-1)^neg * mag * 2^exp`, with `mag` and `exp` exact integers, so
every rule about floating point numbers below is integer arithmetic. `Format.round` is the one place
where a number is rounded: to nearest, a tie going to the even significand.
-/

namespace WasmEmbed.Ieee

/-- A format is given by the widths of its exponent and fraction fields. -/
structure Format where
  expBits : Nat
  fracBits : Nat
  deriving DecidableEq, Repr

/-- The 32-bit format. -/
def single : Format := ⟨8, 23⟩

/-- The 64-bit format. -/
def double : Format := ⟨11, 52⟩

/-- What a bit pattern denotes. -/
inductive Datum where
  /-- Not a number: its sign and the contents of its fraction field. -/
  | nan (neg : Bool) (payload : Nat)
  | infinite (neg : Bool)
  /-- The number `(-1)^neg * mag * 2^exp`; zero keeps its sign. -/
  | finite (neg : Bool) (mag : Nat) (exp : Int)
  deriving DecidableEq, Repr

namespace Format

variable (f : Format)

/-- The all-ones exponent field, which marks infinities and NaNs. -/
def expMask : Nat := 2 ^ f.expBits - 1

/-- The weight of the sign bit. -/
def signWeight : Nat := 2 ^ (f.expBits + f.fracBits)

/-- The exponent of the least positive number. -/
def minExp : Int := 2 - 2 ^ (f.expBits - 1) - f.fracBits

def isNegative (bits : Nat) : Bool := bits / f.signWeight % 2 == 1

def expField (bits : Nat) : Nat := bits / 2 ^ f.fracBits % 2 ^ f.expBits

def fracField (bits : Nat) : Nat := bits % 2 ^ f.fracBits

/-- The pattern without its sign bit; on numbers it grows with the absolute value. -/
def magnitude (bits : Nat) : Nat := bits % f.signWeight

/-- The pattern of a sign and a magnitude. -/
def withSign (neg : Bool) (magnitude : Nat) : Nat :=
  (if neg then f.signWeight else 0) + magnitude

/-- The magnitude of the infinities. -/
def infMagnitude : Nat := f.expMask * 2 ^ f.fracBits

def infinity (neg : Bool) : Nat := f.withSign neg f.infMagnitude

def zero (neg : Bool) : Nat := f.withSign neg 0

/-- The weight of the bit that tells a quiet NaN. -/
def quietWeight : Nat := 2 ^ (f.fracBits - 1)

/-- The positive quiet NaN without payload. -/
def canonicalNan : Nat := f.infMagnitude + f.quietWeight

/-- The number or NaN that a pattern denotes. -/
def decode (bits : Nat) : Datum :=
  let neg := f.isNegative bits
  let e := f.expField bits
  let frac := f.fracField bits
  if e = f.expMask then
    if frac = 0 then .infinite neg else .nan neg frac
  else if e = 0 then .finite neg frac f.minExp
  else .finite neg (2 ^ f.fracBits + frac) (f.minExp + (e - 1 : Nat))

def isNan (bits : Nat) : Bool := f.infMagnitude < f.magnitude bits

end Format

/-- The quotient `a / b` to the nearest integer, a tie going to the even one. -/
def divNearestEven (a b : Nat) : Nat :=
  let q := a / b
  let r := a % b
  if 2 * r < b then q
  else if b < 2 * r then q + 1
  else if q % 2 = 0 then q else q + 1

/-- The greatest `k` with `2^k ≤ num / den`, for positive arguments. -/
def floorLog2Ratio (num den : Nat) : Int :=
  let k : Int := (num.log2 : Int) - den.log2
  if den * 2 ^ k.toNat ≤ num * 2 ^ (-k).toNat then k else k - 1

/-- The pattern nearest to `(-1)^neg * num / den * 2^exp`. The result is infinite from half a unit
above the greatest finite number on, and a zero of the given sign up to half the least positive
number. -/
def Format.round (f : Format) (neg : Bool) (num den : Nat) (exp : Int) : Nat :=
  if num = 0 then f.zero neg
  else
    let unit := max f.minExp (floorLog2Ratio num den + exp - f.fracBits)
    let shift := exp - unit
    let q := divNearestEven (num * 2 ^ shift.toNat) (den * 2 ^ (-shift).toNat)
    let magnitude := (unit - f.minExp).toNat * 2 ^ f.fracBits + q
    f.withSign neg (min magnitude f.infMagnitude)

/-- The pattern nearest to an integer. -/
def Format.ofInt (f : Format) (n : Int) : Nat := f.round (n < 0) n.natAbs 1 0

/-- The integer part of a datum, towards zero; none for infinities and NaNs. -/
def Datum.truncate : Datum → Option Int
  | .finite neg mag exp =>
    let n : Nat := mag * 2 ^ exp.toNat / 2 ^ (-exp).toNat
    some (if neg then -n else n)
  | _ => none

/-- The integer that a datum denotes, if it denotes one. -/
def Datum.toInt? : Datum → Option Int
  | .finite neg mag exp =>
    if mag * 2 ^ exp.toNat % 2 ^ (-exp).toNat = 0 then (Datum.finite neg mag exp).truncate else none
  | _ => none

end WasmEmbed.Ieee
