import WasmEmbed.Ieee.Basic
/-!
Arithmetic on bit patterns. Every operation computes the exact result as a rational number and
rounds it once. A NaN operand passes through with its quiet bit set, the first of two winning; an
operation without a result yields the canonical NaN.
-/

namespace WasmEmbed.Ieee.Format

variable (f : Format)

/-- The NaN pattern with its quiet bit set. -/
def quieten (bits : Nat) : Nat := bits ||| f.quietWeight

def neg (a : Nat) : Nat := a ^^^ f.signWeight

def abs (a : Nat) : Nat := f.magnitude a

/-- The magnitude of `a` with the sign of `b`. -/
def copysign (a b : Nat) : Nat := f.withSign (f.isNegative b) (f.magnitude a)

/-- A key that orders numbers as their values; both zeros have key 0. -/
def orderKey (a : Nat) : Int :=
  if f.isNegative a then -(f.magnitude a : Int) else f.magnitude a

def eq (a b : Nat) : Bool := !f.isNan a && !f.isNan b && f.orderKey a == f.orderKey b

def lt (a b : Nat) : Bool := !f.isNan a && !f.isNan b && decide (f.orderKey a < f.orderKey b)

def le (a b : Nat) : Bool := !f.isNan a && !f.isNan b && decide (f.orderKey a ≤ f.orderKey b)

/-- The exact sum of two finite data, rounded. An exact zero is positive unless both signs are
negative. -/
def addFinite (na : Bool) (ma : Nat) (ea : Int) (nb : Bool) (mb : Nat) (eb : Int) : Nat :=
  let e := min ea eb
  let x : Int := (ma * 2 ^ (ea - e).toNat : Nat)
  let y : Int := (mb * 2 ^ (eb - e).toNat : Nat)
  let s := (if na then -x else x) + (if nb then -y else y)
  if s = 0 then f.zero (na && nb) else f.round (s < 0) s.natAbs 1 e

def add (a b : Nat) : Nat :=
  match f.decode a, f.decode b with
  | .nan _ _, _ => f.quieten a
  | _, .nan _ _ => f.quieten b
  | .infinite x, .infinite y => if x = y then a else f.canonicalNan
  | .infinite _, _ => a
  | _, .infinite _ => b
  | .finite na ma ea, .finite nb mb eb => f.addFinite na ma ea nb mb eb

/-- Subtraction is addition of the negated number; a NaN keeps its sign. -/
def sub (a b : Nat) : Nat := if f.isNan b then f.add a b else f.add a (f.neg b)

def mul (a b : Nat) : Nat :=
  match f.decode a, f.decode b with
  | .nan _ _, _ => f.quieten a
  | _, .nan _ _ => f.quieten b
  | .infinite x, .infinite y => f.infinity (x != y)
  | .infinite x, .finite y m _ => if m = 0 then f.canonicalNan else f.infinity (x != y)
  | .finite x m _, .infinite y => if m = 0 then f.canonicalNan else f.infinity (x != y)
  | .finite na ma ea, .finite nb mb eb => f.round (na != nb) (ma * mb) 1 (ea + eb)

def div (a b : Nat) : Nat :=
  match f.decode a, f.decode b with
  | .nan _ _, _ => f.quieten a
  | _, .nan _ _ => f.quieten b
  | .infinite _, .infinite _ => f.canonicalNan
  | .infinite x, .finite y _ _ => f.infinity (x != y)
  | .finite x _ _, .infinite y => f.zero (x != y)
  | .finite na ma ea, .finite nb mb eb =>
    if mb = 0 then if ma = 0 then f.canonicalNan else f.infinity (na != nb)
    else f.round (na != nb) ma mb (ea - eb)

/-- The integer square root: the greatest `r` with `r * r ≤ n`, built bit by bit from `2^k` down. -/
def sqrtBits (n : Nat) : Nat → Nat → Nat
  | 0, r => r
  | k + 1, r =>
    let s := r + 2 ^ k
    sqrtBits n k (if s * s ≤ n then s else r)

/-- The square root. Enough bits of it are computed that a last bit, telling whether it is exact,
settles the rounding. -/
def sqrt (a : Nat) : Nat :=
  match f.decode a with
  | .nan _ _ => f.quieten a
  | .infinite neg => if neg then f.canonicalNan else a
  | .finite neg mag exp =>
    if mag = 0 then a
    else if neg then f.canonicalNan
    else
      let up : Nat := 2 * (f.fracBits + 4) + (exp % 2).toNat
      let n := mag * 2 ^ up
      let r := sqrtBits n (n.log2 / 2 + 1) 0
      let sticky := if r * r = n then 0 else 1
      f.round false (2 * r + sticky) 1 ((exp - up) / 2 - 1)

/-- Rounds to an integral value; `pick neg q exact` chooses the integer from the truncated one. -/
def toIntegral (pick : Bool → Nat → Nat → Nat → Nat) (a : Nat) : Nat :=
  match f.decode a with
  | .nan _ _ => f.quieten a
  | .infinite _ => a
  | .finite neg mag exp =>
    if 0 ≤ exp then a
    else
      let d := 2 ^ (-exp).toNat
      f.round neg (pick neg (mag / d) (mag % d) d) 1 0

def ceil (a : Nat) : Nat := f.toIntegral (fun neg q r _ => if neg || r == 0 then q else q + 1) a

def floor (a : Nat) : Nat := f.toIntegral (fun neg q r _ => if !neg || r == 0 then q else q + 1) a

def trunc (a : Nat) : Nat := f.toIntegral (fun _ q _ _ => q) a

def nearest (a : Nat) : Nat := f.toIntegral (fun _ q r d => divNearestEven (q * d + r) d) a

/-- The lesser operand; a negative zero is below a positive one. -/
def min (a b : Nat) : Nat :=
  if f.isNan a then f.quieten a
  else if f.isNan b then f.quieten b
  else if f.orderKey a = f.orderKey b then if f.isNegative a then a else b
  else if f.orderKey a < f.orderKey b then a else b

/-- The greater operand; a positive zero is above a negative one. -/
def max (a b : Nat) : Nat :=
  if f.isNan a then f.quieten a
  else if f.isNan b then f.quieten b
  else if f.orderKey a = f.orderKey b then if f.isNegative a then b else a
  else if f.orderKey a < f.orderKey b then b else a

/-- Converts a pattern to another format. A NaN keeps its sign and the leading bits of its
payload. -/
def convert (g : Format) (a : Nat) : Nat :=
  match f.decode a with
  | .nan neg payload =>
    g.quieten (g.withSign neg
      (g.infMagnitude + payload * 2 ^ (g.fracBits - f.fracBits) / 2 ^ (f.fracBits - g.fracBits)))
  | .infinite neg => g.infinity neg
  | .finite neg mag exp => g.round neg mag 1 exp

/-- The integer part of a number, if it lies between the bounds. -/
def truncateWithin (lo hi : Int) (a : Nat) : Option Int :=
  match (f.decode a).truncate with
  | some n => if lo ≤ n ∧ n ≤ hi then some n else none
  | none => none

/-- The integer part of a number, moved to the nearer bound if it lies outside; a NaN gives 0. -/
def truncateSaturating (lo hi : Int) (a : Nat) : Int :=
  match f.decode a with
  | .nan _ _ => 0
  | .infinite neg => if neg then lo else hi
  | d => match d.truncate with
    | some n => if n < lo then lo else if hi < n then hi else n
    | none => 0

/-- The number as a signed integer of so many bits: its integer part, the nearer bound if that is out of
range, and 0 for a NaN. -/
def toSigned (width a : Nat) : BitVec width :=
  BitVec.ofInt width
    (f.truncateSaturating (-2 ^ (width - 1 : Nat)) (2 ^ (width - 1 : Nat) - 1) a)

end WasmEmbed.Ieee.Format
