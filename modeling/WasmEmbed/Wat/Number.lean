import WasmEmbed.Ieee.Decimal
import WasmEmbed.Wat.Sexpr
/-!
Numbers in the text format. Digits may have single underscores between them; `0x` announces
hexadecimal ones.
-/

namespace WasmEmbed.Wat

/-- Digits with what stands around them: the number `digits * base^(-places)`, times ten or two to
the power of `exp`. -/
structure Numeral where
  neg : Bool
  /-- Whether the base is 16, and not 10. -/
  hex : Bool
  digits : List Nat
  /-- How many of the digits stand after the point. -/
  places : Nat
  exp : Int
  /-- Whether neither a point nor an exponent is written. -/
  isWhole : Bool
  deriving DecidableEq, Repr, Inhabited

namespace Numeral

def base (n : Numeral) : Nat := if n.hex then 16 else 10

/-- The number that the digits denote without the point. -/
def value (n : Numeral) : Nat := n.digits.foldl (fun v d => n.base * v + d) 0

end Numeral

/-- A number as it is written. -/
inductive Literal where
  | numeral (n : Numeral)
  | infinite (neg : Bool)
  | nan (neg : Bool) (payload : Option Nat)
  deriving DecidableEq, Repr, Inhabited

/-- No two of the characters that stand next to each other are underscores. -/
private def noDoubleUnderscore : List Char → Bool
  | '_' :: '_' :: _ => false
  | _ :: rest => noDoubleUnderscore rest
  | [] => true

/-- The digits that a text begins with, at least one, without the underscores between them; and what
follows. -/
def digitRun? (isDigit : Char → Bool) (cs : List Char) : Option (List Char × List Char) := do
  let run := cs.takeWhile fun c => isDigit c || c == '_'
  let rest := cs.dropWhile fun c => isDigit c || c == '_'
  if run.isEmpty ∨ run.head? = some '_' ∨ run.getLast? = some '_' ∨ !noDoubleUnderscore run then failure
  return (run.filter (· != '_'), rest)

private def isHexDigit (c : Char) : Bool := (Hex.digitValue? c).isSome

/-- The number that digits of a base denote. -/
def ofDigits (base : Nat) (ds : List Char) : Nat :=
  ds.foldl (fun n c => base * n + (Hex.digitValue? c).getD 0) 0

/-- The sign in front, and whether it is minus. -/
def signed : List Char → Bool × List Char
  | '-' :: rest => (true, rest)
  | '+' :: rest => (false, rest)
  | cs => (false, cs)

/-- The digits after a point, if there are any. -/
private def fraction? (isDigit : Char → Bool) : List Char → Option (List Char × List Char)
  | '.' :: c :: rest => if isDigit c then digitRun? isDigit (c :: rest) else some ([], c :: rest)
  | '.' :: [] => some ([], [])
  | cs => some ([], cs)

/-- The exponent after its letter, up to the end. -/
private def exponent? (cs : List Char) : Option Int := do
  let (neg, cs) := signed cs
  let (ds, rest) ← digitRun? Char.isDigit cs
  if !rest.isEmpty then failure
  return if neg then -(ofDigits 10 ds : Int) else ofDigits 10 ds

/-- The digits with what stands around them, up to the end. -/
private def numeral? (neg hex : Bool) (cs : List Char) : Option Numeral := do
  let isDigit := if hex then isHexDigit else Char.isDigit
  let values (ds : List Char) : List Nat := ds.map fun c => (Hex.digitValue? c).getD 0
  let (whole, rest) ← digitRun? isDigit cs
  let (fraction, left) ← fraction? isDigit rest
  let exp ← match left with
    | [] => pure 0
    | c :: left => if c.toLower = (if hex then 'p' else 'e') then exponent? left else failure
  return { neg, hex, digits := values whole ++ values fraction, places := fraction.length, exp, isWhole := rest.isEmpty }

/-- The number that a word is. -/
def literal? (word : String) : Option Literal :=
  let (neg, cs) := signed word.toList
  match cs with
  | ['i', 'n', 'f'] => some (.infinite neg)
  | ['n', 'a', 'n'] => some (.nan neg none)
  | 'n' :: 'a' :: 'n' :: ':' :: '0' :: 'x' :: payload => do
    let (ds, rest) ← digitRun? isHexDigit payload
    if rest.isEmpty then some (.nan neg (some (ofDigits 16 ds))) else none
  | '0' :: 'x' :: digits => .numeral <$> numeral? neg true digits
  | cs => .numeral <$> numeral? neg false cs

/-- The digits of a word without point and exponent. -/
def whole? (word : String) : Option Numeral :=
  match literal? word with
  | some (.numeral n) => if n.isWhole then some n else none
  | _ => none

/-- The number that a word is, if it fits into `bits` bits without a minus sign. -/
def natural (bits : Nat) (word : String) : Except Fault Nat :=
  match whole? word with
  | some n => if !n.neg ∧ n.value < 2 ^ bits then .ok n.value else .error (.outOfRange word)
  | none => .error (.expected "a number")

/-- The number that a word is, if it fits into `bits` bits, with a sign or without. -/
def integer (bits : Nat) (word : String) : Except Fault Int :=
  match whole? word with
  | some n =>
    if n.neg then if n.value ≤ 2 ^ (bits - 1) then .ok (-n.value) else .error (.outOfRange word)
    else if n.value < 2 ^ bits then .ok n.value else .error (.outOfRange word)
  | none => .error (.expected "an integer")

/-- The pattern nearest to `(-1)^neg * digits * 2^exp`. Numbers far outside every format are settled
without large powers. -/
private def nearestBinary (f : Ieee.Format) (neg : Bool) (digits : Nat) (exp : Int) : Nat :=
  if digits = 0 then f.zero neg
  else if 2000 < exp + digits.log2 then f.infinity neg
  else if exp + digits.log2 < -2000 then f.zero neg
  else f.round neg digits 1 exp

/-- Whether an exponent fits into 32 bits. -/
def isExponent (e : Int) : Bool := -2 ^ (31 : Nat) ≤ e && e < 2 ^ (31 : Nat)

/-- The pattern of a hexadecimal number. Its digits fill a word of the format's width from the top.
A digit of which the word has room for only a part counts as zero; the digits after it only break
ties. -/
def Numeral.binaryBits? (f : Ieee.Format) (n : Numeral) : Option Nat :=
  match n.digits.dropWhile (· = 0) with
  | [] => some (f.zero n.neg)
  | first :: rest =>
    let lowest := n.exp - 4 * n.places
    let room := f.expBits + f.fracBits - first.log2
    let kept := rest.take (room / 4)
    let beyond := rest.drop ((room + 3) / 4)
    let word := (first :: kept).foldl (fun v d => 16 * v + d) 0
    let sticky := if beyond.all (· = 0) then 0 else 1
    if !isExponent n.exp ∨ !isExponent (lowest + 4 * rest.length + first.log2) then none
    else some (nearestBinary f n.neg (2 * word + sticky) (lowest + 4 * (rest.length - kept.length) - 1))

/-- The pattern that a number denotes in a format. A finite number has to be nearest to a finite
one, and the payload of a NaN has to fit. -/
def Literal.toBits? (f : Ieee.Format) : Literal → Option Nat
  | .numeral n =>
    let bits := if n.hex then n.binaryBits? f else some (Ieee.Decimal.toBits f n.neg ⟨n.value, n.exp - n.places⟩)
    bits.filter fun b => f.magnitude b ≠ f.infMagnitude
  | .infinite neg => some (f.infinity neg)
  | .nan neg none => some (f.withSign neg f.canonicalNan)
  | .nan neg (some payload) =>
    if payload ≠ 0 ∧ payload < 2 ^ f.fracBits then some (f.withSign neg (f.infMagnitude + payload)) else none

/-- The pattern of the number that a word is. -/
def float (f : Ieee.Format) (word : String) : Except Fault Nat :=
  match literal? word with
  | some l =>
    match l.toBits? f with
    | some bits => .ok bits
    | none => .error (.outOfRange word)
  | none => .error (.expected "a number")

end WasmEmbed.Wat
