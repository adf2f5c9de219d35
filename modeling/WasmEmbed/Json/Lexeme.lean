import WasmEmbed.Ieee.Decimal
import WasmEmbed.Json.Basic
import WasmEmbed.Text.Hex
/-!
The lexemes of JSON text, read from the front of a list of characters. `opening` reads as much of a
value as can be told without its contents: a whole scalar, or the bracket that opens an array or
object.
-/

namespace WasmEmbed.Json

def isBlank (c : Char) : Bool := c = ' ' || c = '\n' || c = '\t' || c = '\r'

def skipBlanks : List Char → List Char := List.dropWhile isBlank

/-- The number of four hexadecimal digits. -/
def hex4? (a b c d : Char) : Option Nat := Hex.read? [a, b, c, d] 0

def isHighSurrogate (n : Nat) : Bool := 0xd800 ≤ n && n < 0xdc00

def isLowSurrogate (n : Nat) : Bool := 0xdc00 ≤ n && n < 0xe000

/-- The character that a letter after a backslash stands for. -/
def letterEscape? : Char → Option Char
  | '"' => some '"'
  | '\\' => some '\\'
  | '/' => some '/'
  | 'b' => some '\x08'
  | 'f' => some '\x0c'
  | 'n' => some '\n'
  | 'r' => some '\r'
  | 't' => some '\t'
  | _ => none

/-- Reads the rest of a string, up to and with the closing quote. -/
def stringTail : List Char → List Char → Option (String × List Char)
  | _, [] => none
  | acc, '"' :: rest => some (String.ofList acc.reverse, rest)
  | acc, '\\' :: 'u' :: a :: b :: c :: d :: rest =>
    match hex4? a b c d with
    | none => none
    | some n =>
      if isHighSurrogate n then
        match rest with
        | '\\' :: 'u' :: e :: f :: g :: h :: rest =>
          match hex4? e f g h with
          | none => none
          | some m =>
            if isLowSurrogate m then
              stringTail (Char.ofNat (0x10000 + (n - 0xd800) * 0x400 + (m - 0xdc00)) :: acc) rest
            else none
        | _ => none
      else if isLowSurrogate n then none
      else stringTail (Char.ofNat n :: acc) rest
  | acc, '\\' :: c :: rest => (letterEscape? c).bind fun e => stringTail (e :: acc) rest
  | acc, c :: rest => if c < ' ' ∨ c = '\\' then none else stringTail (c :: acc) rest

/-- The greatest significand that is kept while reading digits. -/
def maxSignificand : Nat := 2 ^ (64 : Nat) - 1

/-- Appends digits to a significand while it stays within 64 bits; also counts the digits taken. -/
def takeDigits : Nat → Nat → List Char → Nat × Nat
  | significand, taken, [] => (significand, taken)
  | significand, taken, c :: rest =>
    let next := 10 * significand + (c.toNat - '0'.toNat)
    if next ≤ maxSignificand then takeDigits next (taken + 1) rest else (significand, taken)

/-- The double nearest to a power of ten. -/
def tenPower (k : Nat) : Nat := Ieee.Decimal.toBits Ieee.double false ⟨1, k⟩

/-- Multiplies a double by a power of ten, in steps within the range of doubles, rounding after
each. None if the result is too great. -/
def scaleTen : Nat → Nat → Int → Option Nat
  | 0, bits, _ => some bits
  | steps + 1, bits, exp =>
    if exp.natAbs ≤ 308 then
      if 0 ≤ exp then
        let r := Ieee.double.mul bits (tenPower exp.natAbs)
        if r = Ieee.double.infinity false then none else some r
      else some (Ieee.double.div bits (tenPower exp.natAbs))
    else if bits = 0 then some bits
    else if 0 ≤ exp then none
    else scaleTen steps (Ieee.double.div bits (tenPower 308)) (exp + 308)

/-- The number with a significand and a decimal exponent: the significand is rounded to a double
first and then scaled. -/
def scaledNumber (neg : Bool) (significand : Nat) (exp : Int) : Option Number :=
  (scaleTen 4 (Ieee.double.ofInt significand) exp).map fun bits =>
    .float (BitVec.ofNat 64 (if neg then Ieee.double.neg bits else bits))

/-- Reads an exponent after its letter. An exponent beyond 32 bits makes any number zero or too
great. -/
def exponentTail (neg : Bool) (significand : Nat) (exp : Int) (cs : List Char) :
    Option (Number × List Char) :=
  let (negExp, cs) := match cs with
    | '+' :: rest => (false, rest)
    | '-' :: rest => (true, rest)
    | cs => (false, cs)
  let digits := cs.takeWhile Char.isDigit
  let rest := cs.dropWhile Char.isDigit
  if digits.isEmpty then none
  else
    let e := digits.foldl (fun n c => 10 * n + (c.toNat - '0'.toNat)) 0
    if e < 2 ^ (31 : Nat) then
      (scaledNumber neg significand (if negExp then exp - e else exp + e)).map (·, rest)
    else if significand = 0 || negExp then
      some (.float (BitVec.ofNat 64 (Ieee.double.zero neg)), rest)
    else none

/-- Reads what may follow a significand: an exponent or nothing. -/
def scaleTail (neg : Bool) (significand : Nat) (exp : Int) : List Char → Option (Number × List Char)
  | 'e' :: rest => exponentTail neg significand exp rest
  | 'E' :: rest => exponentTail neg significand exp rest
  | rest => (scaledNumber neg significand exp).map (·, rest)

/-- A number without point and exponent. Minus zero, and integers outside 64 bits, are doubles. -/
def plainNumber (neg : Bool) (n : Nat) : Number :=
  if !neg then .integer n
  else if n = 0 ∨ 2 ^ (63 : Nat) < n then .float (BitVec.ofNat 64 (Ieee.double.neg (Ieee.double.ofInt n)))
  else .integer (-n)

/-- Reads a number after its sign. -/
def numberTail (neg : Bool) (cs : List Char) : Option (Number × List Char) :=
  let digits := cs.takeWhile Char.isDigit
  let rest := cs.dropWhile Char.isDigit
  if digits.isEmpty || (digits.head? == some '0' && digits.length != 1) then none
  else
    let (significand, taken) := takeDigits 0 0 digits
    let dropped := digits.length - taken
    match rest with
    | '.' :: rest =>
      let fraction := rest.takeWhile Char.isDigit
      let rest := rest.dropWhile Char.isDigit
      if fraction.isEmpty then none
      else
        let (significand, taken) := takeDigits significand 0 fraction
        scaleTail neg significand (dropped - taken) rest
    | 'e' :: rest => exponentTail neg significand dropped rest
    | 'E' :: rest => exponentTail neg significand dropped rest
    | rest =>
      if dropped = 0 then some (plainNumber neg significand, rest)
      else (scaledNumber neg significand dropped).map (·, rest)

/-- The front of a value. -/
inductive Opening where
  /-- A value without parts, and what follows it. -/
  | scalar (v : Json) (rest : List Char)
  /-- The contents of an array begin. -/
  | array (rest : List Char)
  /-- The contents of an object begin. -/
  | object (rest : List Char)

/-- Reads the front of a value that begins at once. -/
def opening : List Char → Option Opening
  | 'n' :: 'u' :: 'l' :: 'l' :: rest => some (.scalar .null rest)
  | 't' :: 'r' :: 'u' :: 'e' :: rest => some (.scalar (.bool true) rest)
  | 'f' :: 'a' :: 'l' :: 's' :: 'e' :: rest => some (.scalar (.bool false) rest)
  | '"' :: rest => (stringTail [] rest).map fun (s, rest) => .scalar (.string s) rest
  | '[' :: rest => some (.array rest)
  | '{' :: rest => some (.object rest)
  | '-' :: rest => (numberTail true rest).map fun (n, rest) => .scalar (.number n) rest
  | c :: rest =>
    if c.isDigit then (numberTail false (c :: rest)).map fun (n, rest) => .scalar (.number n) rest
    else none
  | [] => none

end WasmEmbed.Json
