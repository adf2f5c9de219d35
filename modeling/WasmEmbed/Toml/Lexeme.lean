import WasmEmbed.Ieee.Decimal
import WasmEmbed.Text.Hex
import WasmEmbed.Toml.Basic
/-!
The smallest pieces of documents: blanks and comments, strings, keys, numbers, dates. Each reader
takes its piece from the front of a text and gives back what follows, or fails.
-/

namespace WasmEmbed.Toml

def isBlank (c : Char) : Bool := c == ' ' || c == '\t'

/-- A character that may stand in comments and in strings on one line. -/
def isPlain (c : Char) : Bool := c == '\t' || (' ' ≤ c && c != '\x7f')

def skipBlanks (cs : List Char) : List Char := cs.dropWhile isBlank

/-- What follows the end of a line. -/
def newline? : List Char → Option (List Char)
  | '\n' :: rest => some rest
  | '\r' :: '\n' :: rest => some rest
  | _ => none

/-- What follows a comment, if one begins. -/
def skipComment : List Char → List Char
  | '#' :: rest => rest.dropWhile isPlain
  | cs => cs

/-- What follows the rest of a line that has only a comment left, or of the text. -/
def endOfLine? (cs : List Char) : Option (List Char) :=
  match skipComment (skipBlanks cs) with
  | [] => some []
  | cs => newline? cs

/-- Skips blanks, comments and line ends, at most `fuel` lines of them. -/
def skipLines : Nat → List Char → Option (List Char)
  | 0, cs => some cs
  | fuel + 1, cs =>
    match skipBlanks cs with
    | '#' :: rest =>
      match newline? (rest.dropWhile isPlain) with
      | some rest => skipLines fuel rest
      | none => none
    | '\n' :: rest => skipLines fuel rest
    | '\r' :: '\n' :: rest => skipLines fuel rest
    | cs => some cs

/-! ### Strings -/

/-- The character with a number, if there is one. -/
def charOf? (n : Nat) : Option Char := if n.isValidChar then some (Char.ofNat n) else none

/-- The character that digits give the number of. -/
def charOfDigits? (digits : List Char) : Option Char := (Hex.read? digits 0).bind charOf?

/-- The character that a letter after a backslash stands for. -/
def escape? : Char → Option Char
  | 'b' => some '\x08'
  | 't' => some '\t'
  | 'n' => some '\n'
  | 'f' => some '\x0c'
  | 'r' => some '\r'
  | '"' => some '"'
  | '\\' => some '\\'
  | _ => none

/-- Prepends a character to what was read. -/
private def cons (c : Option Char) (r : Option (List Char × List Char)) :
    Option (List Char × List Char) := do
  let c ← c
  let (cs, rest) ← r
  return (c :: cs, rest)

/-- A string in double quotes, after the first. -/
def basicString : List Char → Option (List Char × List Char)
  | [] => none
  | '"' :: rest => some ([], rest)
  | '\\' :: 'u' :: a :: b :: c :: d :: rest => cons (charOfDigits? [a, b, c, d]) (basicString rest)
  | '\\' :: 'U' :: a :: b :: c :: d :: e :: f :: g :: h :: rest =>
    cons (charOfDigits? [a, b, c, d, e, f, g, h]) (basicString rest)
  | '\\' :: c :: rest => cons (escape? c) (basicString rest)
  | c :: rest => if isPlain c then cons (some c) (basicString rest) else none

/-- A string in single quotes, after the first. -/
def literalString : List Char → Option (List Char × List Char)
  | [] => none
  | '\'' :: rest => some ([], rest)
  | c :: rest => if isPlain c then cons (some c) (literalString rest) else none

/-- Whether a backslash before this ends its line. -/
def continuesLine (cs : List Char) : Bool := (newline? (skipBlanks cs)).isSome

/-- A string in triple double quotes, after the first three; `joining` is set where blanks and line
ends are skipped. Up to two quotes may stand before the last three. -/
def longBasicString : Bool → List Char → Option (List Char × List Char)
  | _, [] => none
  | _, '"' :: '"' :: '"' :: '"' :: '"' :: rest => some (['"', '"'], rest)
  | _, '"' :: '"' :: '"' :: '"' :: rest => some (['"'], rest)
  | _, '"' :: '"' :: '"' :: rest => some ([], rest)
  | true, ' ' :: rest => longBasicString true rest
  | true, '\t' :: rest => longBasicString true rest
  | joining, '\r' :: '\n' :: rest =>
    if joining then longBasicString true rest else cons (some '\n') (longBasicString false rest)
  | joining, '\n' :: rest =>
    if joining then longBasicString true rest else cons (some '\n') (longBasicString false rest)
  | _, '\\' :: 'u' :: a :: b :: c :: d :: rest =>
    cons (charOfDigits? [a, b, c, d]) (longBasicString false rest)
  | _, '\\' :: 'U' :: a :: b :: c :: d :: e :: f :: g :: h :: rest =>
    cons (charOfDigits? [a, b, c, d, e, f, g, h]) (longBasicString false rest)
  | _, '\\' :: c :: rest =>
    if continuesLine (c :: rest) then longBasicString true (c :: rest)
    else cons (escape? c) (longBasicString false rest)
  | _, c :: rest => if isPlain c then cons (some c) (longBasicString false rest) else none

/-- A string in triple single quotes, after the first three. -/
def longLiteralString : List Char → Option (List Char × List Char)
  | [] => none
  | '\'' :: '\'' :: '\'' :: '\'' :: '\'' :: rest => some (['\'', '\''], rest)
  | '\'' :: '\'' :: '\'' :: '\'' :: rest => some (['\''], rest)
  | '\'' :: '\'' :: '\'' :: rest => some ([], rest)
  | '\r' :: '\n' :: rest => cons (some '\n') (longLiteralString rest)
  | '\n' :: rest => cons (some '\n') (longLiteralString rest)
  | c :: rest => if isPlain c then cons (some c) (longLiteralString rest) else none

/-- The line end at once after the opening quotes does not count. -/
private def skipFirstNewline (cs : List Char) : List Char := (newline? cs).getD cs

/-- A string of any form. -/
def string? : List Char → Option (String × List Char)
  | '"' :: '"' :: '"' :: rest =>
    (longBasicString false (skipFirstNewline rest)).map fun r => (String.ofList r.1, r.2)
  | '"' :: rest => (basicString rest).map fun r => (String.ofList r.1, r.2)
  | '\'' :: '\'' :: '\'' :: rest =>
    (longLiteralString (skipFirstNewline rest)).map fun r => (String.ofList r.1, r.2)
  | '\'' :: rest => (literalString rest).map fun r => (String.ofList r.1, r.2)
  | _ => none

/-! ### Keys -/

/-- A character of keys without quotes. -/
def isBare (c : Char) : Bool := c.isAlphanum || c == '-' || c == '_'

/-- One part of a key. -/
def keyPart : List Char → Option (String × List Char)
  | '"' :: rest => (basicString rest).map fun r => (String.ofList r.1, r.2)
  | '\'' :: rest => (literalString rest).map fun r => (String.ofList r.1, r.2)
  | cs =>
    let name := cs.takeWhile isBare
    if name.isEmpty then none else some (String.ofList name, cs.dropWhile isBare)

/-! ### Numbers -/

/-- Digits, between which single underscores may stand, without those. -/
def digitGroups (isDigit : Char → Bool) : List Char → Option (List Char × List Char)
  | [] => none
  | c :: '_' :: rest => if isDigit c then cons (some c) (digitGroups isDigit rest) else none
  | c :: rest =>
    if !isDigit c then none
    else if rest.head?.any isDigit then cons (some c) (digitGroups isDigit rest)
    else some ([c], rest)

/-- The number that digits denote in a base. -/
def numberOf (base : Nat) (digits : List Char) : Nat :=
  digits.foldl (fun n c => base * n + (Hex.digitValue? c).getD 0) 0

/-- A sign, true for minus. -/
def sign : List Char → Bool × List Char
  | '+' :: rest => (false, rest)
  | '-' :: rest => (true, rest)
  | cs => (false, cs)

/-- Decimal digits that do not begin with a superfluous zero. -/
def wholePart : List Char → Option (List Char × List Char)
  | '0' :: rest => some (['0'], rest)
  | cs => digitGroups Char.isDigit cs

/-- An integer within 64 bits. -/
def inWord (n : Int) : Option Int :=
  if -2 ^ (63 : Nat) ≤ n ∧ n < 2 ^ (63 : Nat) then some n else none

/-- An integer in a base given by a letter, or in base ten with a sign. -/
def integer? (cs : List Char) : Option (Int × List Char) :=
  let inBase (base : Nat) (isDigit : Char → Bool) (cs : List Char) : Option (Int × List Char) := do
    let (digits, rest) ← digitGroups isDigit cs
    return (← inWord (numberOf base digits), rest)
  match cs with
  | '0' :: 'x' :: rest => inBase 16 (fun c => (Hex.digitValue? c).isSome) rest
  | '0' :: 'o' :: rest => inBase 8 (fun c => '0' ≤ c && c ≤ '7') rest
  | '0' :: 'b' :: rest => inBase 2 (fun c => c == '0' || c == '1') rest
  | cs => do
    let (neg, cs) := sign cs
    let (digits, rest) ← wholePart cs
    let n : Int := numberOf 10 digits
    return (← inWord (if neg then -n else n), rest)

/-- An exponent with its letter. -/
def exponent? : List Char → Option (Int × List Char)
  | 'e' :: rest => after rest
  | 'E' :: rest => after rest
  | _ => none
where
  after (cs : List Char) : Option (Int × List Char) := do
    let (neg, cs) := sign cs
    let (digits, rest) ← digitGroups Char.isDigit cs
    let n : Int := numberOf 10 digits
    return (if neg then -n else n, rest)

/-- A floating point number, which has a fraction or an exponent or both. One that is too great
fails; one that is too small counts as infinite. -/
def float? (cs : List Char) : Option (BitVec 64 × List Char) := do
  let (neg, cs) := sign cs
  match cs with
  | 'i' :: 'n' :: 'f' :: rest => some (BitVec.ofNat 64 (Ieee.double.infinity neg), rest)
  | 'n' :: 'a' :: 'n' :: rest => some (BitVec.ofNat 64 Ieee.double.canonicalNan, rest)
  | cs =>
    let (whole, rest) ← wholePart cs
    let (digits, exp, rest) ← match rest with
      | '.' :: rest => do
        let (fraction, rest) ← digitGroups Char.isDigit rest
        match rest with
        | 'e' :: _ | 'E' :: _ => do
          let (e, rest) ← exponent? rest
          some (whole ++ fraction, e - fraction.length, rest)
        | _ => some (whole ++ fraction, -(fraction.length : Int), rest)
      | rest => do
        let (e, rest) ← exponent? rest
        some (whole, e, rest)
    let bits := Ieee.Decimal.toBits Ieee.double neg ⟨numberOf 10 digits, exp⟩
    if bits = Ieee.double.infinity false then none else some (BitVec.ofNat 64 bits, rest)

/-! ### Dates and times -/

/-- A number of exactly `n` decimal digits. -/
def digits? : Nat → List Char → Option (Nat × List Char)
  | n, cs =>
    let digits := cs.take n
    if digits.length = n ∧ digits.all Char.isDigit then some (numberOf 10 digits, cs.drop n) else none

/-- What follows a character. -/
def skipChar? (c : Char) : List Char → Option (List Char)
  | d :: rest => if d = c then some rest else none
  | [] => none

def daysIn (year month : Nat) : Nat :=
  if month = 2 then if year % 4 = 0 ∧ (year % 100 ≠ 0 ∨ year % 400 = 0) then 29 else 28
  else if month = 4 ∨ month = 6 ∨ month = 9 ∨ month = 11 then 30
  else 31

/-- What follows a date. -/
def date? (cs : List Char) : Option (List Char) := do
  let (year, cs) ← digits? 4 cs
  let (month, cs) ← digits? 2 (← skipChar? '-' cs)
  let (day, cs) ← digits? 2 (← skipChar? '-' cs)
  if 1 ≤ month ∧ month ≤ 12 ∧ 1 ≤ day ∧ day ≤ daysIn year month then some cs else none

/-- What follows an hour and a minute. -/
def hourMinute? (cs : List Char) : Option (List Char) := do
  let (hour, cs) ← digits? 2 cs
  let (minute, cs) ← digits? 2 (← skipChar? ':' cs)
  if hour ≤ 23 ∧ minute ≤ 59 then some cs else none

/-- What follows a time of day. -/
def time? (cs : List Char) : Option (List Char) := do
  let cs ← hourMinute? cs
  let (second, cs) ← digits? 2 (← skipChar? ':' cs)
  if 60 < second then none
  else
    match cs with
    | '.' :: rest =>
      if (rest.takeWhile Char.isDigit).isEmpty then none else some (rest.dropWhile Char.isDigit)
    | cs => some cs

/-- What follows the place of a time zone, which may be absent. -/
def offset? : List Char → Option (List Char)
  | 'Z' :: rest => some rest
  | 'z' :: rest => some rest
  | '+' :: rest => hourMinute? rest
  | '-' :: rest => hourMinute? rest
  | cs => some cs

/-- Whether a date or a time begins. -/
def beginsDate (cs : List Char) : Bool :=
  ((digits? 4 cs).bind fun r => skipChar? '-' r.2).isSome || ((digits? 2 cs).bind fun r => skipChar? ':' r.2).isSome

/-- What follows a date, a time of day, or both. -/
def datetime? (cs : List Char) : Option (List Char) :=
  match date? cs with
  | none => time? cs
  | some rest =>
    match rest with
    | [] => some []
    | c :: more =>
      if c == 'T' || c == 't' || (c == ' ' && (digits? 2 more).isSome) then
        (time? more).bind offset?
      else some rest

end WasmEmbed.Toml
