/-!
Lower-case hexadecimal text of numbers and of byte strings.
-/

namespace WasmEmbed.Hex

/-- One hexadecimal digit; only the last four bits of the argument count. -/
def digit (n : Nat) : Char :=
  if n % 16 < 10 then Char.ofNat ('0'.toNat + n % 16) else Char.ofNat ('a'.toNat + (n % 16 - 10))

/-- The last `width` hexadecimal digits of a number, most significant first. -/
def digits : Nat → Nat → List Char
  | 0, _ => []
  | width + 1, n => digits width (n / 16) ++ [digit n]

/-- A number in `width` hexadecimal digits. -/
def ofNat (width n : Nat) : String := String.ofList (digits width n)

/-- Two digits for each byte. -/
def ofBytes (bytes : List UInt8) : String :=
  String.ofList (bytes.flatMap fun b => digits 2 b.toNat)

/-- The value of a digit of either case. -/
def digitValue? (c : Char) : Option Nat :=
  if '0' ≤ c ∧ c ≤ '9' then some (c.toNat - '0'.toNat)
  else if 'a' ≤ c ∧ c ≤ 'f' then some (c.toNat - 'a'.toNat + 10)
  else if 'A' ≤ c ∧ c ≤ 'F' then some (c.toNat - 'A'.toNat + 10)
  else none

/-- Reads digits, most significant first, onto a number read so far. -/
def read? : List Char → Nat → Option Nat
  | [], acc => some acc
  | c :: rest, acc => (digitValue? c).bind fun d => read? rest (16 * acc + d)

/-- The number that a text of hexadecimal digits denotes. -/
def toNat? (s : String) : Option Nat := read? s.toList 0

/-- Reads pairs of digits. -/
def readBytes? : List Char → Option (List UInt8)
  | [] => some []
  | hi :: lo :: rest => do
    let h ← digitValue? hi
    let l ← digitValue? lo
    let bytes ← readBytes? rest
    return UInt8.ofNat (16 * h + l) :: bytes
  | [_] => none

/-- The bytes that a text of digit pairs denotes. -/
def toBytes? (s : String) : Option (List UInt8) := readBytes? s.toList

end WasmEmbed.Hex
