import WasmEmbed.Bytes
import WasmEmbed.Type
/-!
Readers of bytes: single bytes, integers in groups of seven bits (lowest group first, a set high bit
announcing another group), names, and lists with their length in front.
-/

namespace WasmEmbed.Binary

/-- Why bytes are no module. -/
inductive Fault where
  | unexpectedEnd
  | integerTooLarge
  | notText
  /-- A code that stands for nothing where it was read. -/
  | unknownCode (what : String) (code : Nat)
  /-- Something ended before or after its announced end. -/
  | wrongSize (what : String)
  /-- Two parts of a module contradict one another. -/
  | inconsistent (what : String)
  | outOfOrder
  | limitExceeded (what : String)
  | unknownIndex (what : String) (index : Nat)
  | typeMismatch
  | disabled (what : String)
  | notConstant
  | duplicateExport (name : String)
  deriving DecidableEq, Repr, Inhabited

/-- The text of a fault. -/
def Fault.message : Fault → String
  | unexpectedEnd => "unexpected end"
  | integerTooLarge => "integer too large"
  | notText => "malformed UTF-8 encoding"
  | unknownCode what code => "unknown " ++ what ++ " " ++ toString code
  | wrongSize what => what ++ " size mismatch"
  | inconsistent what => what ++ " have inconsistent lengths"
  | outOfOrder => "section out of order"
  | limitExceeded what => "limit exceeded: " ++ what
  | unknownIndex what index => "unknown " ++ what ++ " " ++ toString index
  | typeMismatch => "type mismatch"
  | disabled what => what ++ " support is not enabled"
  | notConstant => "constant expression required"
  | duplicateExport name => "duplicate export name " ++ name

/-- Reads a beginning of the bytes; what is left is the new state. -/
abbrev Reader (α : Type) : Type := StateT (List UInt8) (Except Fault) α

def byte : Reader UInt8 := fun bs =>
  match bs with
  | [] => .error .unexpectedEnd
  | b :: rest => .ok (b, rest)

/-- The next byte, which stays. -/
def peek : Reader UInt8 := fun bs =>
  match bs with
  | [] => .error .unexpectedEnd
  | b :: _ => .ok (b, bs)

/-- Whether nothing is left. -/
def atEnd : Reader Bool := fun bs => .ok (bs.isEmpty, bs)

/-- The next `n` bytes. -/
def take (n : Nat) : Reader (List UInt8) := fun bs =>
  if n ≤ bs.length then .ok (bs.take n, bs.drop n) else .error .unexpectedEnd

/-- All bytes left. -/
def takeAll : Reader (List UInt8) := fun bs => .ok (bs, [])

/-- Groups of seven bits that hold a natural number below `2 ^ bits`. -/
def unsignedGroups : Nat → List UInt8 → Except Fault (Nat × List UInt8)
  | _, [] => .error .unexpectedEnd
  | bits, b :: rest =>
    if b < 128 then
      if b.toNat < 2 ^ bits then .ok (b.toNat, rest) else .error .integerTooLarge
    else if bits ≤ 7 then .error .integerTooLarge
    else
      match unsignedGroups (bits - 7) rest with
      | .ok (n, left) => .ok (b.toNat - 128 + 128 * n, left)
      | .error e => .error e

/-- Groups of seven bits that hold an integer of `bits` bits, the last group carrying the sign. -/
def signedGroups : Nat → List UInt8 → Except Fault (Int × List UInt8)
  | _, [] => .error .unexpectedEnd
  | bits, b :: rest =>
    if b < 128 then
      let n : Int := if b < 64 then b.toNat else (b.toNat : Int) - 128
      if -2 ^ (bits - 1) ≤ n ∧ n < 2 ^ (bits - 1) then .ok (n, rest) else .error .integerTooLarge
    else if bits ≤ 7 then .error .integerTooLarge
    else
      match signedGroups (bits - 7) rest with
      | .ok (n, left) => .ok ((b.toNat : Int) - 128 + 128 * n, left)
      | .error e => .error e

def u32 : Reader Nat := unsignedGroups 32

def s32 : Reader Int := signedGroups 32

/-- An index or, below zero, one of the types that are written as single bytes. -/
def s33 : Reader Int := signedGroups 33

def s64 : Reader Int := signedGroups 64

/-- A number of `n` bytes, the lowest first. -/
def littleEndian (n : Nat) : Reader Nat := do
  return Bytes.toNat (← take n)

/-- The longest name. -/
def maxNameBytes : Nat := 100000

def name : Reader String := do
  let n ← u32
  if maxNameBytes < n then throw (.limitExceeded "name")
  let bs ← take n
  match String.fromUTF8? ⟨bs.toArray⟩ with
  | some s => return s
  | none => throw .notText

/-- As many things as `n` says. -/
def replicate {α : Type} (item : Reader α) : Nat → Reader (List α)
  | 0 => return []
  | n + 1 => do
    let x ← item
    let xs ← replicate item n
    return x :: xs

/-- A list with its length in front. -/
def vector {α : Type} (item : Reader α) (limit : Nat) (what : String) : Reader (List α) := do
  let n ← u32
  if limit < n then throw (.limitExceeded what)
  replicate item n

/-- Something whose size in bytes stands in front, and which has exactly that size. -/
def sized {α : Type} (what : String) (inner : Reader α) : Reader α := do
  let n ← u32
  let bs ← take n
  match inner bs with
  | .ok (x, []) => return x
  | .ok (_, _ :: _) => throw (.wrongSize what)
  | .error e => throw e

end WasmEmbed.Binary
