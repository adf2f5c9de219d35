/-!
Checking that bytes are UTF-8 text, and saying where they are not.
-/

namespace WasmEmbed.Utf8

/-- What is wrong with bytes: `count` bytes at an index that begin no character, or an end within a
character. -/
inductive Fault where
  | invalid (count index : Nat)
  | incomplete (index : Nat)
  deriving DecidableEq, Repr, Inhabited

def Fault.message : Fault → String
  | invalid count index =>
    "invalid utf-8 sequence of " ++ toString count ++ " bytes from index " ++ toString index
  | incomplete index => "incomplete utf-8 byte sequence from index " ++ toString index

/-- A byte that continues a character. -/
def isContinuation (b : UInt8) : Bool := 0x80 ≤ b && b ≤ 0xBF

/-- The bytes that may follow a first byte, which rule out longer forms than needed, surrogates, and
numbers that are too large. -/
def secondRange (first : UInt8) : UInt8 × UInt8 :=
  if first = 0xE0 then (0xA0, 0xBF)
  else if first = 0xED then (0x80, 0x9F)
  else if first = 0xF0 then (0x90, 0xBF)
  else if first = 0xF4 then (0x80, 0x8F)
  else (0x80, 0xBF)

/-- How many bytes a character takes, by its first byte. -/
def width (first : UInt8) : Nat :=
  if first < 0x80 then 1
  else if 0xC2 ≤ first ∧ first ≤ 0xDF then 2
  else if 0xE0 ≤ first ∧ first ≤ 0xEF then 3
  else if 0xF0 ≤ first ∧ first ≤ 0xF4 then 4
  else 0

/-- What is wrong with the bytes after a first one, of which `count` bytes of the character were
read. -/
def checkRest (index : Nat) : Nat → Nat → List UInt8 → Option Fault
  | 0, _, _ => none
  | _ + 1, _, [] => some (.incomplete index)
  | more + 1, count, b :: rest =>
    if isContinuation b then checkRest index more (count + 1) rest else some (.invalid count index)

/-- What is wrong with the character that bytes begin with. -/
def checkFirst (index : Nat) (first : UInt8) (rest : List UInt8) : Option Fault :=
  match width first, rest with
  | 0, _ => some (.invalid 1 index)
  | 1, _ => none
  | _ + 2, [] => some (.incomplete index)
  | n + 2, second :: rest =>
    let (lo, hi) := secondRange first
    if lo ≤ second ∧ second ≤ hi then checkRest index n 2 rest else some (.invalid 1 index)

/-- The first fault of bytes from an index on, of which `skip` belong to a character already
checked. -/
def check : Nat → Nat → List UInt8 → Option Fault
  | _, _, [] => none
  | index, skip + 1, _ :: rest => check (index + 1) skip rest
  | index, 0, b :: rest =>
    match checkFirst index b rest with
    | some fault => some fault
    | none => check (index + 1) (width b - 1) rest

/-- The text that bytes encode. -/
def decode (bytes : List UInt8) : Except Fault String :=
  match check 0 0 bytes, String.fromUTF8? ⟨bytes.toArray⟩ with
  | none, some s => .ok s
  | some fault, _ => .error fault
  | none, none => .error (.incomplete 0)

end WasmEmbed.Utf8
