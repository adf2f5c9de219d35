import WasmEmbed.Config.Json
/-!
Configurations straight from JSON text, without a document in between. Reading stops at the first
thing that is wrong, in the order of the text, so a bad field wins over a bracket missing later.
-/

namespace WasmEmbed

/-- Why a text is no configuration. -/
inductive ReadError where
  /-- The text is not JSON, from some place on. -/
  | malformed
  | problem (p : Problem)
  deriving DecidableEq, Repr, Inhabited

namespace Stream

/-- A reader takes what it needs from the front of the text. -/
abbrev Reader (α : Type) : Type := StateT (List Char) (Except ReadError) α

def fail {α : Type} (p : Problem) : Reader α := throw (.problem p)

def malformed {α : Type} : Reader α := throw .malformed

/-- Reads blanks and the front of a value. -/
def nextOpening : Reader Json.Opening := do
  match Json.opening (Json.skipBlanks (← get)) with
  | some o => return o
  | none => malformed

/-- Reads the front of a value and says what stands there. -/
def nextFound : Reader Found := do
  match ← nextOpening with
  | .scalar v rest => set rest; return v.found
  | .array _ => return .sequence
  | .object _ => return .map

/-- Reads a value that `read` accepts by its front alone. -/
def scalar {α : Type} (read : Json → Except Problem α) : Reader α := do
  match ← nextOpening with
  | .scalar v rest =>
    set rest
    match read v with
    | .ok a => return a
    | .error p => fail p
  | .array _ => match read (.array []) with
    | .ok a => return a
    | .error p => fail p
  | .object _ => match read (.object []) with
    | .ok a => return a
    | .error p => fail p

/-- Reads a string. -/
def name (expected : String) : Reader String := do
  match ← nextOpening with
  | .scalar (.string s) rest => set rest; return s
  | .scalar v _ => fail (.invalidType v.found expected)
  | .array _ => fail (.invalidType .sequence expected)
  | .object _ => fail (.invalidType .map expected)

/-- Reads blanks and one given character. -/
def mark (c : Char) : Reader Unit := do
  match Json.skipBlanks (← get) with
  | d :: rest => if d = c then set rest else malformed
  | [] => malformed

/-- The level that a name stands for. -/
def levelNamed (s : String) : Reader OptLevel :=
  match levelOf s with
  | .ok l => return l
  | .error p => fail p

/-- Reads a level: a string, or an object with one member that is null. -/
def level : Reader OptLevel := do
  match Json.skipBlanks (← get) with
  | '"' :: _ => levelNamed (← name "variant identifier")
  | '{' :: rest =>
    set rest
    let l ← levelNamed (← name "variant identifier")
    mark ':'
    match ← nextFound with
    | .null => mark '}'; return l
    | found => fail (.invalidType found "unit")
  | _ => malformed

def readers : ValueReaders Reader where
  flag := scalar Json.flag
  size := scalar (Json.word "usize")
  level := level

/-- How a record is read from text: its name in messages, its fields in the order of their declaration,
the field of a name and what is wrong with any other name, and the values of the fields. -/
structure Record (φ β : Type) where
  expected : String
  fields : List φ
  field? : String → Option φ
  unknown : String → Problem
  value : φ → Reader β

namespace Record

variable {φ β : Type} [DecidableEq φ]

/-- Reads the members of an object and its end; `given` holds the fields that were given before. As
many members can be read as there are fields, and one more that is refused. -/
def members (r : Record φ β) : Nat → List φ → Reader (List β)
  | 0, _ => malformed
  | bound + 1, given => do
    let s ← name "field identifier"
    match r.field? s with
    | none => fail (r.unknown s)
    | some f =>
      if f ∈ given then fail (.duplicateField s)
      mark ':'
      let b ← r.value f
      match Json.skipBlanks (← get) with
      | '}' :: rest => set rest; return [b]
      | ',' :: rest =>
        match Json.skipBlanks rest with
        | '"' :: _ => set rest; return b :: (← r.members bound (f :: given))
        | _ => malformed
      | _ => malformed

/-- Reads the items of an array and its end. -/
def items (r : Record φ β) : List φ → Reader (List β)
  | [] => malformed
  | f :: fs => do
    let b ← r.value f
    match Json.skipBlanks (← get) with
    | ']' :: rest => set rest; return [b]
    | ',' :: rest =>
      match Json.skipBlanks rest with
      | ']' :: _ => malformed
      | _ => set rest; return b :: (← r.items fs)
    | _ => malformed

/-- Reads what a value gives to the fields. -/
def contents (r : Record φ β) : Reader (List β) := do
  match ← nextOpening with
  | .scalar v _ => fail (.invalidType v.found r.expected)
  | .array rest =>
    match Json.skipBlanks rest with
    | ']' :: rest => set rest; return []
    | _ => set rest; r.items r.fields
  | .object rest =>
    match Json.skipBlanks rest with
    | '}' :: rest => set rest; return []
    | '"' :: _ => set rest; r.members (r.fields.length + 1) []
    | _ => malformed

/-- What a text gives to the fields, if it is nothing but a value. -/
def read (r : Record φ β) (text : String) : Except ReadError (List β) := do
  let (bs, rest) ← r.contents.run text.toList
  if (Json.skipBlanks rest).isEmpty then return bs else throw .malformed

end Record

/-- Engine configurations in text. -/
def configRecord : Record ConfigField Setting where
  expected := "struct Config"
  fields := ConfigField.all
  field? := ConfigField.ofName?
  unknown := unknownConfigField
  value := fun f => f.read readers

/-- Store configurations in text. -/
def storeRecord : Record StoreField Limit where
  expected := "struct StoreConfig"
  fields := StoreField.all
  field? := StoreField.ofName?
  unknown := unknownStoreField
  value := fun f => f.read fun expected => scalar (Json.limit expected)

end Stream

/-- Reads a configuration from text, valid or not. -/
def Config.ofText (text : String) : Except ReadError Config := do
  return ofSettings (← Stream.configRecord.read text)

/-- Reads the limits of a store from text. -/
def StoreConfig.ofText (text : String) : Except ReadError StoreConfig := do
  return (← Stream.storeRecord.read text).foldl set {}

end WasmEmbed
