import WasmEmbed.Json.Lexeme
/-!
Whole documents. Every reading function stands at the first character it has to look at, after
blanks.
-/

namespace WasmEmbed.Json

/-- Reads a name and the colon after it; the rest stands at the value. -/
def memberName? (cs : List Char) : Option (String × List Char) :=
  match cs with
  | '"' :: rest =>
    (stringTail [] rest).bind fun (name, rest) =>
      match skipBlanks rest with
      | ':' :: rest => some (name, skipBlanks rest)
      | _ => none
  | _ => none

mutual

/-- Reads a value; the bound counts the steps that may still be taken. -/
def parseValue : Nat → List Char → Option (Json × List Char)
  | 0, _ => none
  | bound + 1, cs =>
    match opening cs with
    | none => none
    | some (.scalar v rest) => some (v, rest)
    | some (.array rest) =>
      match skipBlanks rest with
      | ']' :: rest => some (.array [], rest)
      | rest => (parseItems bound rest).map fun (items, rest) => (.array items, rest)
    | some (.object rest) =>
      match skipBlanks rest with
      | '}' :: rest => some (.object [], rest)
      | rest => (parseMembers bound rest).map fun (members, rest) => (.object members, rest)

/-- Reads the items of an array, at least one, and its end. -/
def parseItems : Nat → List Char → Option (List Json × List Char)
  | 0, _ => none
  | bound + 1, cs =>
    (parseValue bound cs).bind fun (v, rest) =>
      match skipBlanks rest with
      | ']' :: rest => some ([v], rest)
      | ',' :: rest => (parseItems bound (skipBlanks rest)).map fun (vs, rest) => (v :: vs, rest)
      | _ => none

/-- Reads the members of an object, at least one, and its end. -/
def parseMembers : Nat → List Char → Option (List (String × Json) × List Char)
  | 0, _ => none
  | bound + 1, cs =>
    (memberName? cs).bind fun (name, rest) =>
      (parseValue bound rest).bind fun (v, rest) =>
        match skipBlanks rest with
        | '}' :: rest => some ([(name, v)], rest)
        | ',' :: rest =>
          (parseMembers bound (skipBlanks rest)).map fun (ms, rest) => ((name, v) :: ms, rest)
        | _ => none

end

/-- The document that a text spells, if it is one. -/
def parse? (text : String) : Option Json :=
  let cs := text.toList
  (parseValue (2 * cs.length + 2) (skipBlanks cs)).bind fun (v, rest) =>
    if (skipBlanks rest).isEmpty then some v else none

end WasmEmbed.Json
