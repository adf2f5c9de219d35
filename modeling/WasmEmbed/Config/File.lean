import WasmEmbed.Config.Toml
import WasmEmbed.Engine.Basic
import WasmEmbed.File
/-!
Configuration files: a document with a table for the engine and a table for its stores. What is
wrong with one is shown in its text.
-/

namespace WasmEmbed

open Toml (Node Span Entries)

/-- Both configurations of a host. -/
structure ConfigFile where
  engine : Config := {}
  store : StoreConfig := {}
  deriving DecidableEq, Repr, Inhabited

/-- Why there is no configuration. -/
inductive FileError where
  /-- The file cannot be read. -/
  | unreadable (path reason : String)
  /-- The text is no document. -/
  | malformed
  /-- The document holds something else than configurations; the text shows where. -/
  | problem (shown : String)
  | invalid (error : Error)
  deriving Repr, Inhabited

/-- The text of an error. -/
def FileError.message : FileError → String
  | unreadable path reason => "Failed to read config file '" ++ path ++ "': " ++ reason
  | malformed => "Failed to parse config file: TOML syntax error"
  | problem shown => "Failed to parse config file: " ++ shown
  | invalid e => "Failed to parse config file: " ++ e.message

/-- The error for whoever needs the configuration. -/
def FileError.toError (e : FileError) : Error := .invalidConfig e.message

/-- The line that an offset is in, counted from 0, with what stands before the offset and the whole
line. -/
def lineAt (text : String) (offset : Nat) : Nat × List Char × String :=
  go 0 [] text.toList offset
where
  go (line : Nat) (before : List Char) : List Char → Nat → Nat × List Char × String
    | [], _ => (line, before.reverse, String.ofList before.reverse)
    | c :: rest, left =>
      if left = 0 then
        (line, before.reverse, String.ofList (before.reverse ++ (c :: rest).takeWhile (· != '\n')))
      else if c = '\n' then go (line + 1) [] rest (left - 1)
      else go line (c :: before) rest (left - c.utf8Size)

/-- A problem below the line of the text that it is in, with marks under the place. -/
def PlacedProblem.show (text : String) (p : PlacedProblem) : String :=
  let message := p.problem.message .pointed ++ "\n"
  match p.span with
  | none => message
  | some span =>
    let (line, before, content) := lineAt text span.start
    let number := toString (line + 1)
    let column := before.length
    let marks := min (span.stop - span.start) (content.utf8ByteSize - column)
    let spaces (n : Nat) : String := String.ofList (List.replicate n ' ')
    let gutter := spaces (number.length + 1)
    "TOML parse error at line " ++ number ++ ", column " ++ toString (column + 1) ++ "\n"
      ++ gutter ++ "|\n"
      ++ number ++ " | " ++ content ++ "\n"
      ++ gutter ++ "|" ++ spaces (column + 1) ++ String.ofList (List.replicate (max 1 marks) '^') ++ "\n"
      ++ message

namespace ConfigFile

/-- Reads the entries of a document in order. -/
def ofEntries : ConfigFile → Entries → Except PlacedProblem ConfigFile
  | file, [] => .ok file
  | file, (key, n) :: rest => do
    let around := n.span?.or (some key.span)
    if key.name == "engine" then
      ofEntries { file with engine := ← placing around (Config.ofToml n) } rest
    else if key.name == "store" then
      ofEntries { file with store := ← placing around (StoreConfig.ofToml n) } rest
    else throw ⟨some key.span, .unknownField key.name ["engine", "store"]⟩

/-- The configurations that a text holds. -/
def ofText (text : String) : Except FileError ConfigFile :=
  match Toml.parse? text with
  | none => .error .malformed
  | some entries =>
    match ofEntries {} entries with
    | .error p => .error (.problem (p.show text))
    | .ok file =>
      (file.engine.validate.mapError FileError.invalid).map fun engine => { file with engine }

/-- The configurations that a file holds. -/
def ofFile (path : String) (content : FileContent) : Except FileError ConfigFile :=
  match content.read with
  | .error reason => .error (.unreadable path reason)
  | .ok bytes =>
    match String.fromUTF8? ⟨bytes.toArray⟩ with
    | none => .error (.unreadable path "stream did not contain valid UTF-8")
    | some text => ofText text

end ConfigFile

/-- The engine that a configuration file describes, with the limits for its stores. -/
def Engine.ofFile (id : Nat) (path : String) (content : FileContent) :
    Except Error (Engine × StoreConfig) := do
  let file ← (ConfigFile.ofFile path content).mapError FileError.toError
  return (← Engine.create id file.engine, file.store)

end WasmEmbed
