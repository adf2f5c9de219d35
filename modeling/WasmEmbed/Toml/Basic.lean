/-!
Configuration documents of keys and values, in which every key and value knows where in the text it
stands.
-/

namespace WasmEmbed.Toml

/-- A piece of a text, by the offsets of its first byte and of the byte after its last. -/
structure Span where
  start : Nat
  stop : Nat
  deriving DecidableEq, Repr, Inhabited

/-- A key where it first stands. -/
structure Key where
  name : String
  span : Span
  deriving DecidableEq, Repr, Inhabited

/-- How a table came about. -/
inductive TableForm where
  /-- By a header, or as a whole document. -/
  | explicit
  /-- By the header of a table below it. -/
  | implicit
  /-- By a key with dots. -/
  | dotted
  /-- Between braces. -/
  | inline
  deriving DecidableEq, Repr, Inhabited

/-- A value. Tables keep their entries in order; those that no header opens and no braces enclose
have no place. -/
inductive Node where
  | string (span : Span) (s : String)
  | integer (span : Span) (n : Int)
  | float (span : Span) (bits : BitVec 64)
  | bool (span : Span) (b : Bool)
  | datetime (span : Span)
  | array (span : Span) (items : List Node)
  /-- Tables under headers in double brackets. -/
  | tables (items : List Node)
  | table (form : TableForm) (span : Option Span) (entries : List (Key × Node))
  deriving Repr, Inhabited

namespace Node

/-- Where a value other than an array of tables stands. -/
def ownSpan? : Node → Option Span
  | string span _ | integer span _ | float span _ | bool span _ | datetime span | array span _ =>
    some span
  | table _ span _ => span
  | tables _ => none

/-- Where a value stands. Tables of an array stand from the first to the last. -/
def span? : Node → Option Span
  | tables items =>
    match items.head?.bind ownSpan?, items.getLast?.bind ownSpan? with
    | some first, some last => some ⟨first.start, last.stop⟩
    | _, _ => none
  | n => n.ownSpan?

/-- The name of the kind of a value. -/
def kind : Node → String
  | string .. => "string"
  | integer .. => "integer"
  | float .. => "float"
  | bool .. => "boolean"
  | datetime _ => "datetime"
  | array .. => "array"
  | tables _ => "array of tables"
  | table .inline .. => "inline table"
  | table .. => "table"

end Node

/-- Entries by the names of their keys. -/
abbrev Entries : Type := List (Key × Node)

namespace Entries

def find? (es : Entries) (name : String) : Option Node :=
  (List.find? (fun e => e.1.name == name) es).map (·.2)

/-- The entries with another value under a name, which keeps its place and key; a new one comes
last. -/
def set (es : Entries) (key : Key) (n : Node) : Entries :=
  match es with
  | [] => [(key, n)]
  | e :: rest => if e.1.name == key.name then (e.1, n) :: rest else e :: set rest key n

/-- The entries without the one under a name. -/
def erase (es : Entries) (name : String) : Entries := List.filter (fun e => e.1.name != name) es

end Entries

end WasmEmbed.Toml
