import WasmEmbed.Toml.Lexeme
/-!
Readers of values and of keys with dots, which note where each stands.
-/

namespace WasmEmbed.Toml

/-- A place in a text: what is left of it and how many bytes come before. -/
structure Cursor where
  rest : List Char
  pos : Nat
  deriving Repr, Inhabited

/-- How many bytes characters take. -/
def byteCount (cs : List Char) : Nat := cs.foldl (fun n c => n + c.utf8Size) 0

namespace Cursor

/-- The place further on where `rest` is left. -/
def moveTo (c : Cursor) (rest : List Char) : Cursor :=
  ⟨rest, c.pos + (byteCount c.rest - byteCount rest)⟩

/-- The place after a character. -/
def skipChar? (c : Cursor) (x : Char) : Option Cursor := (Toml.skipChar? x c.rest).map c.moveTo

def skipBlanks (c : Cursor) : Cursor := c.moveTo (Toml.skipBlanks c.rest)

/-- The place after blanks, comments and line ends. -/
def skipLines? (c : Cursor) : Option Cursor :=
  (Toml.skipLines (c.rest.length + 1) c.rest).map c.moveTo

/-- Reads a piece and notes where it stands. -/
def take {α β : Type} (read : List Char → Option (α × List Char)) (make : Span → α → β)
    (c : Cursor) : Option (β × Cursor) := do
  let (a, rest) ← read c.rest
  let after := c.moveTo rest
  return (make ⟨c.pos, after.pos⟩ a, after)

end Cursor

/-- The most that values may be nested, and the most parts of a key. -/
def maxDepth : Nat := 80

/-- Parts of a key between dots, at most `fuel` of them. Blanks may surround each. -/
def keyParts : Nat → Cursor → Option (List Key × Cursor)
  | 0, _ => none
  | fuel + 1, c => do
    let (key, c) ← c.skipBlanks.take keyPart fun span name => Key.mk name span
    let c := c.skipBlanks
    match c.skipChar? '.' with
    | none => return ([key], c)
    | some c =>
      let (keys, c) ← keyParts fuel c
      return (key :: keys, c)

/-- A key: the names of tables and the name in the last of them. -/
def dottedKey (c : Cursor) : Option ((List Key × Key) × Cursor) := do
  let (keys, c) ← keyParts (maxDepth - 1) c
  let last ← keys.getLast?
  return ((keys.dropLast, last), c)

/-- A value without parts. -/
def scalar (c : Cursor) : Option (Node × Cursor) :=
  match c.rest with
  | '"' :: _ | '\'' :: _ => c.take string? Node.string
  | 't' :: 'r' :: 'u' :: 'e' :: rest => c.take (fun _ => some (true, rest)) Node.bool
  | 'f' :: 'a' :: 'l' :: 's' :: 'e' :: rest => c.take (fun _ => some (false, rest)) Node.bool
  | cs =>
    if beginsDate cs then c.take (fun cs => (datetime? cs).map ((), ·)) fun span _ => Node.datetime span
    else (c.take float? Node.float).or (c.take integer? Node.integer)

/-- The entries of a table in braces with one more. Tables along the way come about by keys with
dots only. -/
def insertInline (es : Entries) (path : List Key) (key : Key) (n : Node) : Option Entries :=
  match path with
  | [] => if (es.find? key.name).isSome then none else some (es ++ [(key, n)])
  | k :: path =>
    match es.find? k.name with
    | none => (insertInline [] path key n).map fun sub => es.set k (.table .dotted none sub)
    | some (.table .dotted _ sub) =>
      (insertInline sub path key n).map fun sub => es.set k (.table .dotted none sub)
    | some _ => none

/-- The values of an array up to its end, at most `fuel` of them. -/
def arrayItems (value : Cursor → Option (Node × Cursor)) :
    Nat → Cursor → Option (List Node × Cursor)
  | 0, _ => none
  | fuel + 1, c => do
    let c ← c.skipLines?
    match c.skipChar? ']' with
    | some c => return ([], c)
    | none =>
      let (n, c) ← value c
      let c ← c.skipLines?
      match c.skipChar? ',' with
      | some c =>
        let (ns, c) ← arrayItems value fuel c
        return (n :: ns, c)
      | none => return ([n], ← c.skipChar? ']')

/-- The entries of a table in braces up to its end, at most `fuel` of them, after those read so
far. -/
def inlineEntries (value : Cursor → Option (Node × Cursor)) :
    Nat → Entries → Cursor → Option (Entries × Cursor)
  | 0, _, _ => none
  | fuel + 1, es, c => do
    let ((path, key), c) ← dottedKey c
    let c ← c.skipChar? '='
    let (n, c) ← value c.skipBlanks
    let c := c.skipBlanks
    let es ← insertInline es path key n
    match c.skipChar? ',' with
    | some c => inlineEntries value fuel es c
    | none => return (es, ← c.skipChar? '}')

/-- A value with at most `depth` levels below it. -/
def value : Nat → Cursor → Option (Node × Cursor)
  | 0, c => scalar c
  | depth + 1, c =>
    match c.skipChar? '[' with
    | some inner =>
      if depth = 0 then none
      else do
        let (items, after) ← arrayItems (value depth) (inner.rest.length + 1) inner
        return (.array ⟨c.pos, after.pos⟩ items, after)
    | none =>
      match c.skipChar? '{' with
      | some inner =>
        if depth = 0 then none
        else
          let inner := inner.skipBlanks
          match inner.skipChar? '}' with
          | some after => some (.table .inline (some ⟨c.pos, after.pos⟩) [], after)
          | none => do
            let (es, after) ← inlineEntries (value depth) (inner.rest.length + 1) [] inner
            return (.table .inline (some ⟨c.pos, after.pos⟩) es, after)
      | none => scalar c

end WasmEmbed.Toml
