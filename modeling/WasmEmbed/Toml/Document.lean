import WasmEmbed.Toml.Value
/-!
Documents: lines that give a key a value or open a table. A table is opened once, and nothing is
defined twice.
-/

namespace WasmEmbed.Toml

/-- What was read of a document. The table that lines belong to is kept apart from those read before
it. -/
structure Draft where
  root : Entries := []
  /-- The entries of the present table. -/
  current : Entries := []
  /-- The tables that the present one is in, and its own key; none for the document itself. -/
  place : Option (List Key × Key) := none
  /-- From the header of the present table to its last value. -/
  span : Span := ⟨0, 0⟩
  /-- Whether the header is in double brackets. -/
  repeated : Bool := false
  deriving Repr, Inhabited

/-- Goes down a path of tables, of which missing ones are added, and changes the entries of the
last, whose form is known too. Keys with dots do not reach into tables that headers opened. -/
def under {α : Type} (byDots : Bool) (change : TableForm → Entries → Option (α × Entries)) :
    List Key → TableForm → Entries → Option (α × Entries)
  | [], form, es => change form es
  | k :: path, _, es =>
    let added := if byDots then TableForm.dotted else .implicit
    match es.find? k.name with
    | none => do
      let (a, sub) ← under byDots change path added []
      return (a, es.set k (.table added none sub))
    | some (.table .inline _ _) => none
    | some (.table form span sub) =>
      if byDots ∧ form = .explicit then none
      else do
        let (a, sub) ← under byDots change path form sub
        return (a, es.set k (.table form span sub))
    | some (.tables items) =>
      match items.getLast? with
      | some (.table form span sub) => do
        let (a, sub) ← under byDots change path form sub
        return (a, es.set k (.tables (items.dropLast ++ [.table form span sub])))
      | _ => none
    | some _ => none

namespace Draft

/-- The entries of all tables, the present one being put in its place. -/
def close (d : Draft) : Option Entries :=
  match d.place with
  | none => some d.current
  | some (path, key) =>
    let table := Node.table .explicit (some d.span) d.current
    let change (_ : TableForm) (es : Entries) : Option (Unit × Entries) :=
      if !d.repeated then some ((), es.set key table)
      else
        match es.find? key.name with
        | some (.tables items) => some ((), es.set key (.tables (items ++ [table])))
        | _ => none
    (under false change path .explicit d.root).map (·.2)

/-- Opens a table by a header. One that only lies above tables opened before is continued. -/
def openTable (d : Draft) (path : List Key) (key : Key) (span : Span) : Option Draft := do
  let root ← d.close
  let change (_ : TableForm) (es : Entries) : Option (Entries × Entries) :=
    match es.find? key.name with
    | none => some ([], es)
    | some (.table .implicit _ sub) => some (sub, es.erase key.name)
    | some _ => none
  let (current, root) ← under false change path .explicit root
  return { root, current, place := some (path, key), span, repeated := false }

/-- Opens one more table of an array of tables. -/
def openRepeated (d : Draft) (path : List Key) (key : Key) (span : Span) : Option Draft := do
  let root ← d.close
  let change (_ : TableForm) (es : Entries) : Option (Unit × Entries) :=
    match es.find? key.name with
    | none => some ((), es.set key (.tables []))
    | some (.tables _) => some ((), es)
    | some _ => none
  let ((), root) ← under false change path .explicit root
  return { root, current := [], place := some (path, key), span, repeated := true }

/-- Gives a key of the present table a value. -/
def insert (d : Draft) (path : List Key) (key : Key) (n : Node) : Option Draft := do
  let change (form : TableForm) (es : Entries) : Option (Unit × Entries) :=
    if (form == .dotted) == path.isEmpty ∨ (es.find? key.name).isSome then none else some ((), es ++ [(key, n)])
  let ((), current) ← under true change path .explicit d.current
  let span := match n.span? with
    | some s => { d.span with stop := s.stop }
    | none => d.span
  return { d with current, span }

end Draft

/-- A header in single or double brackets, with the rest of its line. -/
def header (d : Draft) (c : Cursor) : Option (Draft × Cursor) := do
  let inner ← c.skipChar? '['
  match inner.skipChar? '[' with
  | some inner =>
    let ((path, key), after) ← dottedKey inner
    let after ← after.skipChar? ']'
    let after ← after.skipChar? ']'
    let next ← (endOfLine? after.rest).map after.moveTo
    return (← d.openRepeated path key ⟨c.pos, after.pos⟩, next)
  | none =>
    let ((path, key), after) ← dottedKey inner
    let after ← after.skipChar? ']'
    let next ← (endOfLine? after.rest).map after.moveTo
    return (← d.openTable path key ⟨c.pos, after.pos⟩, next)

/-- A key and its value, with the rest of the line. -/
def keyValue (d : Draft) (c : Cursor) : Option (Draft × Cursor) := do
  let ((path, key), c) ← dottedKey c
  let c ← c.skipChar? '='
  let (n, after) ← value maxDepth c.skipBlanks
  let next ← (endOfLine? after.rest).map after.moveTo
  return (← d.insert path key n, next)

/-- Reads lines up to the end, at most `fuel` of them. -/
def lines : Nat → Draft → Cursor → Option Draft
  | 0, _, _ => none
  | fuel + 1, d, c =>
    let c := c.skipBlanks
    match c.rest with
    | [] => some d
    | '[' :: _ => do
      let (d, c) ← header d c
      lines fuel d c
    | x :: _ =>
      if x == '#' || x == '\n' || x == '\r' then do
        let c ← (endOfLine? c.rest).map c.moveTo
        lines fuel d c
      else do
        let (d, c) ← keyValue d c
        lines fuel d c

/-- The entries of a document. A byte order mark in front does not count. -/
def parse? (text : String) : Option Entries := do
  let cs := text.toList
  let c : Cursor := match cs with
    | '\uFEFF' :: rest => ⟨rest, 3⟩
    | cs => ⟨cs, 0⟩
  let d ← lines (cs.length + 2) {} c
  d.close

end WasmEmbed.Toml
