import WasmEmbed.Text.Hex
/-!
The text format as trees: words, names, strings, and lists in parentheses. Blanks and comments
separate them.
-/

namespace WasmEmbed.Wat

/-- Why a text is no module. -/
inductive Fault where
  /-- The text does not consist of words, names, strings and balanced parentheses. -/
  | malformedText
  | expected (what : String)
  | unexpected (word : String)
  | unknownName (space name : String)
  | duplicateName (space name : String)
  | outOfRange (number : String)
  | misplaced (what : String)
  /-- A signature is given twice, in two ways. -/
  | differentSignature
  deriving DecidableEq, Repr, Inhabited

/-- The text of a fault. -/
def Fault.message : Fault → String
  | malformedText => "malformed text"
  | expected what => "expected " ++ what
  | unexpected word => "unexpected " ++ word
  | unknownName space name => "unknown " ++ space ++ " " ++ name
  | duplicateName space name => "duplicate " ++ space ++ " identifier " ++ name
  | outOfRange number => "constant out of range " ++ number
  | misplaced what => what ++ " out of place"
  | differentSignature => "inline function type does not match the type referred to"

/-- A tree. -/
inductive Sexpr where
  /-- A keyword or a number. -/
  | word (s : String)
  /-- A name without the sign in front of it. -/
  | name (s : String)
  | string (bytes : List UInt8)
  | list (items : List Sexpr)
  /-- A list that says something about the module beside what it is. -/
  | note (id : String) (items : List Sexpr)
  deriving Repr, Inhabited

namespace Sexpr

def word? : Sexpr → Option String
  | word s => some s
  | _ => none

def name? : Sexpr → Option String
  | name s => some s
  | _ => none

def string? : Sexpr → Option (List UInt8)
  | string bytes => some bytes
  | _ => none

/-- The word that a list begins with, and what follows it. -/
def headed? : Sexpr → Option (String × List Sexpr)
  | list (word s :: items) => some (s, items)
  | _ => none

/-- What follows a keyword in a list that begins with it. -/
def under? (keyword : String) : Sexpr → Option (List Sexpr)
  | list (word s :: items) => if s == keyword then some items else none
  | _ => none

/-- What follows the beginning of an annotation. -/
def annotating? (id : String) : Sexpr → Option (List Sexpr)
  | note i items => if i == id then some items else none
  | _ => none

end Sexpr

/-- A piece of a text between blanks. -/
inductive Token where
  | opening
  /-- The beginning of an annotation. Without an identifier it may only stand inside of another
  annotation. -/
  | annotated (id : Option String)
  | closing
  | leaf (s : Sexpr)
  /-- Characters that mean nothing outside of annotations. -/
  | reserved
  deriving Repr, Inhabited

/-- A character of words and names. -/
def isWordChar (c : Char) : Bool := c.isAlphanum || "!#$%&'*+-./:<=>?@\\^_`|~".contains c

/-- A character that changes the direction of text, which nothing may contain. -/
def isConfusing (c : Char) : Bool :=
  (0x202A ≤ c.toNat && c.toNat ≤ 0x202E && c.toNat != 0x202C) || (0x2066 ≤ c.toNat && c.toNat ≤ 0x2069)
    || c.toNat == 0x206C

/-- A character that ends a comment to the end of the line. -/
def isLineEnd (c : Char) : Bool := c == '\n' || c == '\r'

/-- What follows a comment in parentheses, in which `depth` more are open. -/
def skipComment : Nat → List Char → Option (List Char)
  | _, [] => none
  | depth, '(' :: ';' :: rest => skipComment (depth + 1) rest
  | 0, ';' :: ')' :: rest => some rest
  | depth + 1, ';' :: ')' :: rest => skipComment depth rest
  | depth, c :: rest => if isConfusing c then none else skipComment depth rest

/-- The character that hexadecimal digits in braces give the number of, and what follows.
Underscores may stand between the digits. -/
def bracedChar? (cs : List Char) : Option (List UInt8 × List Char) := do
  let digits := cs.takeWhile fun c => (Hex.digitValue? c).isSome || c == '_'
  if digits.isEmpty ∨ digits.head? = some '_' ∨ digits.getLast? = some '_' then failure
  let n ← Hex.read? (digits.filter (· != '_')) 0
  match cs.drop digits.length with
  | '}' :: rest => if n.isValidChar then some (String.utf8EncodeChar (Char.ofNat n), rest) else none
  | _ => none

/-- What a backslash with these characters after it stands for, and what follows. -/
def escape? : List Char → Option (List UInt8 × List Char)
  | 't' :: rest => some ([9], rest)
  | 'n' :: rest => some ([10], rest)
  | 'r' :: rest => some ([13], rest)
  | '"' :: rest => some ([34], rest)
  | '\'' :: rest => some ([39], rest)
  | '\\' :: rest => some ([92], rest)
  | 'u' :: '{' :: rest => bracedChar? rest
  | a :: b :: rest => do
    let high ← Hex.digitValue? a
    let low ← Hex.digitValue? b
    return ([(16 * high + low).toUInt8], rest)
  | _ => none

/-- The bytes of a string after its first quote, of less than `fuel` characters, and what follows.
-/
def stringTail : Nat → List Char → Option (List UInt8 × List Char)
  | 0, _ => none
  | fuel + 1, cs =>
    match cs with
    | [] => none
    | '"' :: rest => some ([], rest)
    | '\\' :: rest => do
      let (bytes, rest) ← escape? rest
      let (more, rest) ← stringTail fuel rest
      return (bytes ++ more, rest)
    | c :: rest => do
      if c < ' ' ∨ c = '\x7f' ∨ isConfusing c then failure
      let (more, rest) ← stringTail fuel rest
      return (String.utf8EncodeChar c ++ more, rest)

/-- The text that bytes encode. -/
def textOf? (bytes : List UInt8) : Option String := String.fromUTF8? ⟨bytes.toArray⟩

/-- A part of a run of characters without blanks. -/
inductive Piece where
  | chars (cs : List Char)
  | string (bytes : List UInt8)
  deriving Repr, Inhabited

/-- A run of words and strings without blanks, of at most `fuel` characters, and what follows. -/
def run : Nat → List Char → Option (List Piece × List Char)
  | 0, _ => none
  | fuel + 1, cs =>
    match cs with
    | '"' :: rest => do
      let (bytes, rest) ← stringTail (fuel + 1) rest
      let (pieces, rest) ← run fuel rest
      return (.string bytes :: pieces, rest)
    | c :: rest =>
      if isWordChar c then do
        let (pieces, left) ← run fuel (rest.dropWhile isWordChar)
        return (.chars (c :: rest.takeWhile isWordChar) :: pieces, left)
      else some ([], cs)
    | [] => some ([], [])

/-- The text that bytes encode, unless it is empty. -/
def identifier? (bytes : List UInt8) : Option String := (textOf? bytes).filter (! ·.isEmpty)

/-- What a run stands for. -/
def tokenOf : List Piece → Token
  | [.string bytes] => .leaf (.string bytes)
  | [.chars ('$' :: c :: cs)] => .leaf (.name (String.ofList (c :: cs)))
  | [.chars ['$'], .string bytes] =>
    match identifier? bytes with
    | some s => .leaf (.name s)
    | none => .reserved
  | [.chars ['$']] => .reserved
  | [.chars cs] => .leaf (.word (String.ofList cs))
  | _ => .reserved

/-- What a run that begins with `@` stands for behind an opening parenthesis. -/
def annotationOf : List Piece → List Token
  | [.chars ('@' :: c :: cs)] => [.annotated (some (String.ofList (c :: cs)))]
  | [.chars ['@'], .string bytes] => [.annotated (identifier? bytes)]
  | _ => [.opening, .reserved]

/-- The tokens of a text of less than `fuel` characters. -/
def tokens : Nat → List Char → Option (List Token)
  | 0, _ => none
  | fuel + 1, cs =>
    match cs with
    | [] => some []
    | ' ' :: rest | '\t' :: rest | '\n' :: rest | '\r' :: rest => tokens fuel rest
    | ';' :: ';' :: rest =>
      let line := rest.takeWhile (! isLineEnd ·)
      if line.any isConfusing then none else tokens fuel (rest.dropWhile (! isLineEnd ·))
    | '(' :: ';' :: rest => do tokens fuel (← skipComment 0 rest)
    | '(' :: '@' :: rest => do
      let (pieces, rest) ← run (fuel + 1) ('@' :: rest)
      return annotationOf pieces ++ (← tokens fuel rest)
    | '(' :: rest => do return .opening :: (← tokens fuel rest)
    | ')' :: rest => do return .closing :: (← tokens fuel rest)
    | c :: rest =>
      if ";,[]\x7b\x7d".contains c then do return .reserved :: (← tokens fuel rest)
      else if isWordChar c ∨ c = '"' then do
        let (pieces, rest) ← run (fuel + 1) cs
        return tokenOf pieces :: (← tokens fuel rest)
      else none

/-- A list that is still open: the identifier if it is an annotation, and its trees, the last
first. -/
structure OpenList where
  id : Option String := none
  items : List Sexpr := []
  deriving Repr, Inhabited

/-- The list that is closed. -/
def OpenList.close (l : OpenList) : Sexpr :=
  match l.id with
  | some id => .note id l.items.reverse
  | none => .list l.items.reverse

/-- The annotation that says whether the branch behind it is likely. -/
def branchHint : String := "metadata.code.branch_hint"

/-- The annotations that mean something. -/
def knownAnnotations : List String := ["custom", "producers", "name", branchHint]

/-- The annotation that means something in a list that begins with `module`. -/
def linkingNote : String := "dylink.0"

/-- Whether an annotation means something inside of the lists that are open, the innermost first. -/
def isKnown (outer : List OpenList) (id : String) : Bool :=
  knownAnnotations.contains id || (id == linkingNote && match outer.reverse with
    | _ :: l :: _ => match l.items.getLast? with
      | some (.word "module") => true
      | _ => false
    | _ => false)

/-- The trees that tokens form inside of the lists that are open, the innermost first. `skipped`
lists are open in an annotation without meaning, which may hold anything. -/
def build : List OpenList → Nat → List Token → Option (List Sexpr)
  | [top], 0, [] => some top.items.reverse
  | _, _, [] => none
  | outer, skipped + 1, t :: rest =>
    match t with
    | .opening | .annotated _ => build outer (skipped + 2) rest
    | .closing => build outer skipped rest
    | .leaf _ | .reserved => build outer (skipped + 1) rest
  | outer, 0, .opening :: rest => build ({} :: outer) 0 rest
  | outer, 0, .annotated id :: rest =>
    match id with
    | none => none
    | some id =>
      if isKnown outer id then build ({ id := some id } :: outer) 0 rest else build outer 1 rest
  | inner :: l :: outer, 0, .closing :: rest =>
    build ({ l with items := inner.close :: l.items } :: outer) 0 rest
  | l :: outer, 0, .leaf s :: rest => build ({ l with items := s :: l.items } :: outer) 0 rest
  | _, 0, _ :: _ => none

/-- The trees of a text, in which there has to be something beside blanks and comments. -/
def trees? (text : String) : Option (List Sexpr) := do
  let cs := text.toList
  let ts ← tokens (cs.length + 1) cs
  if ts.isEmpty then failure
  build [{}] 0 ts

mutual

/-- How many words, names, strings and lists there are in a tree. -/
def Sexpr.weight : Sexpr → Nat
  | .list items | .note _ items => 1 + weight items
  | _ => 1

/-- How many words, names, strings and lists there are in trees. -/
def weight : List Sexpr → Nat
  | [] => 0
  | s :: rest => s.weight + weight rest

end

end WasmEmbed.Wat
