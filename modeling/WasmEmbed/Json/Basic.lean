/-!
JSON documents. Integers are kept exactly within 64 bits, signed or unsigned; every other number is
a double precision pattern. An object keeps its members in the order of the text.
-/

namespace WasmEmbed

/-- A JSON number. -/
inductive Json.Number where
  | integer (n : Int)
  | float (bits : BitVec 64)
  deriving DecidableEq, Repr, Inhabited

/-- A JSON document. -/
inductive Json where
  | null
  | bool (b : Bool)
  | number (n : Json.Number)
  | string (s : String)
  | array (items : List Json)
  | object (members : List (String × Json))
  deriving Repr, Inhabited

namespace Json

/-- The last value that a list of members gives to a name. -/
def lookup (members : List (String × Json)) (name : String) : Option Json :=
  (members.reverse.find? fun m => m.1 == name).map (·.2)

/-- The value of a member of an object. -/
def get? : Json → String → Option Json
  | object members, name => lookup members name
  | _, _ => none

/-- Puts a member into a list sorted by name, in place of an earlier one of the same name. -/
def insertMember (name : String) (v : Json) : List (String × Json) → List (String × Json)
  | [] => [(name, v)]
  | m :: rest =>
    if name < m.1 then (name, v) :: m :: rest
    else if name = m.1 then (name, v) :: rest
    else m :: insertMember name v rest

/-- The members as a map: sorted by name, the last of several of one name. -/
def sortMembers (members : List (String × Json)) : List (String × Json) :=
  members.foldl (fun acc m => insertMember m.1 m.2 acc) []

end Json

end WasmEmbed
