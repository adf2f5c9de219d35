/-!
What reading a file gives: bytes, or one of the reasons why there are none.
-/

namespace WasmEmbed

inductive FileContent where
  | bytes (bs : List UInt8)
  | notFound
  | directory
  | notDirectory
  /-- The path, or one of the names in it, is longer than the system allows. -/
  | nameTooLong
  /-- The path has a character in it that ends every path. -/
  | nulInPath
  deriving DecidableEq, Repr, Inhabited

namespace FileContent

/-- The bytes, or the system's text for the reason why there are none. -/
def read : FileContent → Except String (List UInt8)
  | bytes bs => .ok bs
  | notFound => .error "No such file or directory (os error 2)"
  | directory => .error "Is a directory (os error 21)"
  | notDirectory => .error "Not a directory (os error 20)"
  | nameTooLong => .error "File name too long (os error 36)"
  | nulInPath => .error "file name contained an unexpected NUL byte"

/-- The most bytes of a path. -/
def maxPathBytes : Nat := 4095

/-- The most bytes of a name in a path. -/
def maxNameBytes : Nat := 255

/-- Follows the names of a path from a directory. `files` are those that the directory holds, none
if it lies above the one that is known. -/
def follow (files : List (String × List UInt8)) : List String → FileContent
  | [] => directory
  | name :: rest =>
    if name == "" ∨ name == "." then follow files rest
    else if name == ".." then follow [] rest
    else if maxNameBytes < name.utf8ByteSize then nameTooLong
    else
      match files.find? fun f => f.1 == name with
      | some f => if rest.isEmpty then bytes f.2 else notDirectory
      | none => notFound

/-- The content of a path in a directory that holds the files given and nothing else. -/
def inDirectory (files : List (String × List UInt8)) (path : String) : FileContent :=
  if path.contains '\x00' then nulInPath
  else if path.isEmpty then notFound
  else if maxPathBytes < path.utf8ByteSize then nameTooLong
  else follow (if path.startsWith "/" then [] else files) (path.splitOn "/")

end FileContent

end WasmEmbed
