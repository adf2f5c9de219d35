import WasmEmbed.File
import WasmEmbed.Module
import WasmEmbed.Text.Utf8
import WasmEmbed.Wat.Module
/-!
Modules from text and from files. A file holds a binary module if it starts with the bytes that
these start with, and else text.
-/

namespace WasmEmbed

namespace Module

/-- Compiles a module written as text; `origin` names the text in errors. -/
def ofTextFrom (origin : String) (e : Engine) (text : String) : Except Error Module × Engine :=
  match Wat.assemble text with
  | .ok bytes => compile e bytes
  | .error fault => (.error (.load origin fault.message), e)

/-- Compiles a module written as text. -/
def ofText (e : Engine) (text : String) : Except Error Module × Engine := ofTextFrom "text" e text

/-- Compiles the module that a file holds. -/
def ofFile (e : Engine) (path : String) (content : FileContent) : Except Error Module × Engine :=
  match content.read with
  | .error reason => (.error (.load path reason), e)
  | .ok bytes =>
    if bytes.take 4 = Binary.magic then compile e bytes
    else
      match Utf8.decode bytes with
      | .error fault => (.error (.load path ("not UTF-8 text: " ++ fault.message)), e)
      | .ok text => ofTextFrom path e text

end Module

/-- What a module is loaded from. -/
inductive Source where
  | bytes (bs : List UInt8)
  | text (s : String)
  | file (path : String) (content : FileContent)
  deriving Repr, Inhabited

/-- Compiles the module that a source holds. -/
def Source.load (src : Source) (e : Engine) : Except Error Module × Engine :=
  match src with
  | bytes bs => Module.compile e bs
  | text s => Module.ofText e s
  | file path content => Module.ofFile e path content

end WasmEmbed
