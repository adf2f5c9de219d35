import WasmEmbed.Engine.Basic
import WasmEmbed.Typing.Module
/-!
Modules: compiled from bytes by an engine. An engine may have the result from an earlier compilation
of the same bytes; that shows nowhere but in the size of its cache.
-/

namespace WasmEmbed

open WasmEmbed.Code

/-- A compiled module. It belongs to the engine that compiled it. -/
structure Module where
  /-- The number of the engine. -/
  engine : Nat
  artifact : Artifact
  exports : List ExportType
  imports : List ImportType
  /-- The digest of the bytes. -/
  contentHash : String
  deriving Repr, Inhabited

namespace Module

/-- Refuses bytes that do not begin as a module does. -/
def checkHeader (bytes : List UInt8) : Except Error Unit :=
  if bytes.length < 8 then .error (.compilation "Invalid Wasm: file too small")
  else if bytes.take 4 ≠ Binary.magic then .error (.compilation "Invalid Wasm: bad magic number")
  else .ok ()

/-- The compiled form of bytes. -/
def compileBytes (features : Features) (bytes : List UInt8) : Except Error Artifact :=
  match Typing.compile features bytes with
  | .ok a => .ok a
  | .error fault => .error (.compilation ("Module compilation failed: " ++ fault.message))

/-- A module with the types of its imports and exports. -/
def ofArtifact (e : Engine) (bytes : List UInt8) (a : Artifact) : Module :=
  { engine := e.id, artifact := a, exports := a.exportTypes, imports := a.importTypes,
    contentHash := e.digest bytes }

/-- Compiles a module, or finds it in the cache. -/
def compile (e : Engine) (bytes : List UInt8) : Except Error Module × Engine :=
  match checkHeader bytes with
  | .error err => (.error err, e)
  | .ok () =>
    match e.cached? (e.digest bytes) bytes with
    | some a => (.ok (ofArtifact e bytes a), e)
    | none =>
      match compileBytes e.config.features bytes with
      | .error err => (.error err, e)
      | .ok a => (.ok (ofArtifact e bytes a), e.keep (e.digest bytes) bytes a)

/-- The type of the export with a name. -/
def export? (m : Module) (name : String) : Option ExternType :=
  (m.exports.find? fun x => x.name == name).map (·.type)

/-- The signature of the exported function with a name. -/
def funcType? (m : Module) (name : String) : Option FuncType :=
  (m.export? name).bind ExternType.func?

/-- A module as a debugging text shows it. -/
def debugText (m : Module) : String :=
  "Module \x7b content_hash: \"" ++ m.contentHash ++ "\", exports: " ++ toString m.exports.length ++ ", imports: "
    ++ toString m.imports.length ++ ", .. \x7d"

end Module

end WasmEmbed
