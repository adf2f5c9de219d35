import WasmEmbed.Wat.Draft
/-!
From drafts to bytes. Uses of signatures may add some to those that a module defines, and may refer
to ones that later uses add; so a draft is gone through twice, the second time with all signatures
known.
-/

namespace WasmEmbed.Wat

open WasmEmbed.Code
open WasmEmbed.Binary (NameMap Names WrittenItems WrittenMode putNat putSized)

/-- An import as bytes, none if no module here can have it. -/
def settleImport (sc : Scope) (i : String × String × DraftImport) :
    Settler (Option (List UInt8)) := do
  let desc : Option ImportDesc ← match i.2.2 with
    | .func use => do pure (some (.func (← typeIndex sc use)))
    | .table form => do
      let _ ← (checkTypes sc form.element.targets : Except Fault Unit)
      pure (form.type?.map .table)
    | .memory type => pure (type.map .memory)
    | .global form => do
      let _ ← (checkTypes sc form.content.targets : Except Fault Unit)
      pure (form.type?.map .global)
    | .tag use => do
      let _ ← typeIndex sc use
      pure none
  return desc.map fun desc => Binary.putImport ⟨i.1, i.2.1, desc⟩

/-- A function whose names are settled. -/
structure SettledFunc where
  type : Nat
  /-- The types of its variables as bytes, none if no module here can have them. -/
  locals : Option (List UInt8)
  code : Code
  titles : NameMap
  deriving Repr, Inhabited

/-- Parameters have names where the signature is written out at the function. -/
def settleFunc (sc : Scope) (f : DraftFunc) : Settler SettledFunc := do
  let type ← typeIndex sc f.use
  let ss ← get
  let params := match f.use.inline with
    | some s => s.params.map (·.1.name)
    | none => List.replicate (((ss.at? type).join.map (·.params.length)).getD 0) none
  let _ ← (checkTypes sc (f.locals.flatMap fun v => v.2.targets) : Except Fault Unit)
  let inner ← (sc.withVariables (params ++ f.locals.map (·.1.name)) : Except Fault Scope)
  let locals := (f.locals.mapM fun v : Label × ValueType => v.2.type?).map Binary.putLocals
  let labels := (f.use.inline.getD {}).params.map (·.1) ++ f.locals.map (·.1)
  return {
    type
    locals
    code := ← f.code.code inner (locals.getD []).length
    titles := labels.zipIdx.filterMap fun l => l.1.shown?.map (l.2, ·) }

/-- Code without variables as bytes. -/
def settleCode (sc : Scope) (w : Written) : Settler (Option (List UInt8)) :=
  return (← w.code sc 0).bytes

def settleTable (sc : Scope) (t : TableForm × Option Written) : Settler (Option (List UInt8)) := do
  let _ ← (checkTypes sc t.1.element.targets : Except Fault Unit)
  match t.2 with
  | none => return t.1.type?.map Binary.putTableType
  | some w =>
    let _ ← settleCode sc w
    return none

def settleGlobal (sc : Scope) (g : GlobalForm × Written) : Settler (Option (List UInt8)) := do
  let _ ← (checkTypes sc g.1.content.targets : Except Fault Unit)
  let code ← settleCode sc g.2
  return do return Binary.putGlobalType (← g.1.type?) ++ (← code)

def settleMode (sc : Scope) (space : Space) : DraftMode → Settler (Option WrittenMode)
  | .active target offset => do
    let i ← (target.mapM (sc.resolve space) : Except Fault (Option Nat))
    return (← settleCode sc offset).map (.active i)
  | .passive => return some .passive
  | .declared => return some .declared

def settleElem (sc : Scope) (e : DraftMode × DraftItems) : Settler (Option (List UInt8)) := do
  let mode ← settleMode sc (.item .table) e.1
  let items : Option WrittenItems ← match e.2 with
    | .funcs targets => do
      pure (some (.funcs (← (targets.mapM (sc.resolve (.item .function)) : Except Fault (List Nat)))))
    | .exprs type items => do
      let _ ← (checkTypes sc type.targets : Except Fault Unit)
      let codes ← items.mapM (settleCode sc)
      pure do return .exprs (← type.type?) (← codes.mapM id)
  return do return Binary.putElem (← mode) (← items)

def settleData (sc : Scope) (e : DraftMode × List UInt8) : Settler (Option (List UInt8)) := do
  return (← settleMode sc (.item .memory) e.1).map (Binary.putData · e.2)

/-- The index of what is exported; tags no module here can have. -/
def settleExport (sc : Scope) (e : String × Space × Target) :
    Except Fault (Option (List UInt8)) := do
  let i ← sc.resolve e.2.1 e.2.2
  match e.2.1 with
  | .item kind => return some (Binary.putExport ⟨e.1, kind, i⟩)
  | _ => return none

namespace Draft

/-- The signatures of the types that a module defines. -/
def signatures (d : Draft) : Signatures where
  declared := d.types.map fun t => t.signature.map (·.indexed d.scope)
  shareable := d.types.map fun t => t.isPlain && !t.isGrouped

/-- What messages call the things of a space. -/
def titlesOf (d : Draft) (space : Space) : NameMap := (d.titles.filter (·.1 == space)).map (·.2)

/-- Whether modules here can have the sorts of fields that there are. -/
def isPlain (d : Draft) : Bool :=
  !d.foreign && d.types.all (·.isPlain) && d.tags.isEmpty && d.starts.length ≤ 1

/-- A module under a title as bytes, none if no module here can have what is in it. -/
def settle (d : Draft) (title : Option String) : Settler (Option (List UInt8)) := do
  let sc := d.scope
  let _ ← (checkTypes sc (d.types.flatMap (·.mentioned)) : Except Fault Unit)
  let imports ← d.imports.mapM (settleImport sc)
  let funcs ← d.funcs.mapM (settleFunc sc)
  let tables ← d.tables.mapM (settleTable sc)
  let _ ← d.tags.mapM (typeIndex sc)
  let globals ← d.globals.mapM (settleGlobal sc)
  let exports ← (d.exports.mapM (settleExport sc) : Except Fault (List (Option (List UInt8))))
  let starts ← (d.starts.mapM (sc.resolve (.item .function)) : Except Fault (List Nat))
  let elems ← d.elems.mapM (settleElem sc)
  let datas ← d.datas.mapM (settleData sc)
  let ss ← get
  let types := (ss.declared ++ ss.added.map some).map fun s => (s.bind Signature.type?).map Binary.putFuncType
  let bodies := funcs.map fun f => do return putSized ((← f.locals) ++ (← f.code.bytes))
  let memories := d.memories.map (·.map Binary.putMemoryType)
  let firstFunc := (d.imports.filter (·.2.2.space == .item .function)).length
  let eachFunc {α : Type} (f : SettledFunc → List α) : List (Nat × List α) :=
    (funcs.zipIdx firstFunc).map fun g => (g.2, f g.1)
  let names : Names := {
    module := title
    funcs := d.titlesOf (.item .function)
    locals := eachFunc (·.titles)
    labels := eachFunc (·.code.titles)
    types := d.titlesOf .type
    tables := d.titlesOf (.item .table)
    memories := d.titlesOf (.item .memory)
    globals := d.titlesOf (.item .global)
    elems := d.titlesOf .elem
    datas := d.titlesOf .data }
  let hasNames := d.customs.any (·.title == Names.title)
  let customs := (if hasNames then [] else names.customSection?.toList) ++ d.customs
    ++ (Binary.branchHints? (eachFunc (·.code.hints))).toList
  if !d.isPlain then return none
  return do
    let list (number : UInt8) (items : List (Option (List UInt8))) : Option Binary.Section :=
      return .ofItems number (← items.mapM id)
    return Binary.putModule customs [← list 1 types, ← list 2 imports, .ofItems 3 (funcs.map fun f => putNat f.type),
      ← list 4 tables, ← list 5 memories, ⟨13, none⟩, ← list 6 globals, ← list 7 exports, ⟨8, starts.head?.map putNat⟩,
      ← list 9 elems, ⟨12, if funcs.any (·.code.mentionsData) then some (putNat datas.length) else none⟩,
      ← list 10 bodies, ← list 11 datas]

/-- The bytes of the module under a title that the draft is of, none if no module here can have what
is in it. -/
def finish (d : Draft) (title : Option String) : Except Fault (Option (List UInt8)) := do
  let (_, ss) ← (d.settle title).run d.signatures
  (d.settle title).run' ss

end Draft

end WasmEmbed.Wat
