import WasmEmbed.Binary.Writer
import WasmEmbed.Wat.Operator
/-!
Code in the text format. Folded instructions become a flat row, in which operands come first; then
names in the row are settled, and every step of it becomes bytes.
-/

namespace WasmEmbed.Wat

open WasmEmbed.Code

/-- The names of blocks with their codes, where modules here can have such blocks. -/
def blockCodes : List (String × Option UInt8) :=
  [("block", some 0x02), ("loop", some 0x03), ("if", some 0x04), ("try", none), ("try_table", none)]

namespace Reader

/-- Where exceptions go that a block catches. -/
def catches (sc : Scope) : Reader (List Target) := do
  let tagged ← acceptAll fun s =>
    (((s.under? "catch").or (s.under? "catch_ref")).map (true, ·)).or
      (((s.under? "catch_all").or (s.under? "catch_all_ref")).map (false, ·))
  tagged.mapM fun c => within (do
    if c.1 then let _ ← index sc .tag
    target) c.2

/-- What a word stands for with what follows it. -/
def operation (sc : Scope) (w : String) : Reader (List Op) := do
  match blockCodes.lookup w with
  | some code =>
    let l ← label
    let use ← innerTypeUse sc
    if w == "try_table" then return [.foreign (← catches sc), .opening code l use]
    return [.opening code l use]
  | none =>
    match w with
    | "else" => return [.otherwise (← name?)]
    | "end" => return [.ended (← name?)]
    | w => return [← instr sc w]

/-- The operands of a conditional: folded instructions up to its first branch. -/
def conditions : Reader (List Sexpr) := do
  let isCondition (s : Sexpr) : Bool := (s.under? "then").isNone
  let items := (← get).takeWhile isCondition
  set ((← get).dropWhile isCondition)
  for s in items do
    match s with
    | .list _ | .note .. => pure ()
    | _ => throw (.expected "a folded instruction")
  return items

/-- What a list stands for that begins with a word; `inner` reads the row that trees in it stand
for. -/
def folded (sc : Scope) (inner : Reader (List Op)) (w : String) : Reader (List Op) := do
  let head ← operation sc w
  match w with
  | "if" =>
    let operands ← within inner (← conditions)
    let yes ← within inner (← expect "then" (Sexpr.under? "then"))
    let no ← inList? "else" inner
    return operands ++ head ++ yes ++ no.elim [] (.otherwise none :: ·) ++ [.ended none]
  | "block" | "loop" | "try_table" => return head ++ (← inner) ++ [.ended none]
  | _ => return (← inner) ++ head

/-- Whether the branch that comes next is likely. -/
def hint : Reader Op := do
  match ← expect "a hint" Sexpr.string? with
  | [0] => return .hint 0
  | [1] => return .hint 1
  | _ => throw (.unexpected "hint")

/-- The row that all trees stand for, of which there are less than `fuel` with those inside of
them. -/
def row (sc : Scope) : Nat → Reader (List Op)
  | 0 => throw .malformedText
  | fuel + 1 => do
    match ← accept? some with
    | none => return []
    | some s =>
      let ops ← match s with
        | .word w => operation sc w
        | .list (.word w :: items) => within (folded sc (row sc fuel) w) items
        | .note id items =>
          if id == branchHint then within (do return (← hint) :: (← row sc fuel)) items
          else throw (.unexpected id)
        | _ => throw (.expected "an instruction")
      return ops ++ (← row sc fuel)

/-- The row that a single list stands for, whose operands are such lists too. -/
def foldedRow (sc : Scope) : Nat → Reader (List Op)
  | 0 => throw .malformedText
  | fuel + 1 => do
    let (w, items) ← expect "a folded instruction" Sexpr.headed?
    within (do
      let head ← operation sc w
      let operands ← untilEnd (foldedRow sc fuel)
      return operands.flatten ++ head) items

end Reader

/-- Instructions as they are written: one after the other, or one that holds its operands. -/
inductive Written where
  | sequence (items : List Sexpr)
  | single (s : Sexpr)
  deriving Repr, Inhabited

/-- The flat row of instructions. -/
def Written.row (sc : Scope) : Written → Except Fault (List Op)
  | sequence items => (Reader.within (Reader.row sc (1 + weight items)) items).run' []
  | single s => (Reader.within (Reader.foldedRow sc (1 + s.weight)) [s]).run' []

/-! ### Settling -/

/-- May add signatures to those of a module. -/
abbrev Settler := StateT Signatures (Except Fault)

/-- The index of a signature. -/
def typeIndex (sc : Scope) (u : TypeUse) : Settler Nat := fun ss => u.resolve sc ss

/-- The number of blocks around which a branch goes, out of those that are open, the innermost
first. -/
def depth (blocks : List (Option String)) : Target → Except Fault Nat
  | .number n => .ok n
  | .name s =>
    match blocks.findIdx? (· == some s) with
    | some d => .ok d
    | none => .error (.unknownName "label" s)

/-- A name at the end of a part of a block is the name of the block. -/
def checkName (blocks : List (Option String)) (name : Option String) : Except Fault Unit :=
  match blocks, name with
  | block :: _, some s => if block = some s then .ok () else .error (.misplaced s)
  | _, _ => .ok ()

/-- A branch with the number of blocks for each of its targets. -/
def BranchForm.instr : BranchForm → List Nat → Instr
  | always, ds => .br (ds.getLastD 0)
  | conditional, ds => .brIf (ds.getLastD 0)
  | table, ds => .brTable ds.dropLast (ds.getLastD 0)

/-- The type of a block: at most one result has a short form, unless the text gives a signature by
reference. None if no module here can have it. -/
def blockType (sc : Scope) (u : TypeUse) : Settler (Option BlockType) := do
  match u.target, u.inline.getD {} with
  | none, ⟨[], []⟩ => return some .empty
  | none, ⟨[], [t]⟩ => return t.type?.map .value
  | _, _ => return some (.index (← typeIndex sc u))

/-- The bytes of a step, none if no module here can have it, and the blocks that are open behind
it. -/
def Op.settle (sc : Scope) (blocks : List (Option String)) :
    Op → Settler (List (Option String) × Option (List UInt8))
  | plain i => return (blocks, some (Binary.putPlain i))
  | branch form targets => do
    let depths ← targets.mapM fun t => (depth blocks t : Except Fault Nat)
    return (blocks, some (Binary.putPlain (form.instr depths)))
  | indirect isTail table use => do
    let type ← typeIndex sc use
    return (blocks, some (Binary.putPlain (if isTail then .returnCallIndirect table type else .callIndirect table type)))
  | opening code l use => do
    let type ← blockType sc use
    return (l.name :: blocks, do return (← code) :: Binary.putBlockType (← type))
  | otherwise name => do
    let _ ← (checkName blocks name : Except Fault Unit)
    return (blocks, some [0x05])
  | ended name => do
    let _ ← (checkName blocks name : Except Fault Unit)
    return (blocks.tail, some [0x0B])
  | delegated target => do
    let _ ← (depth blocks.tail target : Except Fault Nat)
    return (blocks.tail, none)
  | foreign targets => do
    let _ ← targets.mapM fun t => (depth blocks t : Except Fault Nat)
    return (blocks, none)
  | hint _ => return (blocks, some [])

/-- Each step of a row with its bytes, `blocks` being open in front of it. -/
def settleAll (sc : Scope) (ops : List Op) : Settler (List (Op × Option (List UInt8))) := do
  let (_, steps) ← ops.foldlM (fun (s : List (Option String) × _) op => do
    let (blocks, code) ← op.settle sc s.1
    return (blocks, (op, code) :: s.2)) ([], [])
  return steps.reverse

/-- The hints in a row of steps, which begins at an offset, with the offset of the step that each is
about. The first hint in front of a step is about it; if there are more of them, neither they nor
later ones are about anything. -/
def hintsFrom (offset : Nat) : Option UInt8 → List (Op × List UInt8) → List (Nat × UInt8)
  | _, [] => []
  | none, (.hint v, _) :: rest => hintsFrom offset (some v) rest
  | some v, (.hint _, _) :: rest =>
    match rest.find? fun s => !(s.1 matches .hint _) with
    | some _ => [(offset, v)]
    | none => []
  | waiting, (_, code) :: rest =>
    waiting.toList.map (offset, ·) ++ hintsFrom (offset + code.length) none rest

/-- What messages call the blocks of a row, counted from its beginning. -/
def blockTitles (ops : List Op) : List (Nat × String) :=
  let titles := ops.filterMap fun op => match op with
    | .opening _ l _ => some l.shown?
    | _ => none
  titles.zipIdx.filterMap fun t => t.1.map (t.2, ·)

/-- Whether an instruction refers to a data segment. -/
def Op.mentionsData : Op → Bool
  | plain (.memoryInit ..) | plain (.dataDrop _) => true
  | _ => false

/-- Code whose names are settled. -/
structure Code where
  /-- The bytes, with the end; none if no module here can have the code. -/
  bytes : Option (List UInt8)
  hints : List (Nat × UInt8)
  titles : List (Nat × String)
  mentionsData : Bool
  deriving Repr, Inhabited

/-- The code that is written. Offsets of hints begin at `offset`. -/
def Written.code (w : Written) (sc : Scope) (offset : Nat) : Settler Code := do
  let ops ← (w.row sc : Except Fault (List Op))
  let steps ← settleAll sc ops
  let usable : Option (List (Op × List UInt8)) := steps.mapM fun s => s.2.map (s.1, ·)
  return {
    bytes := usable.map fun steps => steps.flatMap (·.2) ++ [0x0B]
    hints := usable.elim [] (hintsFrom offset none)
    titles := blockTitles ops
    mentionsData := ops.any Op.mentionsData }

end WasmEmbed.Wat
