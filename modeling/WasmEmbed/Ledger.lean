import WasmEmbed.Heap.Object
/-!
Functions of the host that are recorded in a ledger: which were called with what, and how often
each.
-/

namespace WasmEmbed

/-- A call of a recorded function. -/
structure LedgerCall where
  /-- The name under which the function was defined. -/
  path : String
  args : List Val
  deriving DecidableEq, Repr, Inhabited

/-- What recorded functions did. -/
structure Ledger where
  /-- The calls, the latest first. -/
  calls : List LedgerCall := []
  /-- How often each function was called, by the number it was given. -/
  counts : Array Nat := #[]
  deriving Repr, Inhabited

/-- What a recorded function answers. -/
inductive Behaviour where
  /-- Its arguments. -/
  | echo
  /-- Its arguments, last first. -/
  | reverse
  | values (vs : List Val)
  /-- The sum of its arguments that are 32-bit integers. -/
  | sum
  /-- How often it was called, this call included. -/
  | count
  /-- Its arguments at first, and from the call after `after` calls on an error. -/
  | fail (error : Error) (after : Nat)
  deriving Repr, Inhabited

namespace Behaviour

/-- The answer to the call with number `n`, the first being 1. -/
def answer (b : Behaviour) (n : Nat) (args : List Val) : Except Error (List Val) :=
  match b with
  | echo => .ok args
  | reverse => .ok args.reverse
  | values vs => .ok vs
  | sum =>
    .ok [.i32 (args.foldl (fun total v => match v with
      | .i32 n => total + n
      | _ => total) 0)]
  | count => .ok [.i32 (BitVec.ofNat 32 n)]
  | fail error after => if n ≤ after then .ok args else .error error

end Behaviour

namespace Ledger

/-- The ledger with one more function, which is given the number returned. -/
def register (l : Ledger) : Nat × Ledger := (l.counts.size, { l with counts := l.counts.push 0 })

/-- The ledger after a call of the function with a number. -/
def record (l : Ledger) (number : Nat) (call : LedgerCall) : Ledger :=
  { calls := call :: l.calls, counts := l.counts.modify number (· + 1) }

/-- The calls in order, and the ledger without them. -/
def takeCalls (l : Ledger) : List LedgerCall × Ledger := (l.calls.reverse, { l with calls := [] })

/-- The recorded function with a number. -/
def func (number : Nat) (path : String) (type : FuncType) (b : Behaviour) : HostFunc Ledger :=
  { type, callback := fun args l =>
      let l := l.record number ⟨path, args⟩
      (b.answer (l.counts.getD number 0) args, l) }

end Ledger

end WasmEmbed
