import WasmEmbed.Request
/-!
Runs: what a host asked of a realm since it was empty, and what it was answered. A host has nothing
but what it was given: it names engines and stores that it made, and uses modules, instances and
exports that it got.
-/

namespace WasmEmbed

variable {σ : Type}

/-- A request that was made, with its answer. -/
structure Event (σ : Type) where
  request : Request σ
  answer : Answer

namespace Event

def engine? (e : Event σ) : Option Nat :=
  match e.answer with
  | .reply (.ok (.engine id)) _ => some id
  | _ => none

def store? (e : Event σ) : Option Nat :=
  match e.answer with
  | .reply (.ok (.store id)) _ => some id
  | _ => none

def module? (e : Event σ) : Option Module :=
  match e.answer with
  | .reply (.ok (.module m)) _ => some m
  | _ => none

def instance? (e : Event σ) : Option Instance :=
  match e.answer with
  | .reply (.ok (.instance i)) _ => some i
  | _ => none

end Event

/-- The handle as it was when it was given out. Calls change the state of a handle, and nothing else
of it. -/
def Item.fresh : Item → Item
  | func f => func { f with state := .bound }
  | x => x

/-- Whether a thing is one that an instance made so far exports. -/
def Item.Given (history : List (Event σ)) (x : Item) : Prop :=
  ∃ i ∈ history.filterMap Event.instance?, ∃ e ∈ i.exports, e.2.fresh = x.fresh

/-- Whether a definition is a function of the host or a thing that it was given. -/
def Definition.Given (history : List (Event σ)) : Definition σ → Prop
  | host _ => True
  | item x => x.Given history

/-- Whether a use is of things that the host was given. -/
def Use.Given (history : List (Event σ)) : Use σ → Prop
  | .instantiate m imports =>
    m ∈ history.filterMap Event.module? ∧ ∀ e ∈ imports.entries, e.2.Given history
  | .lookup i _ => i ∈ history.filterMap Event.instance?
  | .call f _ | .callTyped f _ => (Item.func f).Given history
  | .getGlobal g | .setGlobal g _ => (Item.global g).Given history
  | .memorySize m | .memoryBytes m | .readMemory m _ _ | .writeMemory m _ _ | .growMemory m _ =>
    (Item.memory m).Given history
  | .tableSize t => (Item.table t).Given history
  | .fuel | .setFuel _ | .metrics | .destroy => True

/-- Whether a request names only what the host was given. -/
def Request.Given (history : List (Event σ)) : Request σ → Prop
  | .newEngine _ => True
  | .compile engine _ | .clearCache engine | .newStore engine _ =>
    engine ∈ history.filterMap Event.engine?
  | .use store u => store ∈ history.filterMap Event.store? ∧ u.Given history
  | .drop store => store ∈ history.filterMap Event.store?

/-- The realms that a host can come to, with the history of each. -/
inductive Run : List (Event σ) → Realm σ → Prop where
  | start (world : σ) : Run [] { world }
  | request {history : List (Event σ)} {r : Realm σ} (before : Run history r) (q : Request σ)
    (given : q.Given history) :
    Run (history ++ [⟨q, (r.perform q).1⟩]) (r.perform q).2
  /-- The host changes its own state. -/
  | elsewhere {history : List (Event σ)} {r : Realm σ} (before : Run history r) (world : σ) :
    Run history { r with world }

end WasmEmbed
