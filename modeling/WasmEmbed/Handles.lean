import WasmEmbed.Run
/-!
The function handles of a host. Looking a function up gives a new handle, which is bound; a copy of a
handle begins in the state of the one that it is copied from. From then on each has a state of its
own, which every call through it sets.
-/

namespace WasmEmbed

variable {σ : Type}

namespace Answer

/-- What a request gives, or why it fails. -/
def result? : Answer → Option (Except Error Reply)
  | missing => none
  | reply result _ => some result

/-- The state of the handle that was called. -/
def state? : Answer → Option FuncState
  | missing => none
  | reply _ state => state

/-- The function that was looked up. -/
def func? : Answer → Option Func
  | reply (.ok (.item found)) _ => found.bind Item.func?
  | _ => none

end Answer

/-- A host: a realm, and the function handles that it got, the earliest first. -/
structure Host (σ : Type) where
  realm : Realm σ
  handles : List Func := []

/-- What a host does. Handles are named by their places. -/
inductive Act (σ : Type) where
  /-- Anything that is asked without a handle. -/
  | ask (q : Request σ)
  | lookup (store : Nat) (i : Instance) (name : String)
  | copy (handle : Nat)
  | call (handle store : Nat) (args : List HostValue)
  | callTyped (handle store : Nat) (args : List Val)

namespace Act

/-- What is asked of the realm. Copying a handle asks nothing, and neither does what names a handle
that is not there. -/
def request? (handles : List Func) : Act σ → Option (Request σ)
  | ask q => some q
  | lookup store i name => some (.use store (.lookup i name))
  | copy _ => none
  | call handle store args => handles[handle]?.map fun f => .use store (.call f args)
  | callTyped handle store args => handles[handle]?.map fun f => .use store (.callTyped f args)

/-- The handles that there are once the realm has answered. -/
def handles (handles : List Func) (answer : Answer) : Act σ → List Func
  | ask _ => handles
  | lookup .. => handles ++ answer.func?.toList
  | copy handle => handles ++ handles[handle]?.toList
  | call handle .. | callTyped handle .. =>
    match answer.state? with
    | some state => handles.modify handle fun f => { f with state }
    | none => handles

end Act

/-- Does what is to be done. -/
def Host.perform (h : Host σ) (a : Act σ) : Answer × Host σ :=
  let (answer, realm) :=
    match a.request? h.handles with
    | some q => h.realm.perform q
    | none => (.missing, h.realm)
  (answer, ⟨realm, a.handles h.handles answer⟩)

/-- Something that was done, and the host that did it. -/
structure Deed (σ : Type) where
  host : Host σ
  act : Act σ

namespace Deed

def answer (d : Deed σ) : Answer := (d.host.perform d.act).1

/-- The host afterwards. -/
def after (d : Deed σ) : Host σ := (d.host.perform d.act).2

/-- What was asked of the realm, with its answer. -/
def event? (d : Deed σ) : Option (Event σ) :=
  (d.act.request? d.host.handles).map fun q => ⟨q, d.answer⟩

end Deed

/-- Whether a request calls a function. -/
def Request.isCall : Request σ → Bool
  | .use _ (.call ..) | .use _ (.callTyped ..) => true
  | _ => false

/-- Whether an act is of things that the host was given, and calls functions through handles only. -/
def Act.Given (history : List (Event σ)) : Act σ → Prop
  | ask q => q.Given history ∧ q.isCall = false
  | lookup store i _ =>
    store ∈ history.filterMap Event.store? ∧ i ∈ history.filterMap Event.instance?
  | copy _ => True
  | call _ store _ | callTyped _ store _ => store ∈ history.filterMap Event.store?

/-- The hosts that there can be, with all that each of them did. -/
inductive Host.Did : List (Deed σ) → Host σ → Prop where
  | start (world : σ) : Did [] ⟨{ world }, []⟩
  | act {deeds : List (Deed σ)} {h : Host σ} (before : Did deeds h) (a : Act σ)
    (given : a.Given (deeds.filterMap Deed.event?)) : Did (deeds ++ [⟨h, a⟩]) (h.perform a).2
  /-- The host changes its own state. -/
  | elsewhere {deeds : List (Deed σ)} {h : Host σ} (before : Did deeds h) (world : σ) :
    Did deeds { h with realm := { h.realm with world } }

end WasmEmbed
