import WasmEmbed.Proofs.Store.Use

/-! The errors about stale handles come from one place. Each use of a thing looks for its store
first, and nothing that is done afterwards fails in that way. -/
namespace WasmEmbed
variable {σ : Type}

section Except
variable {α β : Type}

/-- Whatever goes wrong, no handle is to blame. -/
def NeverStale (x : Except Error α) : Prop := ∀ e, x = .error e → e.isStaleHandle = false

theorem neverStale_ok (a : α) : NeverStale (.ok a) := by
  intro e h
  contradiction

theorem neverStale_error {e : Error} (he : e.isStaleHandle = false) :
    NeverStale (.error e : Except Error α) := by
  intro f h
  rw [← Except.error.inj h]
  exact he

theorem neverStale_bind {x : Except Error α} {f : α → Except Error β} (hx : NeverStale x)
    (hf : ∀ a, NeverStale (f a)) : NeverStale (x >>= f) := by
  intro e h
  cases x with
  | error e' =>
    have he : e' = e := Except.error.inj h
    exact hx e (congrArg Except.error he)
  | ok a => exact hf a e h

theorem neverStale_map {x : Except Error α} (hx : NeverStale x) (f : α → β) :
    NeverStale (x.map f) := by
  intro e h
  cases x with
  | error e' =>
    have he : e' = e := Except.error.inj h
    exact hx e (congrArg Except.error he)
  | ok a => contradiction

end Except

theorem neverStale_coerce (v : HostValue) (t : ValType) (position : Position) (i : Nat) :
    NeverStale (coerce v t position i) := by
  unfold coerce
  split
  · exact neverStale_ok _
  · exact neverStale_error rfl

theorem neverStale_checkType (v : Val) (t : ValType) (position : Position) (i : Nat) :
    NeverStale (checkType v t position i) := by
  unfold checkType
  split
  · exact neverStale_ok _
  · exact neverStale_error rfl

theorem neverStale_convertAll {α : Type}
    {convert : α → ValType → Position → Nat → Except Error Val}
    (hconvert : ∀ x t position i, NeverStale (convert x t position i)) (i : Nat)
    (ts : List ValType) (xs : List α) : NeverStale (convertAll convert i ts xs) := by
  induction ts generalizing i xs with
  | nil => exact neverStale_ok _
  | cons t ts ih =>
    cases xs with
    | nil => exact neverStale_ok _
    | cons x xs =>
      apply neverStale_bind (hconvert x t .argument i)
      intro v
      apply neverStale_bind (ih (i + 1) xs)
      intro vs
      exact neverStale_ok _

theorem neverStale_leave (o : Operand) (position : Position) (i : Nat) :
    NeverStale (o.leave position i) := by
  cases o with
  | val v => exact neverStale_ok v
  | func addr => exact neverStale_error rfl

theorem neverStale_leaveAll (position : Position) (i : Nat) (os : List Operand) :
    NeverStale (leaveAll position i os) := by
  induction os generalizing i with
  | nil => exact neverStale_ok _
  | cons o os ih =>
    apply neverStale_bind (neverStale_leave o position i)
    intro v
    apply neverStale_bind (ih (i + 1))
    intro vs
    exact neverStale_ok _

theorem neverStale_checkRange (offset len size : Nat) :
    NeverStale (checkRange offset len size) := by
  unfold checkRange
  split
  · exact neverStale_ok _
  · exact neverStale_error rfl

/-- A host function may fail with any error, but its failure is reported as a trap. -/
theorem neverStale_report (stop : Stop) (instantiation : Bool) :
    NeverStale (stop.report instantiation) := by
  cases stop with
  | finished values => exact neverStale_ok values
  | trapped code frames => exact neverStale_error rfl
  | hostFailed e => exact neverStale_error rfl
  | outOfFuel => exact neverStale_error rfl

/-- What a use of a thing gives: the error about its handle if there is one, and else nothing of
that sort. -/
structure Gated {α : Type} (s : Store σ) (owner : StoreRef) (kind : String) (x : Except Error α) :
    Prop where
  stale : ∀ e, s.contentsFor owner kind = .error e → x = .error e
  live : ∀ c, s.contentsFor owner kind = .ok c → NeverStale x

section Gated
variable {α β : Type} {s : Store σ} {owner : StoreRef} {kind : String}

theorem gated_bind {f : Contents σ → Except Error α} (hf : ∀ c, NeverStale (f c)) :
    Gated s owner kind (s.contentsFor owner kind >>= f) := by
  constructor
  · intro e he
    rw [he]
    rfl
  · intro c hc
    rw [hc]
    exact hf c

theorem gated_map {x : Except Error α} (hx : Gated s owner kind x) (f : α → β) :
    Gated s owner kind (x.map f) := by
  constructor
  · intro e he
    rw [hx.stale e he]
    rfl
  · intro c hc
    exact neverStale_map (hx.live c hc) f

theorem gated_find (m : Memory)
    {f : (c : Contents σ) × Option (MemoryObj c.heap.limit) → Except Error α}
    (hf : ∀ p, NeverStale (f p)) : Gated s m.store "memory" (m.find s >>= f) := by
  constructor
  · intro e he
    rw [Memory.find, he]
    rfl
  · intro c hc
    rw [Memory.find, hc]
    exact hf _

theorem gated_callWith {convert : α → ValType → Position → Nat → Except Error Val}
    (hconvert : ∀ x t position i, NeverStale (convert x t position i)) (f : Func) (world : σ)
    (args : List α) : Gated s f.store "function" (f.callWith convert s world args).result := by
  have hprepare : Gated s f.store "function" (f.prepare s args convert) := by
    apply gated_bind
    intro c
    dsimp only
    split
    · exact neverStale_error rfl
    · exact neverStale_convertAll hconvert 0 f.type.params args
  rcases callWith_cases convert f s args with ⟨e, hp, h⟩ | ⟨c, vs, hc, hp, h⟩
  · rw [h, ← hp]
    exact hprepare
  · constructor
    · intro e he
      have hrefused := hprepare.stale e he
      rw [hp] at hrefused
      contradiction
    · intro d hd
      rw [h, (run_result f s c world vs).1]
      exact neverStale_bind (neverStale_report _ false) (neverStale_leaveAll .result 0)

end Gated

/-- What a use is of, and what errors call it. -/
def Use.handle? : Use σ → Option (String × StoreRef)
  | .call f _ | .callTyped f _ => some ("function", f.store)
  | .getGlobal g | .setGlobal g _ => some ("global", g.store)
  | .memorySize m | .memoryBytes m | .readMemory m _ _ | .writeMemory m _ _ | .growMemory m _ =>
    some ("memory", m.store)
  | .tableSize t => some ("table", t.store)
  | _ => none

theorem update_result {α : Type} (s : Store σ) (world : σ) (x : Except Error α)
    (reply : α → Reply) (store : α → Store σ) :
    (s.update world (x.map fun a => (reply a, store a))).result = x.map reply := by
  cases x with
  | error e => rfl
  | ok a => rfl

theorem gated_update {α : Type} {s : Store σ} {owner : StoreRef} {kind : String}
    {x : Except Error α} (reply : α → Reply) (store : α → Store σ) (world : σ)
    (hx : Gated s owner kind x) :
    Gated s owner kind (s.update world (x.map fun a => (reply a, store a))).result := by
  rw [update_result]
  exact gated_map hx reply

/-- Every use of a thing asks for its store first. What follows the store's check fails in ways of
its own, which differ from use to use. -/
theorem gated_perform (s : Store σ) (world : σ) {u : Use σ} {kind : String} {owner : StoreRef}
    (hu : u.handle? = some (kind, owner)) : Gated s owner kind (s.perform world u).result := by
  cases u with
  | call f args =>
    cases hu
    exact gated_map (gated_map (gated_callWith neverStale_coerce f world args) _) _
  | callTyped f args =>
    cases hu
    exact gated_map (gated_callWith neverStale_checkType f world args) _
  | getGlobal g =>
    cases hu
    have hget : Gated s g.store "global" (g.get s) := by
      apply gated_bind
      intro c
      split
      · exact neverStale_leave _ .global 0
      · exact neverStale_ok _
    exact gated_map hget _
  | setGlobal g value =>
    cases hu
    have hset : Gated s g.store "global" (g.set s value) := by
      apply gated_bind
      intro c
      dsimp only
      split
      · exact neverStale_error rfl
      · apply neverStale_bind (neverStale_coerce value g.type.content .global 0)
        intro v
        exact neverStale_ok _
    exact gated_update _ _ world hset
  | memorySize m =>
    cases hu
    exact gated_map (gated_find m fun _ => neverStale_ok _) _
  | memoryBytes m =>
    cases hu
    exact gated_map (gated_find m fun _ => neverStale_ok _) _
  | readMemory m offset len =>
    cases hu
    have hread : Gated s m.store "memory" (m.read s offset len) := by
      apply gated_find
      intro p
      apply neverStale_bind (neverStale_checkRange _ _ _)
      intro _
      exact neverStale_ok _
    exact gated_map hread _
  | writeMemory m offset bytes =>
    cases hu
    have hwrite : Gated s m.store "memory" (m.write s offset bytes) := by
      apply gated_find
      intro p
      apply neverStale_bind (neverStale_checkRange _ _ _)
      intro _
      exact neverStale_ok _
    exact gated_update _ _ world hwrite
  | growMemory m delta =>
    cases hu
    have hgrow : Gated s m.store "memory" (m.grow s delta) := by
      apply gated_find
      rintro ⟨c, found⟩
      dsimp only
      split
      · exact neverStale_ok _
      · exact neverStale_error rfl
    exact gated_update _ _ world hgrow
  | tableSize t =>
    cases hu
    exact gated_map (gated_bind fun c => neverStale_ok _) _
  | _ => cases hu

end WasmEmbed
