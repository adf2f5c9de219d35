import WasmEmbed.Proofs.Realm.Frame

/-! The cache among everything else that a host has. Compiling and clearing change engines alone,
and no use of a store asks an engine, so what was compiled before is used as if the cache had never
been touched again. -/
namespace WasmEmbed
variable {σ : Type}

/-- The use of an engine as a request to a realm. -/
def EngineUse.request (u : EngineUse) (engine : Nat) : Request σ :=
  match u with
  | .load src => .compile engine src
  | .clearCache => .clearCache engine

variable {r : Realm σ} {e : Engine} {id : Nat}

/-- Of an engine in a realm, a request uses it as it is used by itself. -/
theorem perform_engineUse (he : r.engine? id = some e) (u : EngineUse) :
    (r.perform (u.request id)).2 = r.setEngine (e.perform u) := by
  cases u with
  | load src =>
    change (r.perform (.compile id src)).2 = _
    rw [perform_compile he]
    rfl
  | clearCache =>
    change (r.perform (.clearCache id)).2 = _
    rw [perform_clearCache he]
    rfl

/-- An engine that is not there is not used. -/
theorem perform_engineUse_missing (he : r.engine? id = none) (u : EngineUse) :
    r.perform (u.request id) = (.missing, r) := by
  cases u with
  | load src =>
    change r.perform (.compile id src) = _
    simp only [Realm.perform, he]
  | clearCache =>
    change r.perform (.clearCache id) = _
    simp only [Realm.perform, he]

theorem engineUse_frame (r : Realm σ) (u : EngineUse) (id : Nat) :
    ∃ engines, (r.perform (u.request id)).2 = { r with engines } := by
  cases he : r.engine? id with
  | none =>
    rw [perform_engineUse_missing he]
    exact ⟨r.engines, rfl⟩
  | some e =>
    rw [perform_engineUse he]
    exact ⟨_, rfl⟩

/-- Each use changes engines only, so all of them do. -/
theorem engineUses_frame (r : Realm σ) (us : List (Nat × EngineUse)) :
    ∃ engines, (r.performAll (us.map fun p => p.2.request p.1)).2 = { r with engines } := by
  induction us generalizing r with
  | nil => exact ⟨r.engines, rfl⟩
  | cons p rest ih =>
    obtain ⟨engines, h⟩ := engineUse_frame r p.2 p.1
    obtain ⟨engines', h'⟩ := ih (r.perform (p.2.request p.1)).2
    refine ⟨engines', h'.trans ?_⟩
    rw [h]

/-- No use of a store asks an engine. -/
theorem perform_use_engines (r : Realm σ) (engines : List Engine) (store : Nat) (u : Use σ) :
    ({ r with engines } : Realm σ).perform (.use store u) =
      ((r.perform (.use store u)).1, { (r.perform (.use store u)).2 with engines }) := by
  have hfound : ({ r with engines } : Realm σ).store? store = r.store? store := rfl
  cases hs : r.store? store with
  | none => rw [perform_use_missing hs, perform_use_missing (hfound.trans hs)]
  | some s =>
    rw [perform_use hs, perform_use (hfound.trans hs)]
    rfl

/-- After any history an engine compiles bytes as a new one would that has the same options and
keeps nothing, whatever its capacity is and however many byte strings share a digest. And whatever
the engines of a realm are asked for, what was compiled or made before is used with the same answers
and the same effects afterwards. -/
theorem cache_shows_nowhere (id id' capacity capacity' : Nat) (config : Config)
    (digest : List UInt8 → String) (history : List EngineUse) (bytes : List UInt8) (r : Realm σ)
    (us : List (Nat × EngineUse)) (store : Nat) (u : Use σ) :
    let kept : Engine := { id, config, capacity, digest }
    let alone : Engine :=
      { id := id', config := { config with cacheModules := false }, capacity := capacity', digest }
    let later := (r.performAll (us.map fun p => p.2.request p.1)).2
    (Module.compile (kept.performAll history) bytes).1 =
        (Module.compile alone bytes).1.map (fun m => { m with engine := id }) ∧
      (later.perform (.use store u)).1 = (r.perform (.use store u)).1 ∧
      (later.perform (.use store u)).2.stores = (r.perform (.use store u)).2.stores ∧
      (later.perform (.use store u)).2.world = (r.perform (.use store u)).2.world := by
  intro kept alone later
  constructor
  · -- both engines keep only what compiling gives, so neither answer depends on what is kept
    have hkept : kept.Sound := cache_sound_clear _ {}
    have halone : alone.Sound := cache_sound_clear _ {}
    have hsound := engine_sound_performAll hkept history
    have halike := engine_alike_performAll kept history
    have hfeatures : (kept.performAll history).config.features = alone.config.features := by
      rw [halike.config]
      rfl
    rw [compile_eq_compileAlone hsound, compile_eq_compileAlone halone,
      compileAlone_congr hfeatures halike.digest, halike.id]
  · -- the realms differ in engines at most, which no store looks at
    obtain ⟨engines, h⟩ := engineUses_frame r us
    have hlater : later = { r with engines } := h
    rw [hlater, perform_use_engines]
    exact ⟨rfl, rfl, rfl⟩

end WasmEmbed
