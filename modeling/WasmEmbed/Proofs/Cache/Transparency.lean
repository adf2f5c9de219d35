import WasmEmbed.Request

/-! The cache of an engine shows nowhere. Every module kept is what its bytes compile to, whatever
the digests are and however the cache was filled, so a module that is found is the one that
compiling would give. -/
namespace WasmEmbed
open WasmEmbed.Code
variable {features : Features} {c : Cache} {e f g : Engine}

/-- Every module kept is what its bytes compile to. -/
def Cache.Sound (features : Features) (c : Cache) : Prop :=
  ∀ x ∈ c.entries, Module.compileBytes features x.bytes = .ok x.artifact

/-- The entry that goes is the oldest, and those that stay were there before. -/
theorem mem_of_mem_makeRoom {capacity : Nat} {digest : String} {entries : List CacheEntry}
    {x : CacheEntry} (hx : x ∈ Cache.makeRoom capacity digest entries) : x ∈ entries := by
  induction entries using Cache.makeRoom.induct capacity digest with
  | case1 entries hfull e ho _ ih =>
    rw [Cache.makeRoom, if_pos hfull] at hx
    split at hx
    · rename_i f hf
      have he : f = e := Option.some.inj (hf.symm.trans ho)
      subst he
      exact (List.mem_filter.mp (ih hx)).1
    · exact hx
  | case2 entries hfull ho =>
    rw [Cache.makeRoom, if_pos hfull] at hx
    split at hx
    · rename_i f hf
      rw [ho] at hf
      contradiction
    · exact hx
  | case3 entries hroom =>
    rwa [Cache.makeRoom, if_neg hroom] at hx

/-- Insertion keeps what eviction and replacement leave, and adds one entry. -/
theorem cache_sound_insert (hc : c.Sound features) (capacity : Nat) (digest : String)
    {bytes : List UInt8} {a : Artifact} (ha : Module.compileBytes features bytes = .ok a) :
    (c.insert capacity digest bytes a).Sound features := by
  intro x hx
  rcases List.mem_cons.mp hx with rfl | hx
  · exact ha
  · exact hc x (mem_of_mem_makeRoom (List.mem_filter.mp hx).1)

theorem cache_sound_clear (features : Features) (c : Cache) : c.clear.Sound features := by
  intro x hx
  exact absurd hx List.not_mem_nil

/-- A digest that two byte strings share does no harm: the bytes are compared too. -/
theorem cache_sound_find (hc : c.Sound features) {digest : String} {bytes : List UInt8}
    {a : Artifact} (hf : c.find? digest bytes = some a) :
    Module.compileBytes features bytes = .ok a := by
  unfold Cache.find? at hf
  split at hf
  · rename_i x hx
    split at hf
    · rename_i he
      rw [← he, ← Option.some.inj hf]
      exact hc x (List.mem_of_find?_eq_some hx)
    · contradiction
  · contradiction

def Engine.Sound (e : Engine) : Prop := e.cache.Sound e.config.features

/-- The two engines are the same but for what they keep. -/
structure Engine.Alike (e f : Engine) : Prop where
  id : e.id = f.id
  config : e.config = f.config
  capacity : e.capacity = f.capacity
  digest : e.digest = f.digest

theorem engine_alike_refl (e : Engine) : e.Alike e := ⟨rfl, rfl, rfl, rfl⟩

theorem engine_alike_symm (h : e.Alike f) : f.Alike e :=
  ⟨h.id.symm, h.config.symm, h.capacity.symm, h.digest.symm⟩

theorem engine_alike_trans (h : e.Alike f) (k : f.Alike g) : e.Alike g :=
  ⟨h.id.trans k.id, h.config.trans k.config, h.capacity.trans k.capacity, h.digest.trans k.digest⟩

/-- An engine keeps what it compiled, or nothing if it has no cache. -/
theorem engine_keep (e : Engine) (digest : String) (bytes : List UInt8) (a : Artifact) :
    e.keep digest bytes a = e ∨
      e.keep digest bytes a = { e with cache := e.cache.insert e.capacity digest bytes a } := by
  unfold Engine.keep
  split
  · exact Or.inr rfl
  · exact Or.inl rfl

/-- All that compiling can do to an engine. -/
theorem compile_engine_cases (e : Engine) (bytes : List UInt8) :
    (Module.compile e bytes).2 = e ∨
      ∃ a, Module.compileBytes e.config.features bytes = .ok a ∧
        (Module.compile e bytes).2 =
          { e with cache := e.cache.insert e.capacity (e.digest bytes) bytes a } := by
  unfold Module.compile
  split
  · exact Or.inl rfl
  · split
    · exact Or.inl rfl
    · split
      · exact Or.inl rfl
      · rename_i a ha
        rcases engine_keep e (e.digest bytes) bytes a with h | h
        · exact Or.inl h
        · exact Or.inr ⟨a, ha, h⟩

/-- The module that bytes compile to where nothing is kept. -/
def Module.compileAlone (e : Engine) (bytes : List UInt8) : Except Error Module := do
  checkHeader bytes
  return ofArtifact e bytes (← compileBytes e.config.features bytes)

/-- A module is found only if it is kept, and then compiling the bytes would give it too. -/
theorem compile_eq_compileAlone (he : e.Sound) (bytes : List UInt8) :
    (Module.compile e bytes).1 = Module.compileAlone e bytes := by
  unfold Module.compile Module.compileAlone
  cases hh : Module.checkHeader bytes with
  | error err => rfl
  | ok _ =>
    cases hf : e.cached? (e.digest bytes) bytes with
    | some a =>
      have hk : e.cache.find? (e.digest bytes) bytes = some a := by
        unfold Engine.cached? at hf
        split at hf
        · exact hf
        · contradiction
      have ha : Module.compileBytes e.config.features bytes = .ok a := cache_sound_find he hk
      simp only [ha]
      rfl
    | none =>
      cases Module.compileBytes e.config.features bytes <;> rfl

/-- Only the number, the features and the digests of an engine count when nothing is kept. -/
theorem compileAlone_congr (hfeatures : e.config.features = f.config.features)
    (hdigest : e.digest = f.digest) (bytes : List UInt8) :
    Module.compileAlone e bytes =
      (Module.compileAlone f bytes).map fun m => { m with engine := e.id } := by
  unfold Module.compileAlone
  rw [hfeatures]
  cases Module.checkHeader bytes with
  | error err => rfl
  | ok _ =>
    cases Module.compileBytes f.config.features bytes with
    | error err => rfl
    | ok a =>
      change Except.ok (Module.ofArtifact e bytes a) =
        Except.ok { Module.ofArtifact f bytes a with engine := e.id }
      rw [Module.ofArtifact, Module.ofArtifact, hdigest]

/-- Compiling keeps only what it made of these bytes. -/
theorem engine_sound_compile (he : e.Sound) (bytes : List UInt8) :
    (Module.compile e bytes).2.Sound := by
  rcases compile_engine_cases e bytes with h | ⟨a, ha, h⟩
  · rw [h]
    exact he
  · rw [h]
    exact cache_sound_insert he _ _ ha

/-- Compiling changes nothing of an engine but its cache. -/
theorem engine_alike_compile (e : Engine) (bytes : List UInt8) :
    (Module.compile e bytes).2.Alike e := by
  rcases compile_engine_cases e bytes with h | ⟨a, -, h⟩
  · rw [h]
    exact engine_alike_refl e
  · rw [h]
    exact ⟨rfl, rfl, rfl, rfl⟩

/-- Text and files are refused before the engine is asked, or hold bytes that it compiles. -/
theorem load_cases (src : Source) :
    (∃ bytes, ∀ e, src.load e = Module.compile e bytes) ∨
      ∃ err, ∀ e, src.load e = (.error err, e) := by
  have htext (origin s : String) :
      (∃ bytes, ∀ e, Module.ofTextFrom origin e s = Module.compile e bytes) ∨
        ∃ err, ∀ e, Module.ofTextFrom origin e s = (.error err, e) := by
    unfold Module.ofTextFrom
    cases Wat.assemble s with
    | ok bytes => exact Or.inl ⟨bytes, fun _ => rfl⟩
    | error fault => exact Or.inr ⟨_, fun _ => rfl⟩
  cases src with
  | bytes bytes => exact Or.inl ⟨bytes, fun _ => rfl⟩
  | text s => exact htext "text" s
  | file path content =>
    simp only [Source.load, Module.ofFile]
    cases content.read with
    | error reason => exact Or.inr ⟨_, fun _ => rfl⟩
    | ok bytes =>
      by_cases hm : bytes.take 4 = Binary.magic
      · exact Or.inl ⟨bytes, fun _ => if_pos hm⟩
      · simp only [if_neg hm]
        cases Utf8.decode bytes with
        | error fault => exact Or.inr ⟨_, fun _ => rfl⟩
        | ok s => exact htext path s

theorem engine_sound_load (he : e.Sound) (src : Source) : (src.load e).2.Sound := by
  rcases load_cases src with ⟨bytes, h⟩ | ⟨err, h⟩
  · rw [h]
    exact engine_sound_compile he bytes
  · rw [h]
    exact he

theorem engine_alike_load (e : Engine) (src : Source) : (src.load e).2.Alike e := by
  rcases load_cases src with ⟨bytes, h⟩ | ⟨err, h⟩
  · rw [h]
    exact engine_alike_compile e bytes
  · rw [h]
    exact engine_alike_refl e

/-- Sound engines that differ in what they keep load the same modules. -/
theorem load_congr (he : e.Sound) (hf : f.Sound) (h : e.Alike f) (src : Source) :
    (src.load e).1 = (src.load f).1 := by
  rcases load_cases src with ⟨bytes, hl⟩ | ⟨err, hl⟩
  · rw [hl, hl, compile_eq_compileAlone he, compile_eq_compileAlone hf]
    unfold Module.compileAlone Module.ofArtifact
    rw [h.id, h.config, h.digest]
  · rw [hl, hl]

/-- What an engine is asked for. -/
inductive EngineUse where
  | load (src : Source)
  | clearCache

def Engine.perform (e : Engine) : EngineUse → Engine
  | .load src => (src.load e).2
  | .clearCache => e.clearCache

def Engine.performAll (e : Engine) (history : List EngineUse) : Engine :=
  history.foldl Engine.perform e

theorem engine_sound_perform (he : e.Sound) (u : EngineUse) : (e.perform u).Sound := by
  cases u with
  | load src => exact engine_sound_load he src
  | clearCache => exact cache_sound_clear _ _

theorem engine_alike_perform (e : Engine) (u : EngineUse) : (e.perform u).Alike e := by
  cases u with
  | load src => exact engine_alike_load e src
  | clearCache => exact ⟨rfl, rfl, rfl, rfl⟩

theorem engine_sound_performAll (he : e.Sound) (history : List EngineUse) :
    (e.performAll history).Sound := by
  induction history generalizing e with
  | nil => exact he
  | cons u rest ih =>
    have hfirst := engine_sound_perform he u
    exact ih hfirst

theorem engine_alike_performAll (e : Engine) (history : List EngineUse) :
    (e.performAll history).Alike e := by
  induction history generalizing e with
  | nil => exact engine_alike_refl e
  | cons u rest ih =>
    have hfirst := engine_alike_perform e u
    exact engine_alike_trans (ih _) hfirst

end WasmEmbed
