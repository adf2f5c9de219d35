import WasmEmbed.Proofs.Config.Documents
import WasmEmbed.Proofs.Config.Settings
import WasmEmbed.Proofs.Json.Reading
import WasmEmbed.Proofs.Realm.Frame
import WasmEmbed.Run

/-! The ways to a configuration. A table of settings may be given as a map of options, as the table of a
configuration file, or by calls in any order; each way comes to a list of settings in which the last one
for an option is the table's (`OptionTable.Calls`), and so to the same configuration or the same
refusal. -/
namespace WasmEmbed

open Toml (Node Span Key Entries)

/-- Settings for some of the options, one for each of them. -/
structure OptionTable where
  value? : ConfigField → Option Setting
  own : ∀ f s, value? f = some s → s.field = f

namespace OptionTable

/-- The map of options gives the settings of the table and nothing else. -/
structure Lists (T : OptionTable) (options : List (String × Json)) : Prop where
  given : ∀ f s, T.value? f = some s → ∃ v, Json.lookup options f.name = some v
  said : ∀ name v, Json.lookup options name = some v →
    ∃ f s, f.name = name ∧ T.value? f = some s ∧ f.Says v s

/-- The entries of a document's table give the settings of the table and nothing else. -/
structure Enters (T : OptionTable) (entries : Entries) : Prop where
  given : ∀ f s, T.value? f = some s → ∃ e ∈ entries, e.1.name = f.name
  spelled : ∀ e ∈ entries, ∃ f s, f.name = e.1.name ∧ T.value? f = some s ∧ f.Spells e.2 s

/-- The entry of a document is the table, for the engine, or limits for the stores that can be read. -/
def Part (T : OptionTable) (e : Key × Node) : Prop :=
  (e.1.name = "engine" ∧
    ∃ form span entries, e.2 = .table form span entries ∧ T.Enters entries) ∨
  e.1.name = "store" ∧ ∃ limits, StoreConfig.ofToml e.2 = .ok limits

/-- The document has the table for the engine, or nothing for it if the table is empty. -/
structure Heads (T : OptionTable) (document : Entries) : Prop where
  given : (∃ e ∈ document, e.1.name = "engine") ∨ ∀ f, T.value? f = none
  parts : ∀ e ∈ document, T.Part e

/-- The last of the calls for an option is for the table's setting, and there is none for options that
the table leaves out. -/
def Calls (T : OptionTable) (calls : List Setting) : Prop :=
  ∀ f, Setting.last? calls f = T.value? f

/-- The defaults changed by the settings of the table. -/
def config (T : OptionTable) : Config := Config.setAll {} (ConfigField.all.filterMap T.value?)

/-- What comes of the table: a configuration, unless the table allows no stack. -/
def outcome (T : OptionTable) : Except Error Config :=
  if T.value? .maxWasmStack = some (.maxWasmStack 0) then
    .error (.invalidConfig "max_wasm_stack must be greater than zero")
  else .ok T.config

end OptionTable

variable {T : OptionTable} {settings calls : List Setting} {options : List (String × Json)}
  {document entries : Entries} {text : String} {f : ConfigField} {s t : Setting} {c : Config}

section Tables

/-- Settings that are all the table's, with one for each of its options, come to the table. -/
theorem calls_of_mem (hown : ∀ s ∈ settings, T.value? s.field = some s)
    (hgiven : ∀ f s, T.value? f = some s → ∃ t ∈ settings, t.field = f) : T.Calls settings := by
  intro f
  cases hlast : Setting.last? settings f with
  | none =>
    cases hvalue : T.value? f with
    | none => rfl
    | some s =>
      obtain ⟨t, ht, hfield⟩ := hgiven f s hvalue
      have hnone := List.find?_eq_none.mp hlast t (List.mem_reverse.mpr ht)
      exact absurd (decide_eq_true hfield) hnone
  | some s =>
    have hfield := List.find?_some hlast
    have hmem := List.mem_reverse.mp (List.mem_of_find?_eq_some hlast)
    rw [← of_decide_eq_true hfield, hown s hmem]

theorem calls_filterMap (T : OptionTable) : T.Calls (ConfigField.all.filterMap T.value?) := by
  apply calls_of_mem
  · intro s hs
    obtain ⟨f, _, hvalue⟩ := List.mem_filterMap.mp hs
    rw [T.own f s hvalue, hvalue]
  · intro f s hvalue
    exact ⟨s, List.mem_filterMap.mpr ⟨f, mem_all f, hvalue⟩, T.own f s hvalue⟩

/-- Calls that set an option once leave it as they say, and the others at their standard. -/
theorem setting_of_calls (h : T.Calls calls) (f : ConfigField) :
    (Config.setAll {} calls).setting f = (T.value? f).getD f.standard := by
  rw [setting_setAll, h f, setting_default]

/-- In whatever order the options are set, the configuration is the one of the table. -/
theorem config_of_calls (h : T.Calls calls) : Config.setAll {} calls = T.config := by
  apply config_ext
  intro f
  rw [setting_of_calls h, OptionTable.config, setting_of_calls (calls_filterMap T)]

/-- Validating the configuration of a table comes to the outcome of the table. -/
theorem validate_config (T : OptionTable) : T.config.validate = T.outcome := by
  have hstack : Setting.maxWasmStack T.config.maxWasmStack =
      (T.value? .maxWasmStack).getD (.maxWasmStack 524288) :=
    setting_of_calls (calls_filterMap T) .maxWasmStack
  have hzero : T.config.maxWasmStack = 0 ↔
      T.value? .maxWasmStack = some (.maxWasmStack 0) := by
    cases hvalue : T.value? .maxWasmStack with
    | none =>
      rw [hvalue] at hstack
      rw [Setting.maxWasmStack.inj hstack]
      simp
    | some s =>
      rw [hvalue] at hstack
      change Setting.maxWasmStack T.config.maxWasmStack = s at hstack
      rw [← hstack]
      simp
  unfold Config.validate OptionTable.outcome
  simp only [hzero]

/-- A traversal that reads a setting of the table at each element, and each of them somewhere, comes to
the table. -/
theorem calls_of_mapM {α ε : Type} {xs : List α} {read : α → Except ε Setting}
    (hown : ∀ x ∈ xs, ∃ s, read x = .ok s ∧ T.value? s.field = some s)
    (hgiven : ∀ f s, T.value? f = some s → ∃ x ∈ xs, read x = .ok s) :
    ∃ settings, xs.mapM read = .ok settings ∧ T.Calls settings := by
  obtain ⟨settings, hread⟩ := except_mapM_exists fun x hx => (hown x hx).imp fun _ h => h.1
  have hmap := except_mapM_ok_iff.mp hread
  refine ⟨settings, hread, calls_of_mem ?_ ?_⟩
  · intro s hs
    have hmem : Except.ok s ∈ xs.map read := hmap ▸ List.mem_map_of_mem hs
    obtain ⟨x, hx, hxs⟩ := List.mem_map.mp hmem
    obtain ⟨s', hs', hvalue⟩ := hown x hx
    rw [← Except.ok.inj (hs'.symm.trans hxs)]
    exact hvalue
  · intro f s hvalue
    obtain ⟨x, hx, hxs⟩ := hgiven f s hvalue
    have hmem : read x ∈ xs.map read := List.mem_map_of_mem hx
    rw [hmap, hxs] at hmem
    obtain ⟨t, ht, hsame⟩ := List.mem_map.mp hmem
    obtain rfl := Except.ok.inj hsame
    exact ⟨t, ht, T.own f t hvalue⟩

end Tables

section Routes

/-- Only one option has the name of an entry, and the table has one setting for it. -/
theorem ofOptions_of_lists (h : T.Lists options) : Config.ofOptions options = T.outcome := by
  have hown : ∀ m ∈ Json.sortMembers options,
      ∃ s, Config.settingOfMember m = .ok s ∧ T.value? s.field = some s := by
    intro m hm
    obtain ⟨f, s, hname, hvalue, hsaid⟩ := h.said m.1 m.2 (mem_sortMembers.mp hm)
    obtain rfl := T.own f s hvalue
    exact ⟨s, settingOfMember_ok_iff.mpr ⟨hname, hsaid⟩, hvalue⟩
  have hgiven : ∀ f s, T.value? f = some s →
      ∃ m ∈ Json.sortMembers options, Config.settingOfMember m = .ok s := by
    intro f s hvalue
    obtain ⟨v, hv⟩ := h.given f s hvalue
    obtain ⟨g, t, hname, hvalue', hsaid⟩ := h.said f.name v hv
    obtain rfl := name_injective hname
    obtain rfl := Option.some.inj (hvalue.symm.trans hvalue')
    obtain rfl := T.own g s hvalue
    exact ⟨_, mem_sortMembers.mpr hv, settingOfMember_ok_iff.mpr ⟨rfl, hsaid⟩⟩
  obtain ⟨settings, hread, hcalls⟩ := calls_of_mapM hown hgiven
  have hjson : Config.ofJson (.object options) = .ok T.config := by
    simp only [Config.ofJson]
    rw [hread, ← config_of_calls hcalls]
    rfl
  unfold Config.ofOptions
  rw [hjson]
  exact validate_config T

/-- A table that enters the options, in any order, is read as their configuration. -/
theorem ofToml_of_enters {form : Toml.TableForm} {span : Option Span} (h : T.Enters entries) :
    Config.ofToml (.table form span entries) = .ok T.config := by
  have hown : ∀ e ∈ entries,
      ∃ s, Node.settingOfEntry Config.tomlField e = .ok s ∧ T.value? s.field = some s := by
    intro e he
    obtain ⟨f, s, hname, hvalue, hspelled⟩ := h.spelled e he
    refine ⟨s, entry_of_spelled hname hspelled, ?_⟩
    rw [T.own f s hvalue, hvalue]
  have hgiven : ∀ f s, T.value? f = some s →
      ∃ e ∈ entries, Node.settingOfEntry Config.tomlField e = .ok s := by
    intro f s hvalue
    obtain ⟨e, he, hname⟩ := h.given f s hvalue
    obtain ⟨g, t, hname', hvalue', hspelled⟩ := h.spelled e he
    obtain rfl := name_injective (hname'.trans hname)
    obtain rfl := Option.some.inj (hvalue.symm.trans hvalue')
    exact ⟨e, he, entry_of_spelled hname' hspelled⟩
  obtain ⟨settings, hread, hcalls⟩ := calls_of_mapM hown hgiven
  rw [ofToml_table hread, config_of_calls hcalls]

/-- A document is read to its end, and the engine's part of it comes to the table wherever it stands. -/
theorem ofEntries_of_parts (h : ∀ e ∈ document, T.Part e) (file : ConfigFile) :
    ∃ read, ConfigFile.ofEntries file document = .ok read ∧ (read.engine = T.config ∨
      read.engine = file.engine ∧ ∀ e ∈ document, e.1.name ≠ "engine") := by
  induction document generalizing file with
  | nil => exact ⟨file, rfl, Or.inr ⟨rfl, fun _ h => absurd h List.not_mem_nil⟩⟩
  | cons e rest ih =>
    obtain ⟨hfirst, hrest⟩ := List.forall_mem_cons.mp h
    obtain ⟨key, n⟩ := e
    rcases hfirst with ⟨hname, form, span, entries, hn, henters⟩ | ⟨hname, limits, hlimits⟩
    · -- whether or not the rest has it again, the engine's configuration is the table's
      obtain ⟨read, hread, hengine⟩ := ih hrest { file with engine := T.config }
      refine ⟨read, ?_, Or.inl (hengine.elim id fun h => h.1)⟩
      have hn' : n = .table form span entries := hn
      have hkey : key.name = "engine" := hname
      rw [ConfigFile.ofEntries, hn', ofToml_of_enters henters, hkey]
      exact hread
    · obtain ⟨read, hread, hengine⟩ := ih hrest { file with store := limits }
      have hkey : key.name = "store" := hname
      have hn : StoreConfig.ofToml n = .ok limits := hlimits
      refine ⟨read, ?_, ?_⟩
      · rw [ConfigFile.ofEntries, hn, hkey]
        exact hread
      · refine hengine.imp_right fun h => ⟨h.1, List.forall_mem_cons.mpr ⟨?_, h.2⟩⟩
        rw [hname]
        decide

/-- The whole document comes to the outcome of the table, with the error of a configuration as such.
-/
theorem ofText_of_heads (hparse : Toml.parse? text = some document) (h : T.Heads document) :
    (ConfigFile.ofText text).map ConfigFile.engine = T.outcome.mapError .invalid := by
  obtain ⟨file, hfile, hengine⟩ := ofEntries_of_parts h.parts {}
  have hconfig : file.engine = T.config := by
    rcases hengine with hengine | ⟨hengine, hnone⟩
    · exact hengine
    · -- without a table for the engine the table is empty
      rcases h.given with ⟨e, he, hname⟩ | hempty
      · exact absurd hname (hnone e he)
      · rw [hengine]
        apply config_ext
        intro f
        rw [OptionTable.config, setting_of_calls (calls_filterMap T), hempty f, setting_default]
        rfl
  unfold ConfigFile.ofText
  simp only [hparse, hfile]
  rw [hconfig, validate_config T]
  cases T.outcome <;> rfl

theorem build_of_calls (h : T.Calls calls) : Config.build calls = T.outcome := by
  unfold Config.build
  rw [config_of_calls h, validate_config T]

/-- Two neighbouring calls that set different options may change places. -/
theorem build_comm (before after : List Setting) (h : s.field ≠ t.field) :
    Config.build (before ++ s :: t :: after) = Config.build (before ++ t :: s :: after) := by
  unfold Config.build Config.setAll
  rw [List.foldl_append, List.foldl_append, List.foldl_cons, List.foldl_cons, set_comm _ h]
  rfl

end Routes

section Engines

variable {σ : Type} {id : Nat} {e e' : Engine} {r r' : Realm σ} {q : Request σ} {a : Answer}

/-- All engines of the realm allow some stack. -/
def Realm.Stacked (r : Realm σ) : Prop := ∀ e ∈ r.engines, 0 < e.config.maxWasmStack

/-- No engine is made with a stack of zero bytes. -/
theorem create_stacked {config : Config} (h : Engine.create id config = .ok e) :
    0 < e.config.maxWasmStack := by
  obtain ⟨c, hvalid, hc⟩ := except_bind_ok h
  obtain rfl := Except.ok.inj hc
  unfold Config.validate at hvalid
  split at hvalid
  · contradiction
  · rename_i hstack
    rw [← Except.ok.inj hvalid]
    exact Nat.pos_of_ne_zero hstack

theorem ofFile_stacked {path : String} {content : FileContent} {limits : StoreConfig}
    (h : Engine.ofFile id path content = .ok (e, limits)) : 0 < e.config.maxWasmStack := by
  obtain ⟨file, _, h⟩ := except_bind_ok h
  obtain ⟨e', hcreate, h⟩ := except_bind_ok h
  obtain ⟨rfl, _⟩ := Prod.mk.inj (Except.ok.inj h)
  exact create_stacked hcreate

theorem stacked_setEngine (hr : r.Stacked) (he : e ∈ r.engines) (h : e'.config = e.config) :
    (r.setEngine e').Stacked := by
  intro x hx
  obtain ⟨y, hy, rfl⟩ := List.mem_map.mp hx
  split
  · rw [h]
    exact hr e he
  · exact hr y hy

/-- Whatever is asked of a realm, its engines go on to allow some stack. -/
theorem stacked_answers (hr : r.Stacked) (h : r.Answers q a r') : r'.Stacked := by
  cases h with
  | noEngine _ => exact hr
  | noStore _ _ => exact hr
  | refused _ _ => exact hr
  | engine he => exact List.forall_mem_cons.mpr ⟨create_stacked he, hr⟩
  | module he src =>
    exact stacked_setEngine hr (engine?_eq_some he).1 (engine_alike_load _ src).config
  | cleared he => exact stacked_setEngine hr (engine?_eq_some he).1 rfl
  | store _ _ => exact hr
  | used _ _ => exact hr
  | dropped _ => exact hr

/-- No run leads to an engine with a stack of zero bytes. -/
theorem stacked_of_run {history : List (Event σ)} (h : Run history r) : r.Stacked := by
  induction h with
  | start world => exact fun e he => absurd he List.not_mem_nil
  | request before q given ih => exact stacked_answers ih (perform_answers _ q)
  | elsewhere before world ih => exact ih

end Engines

/-- The settings of a table, given as a map of options, as the engine's table of a configuration file or
by calls of which the last for each option counts, come to the same: the defaults changed by them, unless
the stack is set to zero, which is refused each time. Calls for different options may be exchanged. And
every engine allows some stack: one that is made with whatever configuration, one that is made from a
file, and all that a host can come to have. -/
theorem configuration_routes_agree :
    (∀ T : OptionTable,
      (∀ f, T.config.setting f = (T.value? f).getD f.standard) ∧
      (∀ options, T.Lists options → Config.ofOptions options = T.outcome) ∧
      (∀ text document, Toml.parse? text = some document → T.Heads document →
        (ConfigFile.ofText text).map ConfigFile.engine = T.outcome.mapError .invalid) ∧
      ∀ calls, T.Calls calls → Config.build calls = T.outcome) ∧
    (∀ before s t after, s.field ≠ t.field →
      Config.build (before ++ s :: t :: after) = Config.build (before ++ t :: s :: after)) ∧
    (∀ id config e, Engine.create id config = .ok e → 0 < e.config.maxWasmStack) ∧
    (∀ id path content e limits, Engine.ofFile id path content = .ok (e, limits) →
      0 < e.config.maxWasmStack) ∧
    ∀ (σ : Type) (history : List (Event σ)) (r : Realm σ), Run history r →
      ∀ e ∈ r.engines, 0 < e.config.maxWasmStack := by
  refine ⟨?_, ?_, ?_, ?_, ?_⟩
  · intro T
    refine ⟨?_, ?_, ?_, ?_⟩
    · exact setting_of_calls (calls_filterMap T)
    · exact fun options h => ofOptions_of_lists h
    · exact fun text document hparse h => ofText_of_heads hparse h
    · exact fun calls h => build_of_calls h
  · exact fun before s t after h => build_comm before after h
  · exact fun id config e h => create_stacked h
  · exact fun id path content e limits h => ofFile_stacked h
  · exact fun σ history r h => stacked_of_run h

/-- The document that the text is, read line by line. -/
theorem parse_plain : Toml.parse? "[engine]\nopt_level = \"none\"\nsimd = false\n" =
      some [(⟨"engine", ⟨1, 7⟩⟩, .table .explicit (some ⟨0, 40⟩)
        [(⟨"opt_level", ⟨9, 18⟩⟩, .string ⟨21, 27⟩ "none"),
          (⟨"simd", ⟨28, 32⟩⟩, .bool ⟨35, 40⟩ false)])] := by
  let level : Toml.Entries := [(⟨"opt_level", ⟨9, 18⟩⟩, .string ⟨21, 27⟩ "none")]
  let engine (current : Toml.Entries) (stop : Nat) : Toml.Draft :=
    { current, place := some ([], ⟨"engine", ⟨1, 7⟩⟩), span := ⟨0, stop⟩ }
  have hheader : Toml.header {} ⟨"[engine]\nopt_level = \"none\"\nsimd = false\n".toList, 0⟩ =
      some (engine [] 8, ⟨"opt_level = \"none\"\nsimd = false\n".toList, 9⟩) := rfl
  have hlevel : Toml.keyValue (engine [] 8) ⟨"opt_level = \"none\"\nsimd = false\n".toList, 9⟩ =
      some (engine level 27, ⟨"simd = false\n".toList, 28⟩) := rfl
  have hsimd : Toml.keyValue (engine level 27) ⟨"simd = false\n".toList, 28⟩ =
      some (engine (level ++ [(⟨"simd", ⟨28, 32⟩⟩, .bool ⟨35, 40⟩ false)]) 40, ⟨[], 41⟩) := rfl
  have hlines : Toml.lines 43 {} ⟨"[engine]\nopt_level = \"none\"\nsimd = false\n".toList, 0⟩ =
      some (engine (level ++ [(⟨"simd", ⟨28, 32⟩⟩, .bool ⟨35, 40⟩ false)]) 40) := by
    rw [lines_of_header rfl hheader, lines_of_keyValue rfl rfl hlevel, lines_of_keyValue rfl rfl hsimd]
    rfl
  change (Toml.lines 43 {} ⟨"[engine]\nopt_level = \"none\"\nsimd = false\n".toList, 0⟩).bind
    Toml.Draft.close = _
  rw [hlines]
  rfl

/-- Two settings of different kinds. -/
def OptionTable.plain : OptionTable where
  value?
    | .simd => some (.simd false)
    | .optLevel => some (.optLevel .none)
    | _ => none
  own f s h := by cases f <;> cases h <;> rfl

/-- One configuration by the map of options, by a document and by calls. -/
theorem plain_by_each_route :
    Config.ofOptions [("simd", .bool false), ("opt_level", .object [("none", .null)])] =
      .ok OptionTable.plain.config ∧
    (ConfigFile.ofText "[engine]\nopt_level = \"none\"\nsimd = false\n").map ConfigFile.engine =
      .ok OptionTable.plain.config ∧
    Config.build [.simd true, .optLevel .none, .simd false] = .ok OptionTable.plain.config := by
  have hlists : OptionTable.plain.Lists
      [("simd", .bool false), ("opt_level", .object [("none", .null)])] := by
    constructor
    · intro f s h
      cases f <;> cases h
      · exact ⟨.bool false, rfl⟩
      · exact ⟨.object [("none", .null)], rfl⟩
    · intro name v h
      rcases List.mem_cons.mp (Json.mem_of_lookup h) with h | h
      · obtain ⟨rfl, rfl⟩ := Prod.mk.inj h
        exact ⟨.simd, _, rfl, rfl, .flag rfl⟩
      · obtain ⟨rfl, rfl⟩ := Prod.mk.inj (List.mem_singleton.mp h)
        exact ⟨.optLevel, _, rfl, rfl, .level (sortMembers_single.mp rfl)⟩
  have henters : OptionTable.plain.Enters
      [(⟨"opt_level", ⟨9, 18⟩⟩, .string ⟨21, 27⟩ "none"),
        (⟨"simd", ⟨28, 32⟩⟩, .bool ⟨35, 40⟩ false)] := by
    constructor
    · intro f s h
      cases f <;> cases h
      · exact ⟨_, List.mem_cons_of_mem _ List.mem_cons_self, rfl⟩
      · exact ⟨_, List.mem_cons_self, rfl⟩
    · intro e he
      rcases List.mem_cons.mp he with rfl | he
      · exact ⟨.optLevel, _, rfl, rfl, .level rfl⟩
      · obtain rfl := List.mem_singleton.mp he
        exact ⟨.simd, _, rfl, rfl, .flag rfl⟩
  have hheads : OptionTable.plain.Heads [(⟨"engine", ⟨1, 7⟩⟩, .table .explicit (some ⟨0, 40⟩)
      [(⟨"opt_level", ⟨9, 18⟩⟩, .string ⟨21, 27⟩ "none"),
        (⟨"simd", ⟨28, 32⟩⟩, .bool ⟨35, 40⟩ false)])] := by
    refine ⟨Or.inl ⟨_, List.mem_cons_self, rfl⟩, ?_⟩
    intro e he
    obtain rfl := List.mem_singleton.mp he
    exact Or.inl ⟨rfl, _, _, _, rfl, henters⟩
  have hcalls : OptionTable.plain.Calls [.simd true, .optLevel .none, .simd false] := by
    intro f
    cases f <;> rfl
  obtain ⟨_, hoptions, htext, hbuild⟩ := configuration_routes_agree.1 OptionTable.plain
  exact ⟨hoptions _ hlists, htext _ _ parse_plain hheads, hbuild _ hcalls⟩

end WasmEmbed
