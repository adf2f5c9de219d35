import WasmEmbed.Proofs.Config.Values
import WasmEmbed.Proofs.Text.ByteOrder

/-! Maps of options. Which maps make a configuration and which one, and what is told of all others: the
first entry in the order of the names' bytes with which something is wrong, or, if there is none, that
no stack is allowed. -/
namespace WasmEmbed

/-- The option that a setting is for. -/
def Setting.field : Setting → ConfigField
  | .referenceTypes _ => .referenceTypes
  | .simd _ => .simd
  | .multiValue _ => .multiValue
  | .bulkMemory _ => .bulkMemory
  | .debugInfo _ => .debugInfo
  | .optLevel _ => .optLevel
  | .consumeFuel _ => .consumeFuel
  | .maxWasmStack _ => .maxWasmStack
  | .cacheModules _ => .cacheModules

/-- The setting of an option that a configuration has. -/
def Config.setting (c : Config) : ConfigField → Setting
  | .referenceTypes => .referenceTypes c.referenceTypes
  | .simd => .simd c.simd
  | .multiValue => .multiValue c.multiValue
  | .bulkMemory => .bulkMemory c.bulkMemory
  | .debugInfo => .debugInfo c.debugInfo
  | .optLevel => .optLevel c.optLevel
  | .consumeFuel => .consumeFuel c.consumeFuel
  | .maxWasmStack => .maxWasmStack c.maxWasmStack
  | .cacheModules => .cacheModules c.cacheModules

/-- The setting of an option that is not given. -/
def ConfigField.standard : ConfigField → Setting
  | .referenceTypes => .referenceTypes true
  | .simd => .simd true
  | .multiValue => .multiValue true
  | .bulkMemory => .bulkMemory true
  | .debugInfo => .debugInfo false
  | .optLevel => .optLevel .speed
  | .consumeFuel => .consumeFuel false
  | .maxWasmStack => .maxWasmStack 524288
  | .cacheModules => .cacheModules true

/-- A value that an option may have: a truth value, but a level for the level, and for the stack a
64-bit number that is not zero. -/
def ConfigField.Takes : ConfigField → Json → Prop
  | .optLevel, v => ∃ l : OptLevel, l.Named v
  | .maxWasmStack, v => ∃ n : Nat, 1 ≤ n ∧ n < 2 ^ (64 : Nat) ∧ v = .number (.integer n)
  | _, v => ∃ b, v = .bool b

/-- What is wrong with an entry: the name is no option's, or the value is none for the option. -/
inductive Config.Offends (name : String) (v : Json) : Problem → Prop where
  | unknown (h : ∀ f : ConfigField, f.name ≠ name) :
    Offends name v (.unknownField name (ConfigField.all.map ConfigField.name))
  | value {f : ConfigField} {p : Problem} (hname : f.name = name) (h : f.Offends v p) :
    Offends name v p

/-- What is told of a map that makes no configuration. -/
inductive Config.Refuses (options : List (String × Json)) : Error → Prop where
  | entry {name : String} {v : Json} {p : Problem} (hgiven : Json.lookup options name = some v)
    (hwrong : Config.Offends name v p)
    (hfirst : ∀ other w q, utf8Bytes other < utf8Bytes name → Json.lookup options other = some w →
      ¬ Config.Offends other w q) :
    Refuses options (.invalidConfig (p.message .scientific))
  | stack (hright : ∀ name v p, Json.lookup options name = some v → ¬ Config.Offends name v p)
    (hzero : Json.lookup options "max_wasm_stack" = some (.number (.integer 0))) :
    Refuses options (.invalidConfig "max_wasm_stack must be greater than zero")

/-- A configuration has the settings that a map says, and its own for options that are not given. -/
def Config.Follows (c : Config) (options : List (String × Json)) : Prop :=
  ∀ f : ConfigField, (∃ v, Json.lookup options f.name = some v ∧ f.Says v (c.setting f)) ∨
    Json.lookup options f.name = none ∧ c.setting f = f.standard

variable {options members : List (String × Json)} {m : String × Json} {name : String} {v : Json}
  {f : ConfigField} {s : Setting} {p : Problem} {c : Config} {settings : List Setting} {e : Error}

section Entries

theorem field_of_said (h : f.Says v s) : s.field = f := by
  cases h with
  | flag hset => cases f <;> cases hset <;> rfl
  | level _ => rfl
  | size _ => rfl

/-- An entry gives the setting of the one option that has its name. -/
theorem settingOfMember_ok_iff :
    Config.settingOfMember m = .ok s ↔ s.field.name = m.1 ∧ s.field.Says m.2 s := by
  unfold Config.settingOfMember
  cases hname : ConfigField.ofName? m.1 with
  | none =>
    have hunknown := ofName?_eq_none_iff.mp hname
    exact iff_of_false (fun h => nomatch h) (fun h => hunknown s.field h.1)
  | some f =>
    have hf := ofName?_eq_some_iff.mp hname
    change (f.read jsonReaders).run m.2 = .ok s ↔ _
    rw [read_ok_iff]
    constructor
    · intro hsaid
      rw [field_of_said hsaid]
      exact ⟨hf, hsaid⟩
    · rintro ⟨hsame, hsaid⟩
      rw [← hf] at hsame
      rw [← name_injective hsame]
      exact hsaid

/-- Options differ in their names, so that an entry offends as an unknown one or against one option.
-/
theorem settingOfMember_error_iff :
    Config.settingOfMember m = .error p ↔ Config.Offends m.1 m.2 p := by
  unfold Config.settingOfMember
  cases hname : ConfigField.ofName? m.1 with
  | none =>
    have hunknown := ofName?_eq_none_iff.mp hname
    change Except.error _ = _ ↔ _
    rw [Except.error.injEq]
    constructor
    · rintro rfl
      exact .unknown hunknown
    · intro h
      cases h with
      | unknown _ => rfl
      | value hf _ => exact absurd hf (hunknown _)
  | some f =>
    have hf := ofName?_eq_some_iff.mp hname
    change (f.read jsonReaders).run m.2 = .error p ↔ _
    rw [read_error_iff]
    constructor
    · exact .value hf
    · intro h
      cases h with
      | unknown hunknown => exact absurd hf (hunknown f)
      | value hg h =>
        rw [← hf] at hg
        rw [← name_injective hg]
        exact h

end Entries

section Order

/-- In an ascending list the smaller names stand before a member. -/
theorem before_of_lt {before after : List (String × Json)}
    (h : Json.Ascending (before ++ m :: after)) (hmem : (name, v) ∈ before ++ m :: after)
    (hlt : name < m.1) : (name, v) ∈ before := by
  obtain ⟨_, hrest, _⟩ := List.pairwise_append.mp h
  rcases List.mem_append.mp hmem with hbefore | hmem
  · exact hbefore
  · rcases List.mem_cons.mp hmem with rfl | hafter
    · exact absurd hlt (lt_irrefl _)
    · exact absurd (hlt.trans ((List.pairwise_cons.mp hrest).1 _ hafter)) (lt_irrefl _)

/-- In an ascending list what stands before a member has a smaller name. -/
theorem lt_of_before {before after : List (String × Json)}
    (h : Json.Ascending (before ++ m :: after)) (hmem : (name, v) ∈ before) : name < m.1 := by
  obtain ⟨_, _, hall⟩ := List.pairwise_append.mp h
  exact hall _ hmem m List.mem_cons_self

/-- Reading a map fails with what is wrong with the first entry with which something is wrong.
Entries with smaller names stand before the failure, where all was read. -/
theorem entries_error_iff :
    (Json.sortMembers options).mapM Config.settingOfMember = .error p ↔
      ∃ name v, Json.lookup options name = some v ∧ Config.Offends name v p ∧
        ∀ other w q, utf8Bytes other < utf8Bytes name → Json.lookup options other = some w →
          ¬ Config.Offends other w q := by
  have hascending := members_ascending options
  rw [except_mapM_error_iff]
  constructor
  · rintro ⟨before, m, after, hsplit, hbefore, herror⟩
    rw [hsplit] at hascending
    have hmem : m ∈ Json.sortMembers options := by simp [hsplit]
    refine ⟨m.1, m.2, mem_sortMembers.mp hmem, settingOfMember_error_iff.mp herror, ?_⟩
    intro other w q hlt hgiven hwrong
    have hthere := mem_sortMembers.mpr hgiven
    rw [hsplit] at hthere
    have hother := before_of_lt hascending hthere (lt_iff_bytes_lt.mpr hlt)
    obtain ⟨s, hs⟩ := hbefore _ hother
    exact nomatch hs.symm.trans (settingOfMember_error_iff.mpr hwrong)
  · rintro ⟨name, v, hgiven, hwrong, hfirst⟩
    obtain ⟨before, after, hsplit⟩ := List.append_of_mem (mem_sortMembers.mpr hgiven)
    rw [hsplit] at hascending
    refine ⟨before, (name, v), after, hsplit, ?_, settingOfMember_error_iff.mpr hwrong⟩
    rintro ⟨other, w⟩ hmem
    have hthere : (other, w) ∈ Json.sortMembers options := by simp [hsplit, hmem]
    have hlt := lt_of_before hascending hmem
    cases hs : Config.settingOfMember (other, w) with
    | ok s => exact ⟨s, rfl⟩
    | error q =>
      exact absurd (settingOfMember_error_iff.mp hs)
        (hfirst other w q (lt_iff_bytes_lt.mp hlt) (mem_sortMembers.mp hthere))

end Order

section Settings

theorem setting_set (c : Config) (s : Setting) (f : ConfigField) :
    (c.set s).setting f = if s.field = f then s else c.setting f := by
  cases s <;> cases f <;> rfl

/-- An option that is not set stays as it was. -/
theorem setting_of_not_mem (h : f ∉ settings.map Setting.field) :
    (c.setAll settings).setting f = c.setting f := by
  induction settings generalizing c with
  | nil => rfl
  | cons s settings ih =>
    rw [List.map_cons, List.mem_cons, not_or] at h
    have hrest := ih (c := c.set s) h.2
    rw [setting_set, if_neg (Ne.symm h.1)] at hrest
    exact hrest

/-- Of settings for different options each is what the configuration has. -/
theorem setting_of_mem (hnodup : (settings.map Setting.field).Nodup) (hs : s ∈ settings) :
    (c.setAll settings).setting s.field = s := by
  induction settings generalizing c with
  | nil => exact absurd hs List.not_mem_nil
  | cons t settings ih =>
    obtain ⟨hfresh, hnodup⟩ := List.nodup_cons.mp hnodup
    rcases List.mem_cons.mp hs with rfl | hs
    · have hrest := setting_of_not_mem (c := c.set s) hfresh
      rw [setting_set, if_pos rfl] at hrest
      exact hrest
    · exact ih (c := c.set t) hnodup hs

theorem setting_default (f : ConfigField) : ({} : Config).setting f = f.standard := by
  cases f <;> rfl

/-- Settings are of the options that the entries name, in their order. -/
theorem names_of_settings
    (h : members.map Config.settingOfMember = settings.map .ok) :
    settings.map (·.field.name) = members.map (·.1) := by
  induction members generalizing settings with
  | nil =>
    cases settings with
    | nil => rfl
    | cons s settings => contradiction
  | cons m members ih =>
    cases settings with
    | nil => contradiction
    | cons s settings =>
      obtain ⟨hfirst, hrest⟩ := List.cons.inj h
      rw [List.map_cons, List.map_cons, ih hrest, (settingOfMember_ok_iff.mp hfirst).1]

/-- As the names of a map differ, no option is set twice. -/
theorem nodup_of_settings (h : (Json.sortMembers options).map Config.settingOfMember =
    settings.map .ok) : (settings.map Setting.field).Nodup := by
  have hnames : (settings.map (·.field.name)).Nodup := by
    rw [names_of_settings h]
    have hascending := members_ascending options
    rw [List.Nodup, List.pairwise_map]
    exact hascending.imp ne_of_lt
  have hmap : settings.map (·.field.name) = (settings.map Setting.field).map ConfigField.name := by
    rw [List.map_map]
    rfl
  rw [hmap] at hnames
  exact hnames.of_map _

/-- Each entry gave the one setting that there is for its option, and no setting is there without an
entry. -/
theorem follows_of_settings (h : (Json.sortMembers options).map Config.settingOfMember =
    settings.map .ok) : (Config.setAll {} settings).Follows options := by
  intro f
  cases hgiven : Json.lookup options f.name with
  | some v =>
    have hmem := List.mem_map_of_mem (f := Config.settingOfMember) (mem_sortMembers.mpr hgiven)
    rw [h] at hmem
    obtain ⟨s, hs, hread⟩ := List.mem_map.mp hmem
    obtain ⟨hname, hsaid⟩ := settingOfMember_ok_iff.mp hread.symm
    have hfield : s.field = f := name_injective hname
    have hsetting := setting_of_mem (c := {}) (nodup_of_settings h) hs
    rw [hfield] at hsetting hsaid
    rw [hsetting]
    exact Or.inl ⟨v, rfl, hsaid⟩
  | none =>
    have habsent : f ∉ settings.map Setting.field := by
      intro hmem
      obtain ⟨s, hs, rfl⟩ := List.mem_map.mp hmem
      have hname := List.mem_map_of_mem (f := fun s => s.field.name) hs
      rw [names_of_settings h] at hname
      obtain ⟨m, hm, hsame⟩ := List.mem_map.mp hname
      have hfound := mem_sortMembers.mp hm
      rw [hsame, hgiven] at hfound
      contradiction
    rw [setting_of_not_mem habsent, setting_default]
    exact Or.inr ⟨rfl, rfl⟩

end Settings

section Maps

theorem takes_of_said (h : f.Says v s) (hzero : s ≠ .maxWasmStack 0) : f.Takes v := by
  cases h with
  | flag hset =>
    cases f with
    | optLevel => contradiction
    | maxWasmStack => contradiction
    | _ => exact ⟨_, rfl⟩
  | level hl => exact ⟨_, hl⟩
  | size hn =>
    refine ⟨_, Nat.one_le_iff_ne_zero.mpr ?_, hn, rfl⟩
    rintro rfl
    exact hzero rfl

/-- Whatever an option takes says some setting of it. -/
theorem exists_said_of_takes (h : f.Takes v) : ∃ s, f.Says v s := by
  cases f with
  | optLevel =>
    obtain ⟨l, hl⟩ := h
    exact ⟨_, .level hl⟩
  | maxWasmStack =>
    obtain ⟨n, _, hn, rfl⟩ := h
    exact ⟨_, .size hn⟩
  | _ =>
    obtain ⟨b, rfl⟩ := h
    exact ⟨_, .flag rfl⟩

/-- Just what is wrong keeps a member from being read. -/
theorem setting_or_offends (m : String × Json) :
    (∃ s, Config.settingOfMember m = .ok s) ∨ ∃ p, Config.Offends m.1 m.2 p := by
  cases h : Config.settingOfMember m with
  | ok s => exact Or.inl ⟨s, rfl⟩
  | error p => exact Or.inr ⟨p, settingOfMember_error_iff.mp h⟩

theorem not_offends (h : Config.settingOfMember m = .ok s) : ¬ Config.Offends m.1 m.2 p := by
  intro hwrong
  exact nomatch h.symm.trans (settingOfMember_error_iff.mpr hwrong)

/-- What a map comes to: all of its settings are read, or something is wrong with an entry. -/
theorem ofOptions_cases (options : List (String × Json)) :
    (∃ settings, (Json.sortMembers options).map Config.settingOfMember = settings.map .ok ∧
      Config.ofOptions options = (Config.setAll {} settings).validate) ∨
    ∃ p, (Json.sortMembers options).mapM Config.settingOfMember = .error p ∧
      Config.ofOptions options = .error (.invalidConfig (p.message .scientific)) := by
  unfold Config.ofOptions Config.ofJson
  dsimp only
  cases hread : (Json.sortMembers options).mapM Config.settingOfMember with
  | error p => exact Or.inr ⟨p, rfl, rfl⟩
  | ok settings => exact Or.inl ⟨settings, except_mapM_ok_iff.mp hread, rfl⟩

theorem right_of_settings (h : (Json.sortMembers options).map Config.settingOfMember =
    settings.map .ok) (hgiven : Json.lookup options name = some v) : ¬ Config.Offends name v p := by
  have hmem := List.mem_map_of_mem (f := Config.settingOfMember) (mem_sortMembers.mpr hgiven)
  rw [h] at hmem
  obtain ⟨s, _, hread⟩ := List.mem_map.mp hmem
  exact not_offends hread.symm

/-- A configuration that follows its options has no stack just if they say so. -/
theorem stack_zero_iff (h : c.Follows options) : c.maxWasmStack = 0 ↔
    Json.lookup options "max_wasm_stack" = some (.number (.integer 0)) := by
  rcases h .maxWasmStack with ⟨v, hgiven, hsaid⟩ | ⟨habsent, hstandard⟩
  · have hname : Json.lookup options "max_wasm_stack" = some v := hgiven
    have hv : v = .number (.integer c.maxWasmStack) := by
      generalize hs : c.setting .maxWasmStack = s at hsaid
      cases hsaid with
      | flag hset => contradiction
      | size hn => rw [Setting.maxWasmStack.inj hs]
    rw [hname, hv]
    simp
  · have hname : Json.lookup options "max_wasm_stack" = none := habsent
    have hstack : c.maxWasmStack = 524288 := Setting.maxWasmStack.inj hstandard
    rw [hname, hstack]
    simp

/-- What is accepted follows its options, in which nothing is wrong. -/
theorem ofOptions_ok (h : Config.ofOptions options = .ok c) :
    c.Follows options ∧ c.maxWasmStack ≠ 0 ∧
      ∀ name v p, Json.lookup options name = some v → ¬ Config.Offends name v p := by
  rcases ofOptions_cases options with ⟨settings, hsettings, hvalidate⟩ | ⟨p, _, herror⟩
  · rw [hvalidate] at h
    unfold Config.validate at h
    split_ifs at h with hstack
    rw [← Except.ok.inj h]
    refine ⟨follows_of_settings hsettings, hstack, ?_⟩
    intro name v p hgiven
    exact right_of_settings hsettings hgiven
  · exact nomatch h.symm.trans herror

/-- Reading fails with what is wrong with the first such entry, and with one thing only. -/
theorem ofOptions_error_iff : Config.ofOptions options = .error e ↔ Config.Refuses options e := by
  rcases ofOptions_cases options with ⟨settings, hsettings, hvalidate⟩ | ⟨p, hread, herror⟩
  · -- all entries are right, so that only the stack can be refused
    have hstack := stack_zero_iff (follows_of_settings hsettings)
    rw [hvalidate]
    unfold Config.validate
    constructor
    · intro h
      split_ifs at h with hzero
      rw [← Except.error.inj h]
      refine .stack ?_ (hstack.mp hzero)
      intro name v p hgiven
      exact right_of_settings hsettings hgiven
    · intro h
      cases h with
      | entry hgiven hwrong _ => exact absurd hwrong (right_of_settings hsettings hgiven)
      | stack _ hzero => rw [if_pos (hstack.mpr hzero)]
  · rw [herror, Except.error.injEq]
    obtain ⟨name, v, hgiven, hwrong, hfirst⟩ := entries_error_iff.mp hread
    constructor
    · rintro rfl
      exact .entry hgiven hwrong hfirst
    · intro h
      cases h with
      | entry hgiven' hwrong' hfirst' =>
        have hread' := entries_error_iff.mpr ⟨_, _, hgiven', hwrong', hfirst'⟩
        rw [Except.error.inj (hread.symm.trans hread')]
      | stack hright _ => exact absurd hwrong (hright name v p hgiven)

/-- Where all entries are taken, neither of the two reasons for an error is there. -/
theorem accepted_of_takes (h : ∀ name v, Json.lookup options name = some v →
    ∃ f : ConfigField, f.name = name ∧ f.Takes v) : ∃ c, Config.ofOptions options = .ok c := by
  cases hresult : Config.ofOptions options with
  | ok c => exact ⟨c, rfl⟩
  | error e =>
    cases ofOptions_error_iff.mp hresult with
    | @entry name v p hgiven hwrong _ =>
      obtain ⟨f, hname, htakes⟩ := h name v hgiven
      obtain ⟨s, hsaid⟩ := exists_said_of_takes htakes
      have hfield := field_of_said hsaid
      have hread : Config.settingOfMember (name, v) = .ok s :=
        settingOfMember_ok_iff.mpr ⟨hfield ▸ hname, hfield.symm ▸ hsaid⟩
      exact absurd hwrong (not_offends hread)
    | stack _ hzero =>
      obtain ⟨f, hname, htakes⟩ := h _ _ hzero
      obtain rfl : f = .maxWasmStack := name_injective hname
      obtain ⟨n, hpositive, _, hn⟩ := htakes
      rw [Json.number.injEq, Json.Number.integer.injEq] at hn
      omega

/-- An option of a configuration that was accepted is taken, the stack with what no other setting
changes. -/
theorem takes_of_accepted (h : Config.ofOptions options = .ok c)
    (hgiven : Json.lookup options name = some v) :
    ∃ f : ConfigField, f.name = name ∧ f.Takes v := by
  obtain ⟨hfollows, hstack, hright⟩ := ofOptions_ok h
  rcases setting_or_offends (name, v) with ⟨s, hread⟩ | ⟨p, hwrong⟩
  · have hname : s.field.name = name := (settingOfMember_ok_iff.mp hread).1
    refine ⟨s.field, hname, ?_⟩
    rcases hfollows s.field with ⟨w, hw, hsaid⟩ | ⟨habsent, _⟩
    · have hsame : some w = some v := by rw [← hw, hname, hgiven]
      rw [← Option.some.inj hsame]
      apply takes_of_said hsaid
      intro hzero
      cases hf : s.field with
      | maxWasmStack =>
        rw [hf] at hzero
        exact hstack (Setting.maxWasmStack.inj hzero)
      | _ =>
        rw [hf] at hzero
        contradiction
    · rw [hname, hgiven] at habsent
      contradiction
  · exact absurd hwrong (hright name v p hgiven)

end Maps

/-- A map of options, in which the last of several values for one name counts, makes a configuration
just if each name is that of an option and each value is one for it: a truth value, a level by name
or as an object with that name alone and null, or for the stack an integer from 1 to 2^64 - 1. The
configuration has what the map says, and the default for each option that is not given. Else it is
told what is wrong with the first entry, in the order of the bytes of the names, with which something
is wrong; and only if there is none, that the stack is zero. -/
theorem options_read_exactly (options : List (String × Json)) :
    ((∃ c, Config.ofOptions options = .ok c) ↔ ∀ name v, Json.lookup options name = some v →
      ∃ f : ConfigField, f.name = name ∧ f.Takes v) ∧
    (∀ c, Config.ofOptions options = .ok c → c.Follows options) ∧
    ∀ e, Config.ofOptions options = .error e ↔ Config.Refuses options e := by
  refine ⟨?_, ?_, ?_⟩
  · constructor
    · rintro ⟨c, hc⟩ name v hgiven
      exact takes_of_accepted hc hgiven
    · exact accepted_of_takes
  · intro c hc
    exact (ofOptions_ok hc).1
  · intro e
    exact ofOptions_error_iff

/-- That no stack is allowed is not told as long as a later entry is wrong. -/
example : Config.ofOptions [("max_wasm_stack", .number (.integer 0)), ("simd", .null)] =
    .error (.invalidConfig "invalid type: null, expected a boolean") := rfl

end WasmEmbed
