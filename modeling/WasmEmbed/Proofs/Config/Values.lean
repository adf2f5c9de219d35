import WasmEmbed.Config.Json
import WasmEmbed.Proofs.Failure.Except
import WasmEmbed.Proofs.Json.Members

/-! Values of options. What a JSON document says as the value of an option, what is wrong with a
document that says none, and that reading finds just that (`read_ok_iff`, `read_error_iff`). -/
namespace WasmEmbed

/-- The document says the level: by its name, or as an object with that name alone and null. -/
def OptLevel.Named (l : OptLevel) : Json → Prop
  | .string s => s = l.name
  | .object members => Json.Single members l.name .null
  | _ => False

/-- What is wrong with a document that says no level. -/
inductive OptLevel.Misnamed : Json → Problem → Prop where
  | name {s : String} (h : ∀ l : OptLevel, l.name ≠ s) : Misnamed (.string s) (.unknownVariant s)
  | key {members : List (String × Json)} {name : String} {v : Json}
    (hsingle : Json.Single members name v) (h : ∀ l : OptLevel, l.name ≠ name) :
    Misnamed (.object members) (.unknownVariant name)
  | content {members : List (String × Json)} {l : OptLevel} {v : Json}
    (hsingle : Json.Single members l.name v) (h : v ≠ .null) :
    Misnamed (.object members) (.invalidType v.found "unit")
  | keys {members : List (String × Json)} (h : ∀ name v, ¬ Json.Single members name v) :
    Misnamed (.object members) (.invalidValue .map "map with a single key")
  | kind {v : Json} (hstring : ∀ s, v ≠ .string s) (hobject : ∀ members, v ≠ .object members) :
    Misnamed v (.invalidType v.found "string or map")

/-- The setting of an option that is on or off. -/
def ConfigField.flag? : ConfigField → Option (Bool → Setting)
  | .referenceTypes => some .referenceTypes
  | .simd => some .simd
  | .multiValue => some .multiValue
  | .bulkMemory => some .bulkMemory
  | .debugInfo => some .debugInfo
  | .optLevel => none
  | .consumeFuel => some .consumeFuel
  | .maxWasmStack => none
  | .cacheModules => some .cacheModules

/-- The document says the setting of the option. -/
inductive ConfigField.Says : ConfigField → Json → Setting → Prop where
  | flag {f : ConfigField} {set : Bool → Setting} {b : Bool} (h : f.flag? = some set) :
    Says f (.bool b) (set b)
  | level {v : Json} {l : OptLevel} (h : l.Named v) : Says .optLevel v (.optLevel l)
  | size {n : Nat} (h : n < 2 ^ (64 : Nat)) :
    Says .maxWasmStack (.number (.integer n)) (.maxWasmStack n)

/-- What is wrong with a document that says no setting of the option. -/
inductive ConfigField.Offends : ConfigField → Json → Problem → Prop where
  | flag {f : ConfigField} {set : Bool → Setting} {v : Json} (h : f.flag? = some set)
    (hv : ∀ b, v ≠ .bool b) : Offends f v (.invalidType v.found "a boolean")
  | level {v : Json} {p : Problem} (h : OptLevel.Misnamed v p) : Offends .optLevel v p
  | range {n : Int} (h : n < 0 ∨ 2 ^ (64 : Nat) ≤ n) :
    Offends .maxWasmStack (.number (.integer n)) (.invalidValue (.integer n) "usize")
  | size {v : Json} (hv : ∀ n, v ≠ .number (.integer n)) :
    Offends .maxWasmStack v (.invalidType v.found "usize")

variable {f : ConfigField} {set : Bool → Setting} {v : Json} {b : Bool} {n : Nat} {l : OptLevel}
  {p : Problem} {s : Setting} {name : String} {members : List (String × Json)}

section Names

/-- A search by name finds the thing of that name, if things are found by their names. -/
theorem find_name_iff {α : Type} {all : List α} {name : α → String}
    (hself : ∀ a, all.find? (fun b => name b == name a) = some a) {s : String} {a : α} :
    all.find? (fun b => name b == s) = some a ↔ name a = s := by
  constructor
  · intro hfound
    have hequal := List.find?_some hfound
    exact beq_iff_eq.mp hequal
  · intro hname
    rw [← hname]
    exact hself a

theorem find_name_none_iff {α : Type} {all : List α} {name : α → String}
    (hself : ∀ a, all.find? (fun b => name b == name a) = some a) {s : String} :
    all.find? (fun b => name b == s) = none ↔ ∀ a, name a ≠ s := by
  rw [Option.eq_none_iff_forall_ne_some]
  apply forall_congr'
  intro a
  exact not_congr (find_name_iff hself)

theorem ofName?_name (f : ConfigField) : ConfigField.ofName? f.name = some f := by
  cases f <;> decide

theorem level_ofName?_name (l : OptLevel) : OptLevel.ofName? l.name = some l := by
  cases l <;> decide

theorem ofName?_eq_some_iff : ConfigField.ofName? name = some f ↔ f.name = name :=
  find_name_iff ofName?_name

theorem ofName?_eq_none_iff : ConfigField.ofName? name = none ↔ ∀ f : ConfigField, f.name ≠ name :=
  find_name_none_iff ofName?_name

theorem levelOf_ok_iff : levelOf name = .ok l ↔ l.name = name := by
  rw [← find_name_iff level_ofName?_name]
  change levelOf name = .ok l ↔ OptLevel.ofName? name = some l
  unfold levelOf
  cases OptLevel.ofName? name with
  | none => exact iff_of_false (fun h => nomatch h) (fun h => nomatch h)
  | some k => rw [Except.ok.injEq, Option.some.injEq]

theorem levelOf_error_iff :
    levelOf name = .error p ↔ (∀ l : OptLevel, l.name ≠ name) ∧ p = .unknownVariant name := by
  rw [← find_name_none_iff level_ofName?_name]
  change levelOf name = .error p ↔ OptLevel.ofName? name = none ∧ p = .unknownVariant name
  unfold levelOf
  cases OptLevel.ofName? name with
  | none =>
    rw [Except.error.injEq, eq_comm]
    exact (and_iff_right rfl).symm
  | some k => exact iff_of_false (fun h => nomatch h) (fun h => nomatch h.1)

theorem name_injective {g : ConfigField} (h : f.name = g.name) : f = g := by
  have hf := ofName?_name f
  rw [h, ofName?_name] at hf
  exact (Option.some.inj hf).symm

end Names

section Readers

theorem flag_ok_iff : v.flag = .ok b ↔ v = .bool b := by
  cases v <;> simp [Json.flag]

theorem flag_error_iff :
    v.flag = .error p ↔ (∀ b, v ≠ .bool b) ∧ p = .invalidType v.found "a boolean" := by
  cases v <;> simp [Json.flag, eq_comm]

theorem wordOf_ok_iff {m : Int} {expected : String} :
    wordOf m expected = .ok n ↔ n < 2 ^ (64 : Nat) ∧ m = n := by
  have hlimit : (wordLimit : Int) = 2 ^ (64 : Nat) := rfl
  unfold wordOf
  split_ifs with hrange
  · rw [Except.ok.injEq]
    omega
  · apply iff_of_false (fun h => nomatch h)
    omega

theorem wordOf_error_iff {m : Int} {expected : String} : wordOf m expected = .error p ↔
    (m < 0 ∨ 2 ^ (64 : Nat) ≤ m) ∧ p = .invalidValue (.integer m) expected := by
  have hlimit : (wordLimit : Int) = 2 ^ (64 : Nat) := rfl
  unfold wordOf
  split_ifs with hrange
  · apply iff_of_false (fun h => nomatch h)
    omega
  · have hout : m < 0 ∨ 2 ^ (64 : Nat) ≤ m := by omega
    rw [Except.error.injEq, eq_comm]
    exact (and_iff_right hout).symm

theorem word_ok_iff {expected : String} :
    v.word expected = .ok n ↔ n < 2 ^ (64 : Nat) ∧ v = .number (.integer n) := by
  unfold Json.word
  split
  · rw [wordOf_ok_iff, Json.number.injEq, Json.Number.integer.injEq]
  · rename_i hother
    exact iff_of_false (fun h => nomatch h) (fun h => hother n h.2)

theorem word_error_iff {expected : String} : v.word expected = .error p ↔
    (∃ m : Int, v = .number (.integer m) ∧ (m < 0 ∨ 2 ^ (64 : Nat) ≤ m) ∧
      p = .invalidValue (.integer m) expected) ∨
    (∀ m, v ≠ .number (.integer m)) ∧ p = .invalidType v.found expected := by
  unfold Json.word
  split
  · rw [wordOf_error_iff]
    simp
  · rename_i hother
    have hnumber : ∀ m, v ≠ .number (.integer m) := hother
    rw [Except.error.injEq, eq_comm]
    simp [hnumber]

/-- Which member an object has alone is one thing only. -/
theorem single_unique {name' : String} {v' : Json} (h : Json.Single members name v)
    (h' : Json.Single members name' v') : name' = name ∧ v' = v := by
  have hgiven := (h' name' v').mpr ⟨rfl, rfl⟩
  exact (h name' v').mp hgiven

theorem level_single (h : Json.Single members name v) : (Json.object members).level =
    levelOf name >>= fun l =>
      match v with
      | .null => .ok l
      | v => .error (.invalidType v.found "unit") := by
  have hsort := sortMembers_single.mpr h
  simp only [Json.level]
  split
  · rename_i name' v' hsort'
    obtain ⟨rfl, rfl⟩ := single_unique h (sortMembers_single.mp hsort')
    rfl
  · rename_i hnone
    exact absurd hsort (hnone name v)

theorem level_keys (h : ∀ name v, ¬ Json.Single members name v) : (Json.object members).level =
    .error (.invalidValue .map "map with a single key") := by
  simp only [Json.level]
  split
  · rename_i name v hsort
    exact absurd (sortMembers_single.mp hsort) (h name v)
  · rfl

/-- An object says the level just if its one name is the level's and its one value null. -/
theorem level_ok_iff : v.level = .ok l ↔ l.Named v := by
  cases v with
  | string s =>
    change levelOf s = .ok l ↔ s = l.name
    rw [levelOf_ok_iff, eq_comm]
  | object members =>
    change _ ↔ Json.Single members l.name .null
    by_cases h : ∃ name v, Json.Single members name v
    · obtain ⟨name, w, hsingle⟩ := h
      have hnamed : Json.Single members l.name .null ↔ levelOf name = .ok l ∧ w = .null := by
        rw [levelOf_ok_iff]
        constructor
        · intro hlevel
          obtain ⟨hname, hnull⟩ := single_unique hsingle hlevel
          exact ⟨hname, hnull.symm⟩
        · intro hequal
          rw [hequal.1, ← hequal.2]
          exact hsingle
      rw [hnamed, level_single hsingle]
      cases levelOf name with
      | error q => exact iff_of_false (fun h => nomatch h) (fun h => nomatch h.1)
      | ok k => cases w <;> simp [bind, Except.bind]
    · push Not at h
      rw [level_keys h]
      exact iff_of_false (fun h => nomatch h) (h l.name .null)
  | _ => exact iff_of_false (fun h => nomatch h) (fun h => nomatch h)

/-- The name is looked at before the value. -/
theorem misnamed_of_level (h : v.level = .error p) : OptLevel.Misnamed v p := by
  cases v with
  | string s =>
    obtain ⟨hnone, rfl⟩ := levelOf_error_iff.mp h
    exact .name hnone
  | object members =>
    by_cases hsome : ∃ name v, Json.Single members name v
    · obtain ⟨name, w, hsingle⟩ := hsome
      rw [level_single hsingle] at h
      cases hlevel : levelOf name with
      | error q =>
        obtain ⟨hnone, rfl⟩ := levelOf_error_iff.mp hlevel
        rw [hlevel] at h
        rw [← Except.error.inj h]
        exact .key hsingle hnone
      | ok k =>
        rw [hlevel] at h
        obtain rfl := levelOf_ok_iff.mp hlevel
        cases w with
        | null => contradiction
        | _ =>
          rw [← Except.error.inj h]
          exact .content hsingle (fun h => nomatch h)
    · push Not at hsome
      rw [level_keys hsome] at h
      rw [← Except.error.inj h]
      exact .keys hsome
  | _ =>
    rw [← Except.error.inj h]
    exact .kind (fun _ h => nomatch h) (fun _ h => nomatch h)

theorem level_error_iff : v.level = .error p ↔ OptLevel.Misnamed v p := by
  constructor
  · exact misnamed_of_level
  · intro h
    cases h with
    | name hnone => exact levelOf_error_iff.mpr ⟨hnone, rfl⟩
    | key hsingle hnone =>
      rw [level_single hsingle, levelOf_error_iff.mpr ⟨hnone, rfl⟩]
      rfl
    | content hsingle hvalue =>
      rw [level_single hsingle, levelOf_ok_iff.mpr rfl]
      rename_i w
      cases w with
      | null => exact absurd rfl hvalue
      | _ => rfl
    | keys hnone => exact level_keys hnone
    | kind hstring hobject =>
      cases v with
      | string s => exact absurd rfl (hstring s)
      | object members => exact absurd rfl (hobject members)
      | _ => rfl

end Readers

section Fields

theorem read_flag (h : f.flag? = some set) (v : Json) :
    (f.read jsonReaders).run v = v.flag.map set := by
  cases f with
  | optLevel => contradiction
  | maxWasmStack => contradiction
  | _ =>
    obtain rfl := Option.some.inj h
    rfl

theorem read_level (v : Json) :
    (ConfigField.optLevel.read jsonReaders).run v = v.level.map .optLevel := rfl

theorem read_size (v : Json) :
    (ConfigField.maxWasmStack.read jsonReaders).run v = (v.word "usize").map .maxWasmStack := rfl

/-- An option that is neither a level nor a size is on or off. -/
theorem flag_or (f : ConfigField) :
    (∃ set, f.flag? = some set) ∨ f = .optLevel ∨ f = .maxWasmStack := by
  cases f <;> simp [ConfigField.flag?]

/-- Reading finds the setting that a document says. -/
theorem read_ok_iff : (f.read jsonReaders).run v = .ok s ↔ f.Says v s := by
  rcases flag_or f with ⟨set, hset⟩ | rfl | rfl
  · rw [read_flag hset, except_map_ok_iff]
    simp only [flag_ok_iff]
    constructor
    · rintro ⟨b, rfl, rfl⟩
      exact .flag hset
    · intro h
      cases h with
      | flag hset' =>
        obtain rfl := Option.some.inj (hset.symm.trans hset')
        exact ⟨_, rfl, rfl⟩
      | level _ => contradiction
      | size _ => contradiction
  · rw [read_level, except_map_ok_iff]
    simp only [level_ok_iff]
    constructor
    · rintro ⟨l, hl, rfl⟩
      exact .level hl
    · intro h
      cases h with
      | flag hset => contradiction
      | level hl => exact ⟨_, hl, rfl⟩
  · rw [read_size, except_map_ok_iff]
    simp only [word_ok_iff]
    constructor
    · rintro ⟨n, ⟨hn, rfl⟩, rfl⟩
      exact .size hn
    · intro h
      cases h with
      | flag hset => contradiction
      | size hn => exact ⟨_, ⟨hn, rfl⟩, rfl⟩

/-- Reading fails with what is wrong with a document. -/
theorem read_error_iff : (f.read jsonReaders).run v = .error p ↔ f.Offends v p := by
  rcases flag_or f with ⟨set, hset⟩ | rfl | rfl
  · rw [read_flag hset, except_map_error_iff, flag_error_iff]
    constructor
    · rintro ⟨hv, rfl⟩
      exact .flag hset hv
    · intro h
      cases h with
      | flag _ hv => exact ⟨hv, rfl⟩
      | level _ => contradiction
      | range _ => contradiction
      | size _ => contradiction
  · rw [read_level, except_map_error_iff, level_error_iff]
    constructor
    · exact .level
    · intro h
      cases h with
      | flag hset _ => contradiction
      | level h => exact h
  · rw [read_size, except_map_error_iff, word_error_iff]
    constructor
    · rintro (⟨n, rfl, hn, rfl⟩ | ⟨hv, rfl⟩)
      · exact .range hn
      · exact .size hv
    · intro h
      cases h with
      | flag hset _ => contradiction
      | range hn => exact Or.inl ⟨_, rfl, hn, rfl⟩
      | size hv => exact Or.inr ⟨hv, rfl⟩

end Fields

end WasmEmbed
