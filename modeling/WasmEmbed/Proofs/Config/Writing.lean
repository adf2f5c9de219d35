import WasmEmbed.Proofs.Config.Streaming
import WasmEmbed.Proofs.Json.RoundTrip

/-! Configurations as text and back. What is written for a configuration is read as that configuration,
straight from the text as well as by way of the document; the same for the limits of a store. -/
namespace WasmEmbed

/-- The value that is written for an option. -/
def Config.valueOf (c : Config) : ConfigField → Json
  | .referenceTypes => .bool c.referenceTypes
  | .simd => .bool c.simd
  | .multiValue => .bool c.multiValue
  | .bulkMemory => .bool c.bulkMemory
  | .debugInfo => .bool c.debugInfo
  | .optLevel => .string c.optLevel.name
  | .consumeFuel => .bool c.consumeFuel
  | .maxWasmStack => .number (.integer c.maxWasmStack)
  | .cacheModules => .bool c.cacheModules

/-- Each limit that is there is a number of 64 bits. -/
def StoreConfig.Fits (s : StoreConfig) : Prop :=
  (∀ n ∈ s.fuel, n < 2 ^ (64 : Nat)) ∧ ∀ n ∈ s.maxMemoryBytes, n < 2 ^ (64 : Nat)

section Configurations

variable {c d : Config}

theorem toJson_whole (h : c.maxWasmStack < 2 ^ (64 : Nat)) : c.toJson.Whole := by
  have hstack : (Json.Number.integer c.maxWasmStack).Whole := by
    simp only [Json.Number.Whole]
    omega
  simp [Config.toJson, Json.Whole, Json.WholeMembers, hstack]

theorem toJson_distinct (c : Config) : c.toJson.Distinct := by
  simp [Config.toJson, Json.Distinct, Json.DistinctMembers]

theorem valueOf_says (h : c.maxWasmStack < 2 ^ (64 : Nat)) (f : ConfigField) :
    f.Says (c.valueOf f) (c.setting f) := by
  cases f with
  | optLevel => exact .level rfl
  | maxWasmStack => exact .size h
  | _ => exact .flag rfl

theorem settings_of_toJson (h : c.maxWasmStack < 2 ^ (64 : Nat)) :
    (ConfigField.all.map fun f => (f.name, c.valueOf f)).mapM Config.settingOfMember =
      .ok (ConfigField.all.map c.setting) := by
  rw [except_mapM_ok_iff, List.map_map, List.map_map]
  apply List.map_congr_left
  intro f _
  have hsaid := valueOf_says h f
  have hfield := field_of_said hsaid
  exact settingOfMember_ok_iff.mpr ⟨congrArg ConfigField.name hfield, hfield.symm ▸ hsaid⟩

theorem setAll_all (c : Config) : Config.setAll {} (ConfigField.all.map c.setting) = c := by
  simp [Config.setAll, ConfigField.all, Config.setting, Config.set]

theorem parse_config (h : c.maxWasmStack < 2 ^ (64 : Nat)) :
    Json.parse? c.text = some (.object (ConfigField.all.map fun f => (f.name, c.valueOf f))) :=
  parse_text (toJson_whole h)

theorem ofText_text (h : c.maxWasmStack < 2 ^ (64 : Nat)) : Config.ofText c.text = .ok c :=
  (ofText_ok_iff (parse_config h) (toJson_distinct c)).mpr
    ⟨_, settings_of_toJson h, setAll_all c⟩

theorem ofOptions_text (h : c.maxWasmStack < 2 ^ (64 : Nat)) (hstack : 1 ≤ c.maxWasmStack) :
    Config.ofOptions (ConfigField.all.map fun f => (f.name, c.valueOf f)) = .ok c := by
  have hread := (ofText_eq_ofJson (parse_config h) (toJson_distinct c)).mp (ofText_text h)
  have hvalid : c.validate = .ok c := if_neg (Nat.ne_of_gt hstack)
  exact ofOptions_ok_iff.mpr ⟨c, hread, hvalid⟩

end Configurations

section Limits

variable {s t : StoreConfig} {n : Option Nat} {f : StoreField} {name expected : String} {v : Json}
  {l : Limit}

theorem limit_limitJson (h : ∀ m ∈ n, m < 2 ^ (64 : Nat)) (expected : String) :
    (StoreConfig.limitJson n).limit expected = .ok n := by
  cases n with
  | none => rfl
  | some n =>
    have hword : (Json.number (.integer n)).word expected = .ok n :=
      word_ok_iff.mpr ⟨h n rfl, rfl⟩
    change some <$> (Json.number (.integer n)).word expected = _
    rw [hword]
    rfl

theorem limitJson_whole (h : ∀ m ∈ n, m < 2 ^ (64 : Nat)) : (StoreConfig.limitJson n).Whole := by
  cases n with
  | none => trivial
  | some n =>
    have hn := h n rfl
    simp only [StoreConfig.limitJson, Json.Whole, Json.Number.Whole]
    omega

theorem limitJson_distinct (n : Option Nat) : (StoreConfig.limitJson n).Distinct := by
  cases n <;> trivial

theorem storeField_ofName?_name (f : StoreField) : StoreField.ofName? f.name = some f := by
  cases f <;> decide

theorem limitOfMember_name (f : StoreField) (v : Json) : StoreConfig.limitOfMember (f.name, v) =
    (f.read (m := ReaderT Json (Except Problem)) fun expected => Json.limit expected).run v := by
  simp only [StoreConfig.limitOfMember, storeField_ofName?_name]

theorem store_mirrors : Stream.storeRecord.Mirrors StoreConfig.limitOfMember where
  known _ f _ := by cases f <;> decide
  apart name other f hname hother := by
    have hf : f.name = name := (find_name_iff storeField_ofName?_name).mp hname
    have hf' : f.name = other := (find_name_iff storeField_ofName?_name).mp hother
    rw [← hf, hf']
  refuses name hunknown v l h := by
    have hnone : StoreField.ofName? name = none := hunknown
    simp only [StoreConfig.limitOfMember, hnone] at h
    contradiction
  reads name f hf := by
    obtain rfl : f.name = name := (find_name_iff storeField_ofName?_name).mp hf
    simp only [limitOfMember_name]
    cases f with
    | fuel => exact Stream.map_agrees _ (Stream.limit_agrees "u64")
    | maxMemoryBytes => exact Stream.map_agrees _ (Stream.limit_agrees "usize")

theorem store_toJson_whole (h : s.Fits) : s.toJson.Whole := by
  have hfuel := limitJson_whole h.1
  have hbytes := limitJson_whole h.2
  simp [StoreConfig.toJson, Json.Whole, Json.WholeMembers, hfuel, hbytes]

theorem store_toJson_distinct (s : StoreConfig) : s.toJson.Distinct := by
  simp [StoreConfig.toJson, Json.Distinct, Json.DistinctMembers, limitJson_distinct]

theorem limits_of_toJson (h : s.Fits) :
    [("fuel", StoreConfig.limitJson s.fuel),
      ("max_memory_bytes", StoreConfig.limitJson s.maxMemoryBytes)].mapM StoreConfig.limitOfMember =
      .ok [.fuel s.fuel, .maxMemoryBytes s.maxMemoryBytes] := by
  have hfuel : StoreConfig.limitOfMember ("fuel", StoreConfig.limitJson s.fuel) =
      .ok (.fuel s.fuel) := by
    rw [← StoreField.name.eq_1, limitOfMember_name]
    change Limit.fuel <$> (StoreConfig.limitJson s.fuel).limit "u64" = _
    rw [limit_limitJson h.1]
    rfl
  have hbytes : StoreConfig.limitOfMember
      ("max_memory_bytes", StoreConfig.limitJson s.maxMemoryBytes) =
      .ok (.maxMemoryBytes s.maxMemoryBytes) := by
    rw [← StoreField.name.eq_2, limitOfMember_name]
    change Limit.maxMemoryBytes <$> (StoreConfig.limitJson s.maxMemoryBytes).limit "usize" = _
    rw [limit_limitJson h.2]
    rfl
  rw [except_mapM_ok_iff]
  simp [hfuel, hbytes]

theorem store_ofText_text (h : s.Fits) : StoreConfig.ofText s.text = .ok s := by
  have hparse : Json.parse? s.text = some s.toJson := parse_text (store_toJson_whole h)
  have hread := (Stream.read_agrees store_mirrors hparse (store_toJson_distinct s)).mpr
    (limits_of_toJson h)
  unfold StoreConfig.ofText
  rw [hread]
  rfl

theorem store_ofJson_toJson (h : s.Fits) : StoreConfig.ofJson s.toJson = .ok s := by
  have hsort : Json.sortMembers [("fuel", StoreConfig.limitJson s.fuel),
      ("max_memory_bytes", StoreConfig.limitJson s.maxMemoryBytes)] =
      [("fuel", StoreConfig.limitJson s.fuel),
        ("max_memory_bytes", StoreConfig.limitJson s.maxMemoryBytes)] := by
    have hafter : ¬ "max_memory_bytes" < "fuel" := by decide
    simp [Json.sortMembers, Json.insertMember, hafter]
  simp only [StoreConfig.ofJson, StoreConfig.toJson]
  rw [hsort, limits_of_toJson h]
  rfl

end Limits

/-- Text written for a configuration is read as that configuration: as a map of options if it allows
some stack, and straight from the text with any stack, up to the greatest number of 64 bits. Text written
for the limits of a store is read as those limits, each absent or a number of 64 bits. So different
configurations are never written as the same text, and different limits neither. -/
theorem configurations_round_trip :
    (∀ c : Config, 1 ≤ c.maxWasmStack → c.maxWasmStack < 2 ^ (64 : Nat) →
      (∃ members, Json.parse? c.text = some (.object members) ∧
        Config.ofOptions members = .ok c) ∧
      Config.ofText c.text = .ok c) ∧
    (∀ s : StoreConfig, s.Fits → StoreConfig.ofText s.text = .ok s ∧
      ∃ v, Json.parse? s.text = some v ∧ StoreConfig.ofJson v = .ok s) ∧
    (∀ c d : Config, c.maxWasmStack < 2 ^ (64 : Nat) → d.maxWasmStack < 2 ^ (64 : Nat) →
      c.text = d.text → c = d) ∧
    ∀ s t : StoreConfig, s.Fits → t.Fits → s.text = t.text → s = t := by
  refine ⟨?_, ?_, ?_, ?_⟩
  · intro c hlow hhigh
    exact ⟨⟨_, parse_config hhigh, ofOptions_text hhigh hlow⟩, ofText_text hhigh⟩
  · intro s hs
    exact ⟨store_ofText_text hs, _, parse_text (store_toJson_whole hs), store_ofJson_toJson hs⟩
  · intro c d hc hd hsame
    have hread := ofText_text hc
    rw [hsame, ofText_text hd] at hread
    exact (Except.ok.inj hread).symm
  · intro s t hs ht hsame
    have hread := store_ofText_text hs
    rw [hsame, store_ofText_text ht] at hread
    exact (Except.ok.inj hread).symm

/-- The greatest numbers there are, beyond those with a sign. -/
theorem greatest_numbers_round_trip :
    Config.ofText ({ maxWasmStack := 18446744073709551615 } : Config).text =
      .ok { maxWasmStack := 18446744073709551615 } ∧
    StoreConfig.ofText ({ fuel := some 18446744073709551615 } : StoreConfig).text =
      .ok { fuel := some 18446744073709551615 } := by
  have hfits : ({ fuel := some 18446744073709551615 } : StoreConfig).Fits := by
    simp [StoreConfig.Fits]
  obtain ⟨hconfig, hstore, _⟩ := configurations_round_trip
  exact ⟨(hconfig _ (by decide) (by decide)).2, (hstore _ hfits).1⟩

end WasmEmbed
