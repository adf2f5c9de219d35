import WasmEmbed.Proofs.Config.Options

/-! Lists of settings. What settings make of a configuration is told option by option: the last setting
for an option counts (`setting_setAll`), and settings for different options may be exchanged
(`set_comm`). -/
namespace WasmEmbed

/-- The last setting for an option. -/
def Setting.last? (settings : List Setting) (f : ConfigField) : Option Setting :=
  settings.reverse.find? fun s => s.field = f

variable {c d : Config} {s t : Setting} {settings others : List Setting} {f : ConfigField}

theorem mem_all (f : ConfigField) : f ∈ ConfigField.all := by
  cases f <;> decide

/-- Configurations with the same settings are the same. -/
theorem config_ext (h : ∀ f, c.setting f = d.setting f) : c = d := by
  have hreferenceTypes := Setting.referenceTypes.inj (h .referenceTypes)
  have hsimd := Setting.simd.inj (h .simd)
  have hmultiValue := Setting.multiValue.inj (h .multiValue)
  have hbulkMemory := Setting.bulkMemory.inj (h .bulkMemory)
  have hdebugInfo := Setting.debugInfo.inj (h .debugInfo)
  have hoptLevel := Setting.optLevel.inj (h .optLevel)
  have hconsumeFuel := Setting.consumeFuel.inj (h .consumeFuel)
  have hmaxWasmStack := Setting.maxWasmStack.inj (h .maxWasmStack)
  have hcacheModules := Setting.cacheModules.inj (h .cacheModules)
  cases c
  cases d
  simp_all

theorem set_comm (c : Config) (h : s.field ≠ t.field) : (c.set s).set t = (c.set t).set s := by
  apply config_ext
  intro f
  rw [setting_set, setting_set, setting_set, setting_set]
  by_cases hs : s.field = f
  · have ht : t.field ≠ f := fun ht => h (hs.trans ht.symm)
    rw [if_neg ht, if_pos hs, if_pos hs]
  · rw [if_neg hs, if_neg hs]

/-- Settings for different options may come in any order. -/
theorem setAll_perm (c : Config) (h : settings.Perm others)
    (hnodup : (settings.map Setting.field).Nodup) : c.setAll settings = c.setAll others := by
  apply h.foldl_eq'
  intro s hs t ht c
  by_cases hfield : s.field = t.field
  · -- there is one setting only for an option
    rw [List.inj_on_of_nodup_map hnodup hs ht hfield]
  · exact set_comm c hfield

theorem setAll_snoc (c : Config) (settings : List Setting) (s : Setting) :
    c.setAll (settings ++ [s]) = (c.setAll settings).set s := by
  rw [Config.setAll, List.foldl_append]
  rfl

theorem last?_snoc (settings : List Setting) (s : Setting) (f : ConfigField) :
    Setting.last? (settings ++ [s]) f =
      if s.field = f then some s else Setting.last? settings f := by
  unfold Setting.last?
  rw [List.reverse_append, List.reverse_singleton, List.singleton_append, List.find?_cons]
  by_cases hs : s.field = f
  · simp [hs]
  · simp [hs]

/-- A configuration has the last setting for an option, or what it had. -/
theorem setting_setAll (c : Config) (settings : List Setting) (f : ConfigField) :
    (c.setAll settings).setting f = (Setting.last? settings f).getD (c.setting f) := by
  induction settings using List.reverseRecOn with
  | nil => rfl
  | append_singleton settings s ih =>
    rw [setAll_snoc, setting_set, last?_snoc, ih]
    by_cases hs : s.field = f
    · rw [if_pos hs, if_pos hs]
      rfl
    · rw [if_neg hs, if_neg hs]

end WasmEmbed
