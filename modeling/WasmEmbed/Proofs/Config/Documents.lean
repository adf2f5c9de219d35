import WasmEmbed.Config.File
import WasmEmbed.Proofs.Config.Options

/-! Configuration documents. What a document spells as the setting of an option, and that each table in
which every entry spells the setting of an option is read, entry by entry. -/
namespace WasmEmbed

open Toml (Node Span Key Entries)

/-- There is nothing in the value. -/
def Toml.Node.Empty : Node → Prop
  | .table _ _ entries => entries = []
  | .array _ items => items = []
  | .tables items => items = []
  | _ => False

/-- The value spells the level: by its name, or as a table with that name alone and nothing below it. -/
def OptLevel.Spelled (l : OptLevel) : Node → Prop
  | .string _ s => s = l.name
  | .table _ _ [(key, contents)] => key.name = l.name ∧ contents.Empty
  | _ => False

/-- The value spells the setting of the option. -/
inductive ConfigField.Spells : ConfigField → Node → Setting → Prop where
  | flag {f : ConfigField} {set : Bool → Setting} {span : Span} {b : Bool} (h : f.flag? = some set) :
    Spells f (.bool span b) (set b)
  | level {n : Node} {l : OptLevel} (h : l.Spelled n) : Spells .optLevel n (.optLevel l)
  | size {span : Span} {n : Nat} (h : n < 2 ^ (64 : Nat)) :
    Spells .maxWasmStack (.integer span n) (.maxWasmStack n)

/-- The setting that one entry of a table makes. -/
def Toml.Node.settingOfEntry {β : Type}
    (field : String → Except Problem (Node → Except PlacedProblem β)) (e : Key × Node) :
    Except PlacedProblem β := do
  let read ← (field e.1.name).mapError fun p => ⟨some e.1.span, p⟩
  placing (e.2.span?.or (some e.1.span)) (read e.2)

variable {n : Node} {f : ConfigField} {s : Setting} {l : OptLevel} {e : Key × Node}
  {entries : Entries}

section Values

/-- An empty table, an empty text and the like say nothing, in each of their spellings. -/
theorem nothing_of_empty (h : n.Empty) : n.nothing = .ok () := by
  cases n with
  | table form span entries =>
    obtain rfl : entries = [] := h
    rfl
  | array span items =>
    obtain rfl : items = [] := h
    rfl
  | tables items =>
    obtain rfl : items = [] := h
    rfl
  | _ => contradiction

/-- Every spelling of a level is read as that level. -/
theorem level_of_spelled (h : l.Spelled n) : n.level = .ok l := by
  cases n with
  | string span s =>
    have hs : levelOf s = .ok l := levelOf_ok_iff.mpr h.symm
    simp only [Node.level, hs]
    rfl
  | table form span entries =>
    cases entries with
    | nil => contradiction
    | cons e rest =>
      cases rest with
      | nil =>
        obtain ⟨hname, hempty⟩ := h
        have hlevel : levelOf e.1.name = .ok l := levelOf_ok_iff.mpr hname.symm
        simp only [Node.level, hlevel, nothing_of_empty hempty]
        rfl
      | cons e' rest => contradiction
  | _ => contradiction

/-- All integers of 64 bits are sizes. -/
theorem word_integer {k : Nat} (h : k < 2 ^ (64 : Nat)) (span : Span) :
    Node.word "usize" (.integer span k) = .ok k := by
  have hword : wordOf k "usize" = .ok k := wordOf_ok_iff.mpr ⟨h, rfl⟩
  unfold Node.word
  dsimp only
  rw [hword]
  rfl

theorem node_read_level (n : Node) :
    (ConfigField.optLevel.read Node.readers).run n = n.level.map .optLevel := rfl

theorem node_read_size (n : Node) :
    (ConfigField.maxWasmStack.read Node.readers).run n = (n.word "usize").map .maxWasmStack := rfl

/-- A value that spells a setting is read as it. -/
theorem read_of_spelled (h : f.Spells n s) : (f.read Node.readers).run n = .ok s := by
  cases h with
  | flag hset =>
    cases f with
    | optLevel => contradiction
    | maxWasmStack => contradiction
    | _ =>
      obtain rfl := Option.some.inj hset
      rfl
  | level hl =>
    rw [node_read_level, level_of_spelled hl]
    rfl
  | size hk =>
    rw [node_read_size, word_integer hk]
    rfl

end Values

section Tables

/-- Entries are read one after the other, and the first that fails ends it. -/
theorem settings_eq_mapM {β : Type}
    (field : String → Except Problem (Node → Except PlacedProblem β)) (entries : Entries) :
    Node.settings field entries = entries.mapM (Node.settingOfEntry field) := by
  induction entries with
  | nil => rfl
  | cons e rest ih =>
    rw [List.mapM_cons, ← ih]
    simp only [Node.settings, Node.settingOfEntry, bind_assoc]

theorem entry_of_spelled (hname : f.name = e.1.name) (h : f.Spells e.2 s) :
    Node.settingOfEntry Config.tomlField e = .ok s := by
  have hfield : Config.tomlField e.1.name = .ok (f.read Node.readers).run := by
    rw [← hname]
    simp only [Config.tomlField, ofName?_name]
  simp only [Node.settingOfEntry, hfield]
  change placing _ ((f.read Node.readers).run e.2) = _
  rw [read_of_spelled h]
  rfl

/-- A table is read by setting, in its order, what its entries say. -/
theorem ofToml_table {form : Toml.TableForm} {span : Option Span} {settings : List Setting}
    (h : entries.mapM (Node.settingOfEntry Config.tomlField) = .ok settings) :
    Config.ofToml (.table form span entries) = .ok (Config.setAll {} settings) := by
  simp only [Config.ofToml, Node.record]
  rw [settings_eq_mapM, h]
  rfl

end Tables

section Lines
variable {fuel : Nat} {d d' : Toml.Draft} {c c' : Toml.Cursor}

/-- A line that begins with a bracket is a header. -/
theorem lines_of_header {rest : List Char}
    (hc : c.skipBlanks.rest = '[' :: rest) (h : Toml.header d c.skipBlanks = some (d', c')) :
    Toml.lines (fuel + 1) d c = Toml.lines fuel d' c' := by
  rw [Toml.lines]
  simp only [hc, h]
  rfl

/-- A line that begins with a bare key gives it a value. -/
theorem lines_of_keyValue {x : Char} {rest : List Char}
    (hc : c.skipBlanks.rest = x :: rest) (hx : Toml.isBare x = true)
    (h : Toml.keyValue d c.skipBlanks = some (d', c')) :
    Toml.lines (fuel + 1) d c = Toml.lines fuel d' c' := by
  have hopen : x ≠ '[' := by rintro rfl; contradiction
  have hother : (x == '#' || x == '\n' || x == '\r') = false := by
    by_contra hno
    simp only [Bool.not_eq_false, Bool.or_eq_true, beq_iff_eq] at hno
    rcases hno with (rfl | rfl) | rfl <;> contradiction
  rw [Toml.lines]
  simp only [hc, h, hother]
  rfl

end Lines

end WasmEmbed
