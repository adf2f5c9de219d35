import Mathlib.Data.List.Perm.Subperm
import WasmEmbed.Proofs.Config.Readers
import WasmEmbed.Proofs.Config.Settings
import WasmEmbed.Proofs.Config.Spelling

/-! Configurations straight from text. From the text of an object without repeated names a record is read
just as its members are from the object (`read_agrees`). Reading a text and reading the document that it
spells therefore accept the same configurations, and in whatever order the members stand. -/
namespace WasmEmbed

namespace Stream

variable {φ β : Type} {r : Record φ β} {member : String × Json → Except Problem β}
  {members : List (String × Json)} {given : List φ} {f : φ} {b : β} {bs : List β} {v : Json}
  {bound steps : Nat} {name : String} {cs rest rest' inside next others tail : List Char}

/-- What a record's fields are read as is what `member` makes of members of their names. -/
structure Record.Mirrors (r : Record φ β) (member : String × Json → Except Problem β) : Prop where
  known : ∀ name f, r.field? name = some f → f ∈ r.fields
  apart : ∀ name other f, r.field? name = some f → r.field? other = some f → name = other
  refuses : ∀ name, r.field? name = none → ∀ v b, member (name, v) ≠ .ok b
  reads : ∀ name f, r.field? name = some f → Agrees (r.value f) fun v => member (name, v)

/-- The fields given so far are different fields of the record, and as many steps are left as there are
others, with one for a name that is refused. -/
structure Record.Given (r : Record φ β) (steps : Nat) (given : List φ) : Prop where
  nodup : given.Nodup
  known : ∀ f ∈ given, f ∈ r.fields
  steps : steps + given.length = r.fields.length + 1

section Steps

theorem given_nil (r : Record φ β) : r.Given (r.fields.length + 1) [] :=
  ⟨List.nodup_nil, fun _ h => absurd h List.not_mem_nil, rfl⟩

theorem given_cons (h : r.Given (steps + 1) given) (hknown : f ∈ r.fields) (hnew : f ∉ given) :
    r.Given steps (f :: given) := by
  have hsteps := h.steps
  refine ⟨List.nodup_cons.mpr ⟨hnew, h.nodup⟩, List.forall_mem_cons.mpr ⟨hknown, h.known⟩, ?_⟩
  rw [List.length_cons]
  omega

/-- Steps are never used up. -/
theorem steps_left (h : r.Given steps given) : ∃ n, steps = n + 1 := by
  have hlength : given.length ≤ r.fields.length :=
    (List.subperm_of_subset h.nodup h.known).length_le
  have hsteps := h.steps
  exact ⟨steps - 1, by omega⟩

theorem field_of_ok (hr : r.Mirrors member) (h : member (name, v) = .ok b) :
    ∃ f, r.field? name = some f := by
  cases hfield : r.field? name with
  | none => exact absurd h (hr.refuses name hfield v b)
  | some f => exact ⟨f, rfl⟩

end Steps

section Members

variable [DecidableEq φ]

/-- What is read behind the value of a member. -/
def Record.further (r : Record φ β) (steps : Nat) (given : List φ) (b : β) : Reader (List β) := do
  match Json.skipBlanks (← get) with
  | '}' :: rest => set rest; return [b]
  | ',' :: rest =>
    match Json.skipBlanks rest with
    | '"' :: _ => set rest; return b :: (← r.members steps given)
    | _ => malformed
  | _ => malformed

theorem further_end (h : Json.skipBlanks next = '}' :: rest) :
    (r.further steps given b).run next = .ok ([b], rest) := by
  simp only [Record.further]
  rw [run_get, h]
  rfl

theorem further_more (hcomma : Json.skipBlanks next = ',' :: others)
    (hquote : Json.skipBlanks others = '"' :: tail) :
    (r.further steps given b).run next =
      (r.members steps given >>= fun bs => return b :: bs).run others := by
  simp only [Record.further]
  rw [run_get, hcomma]
  split <;> simp_all

theorem members_run {afterName afterColon : List Char} (hfield : r.field? name = some f)
    (hnew : f ∉ given) (hname : (Stream.name "field identifier").run cs = .ok (name, afterName))
    (hcolon : (mark ':').run afterName = .ok ((), afterColon)) :
    (r.members (steps + 1) given).run cs =
      (r.value f >>= r.further steps (f :: given)).run afterColon := by
  simp only [Record.members]
  rw [run_of_ok hname, hfield]
  simp only [if_neg hnew]
  exact run_of_ok hcolon

theorem members_run_unknown {afterName : List Char} (hfield : r.field? name = none)
    (hname : (Stream.name "field identifier").run cs = .ok (name, afterName)) :
    (r.members (steps + 1) given).run cs = .error (.problem (r.unknown name)) := by
  simp only [Record.members]
  rw [run_of_ok hname, hfield]
  rfl

/-- A member in front is read just if its name is a field's and its value is one for that. -/
theorem members_step (hr : r.Mirrors member)
    (hmember : Json.ReadsMember bound (Json.skipBlanks cs) name v next) (hv : v.Distinct)
    (hnew : ∀ f ∈ given, r.field? name ≠ some f) :
    (r.members (steps + 1) given).run cs = .ok (bs, rest) ↔
      ∃ f b, r.field? name = some f ∧ member (name, v) = .ok b ∧
        (r.further steps (f :: given) b).run next = .ok (bs, rest) := by
  obtain ⟨afterName, afterColon, hname, hcolon, hvalue⟩ :=
    name_of_member "field identifier" hmember
  cases hfield : r.field? name with
  | none =>
    rw [members_run_unknown hfield hname]
    exact iff_of_false (fun h => nomatch h) (fun ⟨_, _, h, _⟩ => nomatch h)
  | some f =>
    have hread := hr.reads _ _ hfield _ _ _ _ hvalue hv
    rw [members_run hfield (fun hf => hnew f hf hfield) hname hcolon, run_bind_ok_iff]
    constructor
    · rintro ⟨b, after, hb, hafter⟩
      obtain ⟨hb, rfl⟩ := (hread b after).mp hb
      exact ⟨f, b, rfl, hb, hafter⟩
    · rintro ⟨g, b, hg, hb, hafter⟩
      rw [← Option.some.inj hg] at hafter
      exact ⟨b, next, (hread b next).mpr ⟨hb, rfl⟩, hafter⟩

/-- Members are read from a text just as from the document, as long as none is for a field that was
given before. By induction on what the members were read from; each step gives the field of one
member. -/
theorem members_agree {front : List Char} (hr : r.Mirrors member)
    (h : Json.ReadsMembers bound front members rest) (hfront : Json.skipBlanks cs = front)
    (hdistinct : (Json.object members).Distinct) (hgiven : r.Given steps given)
    (hfresh : ∀ m ∈ members, ∀ f ∈ given, r.field? m.1 ≠ some f) :
    (r.members steps given).run cs = .ok (bs, rest') ↔
      members.mapM member = .ok bs ∧ rest' = rest := by
  induction h generalizing cs steps given bs with
  | last hmember hend =>
    obtain ⟨steps, rfl⟩ := steps_left hgiven
    rw [members_step hr (hfront ▸ hmember) hdistinct.2.1 (hfresh _ List.mem_cons_self),
      except_mapM_cons_ok_iff]
    constructor
    · rintro ⟨f, b, _, hb, hafter⟩
      rw [further_end hend] at hafter
      obtain ⟨rfl, rfl⟩ := Prod.mk.inj (Except.ok.inj hafter)
      exact ⟨⟨b, [], hb, rfl, rfl⟩, rfl⟩
    · rintro ⟨⟨b, _, hb, hnil, rfl⟩, rfl⟩
      obtain rfl := Except.ok.inj hnil
      obtain ⟨f, hf⟩ := field_of_ok hr hb
      exact ⟨f, b, hf, hb, further_end hend⟩
  | @more _ _ _ _ _ name v members hmember hcomma hrest ih =>
    obtain ⟨steps, rfl⟩ := steps_left hgiven
    obtain ⟨hfirst, hnodup⟩ := List.nodup_cons.mp hdistinct.1
    obtain ⟨tail, hquote⟩ := Json.readsMembers_quote hrest
    have hlater {f : φ} (hf : r.field? name = some f) :
        ∀ m ∈ members, ∀ g ∈ f :: given, r.field? m.1 ≠ some g := by
      intro m hm g hg hsame
      rcases List.mem_cons.mp hg with rfl | hg
      · -- the field has one name only, and that is not repeated
        have hname := hr.apart _ _ _ hf hsame
        exact hfirst (List.mem_map.mpr ⟨m, hm, hname.symm⟩)
      · exact hfresh m (List.mem_cons_of_mem _ hm) g hg hsame
    have hothers {f : φ} (hf : r.field? name = some f) {bs : List β} :
        (r.members steps (f :: given)).run _ = .ok (bs, rest') ↔ _ :=
      have hnew : f ∉ given := fun hmem => hfresh _ List.mem_cons_self f hmem hf
      ih rfl ⟨hnodup, hdistinct.2.2⟩ (given_cons hgiven (hr.known _ _ hf) hnew) (hlater hf)
    rw [members_step hr (hfront ▸ hmember) hdistinct.2.1 (hfresh _ List.mem_cons_self),
      except_mapM_cons_ok_iff]
    constructor
    · rintro ⟨f, b, hf, hb, hafter⟩
      rw [further_more hcomma hquote] at hafter
      obtain ⟨bs, _, hbs, hreturn⟩ := run_bind_ok_iff.mp hafter
      obtain ⟨rfl, rfl⟩ := Prod.mk.inj (Except.ok.inj hreturn)
      obtain ⟨hbs, rfl⟩ := (hothers hf).mp hbs
      exact ⟨⟨b, bs, hb, hbs, rfl⟩, rfl⟩
    · rintro ⟨⟨b, bs, hb, hbs, rfl⟩, rfl⟩
      obtain ⟨f, hf⟩ := field_of_ok hr hb
      refine ⟨f, b, hf, hb, ?_⟩
      rw [further_more hcomma hquote]
      exact run_of_ok ((hothers hf).mpr ⟨hbs, rfl⟩)

end Members

section Contents

variable [DecidableEq φ]

theorem contents_empty (h : Json.opening (Json.skipBlanks cs) = some (.object inside))
    (hend : Json.skipBlanks inside = '}' :: rest) : r.contents.run cs = .ok ([], rest) := by
  simp only [Record.contents]
  rw [run_of_ok (nextOpening_run h)]
  dsimp only
  rw [hend]
  rfl

theorem contents_members (h : Json.opening (Json.skipBlanks cs) = some (.object inside))
    (hquote : Json.skipBlanks inside = '"' :: tail) :
    r.contents.run cs = (r.members (r.fields.length + 1) []).run inside := by
  simp only [Record.contents]
  rw [run_of_ok (nextOpening_run h)]
  dsimp only
  rw [hquote]
  rfl

theorem contents_agree (hr : r.Mirrors member)
    (h : Json.parseValue bound (Json.skipBlanks cs) = some (.object members, rest))
    (hdistinct : (Json.object members).Distinct) :
    r.contents.run cs = .ok (bs, rest') ↔ members.mapM member = .ok bs ∧ rest' = rest := by
  cases Json.parseValue_reads h with
  | scalar hfront => exact absurd rfl (Json.opening_scalar_ne hfront members)
  | object hfront hcontents =>
    rcases hcontents with ⟨rfl, hend⟩ | ⟨bound, hmembers⟩
    · have hnone : ([] : List (String × Json)).mapM member = .ok [] := rfl
      rw [contents_empty hfront hend, hnone, Except.ok.injEq, Except.ok.injEq, Prod.mk.injEq,
        eq_comm (a := rest)]
    · have hreads := Json.parseMembers_reads hmembers
      obtain ⟨tail, hquote⟩ := Json.readsMembers_quote hreads
      rw [contents_members hfront hquote]
      exact members_agree hr hreads rfl hdistinct (given_nil r)
        fun _ _ _ h => absurd h List.not_mem_nil

/-- A record is read from the text of an object just as its members are from the object. -/
theorem read_agrees {text : String} (hr : r.Mirrors member)
    (hparse : Json.parse? text = some (.object members))
    (hdistinct : (Json.object members).Distinct) :
    r.read text = .ok bs ↔ members.mapM member = .ok bs := by
  obtain ⟨⟨v, rest⟩, hvalue, hend⟩ := Option.bind_eq_some_iff.mp hparse
  dsimp only at hend
  split at hend
  · rename_i hempty
    obtain rfl := Option.some.inj hend
    have hcontents {bs : List β} {rest' : List Char} :
        r.contents.run text.toList = .ok (bs, rest') ↔
          members.mapM member = .ok bs ∧ rest' = rest :=
      contents_agree hr hvalue hdistinct
    unfold Record.read
    constructor
    · intro h
      obtain ⟨⟨bs, rest'⟩, hrun, h⟩ := except_bind_ok h
      obtain ⟨hbs, rfl⟩ := hcontents.mp hrun
      dsimp only at h
      rw [if_pos hempty] at h
      rw [← Except.ok.inj h]
      exact hbs
    · intro h
      rw [hcontents.mpr ⟨h, rfl⟩]
      change (if (Json.skipBlanks rest).isEmpty then _ else _) = _
      rw [if_pos hempty]
      rfl
  · contradiction

end Contents

end Stream

section Configurations

variable {f : ConfigField} {name text : String} {v : Json} {members : List (String × Json)}
  {c : Config}

theorem stream_read_flag {set : Bool → Setting} (h : f.flag? = some set) :
    f.read Stream.readers = set <$> Stream.scalar Json.flag := by
  cases f with
  | optLevel => contradiction
  | maxWasmStack => contradiction
  | _ =>
    obtain rfl := Option.some.inj h
    rfl

theorem field_agrees (f : ConfigField) :
    Stream.Agrees (f.read Stream.readers) (f.read jsonReaders).run := by
  rcases flag_or f with ⟨set, hset⟩ | rfl | rfl
  · have hjson : (f.read jsonReaders).run = fun v => v.flag.map set := funext (read_flag hset)
    rw [stream_read_flag hset, hjson]
    exact Stream.map_agrees set Stream.flag_agrees
  · exact Stream.map_agrees _ Stream.level_agrees
  · exact Stream.map_agrees _ (Stream.word_agrees "usize")

theorem field_takes (f : ConfigField) : Stream.Takes (f.read Stream.readers) := by
  rcases flag_or f with ⟨set, hset⟩ | rfl | rfl
  · rw [stream_read_flag hset]
    exact Stream.takes_map set (Stream.takes_scalar (fun _ h => nomatch h) (fun _ h => nomatch h))
  · exact Stream.takes_map _ Stream.takes_level
  · exact Stream.takes_map _ (Stream.takes_scalar (fun _ h => nomatch h) (fun _ h => nomatch h))

/-- Nothing is read as a configuration but text of a document. -/
theorem parse_of_ofText (h : Config.ofText text = .ok c) : ∃ v, Json.parse? text = some v := by
  obtain ⟨settings, hread, _⟩ := except_bind_ok h
  exact Stream.parse_of_read field_takes hread

theorem config_mirrors : Stream.configRecord.Mirrors Config.settingOfMember where
  known _ f _ := mem_all f
  apart name other f hname hother := by
    have hf : f.name = name := ofName?_eq_some_iff.mp hname
    have hf' : f.name = other := ofName?_eq_some_iff.mp hother
    rw [← hf, hf']
  refuses name hunknown v s h := by
    have hname := (settingOfMember_ok_iff.mp h).1
    exact ofName?_eq_none_iff.mp hunknown _ hname
  reads name f hf := by
    have hmember : (fun v => Config.settingOfMember (name, v)) = (f.read jsonReaders).run := by
      have hfound : ConfigField.ofName? name = some f := hf
      funext v
      simp only [Config.settingOfMember, hfound]
    rw [hmember]
    exact field_agrees f

theorem ofText_ok_iff (hparse : Json.parse? text = some (.object members))
    (hdistinct : (Json.object members).Distinct) : Config.ofText text = .ok c ↔
      ∃ settings, members.mapM Config.settingOfMember = .ok settings ∧
        Config.setAll {} settings = c := by
  unfold Config.ofText
  constructor
  · intro h
    obtain ⟨settings, hread, hc⟩ := except_bind_ok h
    exact ⟨settings, (Stream.read_agrees config_mirrors hparse hdistinct).mp hread,
      Except.ok.inj hc⟩
  · rintro ⟨settings, hread, rfl⟩
    rw [(Stream.read_agrees config_mirrors hparse hdistinct).mpr hread]
    rfl

theorem ofJson_ok_iff : Config.ofJson (.object members) = .ok c ↔
    ∃ settings, (Json.sortMembers members).mapM Config.settingOfMember = .ok settings ∧
      Config.setAll {} settings = c := by
  unfold Config.ofJson
  constructor
  · intro h
    obtain ⟨settings, hread, hc⟩ := except_bind_ok h
    exact ⟨settings, hread, Except.ok.inj hc⟩
  · rintro ⟨settings, hread, rfl⟩
    dsimp only
    rw [hread]
    rfl

/-- Settings of different members are for different options. -/
theorem nodup_of_members {settings : List Setting} (hnodup : (members.map (·.1)).Nodup)
    (h : members.mapM Config.settingOfMember = .ok settings) :
    (settings.map Setting.field).Nodup := by
  have hnames := names_of_settings (except_mapM_ok_iff.mp h)
  rw [← hnames] at hnodup
  have hmap : settings.map (·.field.name) = (settings.map Setting.field).map ConfigField.name := by
    rw [List.map_map]
    rfl
  rw [hmap] at hnodup
  exact hnodup.of_map _

/-- In whatever order members without repetition are read, they make the same configuration. -/
theorem settings_perm {others : List (String × Json)} (h : members.Perm others)
    (hnodup : (members.map (·.1)).Nodup)
    (hc : ∃ settings, members.mapM Config.settingOfMember = .ok settings ∧
      Config.setAll {} settings = c) :
    ∃ settings, others.mapM Config.settingOfMember = .ok settings ∧
      Config.setAll {} settings = c := by
  obtain ⟨settings, hread, rfl⟩ := hc
  obtain ⟨settings', hread', hperm⟩ := except_mapM_perm h hread
  have hsame := setAll_perm {} hperm.symm (nodup_of_members hnodup hread)
  exact ⟨settings', hread', hsame.symm⟩

/-- A text and the object that it spells are read as the same configurations. -/
theorem ofText_eq_ofJson (hparse : Json.parse? text = some (.object members))
    (hdistinct : (Json.object members).Distinct) :
    Config.ofText text = .ok c ↔ Config.ofJson (.object members) = .ok c := by
  have hsort := Json.perm_sortMembers hdistinct.1
  have hnames : ((Json.sortMembers members).map (·.1)).Nodup :=
    (hsort.map _).nodup_iff.mpr hdistinct.1
  rw [ofText_ok_iff hparse hdistinct, ofJson_ok_iff]
  exact ⟨settings_perm hsort.symm hdistinct.1, settings_perm hsort hnames⟩

/-- Members without repetition have one order by name only. -/
theorem sortMembers_perm {others : List (String × Json)} (h : others.Perm members)
    (hnodup : (members.map (·.1)).Nodup) : Json.sortMembers others = Json.sortMembers members := by
  have hnodup' : (others.map (·.1)).Nodup := (h.map _).nodup_iff.mpr hnodup
  have hperm : (Json.sortMembers others).Perm (Json.sortMembers members) :=
    (Json.perm_sortMembers hnodup').trans (h.trans (Json.perm_sortMembers hnodup).symm)
  apply hperm.eq_of_pairwise _ (members_ascending others) (members_ascending members)
  intro m n _ _ hlt hgt
  exact absurd (hlt.trans hgt) (lt_irrefl _)

theorem ofJson_perm {others : List (String × Json)} (h : others.Perm members)
    (hnodup : (members.map (·.1)).Nodup) :
    Config.ofJson (.object others) = Config.ofJson (.object members) := by
  simp only [Config.ofJson]
  rw [sortMembers_perm h hnodup]

theorem ofOptions_ok_iff : Config.ofOptions members = .ok c ↔
    ∃ d, Config.ofJson (.object members) = .ok d ∧ d.validate = .ok c := by
  unfold Config.ofOptions
  cases Config.ofJson (.object members) with
  | error p => exact iff_of_false (fun h => nomatch h) (fun ⟨_, h, _⟩ => nomatch h)
  | ok d =>
    constructor
    · intro h
      exact ⟨d, rfl, h⟩
    · rintro ⟨d', hd, h⟩
      rw [Except.ok.inj hd]
      exact h

end Configurations

/-- The document that a text with an escape in a name spells, put together from its parts. -/
theorem parse_spaced :
    Json.parse? " \x7b \"s\\u0069md\" : false,\n\"opt_level\": \x7b\"none\" : null\x7d\x7d" =
      some (.object [("simd", .bool false), ("opt_level", .object [("none", .null)])]) := by
  have hescape : Json.stringTail []
        "s\\u0069md\" : false,\n\"opt_level\": \x7b\"none\" : null\x7d\x7d".toList =
      some ("simd", " : false,\n\"opt_level\": \x7b\"none\" : null\x7d\x7d".toList) := by
    decide +kernel
  have hnone : Json.Spells " \x7b\"none\" : null\x7d\x7d".toList (.object [("none", .null)]) ['}'] :=
    Json.spells_object rfl (Json.spellsMembers_last rfl rfl (Json.spells_scalar rfl) rfl)
  have hlevel : Json.SpellsMembers "\n\"opt_level\": \x7b\"none\" : null\x7d\x7d".toList
      [("opt_level", .object [("none", .null)])] [] := Json.spellsMembers_last rfl rfl hnone rfl
  have hname : Json.opening (Json.skipBlanks
        " \"s\\u0069md\" : false,\n\"opt_level\": \x7b\"none\" : null\x7d\x7d".toList) =
      some (.scalar (.string "simd") " : false,\n\"opt_level\": \x7b\"none\" : null\x7d\x7d".toList) :=
    Json.opening_string hescape
  have hsimd : Json.SpellsMembers
      " \"s\\u0069md\" : false,\n\"opt_level\": \x7b\"none\" : null\x7d\x7d".toList
      [("simd", .bool false), ("opt_level", .object [("none", .null)])] [] :=
    Json.spellsMembers_more hname rfl (Json.spells_scalar rfl) rfl hlevel
  have hvalue : Json.Spells
      " \x7b \"s\\u0069md\" : false,\n\"opt_level\": \x7b\"none\" : null\x7d\x7d".toList
      (.object [("simd", .bool false), ("opt_level", .object [("none", .null)])]) [] :=
    Json.spells_object rfl hsimd
  exact Json.parse_of_spells hvalue rfl

theorem parse_swapped : Json.parse? "\x7b\"opt_level\":\x7b\"none\":null\x7d,\"simd\":false\x7d" =
    some (.object [("opt_level", .object [("none", .null)]), ("simd", .bool false)]) := by
  have hnone : Json.Spells "\x7b\"none\":null\x7d,\"simd\":false\x7d".toList (.object [("none", .null)])
      ",\"simd\":false\x7d".toList :=
    Json.spells_object rfl (Json.spellsMembers_last rfl rfl (Json.spells_scalar rfl) rfl)
  have hsimd : Json.SpellsMembers "\"simd\":false\x7d".toList [("simd", .bool false)] [] :=
    Json.spellsMembers_last rfl rfl (Json.spells_scalar rfl) rfl
  have hlevel : Json.SpellsMembers "\"opt_level\":\x7b\"none\":null\x7d,\"simd\":false\x7d".toList
      [("opt_level", .object [("none", .null)]), ("simd", .bool false)] [] :=
    Json.spellsMembers_more rfl rfl hnone rfl hsimd
  have hvalue : Json.Spells "\x7b\"opt_level\":\x7b\"none\":null\x7d,\"simd\":false\x7d".toList
      (.object [("opt_level", .object [("none", .null)]), ("simd", .bool false)]) [] :=
    Json.spells_object rfl hlevel
  exact Json.parse_of_spells hvalue rfl

/-- For a text that is one object, in which no object repeats a name: reading a configuration straight
from the text and validating it succeeds just if the map of options that the text spells is accepted,
and with the same configuration. In whatever order another text has the same members, the same
configuration is read from it or none, by either way. And no configuration is read straight from a text
that spells no document at all. -/
theorem text_read_as_options :
    (∀ text members, Json.parse? text = some (.object members) → (Json.object members).Distinct →
      (∀ c, (∃ d, Config.ofText text = .ok d ∧ d.validate = .ok c) ↔
        Config.ofOptions members = .ok c) ∧
      ∀ other others, Json.parse? other = some (.object others) → others.Perm members →
        (∀ c, Config.ofText other = .ok c ↔ Config.ofText text = .ok c) ∧
        Config.ofOptions others = Config.ofOptions members) ∧
    ∀ text c, Config.ofText text = .ok c → ∃ v, Json.parse? text = some v := by
  refine ⟨?_, fun text c h => parse_of_ofText h⟩
  intro text members hparse hdistinct
  refine ⟨?_, ?_⟩
  · intro c
    rw [ofOptions_ok_iff]
    exact exists_congr fun d => and_congr_left fun _ => ofText_eq_ofJson hparse hdistinct
  · intro other others hother hperm
    have hdistinct' : (Json.object others).Distinct := (Json.distinct_perm hperm).mpr hdistinct
    have hsame := ofJson_perm hperm hdistinct.1
    refine ⟨?_, ?_⟩
    · intro c
      rw [ofText_eq_ofJson hother hdistinct', ofText_eq_ofJson hparse hdistinct, hsame]
    · unfold Config.ofOptions
      rw [hsame]

/-- Blanks, an escape in a name, and a level given by way of an object; and the same two members the
other way round. -/
theorem spaced_text_read :
    (∃ d, Config.ofText " \x7b \"s\\u0069md\" : false,\n\"opt_level\": \x7b\"none\" : null\x7d\x7d" =
      .ok d ∧ d.validate = .ok { simd := false, optLevel := .none }) ∧
    ∀ c, Config.ofText "\x7b\"opt_level\":\x7b\"none\":null\x7d,\"simd\":false\x7d" = .ok c ↔
      Config.ofText " \x7b \"s\\u0069md\" : false,\n\"opt_level\": \x7b\"none\" : null\x7d\x7d" =
        .ok c := by
  have hdistinct : (Json.object [("simd", .bool false),
      ("opt_level", .object [("none", .null)])]).Distinct := by
    simp [Json.Distinct, Json.DistinctMembers]
  have hoptions : Config.ofOptions [("simd", .bool false), ("opt_level", .object [("none", .null)])] =
      .ok { simd := false, optLevel := .none } := rfl
  obtain ⟨hread, horder⟩ := text_read_as_options.1 _ _ parse_spaced hdistinct
  exact ⟨(hread _).mpr hoptions, (horder _ _ parse_swapped (.swap _ _ [])).1⟩

end WasmEmbed
