import Mathlib.Data.List.TakeWhile
import WasmEmbed.Proofs.Json.Reading

/-! How far reading gets. Every lexeme takes something off the text, so the bound on the steps, which is
twice the length of the text, is never reached: what is put together as a document is read as that document
(`parse_of_spells`). -/
namespace WasmEmbed.Json

/-- What `read` takes off the front of a text, as long as it has two steps for each character and some
more. -/
structure Taken {α : Type} (read : Nat → List Char → Option (α × List Char)) (more : Nat)
    (cs : List Char) (a : α) (rest : List Char) : Prop where
  shorter : rest.length < cs.length
  read : ∀ bound, 2 * cs.length + more ≤ bound → read bound (skipBlanks cs) = some (a, rest)

/-- The value stands at the front of the text. -/
abbrev Spells : List Char → Json → List Char → Prop := Taken parseValue 0

/-- The items and the end of their array stand at the front of the text; the first item begins with them,
which takes a step. -/
abbrev SpellsItems : List Char → List Json → List Char → Prop := Taken parseItems 1

/-- The members and the end of their object stand at the front of the text. -/
abbrev SpellsMembers : List Char → List (String × Json) → List Char → Prop := Taken parseMembers 0

variable {α : Type} {read : Nat → List Char → Option (α × List Char)} {more bound : Nat} {a : α}
  {cs rest acc inside next others afterName afterColon : List Char} {s name text : String} {v : Json}
  {c : Char} {neg : Bool} {significand : Nat} {exp : Int} {n : Number} {items : List Json}
  {members : List (String × Json)}

section Lexemes

/-- A mark that is taken leaves a shorter text. -/
theorem shorter_of_mark (h : skipBlanks cs = c :: rest) : rest.length < cs.length := by
  have hlength : (skipBlanks cs).length ≤ cs.length := List.length_dropWhile_le _ _
  rw [h] at hlength
  exact hlength

theorem stringTail_shorter (h : stringTail acc cs = some (s, rest)) : rest.length < cs.length := by
  fun_induction stringTail acc cs with
  | case2 =>
    rw [(Prod.mk.inj (Option.some.inj h)).2]
    exact Nat.lt_succ_self _
  | case10 acc c tail _ ih =>
    obtain ⟨e, _, h⟩ := Option.bind_eq_some_iff.mp h
    have hrest := ih e h
    simp only [List.length_cons]
    omega
  | case5 | case9 | case12 =>
    rename_i ih
    have hrest := ih h
    simp only [List.length_cons]
    omega
  | _ => contradiction

theorem exponentTail_rest (h : exponentTail neg significand exp cs = some (n, rest)) :
    rest.length ≤ cs.length := by
  unfold exponentTail at h
  split at h
  rename_i negExp unsigned hsign
  have hshort : unsigned.length ≤ cs.length := by
    split at hsign <;> obtain ⟨-, rfl⟩ := Prod.mk.inj hsign <;> simp
  have hrest : rest = unsigned.dropWhile Char.isDigit := by
    dsimp only at h
    split at h
    · contradiction
    · split at h
      · obtain ⟨_, _, hpair⟩ := Option.map_eq_some_iff.mp h
        exact (Prod.mk.inj hpair).2.symm
      · split at h
        · exact (Prod.mk.inj (Option.some.inj h)).2.symm
        · contradiction
  rw [hrest]
  exact (List.length_dropWhile_le _ _).trans hshort

theorem scaleTail_rest (h : scaleTail neg significand exp cs = some (n, rest)) :
    rest.length ≤ cs.length := by
  unfold scaleTail at h
  split at h
  · exact Nat.le_succ_of_le (exponentTail_rest h)
  · exact Nat.le_succ_of_le (exponentTail_rest h)
  · obtain ⟨_, _, hpair⟩ := Option.map_eq_some_iff.mp h
    rw [(Prod.mk.inj hpair).2]

/-- There is a digit before anything else of a number. -/
theorem numberTail_shorter (h : numberTail neg cs = some (n, rest)) : rest.length < cs.length := by
  have hdigits (cs : List Char) : (cs.dropWhile Char.isDigit).length ≤ cs.length :=
    List.length_dropWhile_le _ _
  unfold numberTail at h
  dsimp only at h
  split at h
  · contradiction
  · rename_i hsome
    have hwhole : (cs.dropWhile Char.isDigit).length < cs.length := by
      have hsplit := congrArg List.length (List.takeWhile_append_dropWhile (p := Char.isDigit) (l := cs))
      have hnonempty : 0 < (cs.takeWhile Char.isDigit).length := by
        apply List.length_pos_of_ne_nil
        rintro hnil
        simp [hnil] at hsome
      rw [List.length_append] at hsplit
      omega
    split at h
    · rename_i fraction hpoint
      split at h
      · contradiction
      · have hfraction := hdigits fraction
        have hrest := scaleTail_rest h
        rw [hpoint, List.length_cons] at hwhole
        omega
    · rename_i hletter
      have hrest := exponentTail_rest h
      rw [hletter, List.length_cons] at hwhole
      omega
    · rename_i hletter
      have hrest := exponentTail_rest h
      rw [hletter, List.length_cons] at hwhole
      omega
    · split at h
      · rw [← (Prod.mk.inj (Option.some.inj h)).2]
        exact hwhole
      · obtain ⟨_, _, hpair⟩ := Option.map_eq_some_iff.mp h
        rw [← (Prod.mk.inj hpair).2]
        exact hwhole

/-- A scalar takes something of the text. -/
theorem opening_shorter (h : opening cs = some (.scalar v rest)) : rest.length < cs.length := by
  rw [opening.eq_def] at h
  split at h
  · obtain ⟨-, rfl⟩ := Opening.scalar.inj (Option.some.inj h)
    simp only [List.length_cons]
    omega
  · obtain ⟨-, rfl⟩ := Opening.scalar.inj (Option.some.inj h)
    simp only [List.length_cons]
    omega
  · obtain ⟨-, rfl⟩ := Opening.scalar.inj (Option.some.inj h)
    simp only [List.length_cons]
    omega
  · obtain ⟨⟨s, rest⟩, hs, hscalar⟩ := Option.map_eq_some_iff.mp h
    obtain ⟨-, rfl⟩ := Opening.scalar.inj hscalar
    exact (stringTail_shorter hs).trans (Nat.lt_succ_self _)
  · cases h
  · cases h
  · obtain ⟨⟨n, rest⟩, hn, hscalar⟩ := Option.map_eq_some_iff.mp h
    obtain ⟨-, rfl⟩ := Opening.scalar.inj hscalar
    exact (numberTail_shorter hn).trans (Nat.lt_succ_self _)
  · split at h
    · obtain ⟨⟨n, rest⟩, hn, hscalar⟩ := Option.map_eq_some_iff.mp h
      obtain ⟨-, rfl⟩ := Opening.scalar.inj hscalar
      exact numberTail_shorter hn
    · contradiction
  · contradiction

/-- A string in front is read by its tail alone. -/
theorem opening_string (h : stringTail [] cs = some (s, rest)) :
    opening ('"' :: cs) = some (.scalar (.string s) rest) := by
  rw [opening, h]
  rfl

end Lexemes

section Documents

/-- Something is left of the text, so there is a first step. -/
theorem taken_intro (hshorter : rest.length < cs.length)
    (hread : ∀ bound, 2 * cs.length + more ≤ bound + 1 →
      read (bound + 1) (skipBlanks cs) = some (a, rest)) : Taken read more cs a rest := by
  refine ⟨hshorter, ?_⟩
  intro bound hbound
  obtain ⟨k, rfl⟩ : ∃ k, bound = k + 1 := ⟨bound - 1, by omega⟩
  exact hread k hbound

theorem spells_scalar (h : opening (skipBlanks cs) = some (.scalar v rest)) : Spells cs v rest := by
  apply taken_intro ((opening_shorter h).trans_le (List.length_dropWhile_le _ _))
  intro bound _
  rw [parseValue, h]

/-- A string is the only value without parts that a quote begins, and gives the name. -/
theorem memberName?_some_of (hname : opening (skipBlanks cs) = some (.scalar (.string name) afterName))
    (hcolon : skipBlanks afterName = ':' :: afterColon) :
    memberName? (skipBlanks cs) = some (name, skipBlanks afterColon) := by
  have hfront := opening_fronts hname
  generalize skipBlanks cs = front at hfront
  cases hfront with
  | string hs =>
    simp only [memberName?, hs, Option.bind_some]
    rw [hcolon]
    rfl
  | plain _ _ hstring _ => exact absurd rfl (hstring name)

theorem afterColon_shorter (hname : opening (skipBlanks cs) = some (.scalar v afterName))
    (hcolon : skipBlanks afterName = ':' :: afterColon) : afterColon.length < cs.length :=
  ((shorter_of_mark hcolon).trans (opening_shorter hname)).trans_le (List.length_dropWhile_le _ _)

theorem spellsMembers_last
    (hname : opening (skipBlanks cs) = some (.scalar (.string name) afterName))
    (hcolon : skipBlanks afterName = ':' :: afterColon) (hvalue : Spells afterColon v next)
    (hend : skipBlanks next = '}' :: rest) : SpellsMembers cs [(name, v)] rest := by
  have hless := afterColon_shorter hname hcolon
  apply taken_intro (((shorter_of_mark hend).trans hvalue.shorter).trans hless)
  intro bound hbound
  have hread := hvalue.read bound (by omega)
  simp only [parseMembers, memberName?_some_of hname hcolon, Option.bind_some, hread]
  rw [hend]
  rfl

/-- A member with others behind it is read and they are. -/
theorem spellsMembers_more
    (hname : opening (skipBlanks cs) = some (.scalar (.string name) afterName))
    (hcolon : skipBlanks afterName = ':' :: afterColon) (hvalue : Spells afterColon v next)
    (hcomma : skipBlanks next = ',' :: others) (hrest : SpellsMembers others members rest) :
    SpellsMembers cs ((name, v) :: members) rest := by
  have hless := afterColon_shorter hname hcolon
  have hothers := ((shorter_of_mark hcomma).trans hvalue.shorter).trans hless
  apply taken_intro (hrest.shorter.trans hothers)
  intro bound hbound
  have hread := hvalue.read bound (by omega)
  have hreadRest := hrest.read bound (by omega)
  simp only [parseMembers, memberName?_some_of hname hcolon, Option.bind_some, hread]
  rw [hcomma]
  change Option.map _ (parseMembers bound (skipBlanks others)) = _
  rw [hreadRest]
  rfl

theorem spellsItems_last (hvalue : Spells cs v next) (hend : skipBlanks next = ']' :: rest) :
    SpellsItems cs [v] rest := by
  apply taken_intro ((shorter_of_mark hend).trans hvalue.shorter)
  intro bound hbound
  have hread := hvalue.read bound (by omega)
  simp only [parseItems, hread, Option.bind_some]
  rw [hend]
  rfl

theorem spellsItems_more (hvalue : Spells cs v next) (hcomma : skipBlanks next = ',' :: others)
    (hrest : SpellsItems others items rest) : SpellsItems cs (v :: items) rest := by
  have hothers := (shorter_of_mark hcomma).trans hvalue.shorter
  apply taken_intro (hrest.shorter.trans hothers)
  intro bound hbound
  have hread := hvalue.read bound (by omega)
  have hreadRest := hrest.read bound (by omega)
  simp only [parseItems, hread, Option.bind_some]
  rw [hcomma]
  change Option.map _ (parseItems bound (skipBlanks others)) = _
  rw [hreadRest]
  rfl

theorem spells_object_nil (h : opening (skipBlanks cs) = some (.object inside))
    (hend : skipBlanks inside = '}' :: rest) : Spells cs (.object []) rest := by
  apply taken_intro ((shorter_of_mark hend).trans (shorter_of_mark (opening_object h)))
  intro bound _
  simp only [parseValue, h]
  rw [hend]
  rfl

/-- What stands between the braces is read as the members. -/
theorem spells_object (h : opening (skipBlanks cs) = some (.object inside))
    (hmembers : SpellsMembers inside members rest) : Spells cs (.object members) rest := by
  have hless := shorter_of_mark (opening_object h)
  apply taken_intro (hmembers.shorter.trans hless)
  intro bound hbound
  have hread := hmembers.read bound (by omega)
  obtain ⟨tail, hquote⟩ := readsMembers_quote (parseMembers_reads hread)
  rw [hquote] at hread
  simp only [parseValue, h]
  rw [hquote]
  change Option.map _ (parseMembers bound ('"' :: tail)) = _
  rw [hread]
  rfl

/-- Brackets with nothing between them spell the empty array. -/
theorem spells_array_nil (h : opening (skipBlanks cs) = some (.array inside))
    (hend : skipBlanks inside = ']' :: rest) : Spells cs (.array []) rest := by
  apply taken_intro ((shorter_of_mark hend).trans (shorter_of_mark (opening_array h)))
  intro bound _
  simp only [parseValue, h]
  rw [hend]
  rfl

/-- By `hbegin` the end of the array does not stand inside, so that there are items. -/
theorem spells_array (h : opening (skipBlanks cs) = some (.array inside))
    (hbegin : ∀ tail, skipBlanks inside ≠ ']' :: tail) (hitems : SpellsItems inside items rest) :
    Spells cs (.array items) rest := by
  have hless := shorter_of_mark (opening_array h)
  apply taken_intro (hitems.shorter.trans hless)
  intro bound hbound
  have hread := hitems.read bound (by omega)
  simp only [parseValue, h]
  rw [hread]
  rfl

/-- A text that spells a value, with nothing behind it, is read as the value. -/
theorem parse_of_spells (h : Spells text.toList v rest) (hend : (skipBlanks rest).isEmpty) :
    parse? text = some v := by
  have hread := h.read (2 * text.toList.length + 2) (by omega)
  simp only [parse?, hread, Option.bind_some, if_pos hend]

end Documents

end WasmEmbed.Json
