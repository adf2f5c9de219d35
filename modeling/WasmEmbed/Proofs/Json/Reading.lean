import WasmEmbed.Json.Parser
import WasmEmbed.Proofs.Json.Members

/-! How documents are read: what a text has to look like for a value, or for the members of an object, to
have been read from it (`parseValue_reads`, `parseMembers_reads`); and documents in which no object repeats
a name. -/
namespace WasmEmbed.Json

mutual

/-- No object in the document repeats a name. -/
def Distinct : Json → Prop
  | array items => DistinctItems items
  | object members => (members.map (·.1)).Nodup ∧ DistinctMembers members
  | _ => True

def DistinctItems : List Json → Prop
  | [] => True
  | v :: vs => v.Distinct ∧ DistinctItems vs

def DistinctMembers : List (String × Json) → Prop
  | [] => True
  | (_, v) :: ms => v.Distinct ∧ DistinctMembers ms

end

/-- What a text begins with, by its first character. -/
inductive Fronts : List Char → Opening → Prop where
  | string {cs rest : List Char} {s : String} (h : stringTail [] cs = some (s, rest)) :
    Fronts ('"' :: cs) (.scalar (.string s) rest)
  | array (cs : List Char) : Fronts ('[' :: cs) (.array cs)
  | object (cs : List Char) : Fronts ('{' :: cs) (.object cs)
  /-- Neither a string nor a list: null, a truth value or a number. -/
  | plain {c : Char} {cs rest : List Char} {v : Json} (hquote : c ≠ '"') (hbrace : c ≠ '{')
    (hstring : ∀ s, v ≠ .string s) (hobject : ∀ members, v ≠ .object members) :
    Fronts (c :: cs) (.scalar v rest)

/-- What a value was read from; of an array no more than its front. -/
inductive ReadsValue : List Char → Json → List Char → Prop where
  | scalar {cs rest : List Char} {v : Json} (hfront : opening cs = some (.scalar v rest)) :
    ReadsValue cs v rest
  | array {cs inside rest : List Char} {items : List Json}
    (hfront : opening cs = some (.array inside)) : ReadsValue cs (.array items) rest
  | object {cs inside rest : List Char} {members : List (String × Json)}
    (hfront : opening cs = some (.object inside))
    (hcontents : members = [] ∧ skipBlanks inside = '}' :: rest ∨
      ∃ bound, parseMembers bound (skipBlanks inside) = some (members, rest)) :
    ReadsValue cs (.object members) rest

/-- What a member was read from: a name, a colon and a value. -/
inductive ReadsMember (bound : Nat) : List Char → String → Json → List Char → Prop where
  | intro {cs afterName afterColon rest : List Char} {name : String} {v : Json}
    (hname : stringTail [] cs = some (name, afterName))
    (hcolon : skipBlanks afterName = ':' :: afterColon)
    (hvalue : parseValue bound (skipBlanks afterColon) = some (v, rest)) :
    ReadsMember bound ('"' :: cs) name v rest

/-- What members were read from, with the end of the object. -/
inductive ReadsMembers : Nat → List Char → List (String × Json) → List Char → Prop where
  | last {bound : Nat} {cs next rest : List Char} {name : String} {v : Json}
    (hfirst : ReadsMember bound cs name v next) (hend : skipBlanks next = '}' :: rest) :
    ReadsMembers (bound + 1) cs [(name, v)] rest
  | more {bound : Nat} {cs next others rest : List Char} {name : String} {v : Json}
    {members : List (String × Json)} (hfirst : ReadsMember bound cs name v next)
    (hcomma : skipBlanks next = ',' :: others)
    (hrest : ReadsMembers bound (skipBlanks others) members rest) :
    ReadsMembers (bound + 1) cs ((name, v) :: members) rest

variable {bound : Nat} {cs rest : List Char} {v : Json} {o : Opening} {name : String}
  {members : List (String × Json)}

section Distinct

theorem distinctMembers_iff : DistinctMembers members ↔ ∀ m ∈ members, m.2.Distinct := by
  induction members with
  | nil => exact iff_of_true trivial (fun m hm => absurd hm List.not_mem_nil)
  | cons m members ih =>
    rw [DistinctMembers, ih, List.forall_mem_cons]

/-- In what order members stand does not matter to whether a name is repeated. -/
theorem distinct_perm {others : List (String × Json)} (h : others.Perm members) :
    (object others).Distinct ↔ (object members).Distinct := by
  rw [Distinct, Distinct, distinctMembers_iff, distinctMembers_iff, (h.map _).nodup_iff]
  exact and_congr_right fun _ => forall_congr' fun m => imp_congr_left h.mem_iff

/-- Without repetition each member is found by its name. -/
theorem lookup_of_mem (hnodup : (members.map (·.1)).Nodup) (hmem : (name, v) ∈ members) :
    lookup members name = some v := by
  induction members using List.reverseRecOn with
  | nil => exact absurd hmem List.not_mem_nil
  | append_singleton members m ih =>
    rw [List.map_append, List.nodup_append] at hnodup
    obtain ⟨hrest, _, hlast⟩ := hnodup
    rw [lookup_snoc]
    rcases List.mem_append.mp hmem with hmem | hmem
    · have hother : name ≠ m.1 :=
        hlast name (List.mem_map_of_mem hmem) m.1 List.mem_cons_self
      rw [if_neg hother]
      exact ih hrest hmem
    · obtain rfl := List.mem_singleton.mp hmem
      rw [if_pos rfl]

/-- What is found by a name is there. -/
theorem mem_of_lookup (h : lookup members name = some v) : (name, v) ∈ members := by
  obtain ⟨m, hfound, rfl⟩ := Option.map_eq_some_iff.mp h
  have hequal := List.find?_some hfound
  have hname : m.1 = name := beq_iff_eq.mp hequal
  have hmem := List.mem_reverse.mp (List.mem_of_find?_eq_some hfound)
  rw [← hname]
  exact hmem

/-- Without repetition nothing is lost when members are brought into order. -/
theorem perm_sortMembers (h : (members.map (·.1)).Nodup) : (sortMembers members).Perm members := by
  have hsorted := nodup_of_ascending (members_ascending members)
  rw [List.perm_ext_iff_of_nodup hsorted (h.of_map _)]
  rintro ⟨name, v⟩
  rw [mem_sortMembers]
  exact ⟨mem_of_lookup, lookup_of_mem h⟩

end Distinct

section Reading

/-- What a value begins with tells of what kind it is. -/
theorem opening_fronts (h : opening cs = some o) : Fronts cs o := by
  rw [opening.eq_def] at h
  split at h
  · obtain rfl := Option.some.inj h
    exact .plain (by decide) (by decide) (fun _ h => nomatch h) (fun _ h => nomatch h)
  · obtain rfl := Option.some.inj h
    exact .plain (by decide) (by decide) (fun _ h => nomatch h) (fun _ h => nomatch h)
  · obtain rfl := Option.some.inj h
    exact .plain (by decide) (by decide) (fun _ h => nomatch h) (fun _ h => nomatch h)
  · obtain ⟨⟨s, rest⟩, hs, rfl⟩ := Option.map_eq_some_iff.mp h
    exact .string hs
  · obtain rfl := Option.some.inj h
    exact .array _
  · obtain rfl := Option.some.inj h
    exact .object _
  · obtain ⟨⟨n, rest⟩, _, rfl⟩ := Option.map_eq_some_iff.mp h
    exact .plain (by decide) (by decide) (fun _ h => nomatch h) (fun _ h => nomatch h)
  · rename_i c cs _ _ _ hquote _ hbrace _
    split at h
    · obtain ⟨⟨n, rest⟩, _, rfl⟩ := Option.map_eq_some_iff.mp h
      exact .plain (fun h => hquote h) (fun h => hbrace h) (fun _ h => nomatch h) (fun _ h => nomatch h)
    · contradiction
  · contradiction

theorem opening_array {inside : List Char} (h : opening cs = some (.array inside)) :
    cs = '[' :: inside := by
  cases opening_fronts h
  rfl

theorem opening_object {inside : List Char} (h : opening cs = some (.object inside)) :
    cs = '{' :: inside := by
  cases opening_fronts h
  rfl

/-- A value with parts is not read as one without. -/
theorem opening_scalar_ne (h : opening cs = some (.scalar v rest)) (members : List (String × Json)) :
    v ≠ .object members := by
  cases opening_fronts h with
  | string _ => exact fun h => nomatch h
  | plain _ _ _ hobject => exact hobject members

/-- Reading a value follows the grammar. -/
theorem parseValue_reads (h : parseValue bound cs = some (v, rest)) : ReadsValue cs v rest := by
  cases bound with
  | zero => contradiction
  | succ bound =>
    rw [parseValue] at h
    split at h
    · contradiction
    · rename_i hfront
      obtain ⟨rfl, rfl⟩ := Prod.mk.inj (Option.some.inj h)
      exact .scalar hfront
    · rename_i hfront
      split at h
      · obtain ⟨rfl, rfl⟩ := Prod.mk.inj (Option.some.inj h)
        exact .array hfront
      · obtain ⟨⟨items, rest⟩, _, hpair⟩ := Option.map_eq_some_iff.mp h
        obtain ⟨rfl, rfl⟩ := Prod.mk.inj hpair
        exact .array hfront
    · rename_i hfront
      split at h
      · rename_i hend
        obtain ⟨rfl, rfl⟩ := Prod.mk.inj (Option.some.inj h)
        exact .object hfront (Or.inl ⟨rfl, hend⟩)
      · obtain ⟨⟨members, rest⟩, hmembers, hpair⟩ := Option.map_eq_some_iff.mp h
        obtain ⟨rfl, rfl⟩ := Prod.mk.inj hpair
        exact .object hfront (Or.inr ⟨_, hmembers⟩)

theorem memberName?_some {afterColon : List Char} (h : memberName? cs = some (name, afterColon)) :
    ∃ tail afterName value, cs = '"' :: tail ∧ stringTail [] tail = some (name, afterName) ∧
      skipBlanks afterName = ':' :: value ∧ afterColon = skipBlanks value := by
  unfold memberName? at h
  split at h
  · rename_i tail
    obtain ⟨⟨s, afterName⟩, hname, h⟩ := Option.bind_eq_some_iff.mp h
    dsimp only at h
    split at h
    · rename_i value hcolon
      obtain ⟨rfl, rfl⟩ := Prod.mk.inj (Option.some.inj h)
      exact ⟨tail, afterName, value, rfl, hname, hcolon, rfl⟩
    · contradiction
  · contradiction

/-- Reading members follows the grammar. -/
theorem parseMembers_reads (h : parseMembers bound cs = some (members, rest)) :
    ReadsMembers bound cs members rest := by
  induction bound generalizing cs members rest with
  | zero => contradiction
  | succ bound ih =>
    rw [parseMembers] at h
    obtain ⟨⟨name, afterColon⟩, hname, h1⟩ := Option.bind_eq_some_iff.mp h
    obtain ⟨⟨v, next⟩, hvalue, h2⟩ := Option.bind_eq_some_iff.mp h1
    obtain ⟨tail, afterName, value, rfl, htail, hcolon, rfl⟩ := memberName?_some hname
    have hfirst : ReadsMember bound ('"' :: tail) name v next := .intro htail hcolon hvalue
    dsimp only at h2
    split at h2
    · rename_i hend
      obtain ⟨rfl, rfl⟩ := Prod.mk.inj (Option.some.inj h2)
      exact .last hfirst hend
    · rename_i hcomma
      obtain ⟨⟨ms, last⟩, hms, hpair⟩ := Option.map_eq_some_iff.mp h2
      obtain ⟨rfl, rfl⟩ := Prod.mk.inj hpair
      exact .more hfirst hcomma (ih hms)
    · contradiction

theorem readsMembers_quote (h : ReadsMembers bound cs members rest) : ∃ tail, cs = '"' :: tail := by
  cases h with
  | last hmember _ =>
    cases hmember
    exact ⟨_, rfl⟩
  | more hmember _ _ =>
    cases hmember
    exact ⟨_, rfl⟩

end Reading

end WasmEmbed.Json
