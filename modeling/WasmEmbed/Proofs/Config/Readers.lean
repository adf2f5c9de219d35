import WasmEmbed.Config.Stream
import WasmEmbed.Proofs.Config.Values
import WasmEmbed.Proofs.Json.Reading

/-! Values straight from text. A reader of values agrees with how they are read from documents
(`Stream.Agrees`): it accepts what stands at the front of a text just if the document there is accepted,
with the same result, and takes all of the document. -/
namespace WasmEmbed

/-- Of a value at the front of a text the reader makes what `read` makes of the document. -/
def Stream.Agrees {α : Type} (r : Stream.Reader α) (read : Json → Except Problem α) : Prop :=
  ∀ bound cs v rest, Json.parseValue bound (Json.skipBlanks cs) = some (v, rest) → v.Distinct →
    ∀ a rest', r.run cs = .ok (a, rest') ↔ read v = .ok a ∧ rest' = rest

namespace Stream

variable {α β : Type} {x : Reader α} {k : α → Reader β} {read : Json → Except Problem α} {a : α}
  {b : β} {e : ReadError} {l : OptLevel} {v : Json} {o : Json.Opening} {bound : Nat} {c d : Char}
  {s name expected : String} {cs rest inside next : List Char}

section Steps

theorem run_of_ok (h : x.run cs = .ok (a, rest)) : (x >>= k).run cs = (k a).run rest := by
  rw [StateT.run_bind, h]
  rfl

theorem run_of_error (h : x.run cs = .error e) : (x >>= k).run cs = .error e := by
  rw [StateT.run_bind, h]
  rfl

theorem run_get {k : List Char → Reader β} : (get >>= k).run cs = (k cs).run cs := rfl

/-- Two steps of reading succeed if the first does, and the second on what it left. -/
theorem run_bind_ok_iff : (x >>= k).run cs = .ok (b, rest) ↔
    ∃ a next, x.run cs = .ok (a, next) ∧ (k a).run next = .ok (b, rest) := by
  cases hx : x.run cs with
  | error e =>
    rw [run_of_error hx]
    exact iff_of_false (fun h => nomatch h) (fun ⟨_, _, h, _⟩ => nomatch h)
  | ok r =>
    rw [run_of_ok hx]
    constructor
    · intro h
      exact ⟨r.1, r.2, rfl, h⟩
    · rintro ⟨a, next, hr, h⟩
      rw [Except.ok.inj hr]
      exact h

end Steps

section Lexemes

theorem nextOpening_run (h : Json.opening (Json.skipBlanks cs) = some o) :
    nextOpening.run cs = .ok (o, cs) := by
  simp only [nextOpening]
  rw [run_get, h]
  rfl

theorem mark_run (h : Json.skipBlanks cs = c :: rest) : (mark c).run cs = .ok ((), rest) := by
  simp only [mark]
  rw [run_get, h]
  dsimp only
  rw [if_pos rfl]
  rfl

/-- Another character than the one that has to follow is no syntax. -/
theorem mark_malformed (h : Json.skipBlanks cs = d :: rest) (hd : d ≠ c) :
    (mark c).run cs = .error .malformed := by
  simp only [mark]
  rw [run_get, h]
  dsimp only
  rw [if_neg hd]
  rfl

theorem name_run (h : Json.opening (Json.skipBlanks cs) = some (.scalar (.string s) rest)) :
    (Stream.name expected).run cs = .ok (s, rest) := by
  simp only [Stream.name]
  rw [run_of_ok (nextOpening_run h)]
  rfl

theorem name_malformed (h : Json.opening (Json.skipBlanks cs) = none) :
    (Stream.name expected).run cs = .error .malformed := by
  have hopening : nextOpening.run cs = .error .malformed := by
    simp only [nextOpening]
    rw [run_get, h]
    rfl
  exact run_of_error hopening

/-- Name and colon of a member are read, and the reader stands before its value. -/
theorem name_of_member (expected : String)
    (h : Json.ReadsMember bound (Json.skipBlanks cs) name v rest) :
    ∃ afterName afterColon, (Stream.name expected).run cs = .ok (name, afterName) ∧
      (mark ':').run afterName = .ok ((), afterColon) ∧
      Json.parseValue bound (Json.skipBlanks afterColon) = some (v, rest) := by
  generalize hcs : Json.skipBlanks cs = front at h
  cases h with
  | @intro tail afterName afterColon _ _ _ hname hcolon hvalue =>
    refine ⟨afterName, afterColon, name_run ?_, mark_run hcolon, hvalue⟩
    rw [hcs, Json.opening, hname]
    rfl

/-- What stands at the front of a value that can be read; null is the only kind taken as a whole for
sure. -/
theorem nextFound_run (h : Json.parseValue bound (Json.skipBlanks cs) = some (v, rest)) :
    ∃ next, nextFound.run cs = .ok (v.found, next) ∧ (v = .null → next = rest) := by
  simp only [nextFound]
  cases Json.parseValue_reads h with
  | scalar hfront => exact ⟨rest, run_of_ok (nextOpening_run hfront), fun _ => rfl⟩
  | array hfront => exact ⟨cs, run_of_ok (nextOpening_run hfront), fun h => nomatch h⟩
  | object hfront _ => exact ⟨cs, run_of_ok (nextOpening_run hfront), fun h => nomatch h⟩

theorem found_null_iff : v.found = .null ↔ v = .null := by
  cases v with
  | number n => cases n <;> simp [Json.found]
  | _ => simp [Json.found]

end Lexemes

section Scalars

/-- Readers agree that look at the front of a value only, if nothing with parts is accepted. -/
theorem scalar_agrees (harray : ∀ items a, read (.array items) ≠ .ok a)
    (hobject : ∀ members a, read (.object members) ≠ .ok a) : Agrees (scalar read) read := by
  intro bound cs v rest hparse _ a rest'
  simp only [scalar]
  cases Json.parseValue_reads hparse with
  | scalar hfront =>
    rw [run_of_ok (nextOpening_run hfront)]
    dsimp only
    cases read v with
    | error p => exact iff_of_false (fun h => nomatch h) (fun h => nomatch h.1)
    | ok b =>
      change Except.ok (b, rest) = Except.ok (a, rest') ↔ _
      rw [Except.ok.injEq, Except.ok.injEq, Prod.mk.injEq, eq_comm (a := rest)]
  | array hfront =>
    rw [run_of_ok (nextOpening_run hfront)]
    dsimp only
    cases hread : read (.array []) with
    | error p => exact iff_of_false (fun h => nomatch h) (fun h => harray _ _ h.1)
    | ok b => exact absurd hread (harray _ _)
  | object hfront _ =>
    rw [run_of_ok (nextOpening_run hfront)]
    dsimp only
    cases hread : read (.object []) with
    | error p => exact iff_of_false (fun h => nomatch h) (fun h => hobject _ _ h.1)
    | ok b => exact absurd hread (hobject _ _)

/-- Agreement survives what is made of the values. -/
theorem map_agrees (f : α → β) (h : Agrees x read) : Agrees (f <$> x) fun v => (read v).map f := by
  intro bound cs v rest hparse hdistinct b rest'
  have hx := h bound cs v rest hparse hdistinct
  rw [except_map_ok_iff, map_eq_pure_bind, run_bind_ok_iff]
  constructor
  · rintro ⟨a, next, hrun, hreturn⟩
    obtain ⟨rfl, rfl⟩ := Prod.mk.inj (Except.ok.inj hreturn)
    obtain ⟨hread, hnext⟩ := (hx a next).mp hrun
    exact ⟨⟨a, hread, rfl⟩, hnext⟩
  · rintro ⟨⟨a, hread, rfl⟩, rfl⟩
    exact ⟨a, rest', (hx a rest').mpr ⟨hread, rfl⟩, rfl⟩

theorem flag_agrees : Agrees (scalar Json.flag) Json.flag :=
  scalar_agrees (fun _ _ h => nomatch h) (fun _ _ h => nomatch h)

theorem word_agrees (expected : String) : Agrees (scalar (Json.word expected)) (Json.word expected) :=
  scalar_agrees (fun _ _ h => nomatch h) (fun _ _ h => nomatch h)

theorem limit_agrees (expected : String) :
    Agrees (scalar (Json.limit expected)) (Json.limit expected) :=
  scalar_agrees (fun _ _ h => nomatch h) (fun _ _ h => nomatch h)

end Scalars

section Levels

/-- A level is read from its name alone, and takes nothing from the text. -/
theorem levelNamed_ok_iff :
    (levelNamed s).run cs = .ok (l, rest) ↔ levelOf s = .ok l ∧ rest = cs := by
  unfold levelNamed
  cases levelOf s with
  | error p => exact iff_of_false (fun h => nomatch h) (fun h => nomatch h.1)
  | ok k =>
    change Except.ok (k, cs) = Except.ok (l, rest) ↔ _
    rw [Except.ok.injEq, Except.ok.injEq, Prod.mk.injEq, eq_comm (a := cs)]

theorem level_run_string (h : Json.skipBlanks cs = '"' :: inside)
    (hs : Json.opening (Json.skipBlanks cs) = some (.scalar (.string s) rest)) :
    level.run cs = (levelNamed s).run rest := by
  simp only [level]
  rw [run_get, h]
  exact run_of_ok (name_run hs)

/-- A level as an object is read up to its closing brace, in one go. -/
theorem level_run_object (h : Json.skipBlanks cs = '{' :: inside) :
    level.run cs = (do
      let l ← levelNamed (← Stream.name "variant identifier")
      mark ':'
      match ← nextFound with
      | .null => mark '}'; return l
      | found => fail (.invalidType found "unit") : Reader OptLevel).run inside := by
  simp only [level]
  rw [run_get, h]
  rfl

theorem level_run_other (h : Json.skipBlanks cs = c :: inside) (hquote : c ≠ '"')
    (hbrace : c ≠ '{') : level.run cs = .error .malformed := by
  simp only [level]
  rw [run_get, h]
  split
  · rename_i htail
    exact absurd (List.cons.inj htail).1 hquote
  · rename_i htail
    exact absurd (List.cons.inj htail).1 hbrace
  · rfl

/-- An object with a member in front is read as a level just if the member is a level's name with null
and the object ends behind it. -/
theorem level_run_member (h : Json.skipBlanks cs = '{' :: inside)
    (hmember : Json.ReadsMember bound (Json.skipBlanks inside) name v next) :
    level.run cs = .ok (l, rest) ↔
      levelOf name = .ok l ∧ v = .null ∧ (mark '}').run next = .ok ((), rest) := by
  obtain ⟨afterName, afterColon, hname, hcolon, hvalue⟩ :=
    name_of_member "variant identifier" hmember
  obtain ⟨after, hfound, hnull⟩ := nextFound_run hvalue
  rw [level_run_object h, run_of_ok hname, run_bind_ok_iff]
  constructor
  · rintro ⟨k, _, hnamed, hafter⟩
    obtain ⟨hlevel, rfl⟩ := levelNamed_ok_iff.mp hnamed
    rw [run_of_ok hcolon, run_of_ok hfound] at hafter
    split at hafter
    · rename_i hfront
      have hv := found_null_iff.mp hfront
      obtain ⟨_, _, hend, hreturn⟩ := run_bind_ok_iff.mp hafter
      obtain ⟨rfl, rfl⟩ := Prod.mk.inj (Except.ok.inj hreturn)
      rw [hnull hv] at hend
      exact ⟨hlevel, hv, hend⟩
    · contradiction
  · rintro ⟨hlevel, rfl, hend⟩
    refine ⟨l, afterName, levelNamed_ok_iff.mpr ⟨hlevel, rfl⟩, ?_⟩
    rw [run_of_ok hcolon, run_of_ok hfound, hnull rfl]
    exact run_of_ok hend

/-- An object with one member is a level just if the name is one and the value null. -/
theorem level_one :
    (Json.object [(name, v)]).level = .ok l ↔ levelOf name = .ok l ∧ v = .null := by
  change (levelOf name >>= fun l => _) = _ ↔ _
  cases levelOf name with
  | error p => exact iff_of_false (fun h => nomatch h) (fun h => nomatch h.1)
  | ok k => cases v <;> simp [bind, Except.bind]

/-- An object with two names says no level. -/
theorem level_several {m n : String × Json} {members : List (String × Json)}
    (h : ((m :: n :: members).map (·.1)).Nodup) :
    (Json.object (m :: n :: members)).level ≠ .ok l := by
  intro hlevel
  have hsingle : Json.Single (m :: n :: members) l.name .null := level_ok_iff.mp hlevel
  have hm := (hsingle _ _).mp (Json.lookup_of_mem h List.mem_cons_self)
  have hn := (hsingle _ _).mp
    (Json.lookup_of_mem h (List.mem_cons_of_mem _ List.mem_cons_self))
  have hsame : n.1 = m.1 := hn.1.trans hm.1.symm
  have hfresh := (List.nodup_cons.mp h).1
  exact hfresh (List.mem_map.mpr ⟨n, List.mem_cons_self, hsame⟩)

/-- A document with another member, of another name, says no level either. -/
theorem level_agrees : Agrees level Json.level := by
  intro bound cs v rest hparse hdistinct l rest'
  cases Json.parseValue_reads hparse with
  | scalar hfront =>
    have hshape := Json.opening_fronts hfront
    generalize hcs : Json.skipBlanks cs = front at hshape
    cases hshape with
    | string _ =>
      rw [level_run_string hcs hfront, levelNamed_ok_iff]
      exact Iff.rfl
    | plain hquote hbrace hstring hobject =>
      rw [level_run_other hcs hquote hbrace, level_ok_iff]
      apply iff_of_false (fun h => nomatch h)
      cases v with
      | string s => exact absurd rfl (hstring s)
      | object members => exact absurd rfl (hobject members)
      | _ => exact fun h => h.1
  | array hfront =>
    rw [level_run_other (Json.opening_array hfront) (by decide) (by decide)]
    exact iff_of_false (fun h => nomatch h) (fun h => nomatch h.1)
  | object hfront hcontents =>
    have hcs := Json.opening_object hfront
    rcases hcontents with ⟨rfl, hend⟩ | ⟨bound, hmembers⟩
    · have hnone : Json.opening (Json.skipBlanks _) = none :=
        (congrArg Json.opening hend).trans rfl
      rw [level_run_object hcs, run_of_error (name_malformed hnone)]
      exact iff_of_false (fun h => nomatch h) (fun h => nomatch h.1)
    · cases Json.parseMembers_reads hmembers with
      | last hmember hend =>
        rw [level_run_member hcs hmember, level_one, mark_run hend, and_assoc]
        simp [eq_comm]
      | more hmember hcomma hrest =>
        rw [level_run_member hcs hmember, mark_malformed hcomma (by decide)]
        apply iff_of_false (fun h => nomatch h.2.2)
        rintro ⟨hlevel, _⟩
        cases hrest with
        | last => exact level_several hdistinct.1 hlevel
        | more => exact level_several hdistinct.1 hlevel

end Levels

end Stream

end WasmEmbed
