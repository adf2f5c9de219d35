import WasmEmbed.Proofs.Config.Readers
import WasmEmbed.Proofs.Json.Progress

/-! What readers of text accept is a document. Each reader takes a value off the front of the text, member
by member and item by item, and in the end nothing but blanks is left (`parse_of_read`). -/
namespace WasmEmbed.Stream

open Json (Spells SpellsItems SpellsMembers)

/-- What the reader takes off a text is a value. -/
def Takes {α : Type} (x : Reader α) : Prop :=
  ∀ cs a rest, x.run cs = .ok (a, rest) → ∃ v, Spells cs v rest

variable {α β φ : Type} {x : Reader α} {read : Json → Except Problem α} {a : α} {l : OptLevel}
  {u : Unit} {o : Json.Opening} {r : Record φ β} {f : φ} {fs given : List φ} {b : β} {bs : List β}
  {steps : Nat} {c : Char} {s expected text : String} {cs rest next : List Char} {found : Found}

section Lexemes

theorem run_set {k : PUnit → Reader β} : (set next >>= k).run cs = (k ⟨⟩).run next := rfl

theorem nextOpening_ok (h : nextOpening.run cs = .ok (o, next)) :
    Json.opening (Json.skipBlanks cs) = some o ∧ next = cs := by
  simp only [nextOpening] at h
  rw [run_get] at h
  split at h
  · rename_i hopening
    obtain ⟨rfl, rfl⟩ := Prod.mk.inj (Except.ok.inj h)
    exact ⟨hopening, rfl⟩
  · contradiction

theorem mark_ok (h : (mark c).run cs = .ok (u, rest)) : Json.skipBlanks cs = c :: rest := by
  simp only [mark] at h
  rw [run_get] at h
  split at h
  · rename_i hfront
    split at h
    · rename_i hd
      rw [hfront, hd, (Prod.mk.inj (Except.ok.inj h)).2]
    · contradiction
  · contradiction

theorem name_ok (h : (name expected).run cs = .ok (s, rest)) :
    Json.opening (Json.skipBlanks cs) = some (.scalar (.string s) rest) := by
  obtain ⟨o, _, hopening, hread⟩ := run_bind_ok_iff.mp h
  obtain ⟨hfront, rfl⟩ := nextOpening_ok hopening
  split at hread
  · obtain ⟨rfl, rfl⟩ := Prod.mk.inj (Except.ok.inj hread)
    exact hfront
  · contradiction
  · contradiction
  · contradiction

theorem nextFound_null (h : nextFound.run cs = .ok (.null, rest)) :
    Json.opening (Json.skipBlanks cs) = some (.scalar .null rest) := by
  obtain ⟨o, _, hopening, hread⟩ := run_bind_ok_iff.mp h
  obtain ⟨hfront, rfl⟩ := nextOpening_ok hopening
  split at hread
  · obtain ⟨hnull, rfl⟩ := Prod.mk.inj (Except.ok.inj hread)
    rw [found_null_iff.mp hnull] at hfront
    exact hfront
  · cases (Prod.mk.inj (Except.ok.inj hread)).1
  · cases (Prod.mk.inj (Except.ok.inj hread)).1

end Lexemes

section Values

theorem takes_scalar (harray : ∀ a, read (.array []) ≠ .ok a)
    (hobject : ∀ a, read (.object []) ≠ .ok a) : Takes (scalar read) := by
  intro cs a rest h
  obtain ⟨o, _, hopening, hread⟩ := run_bind_ok_iff.mp h
  obtain ⟨hfront, rfl⟩ := nextOpening_ok hopening
  split at hread
  · rename_i v after
    refine ⟨v, Json.spells_scalar ?_⟩
    rw [run_set] at hread
    split at hread
    · obtain ⟨_, rfl⟩ := Prod.mk.inj (Except.ok.inj hread)
      exact hfront
    · contradiction
  · split at hread
    · rename_i hok
      exact absurd hok (harray _)
    · contradiction
  · split at hread
    · rename_i hok
      exact absurd hok (hobject _)
    · contradiction

theorem takes_map (g : α → β) (h : Takes x) : Takes (g <$> x) := by
  intro cs b rest hb
  rw [map_eq_pure_bind] at hb
  obtain ⟨a, next, hrun, hreturn⟩ := run_bind_ok_iff.mp hb
  obtain ⟨_, rfl⟩ := Prod.mk.inj (Except.ok.inj hreturn)
  exact h cs a next hrun

theorem takes_level : Takes level := by
  intro cs l rest h
  simp only [level] at h
  rw [run_get] at h
  split at h
  · obtain ⟨s, next, hname, hlevel⟩ := run_bind_ok_iff.mp h
    obtain ⟨_, rfl⟩ := levelNamed_ok_iff.mp hlevel
    exact ⟨_, Json.spells_scalar (name_ok hname)⟩
  · rename_i inside hinside
    have hobject : Json.opening (Json.skipBlanks cs) = some (.object inside) := by
      rw [hinside]
      rfl
    rw [run_set] at h
    obtain ⟨s, afterName, hname, hlevel⟩ := run_bind_ok_iff.mp h
    obtain ⟨l', _, hnamed, hbehind⟩ := run_bind_ok_iff.mp hlevel
    obtain ⟨_, rfl⟩ := levelNamed_ok_iff.mp hnamed
    obtain ⟨_, afterColon, hcolon, hcontents⟩ := run_bind_ok_iff.mp hbehind
    obtain ⟨found, afterValue, hfound, hend⟩ := run_bind_ok_iff.mp hcontents
    split at hend
    · obtain ⟨_, _, hbrace, hreturn⟩ := run_bind_ok_iff.mp hend
      obtain ⟨_, rfl⟩ := Prod.mk.inj (Except.ok.inj hreturn)
      have hnull := Json.spells_scalar (nextFound_null hfound)
      have hmembers :=
        Json.spellsMembers_last (name_ok hname) (mark_ok hcolon) hnull (mark_ok hbrace)
      exact ⟨_, Json.spells_object hobject hmembers⟩
    · contradiction
  · contradiction

end Values

section Records

theorem items_spelled (hvalues : ∀ f, Takes (r.value f)) (h : (r.items fs).run cs = .ok (bs, rest)) :
    ∃ items, SpellsItems cs items rest := by
  induction fs generalizing bs cs with
  | nil => contradiction
  | cons f fs ih =>
    simp only [Record.items] at h
    obtain ⟨b, next, hvalue, hbehind⟩ := run_bind_ok_iff.mp h
    obtain ⟨v, hv⟩ := hvalues f _ _ _ hvalue
    rw [run_get] at hbehind
    split at hbehind
    · rename_i hend
      obtain ⟨_, rfl⟩ := Prod.mk.inj (Except.ok.inj hbehind)
      exact ⟨_, Json.spellsItems_last hv hend⟩
    · rename_i hcomma
      split at hbehind
      · contradiction
      · rw [run_set] at hbehind
        obtain ⟨bs', _, hothers, hreturn⟩ := run_bind_ok_iff.mp hbehind
        obtain ⟨_, rfl⟩ := Prod.mk.inj (Except.ok.inj hreturn)
        obtain ⟨items, hitems⟩ := ih hothers
        exact ⟨_, Json.spellsItems_more hv hcomma hitems⟩
    · contradiction

variable [DecidableEq φ]

theorem members_spelled (hvalues : ∀ f, Takes (r.value f))
    (h : (r.members steps given).run cs = .ok (bs, rest)) :
    ∃ members, SpellsMembers cs members rest := by
  induction steps generalizing given bs cs with
  | zero => contradiction
  | succ steps ih =>
    simp only [Record.members] at h
    obtain ⟨s, afterName, hname, hfield⟩ := run_bind_ok_iff.mp h
    split at hfield
    · contradiction
    · rename_i f _
      split at hfield
      · contradiction
      · obtain ⟨_, afterColon, hcolon, hmember⟩ := run_bind_ok_iff.mp hfield
        obtain ⟨b, next, hvalue, hbehind⟩ := run_bind_ok_iff.mp hmember
        obtain ⟨v, hv⟩ := hvalues f _ _ _ hvalue
        rw [run_get] at hbehind
        split at hbehind
        · rename_i hend
          obtain ⟨_, rfl⟩ := Prod.mk.inj (Except.ok.inj hbehind)
          exact ⟨_, Json.spellsMembers_last (name_ok hname) (mark_ok hcolon) hv hend⟩
        · rename_i hcomma
          split at hbehind
          · rw [run_set] at hbehind
            obtain ⟨bs', _, hothers, hreturn⟩ := run_bind_ok_iff.mp hbehind
            obtain ⟨_, rfl⟩ := Prod.mk.inj (Except.ok.inj hreturn)
            obtain ⟨members, hmembers⟩ := ih hothers
            exact ⟨_, Json.spellsMembers_more (name_ok hname) (mark_ok hcolon) hv hcomma hmembers⟩
          · contradiction
        · contradiction

theorem takes_contents (hvalues : ∀ f, Takes (r.value f)) : Takes r.contents := by
  intro cs bs rest h
  simp only [Record.contents] at h
  obtain ⟨o, _, hopening, hread⟩ := run_bind_ok_iff.mp h
  obtain ⟨hfront, rfl⟩ := nextOpening_ok hopening
  split at hread
  · contradiction
  · split at hread
    · rename_i hend
      obtain ⟨_, rfl⟩ := Prod.mk.inj (Except.ok.inj hread)
      exact ⟨_, Json.spells_array_nil hfront hend⟩
    · rename_i hbegin
      rw [run_set] at hread
      obtain ⟨items, hitems⟩ := items_spelled hvalues hread
      exact ⟨_, Json.spells_array hfront hbegin hitems⟩
  · split at hread
    · rename_i hend
      obtain ⟨_, rfl⟩ := Prod.mk.inj (Except.ok.inj hread)
      exact ⟨_, Json.spells_object_nil hfront hend⟩
    · rw [run_set] at hread
      obtain ⟨members, hmembers⟩ := members_spelled hvalues hread
      exact ⟨_, Json.spells_object hfront hmembers⟩
    · contradiction

/-- A text that a record is read from spells a document. -/
theorem parse_of_read (hvalues : ∀ f, Takes (r.value f)) (h : r.read text = .ok bs) :
    ∃ v, Json.parse? text = some v := by
  obtain ⟨⟨bs, rest⟩, hrun, hend⟩ := except_bind_ok h
  obtain ⟨v, hv⟩ := takes_contents hvalues _ _ _ hrun
  dsimp only at hend
  split at hend
  · rename_i hempty
    exact ⟨v, Json.parse_of_spells hv hempty⟩
  · contradiction

end Records

end WasmEmbed.Stream
