import Mathlib.Data.List.Induction
import Mathlib.Data.List.Nodup
import Mathlib.Data.String.Basic
import WasmEmbed.Json.Basic

/-! Objects as maps. The members of an object, brought into order, are just what the object gives to
its names: strictly increasing in the name (`members_ascending`), and each name with the last of the
values that it was given (`mem_sortMembers`). -/
namespace WasmEmbed

/-- Names that strictly increase. -/
def Json.Ascending (members : List (String × Json)) : Prop := members.Pairwise fun m n => m.1 < n.1

/-- The object gives one name alone, and to it this value. -/
def Json.Single (members : List (String × Json)) (name : String) (v : Json) : Prop :=
  ∀ n w, Json.lookup members n = some w ↔ n = name ∧ w = v

variable {members : List (String × Json)} {name key : String} {v w : Json}

section Insert

/-- The member that is put in hides the one that had its name, and all others stay. -/
theorem mem_insertMember (h : Json.Ascending members) :
    (key, w) ∈ Json.insertMember name v members ↔
      if key = name then w = v else (key, w) ∈ members := by
  induction members with
  | nil =>
    rw [Json.insertMember, List.mem_singleton, Prod.mk.injEq]
    split_ifs with hkey
    · simp [hkey]
    · simp [hkey]
  | cons m rest ih =>
    obtain ⟨hfirst, hrest⟩ := List.pairwise_cons.mp h
    unfold Json.insertMember
    by_cases hbefore : name < m.1
    · -- all names in the list are greater, so none is the new one
      have hfresh : (name, w) ∉ m :: rest := by
        intro hmem
        rcases List.mem_cons.mp hmem with rfl | hmem
        · exact absurd hbefore (lt_irrefl _)
        · exact absurd (hbefore.trans (hfirst _ hmem)) (lt_irrefl _)
      rw [if_pos hbefore, List.mem_cons, Prod.mk.injEq]
      split_ifs with hkey
      · rw [hkey]
        simp [hfresh]
      · simp [hkey]
    · rw [if_neg hbefore]
      by_cases hsame : name = m.1
      · -- the first member is replaced, and the rest has none of its name
        have hfresh : (name, w) ∉ rest := by
          intro hmem
          have hlt : m.1 < name := hfirst _ hmem
          exact absurd (hsame ▸ hlt) (lt_irrefl _)
        rw [if_pos hsame, List.mem_cons, Prod.mk.injEq]
        split_ifs with hkey
        · rw [hkey]
          simp [hfresh]
        · have hother : (key, w) ≠ m := by
            rintro rfl
            exact hkey hsame.symm
          simp [hkey, hother]
      · rw [if_neg hsame, List.mem_cons, List.mem_cons, ih hrest]
        split_ifs with hkey
        · have hother : (key, w) ≠ m := by
            rintro rfl
            exact hsame hkey.symm
          simp [hother]
        · exact Iff.rfl

/-- What stands in the rest then is what stood there, or the new member. -/
theorem ascending_insertMember (name : String) (v : Json) (h : Json.Ascending members) :
    Json.Ascending (Json.insertMember name v members) := by
  induction members with
  | nil => exact List.pairwise_singleton _ _
  | cons m rest ih =>
    obtain ⟨hfirst, hrest⟩ := List.pairwise_cons.mp h
    unfold Json.insertMember
    by_cases hbefore : name < m.1
    · rw [if_pos hbefore]
      apply List.pairwise_cons.mpr ⟨?_, h⟩
      intro n hn
      rcases List.mem_cons.mp hn with rfl | hn
      · exact hbefore
      · exact hbefore.trans (hfirst n hn)
    · rw [if_neg hbefore]
      by_cases hsame : name = m.1
      · rw [if_pos hsame]
        apply List.pairwise_cons.mpr ⟨?_, hrest⟩
        intro n hn
        rw [hsame]
        exact hfirst n hn
      · rw [if_neg hsame]
        apply List.pairwise_cons.mpr ⟨?_, ih hrest⟩
        intro n hn
        have hmem : if n.1 = name then n.2 = v else (n.1, n.2) ∈ rest :=
          (mem_insertMember hrest).mp hn
        split_ifs at hmem with hkey
        · rw [hkey]
          exact lt_of_le_of_ne (not_lt.mp hbefore) (Ne.symm hsame)
        · exact hfirst n hmem

end Insert

section Order

theorem sortMembers_snoc (members : List (String × Json)) (m : String × Json) :
    Json.sortMembers (members ++ [m]) = Json.insertMember m.1 m.2 (Json.sortMembers members) := by
  rw [Json.sortMembers, List.foldl_append]
  rfl

/-- Of two members with one name the later one counts. -/
theorem lookup_snoc (members : List (String × Json)) (m : String × Json) (name : String) :
    Json.lookup (members ++ [m]) name =
      if name = m.1 then some m.2 else Json.lookup members name := by
  unfold Json.lookup
  rw [List.reverse_append, List.reverse_singleton, List.singleton_append, List.find?_cons]
  by_cases hname : name = m.1
  · rw [if_pos hname, hname, beq_self_eq_true]
    rfl
  · have hfalse : (m.1 == name) = false := beq_eq_false_iff_ne.mpr (Ne.symm hname)
    rw [if_neg hname, hfalse]

/-- A map has its members in the order of their names. -/
theorem members_ascending (members : List (String × Json)) :
    Json.Ascending (Json.sortMembers members) := by
  induction members using List.reverseRecOn with
  | nil => exact List.Pairwise.nil
  | append_singleton members m ih =>
    rw [sortMembers_snoc]
    exact ascending_insertMember m.1 m.2 ih

/-- A map has just the members that are found by their names. -/
theorem mem_sortMembers : (name, v) ∈ Json.sortMembers members ↔
    Json.lookup members name = some v := by
  induction members using List.reverseRecOn with
  | nil => exact iff_of_false List.not_mem_nil (fun h => nomatch h)
  | append_singleton members m ih =>
    rw [sortMembers_snoc, lookup_snoc, mem_insertMember (members_ascending members)]
    split_ifs
    · rw [Option.some.injEq]
      exact eq_comm
    · exact ih

theorem nodup_of_ascending (h : Json.Ascending members) : members.Nodup := by
  apply h.imp
  rintro m n hlt rfl
  exact lt_irrefl _ hlt

/-- An object with one name alone has just one member in order. -/
theorem sortMembers_single : Json.sortMembers members = [(name, v)] ↔
    Json.Single members name v := by
  unfold Json.Single
  constructor
  · intro hsort n w
    rw [← mem_sortMembers, hsort, List.mem_singleton, Prod.mk.injEq]
  · intro hsingle
    have hnodup := nodup_of_ascending (members_ascending members)
    apply List.perm_singleton.mp
    rw [List.perm_ext_iff_of_nodup hnodup (List.nodup_singleton _)]
    rintro ⟨n, w⟩
    rw [mem_sortMembers, hsingle, List.mem_singleton, Prod.mk.injEq]

end Order

end WasmEmbed
