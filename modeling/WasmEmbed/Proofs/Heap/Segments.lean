import WasmEmbed.Proofs.Machine.Writes
import Mathlib.Data.List.Basic

/-! Active segments and the room for them. Copying stops, and checking refuses, for the same reason: some
segment does not lie inside its table or memory. Which of both it is tells the kind of trap, and
elements come first. -/
namespace WasmEmbed
open WasmEmbed.Code
variable {σ : Type}

/-- The segment lies inside its table, if it is active. -/
def Heap.ElemFits (h : Heap σ) (l : Link) (e : ElemSegment) : Prop :=
  ∀ table offset, e.mode = .active table offset → ∀ addr t,
    h.table? l (table.getD 0) = some (addr, t) →
      (h.constant l offset).bits + e.items.codes.length ≤ t.size

/-- The segment lies inside its memory, if it is active. -/
def Heap.DataFits (h : Heap σ) (l : Link) (d : DataSegment) : Prop :=
  ∀ memory offset, d.mode = .active memory offset → ∀ addr m,
    h.memory? l (memory.getD 0) = some (addr, m) →
      (h.constant l offset).bits + d.bytes.length ≤ m.size

/-- Some active segment of the module does not fit, in a table or else in a memory. -/
inductive Heap.Overrun (h : Heap σ) (a : Artifact) (l : Link) : TrapCode → Prop where
  | elements {e : ElemSegment} (he : e ∈ a.elems) (hout : ¬ h.ElemFits l e) :
    Overrun h a l .tableOutOfBounds
  | data (helems : ∀ e ∈ a.elems, h.ElemFits l e) {d : DataSegment} (hd : d ∈ a.datas)
    (hout : ¬ h.DataFits l d) : Overrun h a l .memoryOutOfBounds

variable {h : Heap σ} {l : Link} {a : Artifact} {e : ElemSegment} {d : DataSegment}
  {code : TrapCode}

section Misfits

/-- The write that a segment of elements asks for is marked just if the segment does not fit. -/
theorem elemWrite?_misfit_iff :
    (∃ w, h.elemWrite? l e = some (w, false)) ↔ ¬ h.ElemFits l e := by
  unfold Heap.ElemFits Heap.elemWrite?
  cases e.mode with
  | active table offset =>
    cases htable : h.table? l (table.getD 0) with
    | none => simp [htable]
    | some p =>
      obtain ⟨addr, t⟩ := p
      simp [htable, Heap.items]
  | passive => simp
  | declared => simp

/-- The write that a segment of data asks for is marked just if the segment does not fit. -/
theorem dataWrite?_misfit_iff :
    (∃ w, h.dataWrite? l d = some (w, false)) ↔ ¬ h.DataFits l d := by
  unfold Heap.DataFits Heap.dataWrite?
  cases d.mode with
  | active memory offset =>
    cases hmemory : h.memory? l (memory.getD 0) with
    | none => simp [hmemory]
    | some p =>
      obtain ⟨addr, m⟩ := p
      simp [hmemory]
  | passive => simp
  | declared => simp

/-- Of the writes that segments ask for one is marked as not fitting. -/
theorem any_misfit_iff {α : Type} {write? : α → Option (Write × Bool)} {xs : List α} :
    ((xs.filterMap write?).any fun w => !w.2) = true ↔
      ∃ x ∈ xs, ∃ w, write? x = some (w, false) := by
  rw [List.any_eq_true]
  constructor
  · rintro ⟨⟨w, fits⟩, hw, hmisfit⟩
    obtain ⟨x, hx, hwrite⟩ := List.mem_filterMap.mp hw
    have hmisfit : fits = false := by simpa using hmisfit
    rw [hmisfit] at hwrite
    exact ⟨x, hx, w, hwrite⟩
  · rintro ⟨x, hx, w, hwrite⟩
    exact ⟨(w, false), List.mem_filterMap.mpr ⟨x, hx, hwrite⟩, rfl⟩

theorem misfit_elem_iff :
    ((a.elems.filterMap (h.elemWrite? l)).any fun w => !w.2) = true ↔
      ∃ e ∈ a.elems, ¬ h.ElemFits l e := by
  simp only [any_misfit_iff, elemWrite?_misfit_iff]

theorem misfit_data_iff :
    ((a.datas.filterMap (h.dataWrite? l)).any fun w => !w.2) = true ↔
      ∃ d ∈ a.datas, ¬ h.DataFits l d := by
  simp only [any_misfit_iff, dataWrite?_misfit_iff]

end Misfits

section Copying

/-- Copying stops at a write that does not fit, if there is any. -/
theorem copySegments_stop (code : TrapCode) (h : Heap σ) (ws : List (Write × Bool)) :
    (h.copySegments code ws).1 = if (ws.any fun w => !w.2) then some code else none := by
  induction ws generalizing h with
  | nil => rfl
  | cons w rest ih =>
    obtain ⟨w, fits⟩ := w
    cases fits with
    | false => rfl
    | true => exact ih (h.perform w)

/-- Segments of elements write only elements. -/
theorem elements_of_fitting {w : Write}
    (hw : w ∈ fittingWrites (a.elems.filterMap (h.elemWrite? l))) :
    ∃ table offset xs, w = .elements table offset xs := by
  obtain ⟨p, hp, rfl⟩ := List.mem_map.mp hw
  obtain ⟨e, _, hwrite⟩ := List.mem_filterMap.mp (List.takeWhile_subset _ hp)
  unfold Heap.elemWrite? at hwrite
  split at hwrite
  · dsimp only at hwrite
    split at hwrite
    · obtain rfl := Option.some.inj hwrite
      exact ⟨_, _, _, rfl⟩
    · contradiction
  · contradiction

/-- Elements are no part of what decides where data goes. The memories keep their types, for the
limit of the heap is in them. -/
theorem dataWrite?_elements (h : Heap σ) (l : Link) (table start : Nat) (xs : List (Option Nat)) :
    (h.perform (.elements table start xs)).dataWrite? l = h.dataWrite? l := by
  funext d
  unfold Heap.dataWrite?
  cases d.mode with
  | active memory offset =>
    have hsame : (h.perform (.elements table start xs)).memory? l (memory.getD 0) =
        h.memory? l (memory.getD 0) := rfl
    dsimp only
    cases hmemory : h.memory? l (memory.getD 0) with
    | none => rw [hsame.trans hmemory]
    | some p =>
      rw [hsame.trans hmemory]
      rfl
  | passive => rfl
  | declared => rfl

/-- Writes to tables do not move segments of data. -/
theorem dataWrite?_performAll {ws : List Write}
    (hws : ∀ w ∈ ws, ∃ table offset xs, w = .elements table offset xs) (h : Heap σ) :
    (h.performAll ws).dataWrite? l = h.dataWrite? l := by
  induction ws generalizing h with
  | nil => rfl
  | cons w rest ih =>
    obtain ⟨table, offset, xs, rfl⟩ := hws w List.mem_cons_self
    rw [← dataWrite?_elements h l table offset xs]
    exact ih (fun v hv => hws v (List.mem_cons_of_mem _ hv)) _

/-- Copying the active segments stops for one that does not fit before anything is copied. -/
theorem copyActive_stop (r : Resources σ) (a : Artifact) (l : Link) :
    (r.copyActive a l).1 =
      if ((a.elems.filterMap (r.heap.elemWrite? l)).any fun w => !w.2) then some .tableOutOfBounds
      else if ((a.datas.filterMap (r.heap.dataWrite? l)).any fun w => !w.2) then
        some .memoryOutOfBounds
      else none := by
  have hstop := copySegments_stop .tableOutOfBounds r.heap (a.elems.filterMap (r.heap.elemWrite? l))
  have hleft := copySegments_heap .tableOutOfBounds r.heap (a.elems.filterMap (r.heap.elemWrite? l))
  unfold Resources.copyActive
  generalize r.heap.copySegments .tableOutOfBounds (a.elems.filterMap (r.heap.elemWrite? l)) =
    copied at hstop hleft
  obtain ⟨failed, heap⟩ := copied
  have hleft : heap = _ := hleft
  split at hstop
  · rename_i hmisfit
    rw [show failed = _ from hstop, if_pos hmisfit]
  · rename_i hfits
    rw [show failed = _ from hstop, if_neg hfits]
    dsimp only
    rw [copySegments_stop, hleft, dataWrite?_performAll fun w hw => elements_of_fitting hw]

/-- Elements are looked at before data, and a segment that does not fit is told by its kind. -/
theorem overrun_iff :
    h.Overrun a l code ↔
      (if ((a.elems.filterMap (h.elemWrite? l)).any fun w => !w.2) then some .tableOutOfBounds
      else if ((a.datas.filterMap (h.dataWrite? l)).any fun w => !w.2) then
        some .memoryOutOfBounds
      else none) = some code := by
  constructor
  · rintro (⟨he, hout⟩ | ⟨helems, hd, hout⟩)
    · rw [if_pos (misfit_elem_iff.mpr ⟨_, he, hout⟩)]
    · rw [if_neg, if_pos (misfit_data_iff.mpr ⟨_, hd, hout⟩)]
      rw [misfit_elem_iff]
      rintro ⟨e, he, hout⟩
      exact hout (helems e he)
  · intro hcode
    split at hcode
    · rename_i hmisfit
      obtain ⟨e, he, hout⟩ := misfit_elem_iff.mp hmisfit
      rw [← Option.some.inj hcode]
      exact .elements he hout
    · rename_i hfits
      split at hcode
      · rename_i hmisfit
        obtain ⟨d, hd, hout⟩ := misfit_data_iff.mp hmisfit
        rw [← Option.some.inj hcode]
        refine .data (fun e he => ?_) hd hout
        by_contra hout
        exact hfits (misfit_elem_iff.mpr ⟨e, he, hout⟩)
      · contradiction

/-- Copying the active segments ends with a trap exactly if one of them does not fit. -/
theorem copyActive_some_iff {r : Resources σ} :
    (r.copyActive a l).1 = some code ↔ r.heap.Overrun a l code := by
  rw [copyActive_stop, overrun_iff]

/-- Checking the segments first refuses what copying them would stop at. -/
theorem checkSegments_ok_iff : h.checkSegments a l = .ok () ↔ ∀ code, ¬ h.Overrun a l code := by
  simp only [overrun_iff]
  unfold Heap.checkSegments
  split
  · exact ⟨fun hcheck => by contradiction, fun hnone => absurd rfl (hnone .tableOutOfBounds)⟩
  · split
    · exact ⟨fun hcheck => by contradiction, fun hnone => absurd rfl (hnone .memoryOutOfBounds)⟩
    · exact ⟨fun _ _ hcode => by contradiction, fun _ => rfl⟩

end Copying

end WasmEmbed
