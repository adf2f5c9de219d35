import Std.Data.TreeMap
/-!
Long sequences of which most elements have the default value. Main statements: what reading finds
after writing (`get_write`) and after growing (`get_grow`).
-/

namespace WasmEmbed

/-- `size` elements. Those that `cells` does not hold have the default value. -/
structure Sparse (α : Type) where
  size : Nat
  cells : Std.TreeMap Nat α
  bounded : ∀ i, size ≤ i → cells[i]? = none

namespace Sparse

variable {α : Type}

/-- The cells with consecutive ones changed. -/
def writeCells (cells : Std.TreeMap Nat α) : Nat → List α → Std.TreeMap Nat α
  | _, [] => cells
  | i, x :: xs => writeCells (cells.insert i x) (i + 1) xs

theorem getElem?_writeCells (cells : Std.TreeMap Nat α) (offset : Nat) (xs : List α) (i : Nat) :
    (writeCells cells offset xs)[i]? =
      if offset ≤ i ∧ i < offset + xs.length then xs[i - offset]? else cells[i]? := by
  induction xs generalizing cells offset with
  | nil =>
    rw [writeCells, if_neg]
    simp only [List.length_nil]
    omega
  | cons x xs ih =>
    rw [writeCells, ih, Std.TreeMap.getElem?_insert, List.length_cons]
    by_cases below : i < offset
    · have off : ¬ compare offset i = .eq := fun h => by
        have := Nat.compare_eq_eq.1 h
        omega
      rw [if_neg (by omega), if_neg off, if_neg (by omega)]
    · by_cases first : i = offset
      · subst first
        rw [if_neg (by omega), if_pos (Nat.compare_eq_eq.2 rfl), if_pos (by omega)]
        simp
      · have off : ¬ compare offset i = .eq := fun h => first (Nat.compare_eq_eq.1 h).symm
        by_cases inside : i < offset + 1 + xs.length
        · rw [if_pos (by omega), if_pos (by omega), show i - offset = (i - (offset + 1)) + 1 by omega,
            List.getElem?_cons_succ]
        · rw [if_neg (by omega), if_neg off, if_neg (by omega)]

/-- Default values only. -/
def ofSize (n : Nat) : Sparse α := ⟨n, ∅, fun _ _ => Std.TreeMap.getElem?_emptyc⟩

/-- The sequence with default values added at its end. -/
def grow (s : Sparse α) (delta : Nat) : Sparse α :=
  ⟨s.size + delta, s.cells, fun i h => s.bounded i (by omega)⟩

/-- The sequence with consecutive elements changed; unchanged if they are not all within it. -/
def write (s : Sparse α) (offset : Nat) (xs : List α) : Sparse α :=
  if h : offset + xs.length ≤ s.size then
    ⟨s.size, writeCells s.cells offset xs, fun i hi => by
      rw [getElem?_writeCells, if_neg (by omega)]
      exact s.bounded i hi⟩
  else s

@[simp] theorem size_ofSize (n : Nat) : (ofSize n : Sparse α).size = n := rfl

@[simp] theorem size_grow (s : Sparse α) (delta : Nat) : (s.grow delta).size = s.size + delta := rfl

theorem grow_zero (s : Sparse α) : s.grow 0 = s := rfl

@[simp] theorem size_write (s : Sparse α) (offset : Nat) (xs : List α) :
    (s.write offset xs).size = s.size := by
  unfold write
  split <;> rfl

variable [Inhabited α]

def get (s : Sparse α) (i : Nat) : α := s.cells[i]?.getD default

/-- `len` consecutive elements. -/
def slice (s : Sparse α) (offset len : Nat) : List α :=
  (List.range len).map fun i => s.get (offset + i)

@[simp] theorem get_ofSize (n i : Nat) : (ofSize n : Sparse α).get i = default := by
  simp [get, ofSize]

@[simp] theorem get_grow (s : Sparse α) (delta i : Nat) : (s.grow delta).get i = s.get i := rfl

theorem get_of_size_le (s : Sparse α) (i : Nat) (h : s.size ≤ i) : s.get i = default := by
  simp [get, s.bounded i h]

theorem get_write (s : Sparse α) (offset : Nat) (xs : List α) (h : offset + xs.length ≤ s.size)
    (i : Nat) :
    (s.write offset xs).get i =
      if offset ≤ i ∧ i < offset + xs.length then xs[i - offset]?.getD default else s.get i := by
  simp only [get, write, dif_pos h, getElem?_writeCells]
  split <;> rfl

@[simp] theorem length_slice (s : Sparse α) (offset len : Nat) :
    (s.slice offset len).length = len := by
  simp [slice]

end Sparse

end WasmEmbed
