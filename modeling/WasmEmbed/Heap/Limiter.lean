import WasmEmbed.Type
/-!
How large a memory may become. A memory is asked to have a size in bytes, computed in 64 bits; the
limiter of the store is asked first, and the maximum of the memory counts in any case. Main statement:
whether a number of pages is granted is a matter of three bounds on that number (`grants_iff`,
`grants_minimum_iff`).
-/

namespace WasmEmbed

/-- The greatest number of 64 bits. -/
def maxWord : Nat := 2 ^ (64 : Nat) - 1

/-- The product in 64 bits, or the greatest number if it is greater. -/
def saturatingMul (a b : Nat) : Nat := min (a * b) maxWord

/-- The sum in 64 bits, or the greatest number if it is greater. -/
def saturatingAdd (a b : Nat) : Nat := min (a + b) maxWord

/-- The limiter of a store with a limit on the bytes of each memory: whether a memory with a maximum may
have a size. Without a limit only the maximum counts. -/
def limiterAllows (limit maximum : Option Nat) (desired : Nat) : Bool :=
  match limit with
  | some l => if l < desired then false else maximum.all (desired ≤ ·)
  | none => maximum.all (desired ≤ ·)

namespace MemoryType

/-- The greatest size in bytes: the declared one, as far as addresses of 32 bits reach. -/
def maximumBytes (t : MemoryType) : Nat := min (t.maximum.getD maxPages) maxPages * pageSize

/-- Whether a memory of the type is granted a size in bytes: the limiter has the first say, and no size
is beyond the maximum even if the limiter would allow it. -/
def grants (t : MemoryType) (limit : Option Nat) (desired : Nat) : Bool :=
  limiterAllows limit (some t.maximumBytes) desired && decide (desired ≤ t.maximumBytes)

/-- A number of pages that a memory of a type may have in a store with a limit on bytes. -/
def Admits (t : MemoryType) (limit : Option Nat) (pages : Nat) : Prop :=
  (∀ m ∈ t.maximum, pages ≤ m) ∧ pages ≤ maxPages ∧ ∀ l ∈ limit, pages * pageSize ≤ l

instance (t : MemoryType) (limit : Option Nat) (pages : Nat) : Decidable (t.Admits limit pages) :=
  inferInstanceAs (Decidable (_ ∧ _ ∧ _))

end MemoryType

/-- The size in bytes that a memory of a size is asked to have when it is to grow by `delta` pages: at
most as many whole pages as 64 bits can count the bytes of. -/
def desiredBytes (size delta : Nat) : Nat :=
  min (saturatingAdd (saturatingMul delta pageSize) size) (maxWord + 1 - pageSize)

variable {t : MemoryType} {limit : Option Nat} {pages delta desired : Nat}

theorem le_maximumBytes_iff :
    pages * pageSize ≤ t.maximumBytes ↔ (∀ m ∈ t.maximum, pages ≤ m) ∧ pages ≤ maxPages := by
  unfold MemoryType.maximumBytes pageSize maxPages
  cases t.maximum with
  | none =>
    simp only [Option.getD_none, Option.not_mem_none, false_implies, implies_true, true_and]
    omega
  | some m =>
    simp only [Option.getD_some, Option.mem_def, Option.some.injEq, forall_eq']
    omega

theorem limiterAllows_iff {maximum : Nat} :
    limiterAllows limit (some maximum) desired = true ↔
      (∀ l ∈ limit, desired ≤ l) ∧ desired ≤ maximum := by
  cases limit with
  | none => simp [limiterAllows]
  | some l =>
    simp only [limiterAllows, Option.all_some, Option.mem_def, Option.some.injEq, forall_eq']
    split
    · rename_i hl
      exact iff_of_false Bool.false_ne_true fun h => Nat.not_le.mpr hl h.1
    · rename_i hl
      rw [decide_eq_true_eq]
      exact ⟨fun h => ⟨Nat.le_of_not_lt hl, h⟩, And.right⟩

/-- Where the size that is asked for is that of the pages unless both are out of reach, it is granted
just if the pages are admitted. -/
theorem grants_iff_of_eq (hsame : desired ≤ maxPages * pageSize ∨ pages ≤ maxPages →
    desired = pages * pageSize) : t.grants limit desired = true ↔ t.Admits limit pages := by
  unfold MemoryType.grants MemoryType.Admits
  rw [Bool.and_eq_true, decide_eq_true_eq, limiterAllows_iff]
  constructor
  · rintro ⟨⟨hlimit, _⟩, hmaximum⟩
    have hreach : t.maximumBytes ≤ maxPages * pageSize :=
      Nat.mul_le_mul_right pageSize (Nat.min_le_right _ _)
    obtain rfl := hsame (Or.inl (Nat.le_trans hmaximum hreach))
    obtain ⟨hdeclared, hpages⟩ := le_maximumBytes_iff.mp hmaximum
    exact ⟨hdeclared, hpages, hlimit⟩
  · rintro ⟨hdeclared, hpages, hlimit⟩
    obtain rfl := hsame (Or.inr hpages)
    have hmaximum := le_maximumBytes_iff.mpr ⟨hdeclared, hpages⟩
    exact ⟨⟨hlimit, hmaximum⟩, hmaximum⟩

/-- Saturation never leads back below what addresses of 32 bits reach. -/
theorem desiredBytes_eq
    (h : desiredBytes (pages * pageSize) delta ≤ maxPages * pageSize ∨ pages + delta ≤ maxPages) :
    desiredBytes (pages * pageSize) delta = (pages + delta) * pageSize := by
  unfold desiredBytes saturatingAdd saturatingMul maxWord pageSize maxPages at *
  omega

/-- However many pages are asked for, they are granted exactly if the sum, without any overflow, is
within the three bounds. -/
theorem grants_iff : t.grants limit (desiredBytes (pages * pageSize) delta) = true ↔
    t.Admits limit (pages + delta) := grants_iff_of_eq desiredBytes_eq

/-- The number of pages is capped and does not wrap around, where the sum would be no page at all. -/
example : desiredBytes 65536 (2 ^ 64 - 1) = 2 ^ 64 - 65536 ∧
    (⟨1, none, false⟩ : MemoryType).grants none (desiredBytes 65536 (2 ^ 64 - 1)) = false := by decide

theorem grants_minimum_iff :
    t.grants limit (saturatingMul pages pageSize) = true ↔ t.Admits limit pages := by
  apply grants_iff_of_eq
  unfold saturatingMul maxWord pageSize maxPages
  omega

end WasmEmbed
