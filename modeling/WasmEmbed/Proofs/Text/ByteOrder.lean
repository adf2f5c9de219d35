import Mathlib.Data.String.Basic
import WasmEmbed.Power

/-! The order of texts is that of their bytes. Characters are written in UTF-8 as digits of base 64
behind a first byte that tells how many there are, so that a greater character is written as greater
bytes, and texts are in order just as their bytes are (`lt_iff_bytes_lt`). -/
namespace WasmEmbed

/-- The bytes of a text in UTF-8. -/
def utf8Bytes (s : String) : List UInt8 := s.toUTF8.data.toList

/-- How many bytes follow the first one of a character. -/
def tailLength (n : Nat) : Nat :=
  if n < 128 then 0 else if n < 2048 then 1 else if n < 65536 then 2 else 3

/-- The first byte of a character: what is left of its number before the digits that follow, and above
that how many these are. -/
def leadByte (n : Nat) : Nat :=
  if n < 128 then n
  else if n < 2048 then n / 64 + 192
  else if n < 65536 then n / 4096 + 224
  else n / 262144 + 240

/-- The last digits of base 64 of a number, as bytes that cannot be a first one. -/
def tailBytes : Nat → Nat → List UInt8
  | 0, _ => []
  | k + 1, n => UInt8.ofNat (n / 64 ^ k % 64 + 128) :: tailBytes k n

variable {a b n m k : Nat} {xs ys : List UInt8} {c d : Char} {s t : String}

section Bytes

theorem ofNat_lt (hlt : a < b) (hb : b < 256) : UInt8.ofNat a < UInt8.ofNat b := by
  rw [UInt8.lt_iff_toNat_lt, UInt8.toNat_ofNat', UInt8.toNat_ofNat']
  omega

/-- Two numbers with remainders are in the order of the quotients, or else of the remainders. -/
theorem lt_of_divided {q q' r r' size : Nat} (hr : r' < size)
    (h : r + size * q < r' + size * q') : q < q' ∨ q = q' ∧ r < r' := by
  rcases Nat.lt_trichotomy q q' with hq | hq | hq
  · exact Or.inl hq
  · rw [hq] at h
    exact Or.inr ⟨hq, by omega⟩
  · have hmore : size * (q' + 1) ≤ size * q := Nat.mul_le_mul_left size hq
    rw [Nat.mul_add] at hmore
    omega

/-- Digits are in the order of the numbers that they are the last digits of. The first digit
decides, unless both have the same. -/
theorem tailBytes_lt (h : n % 64 ^ k < m % 64 ^ k) : tailBytes k n ++ xs < tailBytes k m ++ ys := by
  induction k with
  | zero =>
    rw [Nat.pow_zero, Nat.mod_one, Nat.mod_one] at h
    exact absurd h (Nat.lt_irrefl 0)
  | succ k ih =>
    have hpositive : 0 < 64 ^ k := Nat.pow_pos (by decide)
    rw [Nat.mod_pow_succ, Nat.mod_pow_succ] at h
    rcases lt_of_divided (Nat.mod_lt m hpositive) h with hfirst | ⟨hsame, hrest⟩
    · apply List.cons_lt_cons_iff.mpr
      left
      apply ofNat_lt
      · omega
      · omega
    · rw [tailBytes, tailBytes, hsame]
      apply List.cons_lt_cons_iff.mpr
      exact Or.inr ⟨rfl, ih hrest⟩

end Bytes

section Characters

theorem toNat_lt (c : Char) : c.toNat < 1114112 := by
  have hvalid : c.toNat < 0xd800 ∨ 0xdfff < c.toNat ∧ c.toNat < 0x110000 := c.valid
  omega

/-- A character is written as a leading byte and the digits behind it. -/
theorem encode_eq (c : Char) : String.utf8EncodeChar c =
    UInt8.ofNat (leadByte c.toNat) :: tailBytes (tailLength c.toNat) c.toNat := by
  have hn := toNat_lt c
  have hval : c.val.toNat = c.toNat := rfl
  simp only [String.utf8EncodeChar, hval]
  generalize c.toNat = n at hn ⊢
  unfold leadByte tailLength
  by_cases h1 : n < 128
  · have h1' : n ≤ 127 := by omega
    simp only [h1, h1', if_true, tailBytes]
  · have h1' : ¬ n ≤ 127 := by omega
    by_cases h2 : n < 2048
    · have h2' : n ≤ 2047 := by omega
      have hlead : n / 64 % 32 = n / 64 := by omega
      simp only [h1, h1', h2, h2', hlead, if_true, if_false, tailBytes, Nat.pow_zero, Nat.div_one]
    · have h2' : ¬ n ≤ 2047 := by omega
      by_cases h3 : n < 65536
      · have h3' : n ≤ 65535 := by omega
        have hlead : n / 4096 % 16 = n / 4096 := by omega
        simp only [h1, h1', h2, h2', h3, h3', hlead, if_true, if_false, tailBytes, Nat.pow_zero,
          Nat.pow_one, Nat.div_one]
      · have h3' : ¬ n ≤ 65535 := by omega
        have hlead : n / 262144 % 8 = n / 262144 := by omega
        simp only [h1, h1', h2, h2', h3, h3', hlead, if_false, tailBytes, Nat.pow_zero,
          Nat.pow_one, Nat.div_one, Nat.reducePow]

/-- First bytes are in the order of characters. If they are the same, as many bytes follow, and it is by
these that the characters differ. -/
theorem leadByte_lt_or (h : n < m) (hm : m < 1114112) : leadByte n < leadByte m ∨
    leadByte n = leadByte m ∧ tailLength n = tailLength m ∧
      n % 64 ^ tailLength n < m % 64 ^ tailLength n := by
  unfold leadByte tailLength
  split_ifs <;> simp only [Nat.pow_zero, Nat.pow_one, Nat.reducePow, true_and] <;> omega

theorem leadByte_lt (hn : n < 1114112) : leadByte n < 256 := by
  unfold leadByte
  split_ifs <;> omega

/-- Whatever follows, a greater character is written as greater bytes. -/
theorem encode_lt (h : c < d) :
    String.utf8EncodeChar c ++ xs < String.utf8EncodeChar d ++ ys := by
  have hlt : c.toNat < d.toNat := h
  rw [encode_eq, encode_eq, List.cons_append, List.cons_append]
  rcases leadByte_lt_or hlt (toNat_lt d) with hlead | ⟨hsame, hlength, hrest⟩
  · apply List.cons_lt_cons_iff.mpr
    left
    exact ofNat_lt hlead (leadByte_lt (toNat_lt d))
  · rw [hsame, ← hlength]
    apply List.cons_lt_cons_iff.mpr
    exact Or.inr ⟨rfl, tailBytes_lt hrest⟩

end Characters

section Texts

theorem utf8Bytes_eq (s : String) : utf8Bytes s = s.toList.flatMap String.utf8EncodeChar := by
  have hbytes : s.toByteArray = s.toList.utf8Encode := by
    rw [← String.toByteArray_ofList, String.ofList_toList]
  change s.toByteArray.data.toList = _
  rw [hbytes, List.utf8Encode, List.data_toByteArray]

/-- Texts are in the order of their bytes, as their first differing characters are. -/
theorem flatMap_lt {cs ds : List Char} (h : cs < ds) :
    cs.flatMap String.utf8EncodeChar < ds.flatMap String.utf8EncodeChar := by
  induction cs generalizing ds with
  | nil =>
    cases ds with
    | nil => contradiction
    | cons d ds =>
      rw [List.flatMap_nil, List.flatMap_cons, encode_eq]
      exact List.nil_lt_cons _ _
  | cons c cs ih =>
    cases ds with
    | nil => exact absurd h (List.not_lt_nil _)
    | cons d ds =>
      rw [List.flatMap_cons, List.flatMap_cons]
      rcases List.cons_lt_cons_iff.mp h with hfirst | ⟨rfl, hrest⟩
      · exact encode_lt hfirst
      · exact List.append_left_lt (ih hrest)

theorem bytes_lt (h : s < t) : utf8Bytes s < utf8Bytes t := by
  rw [utf8Bytes_eq, utf8Bytes_eq]
  exact flatMap_lt (String.lt_iff_toList_lt.mp h)

/-- Texts are in the order of their bytes. -/
theorem lt_iff_bytes_lt : s < t ↔ utf8Bytes s < utf8Bytes t := by
  constructor
  · exact bytes_lt
  · intro h
    by_contra hnot
    rcases lt_trichotomy s t with hlt | rfl | hgt
    · exact hnot hlt
    · exact absurd h (List.lt_irrefl _)
    · exact absurd (bytes_lt hgt) (List.lt_asymm h)

end Texts

end WasmEmbed
