import Mathlib.Tactic.SplitIfs
import WasmEmbed.Proofs.Text.ByteOrder
import WasmEmbed.Text.Utf8

/-! Which bytes are text. The checks, which go from byte to byte, find nothing wrong with the bytes of a
text, so that bytes are decoded just if they are those of a text, and to that text (`decode_ok_iff`). -/
namespace WasmEmbed

variable {a n k index count : Nat} {bytes rest : List UInt8} {c : Char} {s : String}

section Bytes

theorem toNat_ofNat_byte (h : a < 256) : (UInt8.ofNat a).toNat = a := by
  rw [UInt8.toNat_ofNat']
  exact Nat.mod_eq_of_lt h

theorem width_ofNat (h : a < 256) : Utf8.width (UInt8.ofNat a) =
    if a < 128 then 1 else if 194 ≤ a ∧ a ≤ 223 then 2 else if 224 ≤ a ∧ a ≤ 239 then 3
    else if 240 ≤ a ∧ a ≤ 244 then 4 else 0 := by
  unfold Utf8.width
  simp only [UInt8.lt_iff_toNat_lt, UInt8.le_iff_toNat_le, toNat_ofNat_byte h]
  rfl

/-- The first byte of a character tells how many there are. -/
theorem width_lead (h : n < 1114112) :
    Utf8.width (UInt8.ofNat (leadByte n)) = tailLength n + 1 := by
  rw [width_ofNat (leadByte_lt h)]
  unfold leadByte tailLength
  split_ifs <;> omega

theorem isContinuation_digit (n : Nat) :
    Utf8.isContinuation (UInt8.ofNat (n % 64 + 128)) = true := by
  have hbyte : n % 64 + 128 < 256 := by omega
  simp only [Utf8.isContinuation, UInt8.le_iff_toNat_le, toNat_ofNat_byte hbyte,
    Bool.and_eq_true, decide_eq_true_eq]
  constructor
  · exact Nat.le_add_left 128 _
  · have hlast : (0xBF : UInt8).toNat = 191 := rfl
    omega

/-- The digits of a character are continuation bytes. -/
theorem checkRest_tail (index k count n : Nat) (rest : List UInt8) :
    Utf8.checkRest index k count (tailBytes k n ++ rest) = none := by
  induction k generalizing count with
  | zero => rfl
  | succ k ih => rw [tailBytes, List.cons_append, Utf8.checkRest, isContinuation_digit, if_pos rfl, ih]

theorem check_tail (index k n : Nat) (rest : List UInt8) :
    Utf8.check index k (tailBytes k n ++ rest) = Utf8.check (index + k) 0 rest := by
  induction k generalizing index with
  | zero => rfl
  | succ k ih =>
    rw [tailBytes, List.cons_append, Utf8.check, ih, Nat.add_assoc, Nat.add_comm 1 k]

end Bytes

section Characters

theorem secondRange_ofNat (h : a < 256) : Utf8.secondRange (UInt8.ofNat a) =
    if a = 224 then (0xA0, 0xBF) else if a = 237 then (0x80, 0x9F)
    else if a = 240 then (0x90, 0xBF) else if a = 244 then (0x80, 0x8F) else (0x80, 0xBF) := by
  unfold Utf8.secondRange
  simp only [← UInt8.toNat_inj, toNat_ofNat_byte h]
  rfl

/-- A character is written with no more digits than needed, is no half of a pair, and is not too
great. For each number of digits the first byte bounds what the second may be. -/
theorem second_in_range (hn : n < 0xd800 ∨ 0xdfff < n ∧ n < 1114112)
    (hk : tailLength n = k + 1) :
    (Utf8.secondRange (UInt8.ofNat (leadByte n))).1 ≤ UInt8.ofNat (n / 64 ^ k % 64 + 128) ∧
      UInt8.ofNat (n / 64 ^ k % 64 + 128) ≤ (Utf8.secondRange (UInt8.ofNat (leadByte n))).2 := by
  have hlead : leadByte n < 256 := leadByte_lt (by omega)
  have hbyte : n / 64 ^ k % 64 + 128 < 256 := by omega
  rw [secondRange_ofNat hlead, UInt8.le_iff_toNat_le, UInt8.le_iff_toNat_le, toNat_ofNat_byte hbyte]
  unfold tailLength at hk
  unfold leadByte
  by_cases h1 : n < 128
  · simp [h1] at hk
  · by_cases h2 : n < 2048
    · obtain rfl : k = 0 := by simpa [h1, h2] using hk.symm
      simp only [h1, h2, if_true, if_false, Nat.pow_zero, Nat.div_one]
      split_ifs <;> simp only [UInt8.reduceToNat] <;> omega
    · by_cases h3 : n < 65536
      · obtain rfl : k = 1 := by simpa [h1, h2, h3] using hk.symm
        simp only [h1, h2, h3, if_true, if_false, Nat.pow_one]
        split_ifs <;> simp only [UInt8.reduceToNat] <;> omega
      · obtain rfl : k = 2 := by simpa [h1, h2, h3] using hk.symm
        simp only [h1, h2, h3, if_false, Nat.reducePow]
        split_ifs <;> simp only [UInt8.reduceToNat] <;> omega

theorem checkFirst_encode (hn : n < 0xd800 ∨ 0xdfff < n ∧ n < 1114112) (index : Nat)
    (rest : List UInt8) :
    Utf8.checkFirst index (UInt8.ofNat (leadByte n)) (tailBytes (tailLength n) n ++ rest) =
      none := by
  have hwidth := width_lead (n := n) (by omega)
  unfold Utf8.checkFirst
  rw [hwidth]
  cases hk : tailLength n with
  | zero => rfl
  | succ k =>
    rw [tailBytes, List.cons_append]
    dsimp only
    rw [if_pos (second_in_range hn hk), checkRest_tail]

/-- The checks pass a character, and go on behind it. -/
theorem check_encode (c : Char) (index : Nat) (rest : List UInt8) :
    Utf8.check index 0 (String.utf8EncodeChar c ++ rest) =
      Utf8.check (index + 1 + tailLength c.toNat) 0 rest := by
  have hn : c.toNat < 0xd800 ∨ 0xdfff < c.toNat ∧ c.toNat < 1114112 := c.valid
  rw [encode_eq, List.cons_append, Utf8.check, checkFirst_encode hn, width_lead (toNat_lt c),
    Nat.add_sub_cancel, check_tail]

end Characters

section Texts

/-- In the bytes of a text nothing is wrong. -/
theorem check_flatMap (cs : List Char) (index : Nat) :
    Utf8.check index 0 (cs.flatMap String.utf8EncodeChar) = none := by
  induction cs generalizing index with
  | nil => rfl
  | cons c cs ih => rw [List.flatMap_cons, check_encode, ih]

/-- Decoding undoes encoding. -/
theorem fromUTF8?_eq_some_iff : String.fromUTF8? ⟨bytes.toArray⟩ = some s ↔ utf8Bytes s = bytes := by
  unfold String.fromUTF8?
  split
  · rename_i hvalid
    constructor
    · intro h
      obtain rfl := Option.some.inj h
      rfl
    · rintro rfl
      congr 1
  · rename_i hvalid
    apply iff_of_false (fun h => nomatch h)
    rintro rfl
    exact hvalid s.isValidUTF8

/-- Bytes are decoded just if they are those of a text. -/
theorem decode_ok_iff : Utf8.decode bytes = .ok s ↔ utf8Bytes s = bytes := by
  rw [← fromUTF8?_eq_some_iff]
  unfold Utf8.decode
  cases hs : String.fromUTF8? ⟨bytes.toArray⟩ with
  | none =>
    apply iff_of_false _ (fun h => nomatch h)
    cases Utf8.check 0 0 bytes <;> exact fun h => nomatch h
  | some t =>
    have hbytes : bytes = t.toList.flatMap String.utf8EncodeChar := by
      rw [← utf8Bytes_eq, fromUTF8?_eq_some_iff.mp hs]
    rw [hbytes, check_flatMap, Except.ok.injEq, Option.some.injEq]

end Texts

end WasmEmbed
