import WasmEmbed.Type
import Mathlib.Data.List.Basic

/-! What the texts of types tell. The text of a signature determines the signature, and what a link
error shows of a type determines all of it but whether the addresses of a memory are wide. -/
namespace WasmEmbed

/-- The type without what link errors leave out. -/
def ExternType.narrow : ExternType → ExternType
  | .memory t => .memory { t with memory64 := false }
  | t => t

/-- What a link error shows of a type behind its kind. -/
def ExternType.details : ExternType → String
  | .func t => t.text
  | .global t => (if t.isMutable then "mut " else "") ++ t.content.text
  | .memory t => toString t.minimum ++ (".." ++ maximumText t.maximum)
  | .table t => t.element.text ++ (" " ++ (toString t.minimum ++ (".." ++ maximumText t.maximum)))

/-- The type of a value that has a name. -/
def ValType.ofText? (text : String) : Option ValType :=
  [.i32, .i64, .f32, .f64, .v128, .ref .func, .ref .external, .ref .any].find? (·.text == text)

/-- The names of types with blanks between them. -/
def ValType.words (ts : List ValType) : String := " ".intercalate (ts.map ValType.text)

section Pieces

/-- A text may be cut at the first of its separators in one way only. -/
theorem split_first {xs ys us vs : List Char} {c : Char} (hxs : c ∉ xs) (hys : c ∉ ys)
    (h : xs ++ c :: us = ys ++ c :: vs) : xs = ys ∧ us = vs := by
  induction xs generalizing ys with
  | nil =>
    cases ys with
    | nil => exact ⟨rfl, (List.cons.inj h).2⟩
    | cons y ys =>
      obtain ⟨rfl, _⟩ := List.cons.inj h
      exact absurd List.mem_cons_self hys
  | cons x xs ih =>
    cases ys with
    | nil =>
      obtain ⟨rfl, _⟩ := List.cons.inj h
      exact absurd List.mem_cons_self hxs
    | cons y ys =>
      obtain ⟨rfl, hrest⟩ := List.cons.inj h
      obtain ⟨rfl, husvs⟩ :=
        ih (List.not_mem_of_not_mem_cons hxs) (List.not_mem_of_not_mem_cons hys) hrest
      exact ⟨rfl, husvs⟩

/-- The part before a separator and the part behind it are told by the whole, if the separator begins
with what is not in the part before it. -/
theorem text_split {a b separator u v : String} {c : Char} {cs : List Char}
    (hseparator : separator.toList = c :: cs) (ha : c ∉ a.toList) (hb : c ∉ b.toList)
    (h : a ++ (separator ++ u) = b ++ (separator ++ v)) : a = b ∧ u = v := by
  have h := congrArg String.toList h
  simp only [String.toList_append, hseparator, List.cons_append] at h
  obtain ⟨hab, huv⟩ := split_first ha hb h
  exact ⟨String.toList_inj.mp hab, String.toList_inj.mp (List.append_cancel_left huv)⟩

theorem ofText?_text (t : ValType) : ValType.ofText? t.text = some t := by
  cases t with
  | ref kind => cases kind <;> rfl
  | _ => rfl

theorem valText_injective {t u : ValType} (h : t.text = u.text) : t = u :=
  Option.some.inj ((ofText?_text t).symm.trans ((congrArg ValType.ofText? h).trans (ofText?_text u)))

/-- The name of a type is one word, without brackets. -/
theorem valText_word (t : ValType) :
    t.text.toList ≠ [] ∧ ' ' ∉ t.text.toList ∧ ')' ∉ t.text.toList := by
  cases t with
  | ref kind => cases kind <;> decide
  | _ => decide

theorem kindText_injective {k l : ExternKind} (h : k.text = l.text) : k = l := by
  revert h
  cases k <;> cases l <;> decide

theorem kindText_word (k : ExternKind) : ' ' ∉ k.text.toList := by
  cases k <;> decide

theorem digits_toList (n : Nat) : (toString n).toList = Nat.toDigits 10 n := by
  rw [Nat.toString_eq_ofList_toDigits, String.toList_ofList]

theorem digits_word (n : Nat) : '.' ∉ (toString n).toList := by
  rw [digits_toList]
  intro h
  have hdigit := Nat.isDigit_of_mem_toDigits (by decide) (by decide) h
  contradiction

/-- Numbers are told apart by their digits. -/
theorem digits_injective {m n : Nat} (h : toString m = toString n) : m = n := by
  have h := congrArg String.toList h
  rw [digits_toList, digits_toList] at h
  rw [← @Nat.ofDigitChars_ten_toDigits m, ← @Nat.ofDigitChars_ten_toDigits n, h]

theorem maximumText_ne (n : Nat) :
    ExternType.maximumText none ≠ ExternType.maximumText (some n) := by
  intro h
  have h := congrArg String.toList h
  rw [ExternType.maximumText, ExternType.maximumText, String.append_assoc, String.toList_append] at h
  exact nomatch (List.cons.inj h).1

/-- Maxima are told apart by their texts, also none from any. -/
theorem maximumText_injective {m n : Option Nat}
    (h : ExternType.maximumText m = ExternType.maximumText n) : m = n := by
  cases m with
  | none =>
    cases n with
    | none => rfl
    | some n => exact absurd h (maximumText_ne n)
  | some m =>
    cases n with
    | none => exact absurd h.symm (maximumText_ne m)
    | some n =>
      rw [ExternType.maximumText, ExternType.maximumText, String.append_left_inj,
        String.append_right_inj] at h
      exact congrArg some (digits_injective h)

/-- The least and the greatest size, with dots between them. -/
theorem sizes_injective {least least' : Nat} {greatest greatest' : Option Nat}
    (h : toString least ++ (".." ++ ExternType.maximumText greatest) =
      toString least' ++ (".." ++ ExternType.maximumText greatest')) :
    least = least' ∧ greatest = greatest' := by
  obtain ⟨hleast, hgreatest⟩ := text_split rfl (digits_word least) (digits_word least') h
  exact ⟨digits_injective hleast, maximumText_injective hgreatest⟩

end Pieces

section Signatures
variable {ts us : List ValType}

theorem words_toList (ts : List ValType) :
    (ValType.words ts).toList = [' '].intercalate (ts.map fun t => t.text.toList) := by
  rw [ValType.words, String.toList_intercalate, List.map_map]
  rfl

theorem words_cons_ne_nil (t : ValType) (ts : List ValType) :
    (ValType.words (t :: ts)).toList ≠ [] := by
  have hword := (valText_word t).1
  rw [words_toList]
  cases ts with
  | nil => simpa using hword
  | cons u ts => simp [hword]

/-- The blanks tell where a name ends, for none has a blank in it. -/
theorem splitOn_words (hts : ts ≠ []) :
    (ValType.words ts).toList.splitOn ' ' = ts.map fun t => t.text.toList := by
  rw [words_toList]
  refine List.splitOn_intercalate ' ' ?_ (by simpa using hts)
  intro cs hcs
  obtain ⟨t, _, rfl⟩ := List.mem_map.mp hcs
  exact (valText_word t).2.1

/-- Cutting the empty text at its blanks gives one empty word, so that no words are a case apart. -/
theorem words_injective (h : ValType.words ts = ValType.words us) : ts = us := by
  cases ts with
  | nil =>
    cases us with
    | nil => rfl
    | cons u us => exact absurd (congrArg String.toList h.symm) (words_cons_ne_nil u us)
  | cons t ts =>
    cases us with
    | nil => exact absurd (congrArg String.toList h) (words_cons_ne_nil t ts)
    | cons u us =>
      have hwords := splitOn_words (List.cons_ne_nil t ts)
      rw [h, splitOn_words (List.cons_ne_nil u us)] at hwords
      have hinjective : Function.Injective fun t : ValType => t.text.toList := fun t u hsame =>
        valText_injective (String.toList_inj.mp hsame)
      exact (List.map_injective_iff.mpr hinjective hwords).symm

theorem bracket_not_mem_words (ts : List ValType) : ')' ∉ (ValType.words ts).toList := by
  rw [words_toList]
  induction ts with
  | nil => exact List.not_mem_nil
  | cons t ts ih =>
    have hword := (valText_word t).2.2
    cases ts with
    | nil => simpa using hword
    | cons u us => simpa [hword] using ih

/-- The first closing bracket ends the parameters, and the rest is the results. Without the outer
brackets, the arrow with its brackets is the separator. -/
theorem signature_injective {t u : FuncType} (h : t.text = u.text) : t = u := by
  obtain ⟨params, results⟩ := t
  obtain ⟨params', results'⟩ := u
  change "(" ++ ValType.words params ++ ") -> (" ++ ValType.words results ++ ")" =
    "(" ++ ValType.words params' ++ ") -> (" ++ ValType.words results' ++ ")" at h
  rw [String.append_left_inj, String.append_assoc, String.append_assoc, String.append_assoc,
    String.append_assoc, String.append_right_inj] at h
  obtain ⟨hparams, hresults⟩ := text_split rfl (bracket_not_mem_words params)
    (bracket_not_mem_words params') h
  rw [words_injective hparams, words_injective hresults]

end Signatures

section Descriptions
variable {t u : ExternType}

theorem describe_eq (t : ExternType) : t.describe = t.kind.text ++ (" " ++ t.details) := by
  have hword (word : String) (rest : String) : word ++ (" " ++ rest) = word ++ " " ++ rest :=
    String.append_assoc.symm
  cases t with
  | func t =>
    rw [ExternType.describe, ExternType.details, hword]
    rfl
  | global t =>
    rw [ExternType.describe, ExternType.details, hword, String.append_assoc]
    rfl
  | memory t =>
    rw [ExternType.describe, ExternType.details, hword, String.append_assoc, String.append_assoc]
    rfl
  | table t =>
    rw [ExternType.describe, ExternType.details, hword]
    simp only [String.append_assoc]
    rfl

/-- The mark of a variable that may be assigned to has a blank in it, and names of types have none. -/
theorem mark_ne (t u : ValType) : "mut " ++ t.text ≠ u.text := by
  intro h
  apply (valText_word u).2.1
  rw [← h, String.toList_append]
  exact List.mem_append_left _ (by decide)

theorem global_injective {t u : GlobalType}
    (h : (ExternType.global t).details = (ExternType.global u).details) : t = u := by
  obtain ⟨content, isMutable⟩ := t
  obtain ⟨content', isMutable'⟩ := u
  cases isMutable with
  | true =>
    cases isMutable' with
    | true =>
      obtain rfl : content = content' := valText_injective ((String.append_right_inj _).mp h)
      rfl
    | false => exact absurd (h.trans String.empty_append) (mark_ne content content')
  | false =>
    cases isMutable' with
    | true => exact absurd (h.symm.trans String.empty_append) (mark_ne content' content)
    | false =>
      obtain rfl : content = content' := valText_injective ((String.append_right_inj _).mp h)
      rfl

/-- Descriptions of one kind tell types apart, up to wide addresses. -/
theorem details_injective (hkind : t.kind = u.kind) (h : t.details = u.details) :
    t.narrow = u.narrow := by
  cases t with
  | func t =>
    cases u with
    | func u => rw [signature_injective h]
    | _ => contradiction
  | memory t =>
    cases u with
    | memory u =>
      obtain ⟨hleast, hgreatest⟩ := sizes_injective h
      rw [ExternType.narrow, ExternType.narrow, hleast, hgreatest]
    | _ => contradiction
  | global t =>
    cases u with
    | global u => rw [global_injective h]
    | _ => contradiction
  | table t =>
    cases u with
    | table u =>
      obtain ⟨element, least, greatest⟩ := t
      obtain ⟨element', least', greatest'⟩ := u
      obtain ⟨helement, hsizes⟩ := text_split rfl (valText_word element).2.1
        (valText_word element').2.1 h
      obtain ⟨rfl, rfl⟩ : least = least' ∧ greatest = greatest' := sizes_injective hsizes
      rw [valText_injective helement]
    | _ => contradiction

/-- Descriptions do not show whether addresses are wide. -/
theorem describe_narrow (t : ExternType) : t.narrow.describe = t.describe := by
  cases t <;> rfl

/-- Two types have one description exactly if they differ in nothing that it shows. -/
theorem describe_eq_iff : t.describe = u.describe ↔ t.narrow = u.narrow := by
  constructor
  · intro h
    rw [describe_eq, describe_eq] at h
    obtain ⟨hkind, hdetails⟩ := text_split rfl (kindText_word t.kind) (kindText_word u.kind) h
    exact details_injective (kindText_injective hkind) hdetails
  · intro h
    rw [← describe_narrow t, h, describe_narrow]

/-- Two memories that differ in nothing that their description shows. -/
theorem wide_memory_described_alike :
    (ExternType.memory ⟨1, some 2, false⟩).describe = (ExternType.memory ⟨1, some 2, true⟩).describe ∧
      ExternType.memory ⟨1, some 2, false⟩ ≠ .memory ⟨1, some 2, true⟩ :=
  ⟨rfl, by decide⟩

end Descriptions

end WasmEmbed
