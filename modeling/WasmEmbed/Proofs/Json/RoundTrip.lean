import Mathlib.Data.Nat.Digits.Defs
import Mathlib.Tactic.Ring
import Mathlib.Tactic.SplitIfs
import WasmEmbed.Json.Printer

/-! Documents and their texts. The text of a document whose numbers are integers of 64 bits reads back as
just that document (`parse_text`), whatever strings are in it, so that no two such documents have the same
text. -/
namespace WasmEmbed

/-- Nothing that a number could go on with. -/
def Json.Stops (rest : List Char) : Prop :=
  ∀ c ∈ rest.head?, c.isDigit = false ∧ c ≠ '.' ∧ c ≠ 'e' ∧ c ≠ 'E'

/-- The number is an integer of 64 bits, with a sign or without. -/
def Json.Number.Whole : Json.Number → Prop
  | integer n => -2 ^ (63 : Nat) ≤ n ∧ n < 2 ^ (64 : Nat)
  | float _ => False

mutual

/-- All numbers in the document are integers of 64 bits. -/
def Json.Whole : Json → Prop
  | number n => n.Whole
  | array items => WholeItems items
  | object members => WholeMembers members
  | _ => True

def Json.WholeItems : List Json → Prop
  | [] => True
  | v :: vs => v.Whole ∧ WholeItems vs

def Json.WholeMembers : List (String × Json) → Prop
  | [] => True
  | (_, v) :: ms => v.Whole ∧ WholeMembers ms

end

variable {rest : List Char} {n : Nat}

section Numbers

/-- Digits are taken up to what stops them. -/
theorem span_digits {digits : List Char} (hdigits : ∀ c ∈ digits, c.isDigit = true)
    (hrest : Json.Stops rest) :
    (digits ++ rest).takeWhile Char.isDigit = digits ∧
      (digits ++ rest).dropWhile Char.isDigit = rest := by
  induction digits with
  | nil =>
    cases rest with
    | nil => exact ⟨rfl, rfl⟩
    | cons c rest =>
      have hc := (hrest c rfl).1
      simp [hc]
  | cons d digits ih =>
    have hd := hdigits d List.mem_cons_self
    have htail := ih (fun c hc => hdigits c (List.mem_cons_of_mem _ hc))
    simp [hd, htail]

theorem le_ofDigitChars (digits : List Char) (n : Nat) : n ≤ Nat.ofDigitChars 10 digits n := by
  induction digits generalizing n with
  | nil => exact Nat.le_refl n
  | cons d digits ih =>
    have hnext := ih (10 * n + (d.toNat - '0'.toNat))
    rw [Nat.ofDigitChars_cons]
    omega

/-- Digits are all taken if what they come to fits, since what the first ones come to is less. -/
theorem takeDigits_of_le {digits : List Char} {significand taken : Nat}
    (h : Nat.ofDigitChars 10 digits significand ≤ Json.maxSignificand) :
    Json.takeDigits significand taken digits =
      (Nat.ofDigitChars 10 digits significand, taken + digits.length) := by
  induction digits generalizing significand taken with
  | nil => rfl
  | cons d digits ih =>
    rw [Nat.ofDigitChars_cons] at h ⊢
    have hnext := (le_ofDigitChars digits _).trans h
    rw [Json.takeDigits, if_pos hnext, ih h, List.length_cons, Nat.add_right_comm, Nat.add_assoc]

/-- Only zero begins with a zero. -/
theorem zero_of_head (h : (Nat.toDigits 10 n).head? = some '0') : n = 0 := by
  induction n using Nat.strongRecOn with
  | _ n ih =>
    by_cases hn : n < 10
    · rw [Nat.toDigits_of_lt_base hn] at h
      simpa using h
    · rw [Nat.toDigits_of_base_le (by decide) (by omega), List.head?_append] at h
      have hfirst : (Nat.toDigits 10 (n / 10)).head? = some '0' := by
        cases hdigits : Nat.toDigits 10 (n / 10) with
        | nil => exact absurd hdigits Nat.toDigits_ne_nil
        | cons d ds => simpa [hdigits] using h
      have hzero := ih (n / 10) (by omega) hfirst
      omega

/-- What follows the digits is neither a point nor the letter of an exponent, by `hrest`. -/
theorem numberTail_toDigits {neg : Bool} (hn : n ≤ Json.maxSignificand) (hrest : Json.Stops rest) :
    Json.numberTail neg (Nat.toDigits 10 n ++ rest) = some (Json.plainNumber neg n, rest) := by
  have hdigits : ∀ c ∈ Nat.toDigits 10 n, c.isDigit = true :=
    fun c hc => Nat.isDigit_of_mem_toDigits (by decide) (by decide) hc
  obtain ⟨htake, hdrop⟩ := span_digits hdigits hrest
  have hvalue : Nat.ofDigitChars 10 (Nat.toDigits 10 n) 0 = n := Nat.ofDigitChars_ten_toDigits
  have hfits : Json.takeDigits 0 0 (Nat.toDigits 10 n) =
      (Nat.ofDigitChars 10 (Nat.toDigits 10 n) 0, 0 + (Nat.toDigits 10 n).length) :=
    takeDigits_of_le (hvalue.trans_le hn)
  have hproper : ((Nat.toDigits 10 n).isEmpty ||
      (Nat.toDigits 10 n).head? == some '0' && (Nat.toDigits 10 n).length != 1) = false := by
    by_cases hhead : (Nat.toDigits 10 n).head? = some '0'
    · rw [zero_of_head hhead]
      rfl
    · simp [hhead]
  unfold Json.numberTail
  simp only [htake, hdrop, hproper, hfits, hvalue]
  cases rest with
  | nil => simp
  | cons c rest =>
    obtain ⟨_, hpoint, hlower, hupper⟩ := hrest c rfl
    simp only [Nat.zero_add, Nat.sub_self, Bool.false_eq_true, if_false]
    split <;> simp_all

theorem opening_digit {d : Char} (h : d.isDigit = true) (cs : List Char) :
    Json.opening (d :: cs) =
      (Json.numberTail false (d :: cs)).map fun (n, rest) => .scalar (.number n) rest := by
  rw [Json.opening.eq_def]
  split <;> simp_all

theorem render_ofNat (n : Nat) :
    (Json.Number.integer (Int.ofNat n)).render = Nat.toDigits 10 n := by
  change (Nat.repr n).toList = _
  rw [Nat.repr_eq_ofList_toDigits, String.toList_ofList]

theorem render_negSucc (n : Nat) :
    (Json.Number.integer (Int.negSucc n)).render = '-' :: Nat.toDigits 10 (n + 1) := by
  change ("-" ++ Nat.repr (n + 1)).toList = _
  rw [Nat.repr_eq_ofList_toDigits, String.toList_append, String.toList_ofList]
  simp

theorem toDigits_cons (n : Nat) : ∃ d ds, Nat.toDigits 10 n = d :: ds ∧ d.isDigit = true := by
  cases hdigits : Nat.toDigits 10 n with
  | nil => exact absurd hdigits Nat.toDigits_ne_nil
  | cons d ds =>
    have hmem : d ∈ Nat.toDigits 10 n := hdigits ▸ List.mem_cons_self
    exact ⟨d, ds, rfl, Nat.isDigit_of_mem_toDigits (by decide) (by decide) hmem⟩

/-- A whole number that is printed is read back, if nothing follows that could belong to it. -/
theorem opening_integer {n : Int} (hn : (Json.Number.integer n).Whole) (hrest : Json.Stops rest) :
    Json.opening ((Json.Number.integer n).render ++ rest) =
      some (.scalar (.number (.integer n)) rest) := by
  obtain ⟨hlow, hhigh⟩ := hn
  have hmax : Json.maxSignificand = 2 ^ (64 : Nat) - 1 := rfl
  cases n with
  | ofNat n =>
    have hword : (n : Int) < 2 ^ (64 : Nat) := hhigh
    have hfits : n ≤ Json.maxSignificand := by omega
    have htail : Json.numberTail false (Nat.toDigits 10 n ++ rest) = some (.integer n, rest) :=
      numberTail_toDigits hfits hrest
    obtain ⟨d, ds, hdigits, hd⟩ := toDigits_cons n
    rw [hdigits, List.cons_append] at htail
    rw [render_ofNat, hdigits, List.cons_append, opening_digit hd, htail]
    rfl
  | negSucc n =>
    have hfits : n + 1 ≤ Json.maxSignificand := by omega
    have hplain : Json.plainNumber true (n + 1) = .integer (Int.negSucc n) := by
      have hinteger : ¬ (n + 1 = 0 ∨ 2 ^ (63 : Nat) < n + 1) := by omega
      unfold Json.plainNumber
      rw [if_neg hinteger]
      rfl
    rw [render_negSucc, List.cons_append, Json.opening, numberTail_toDigits hfits hrest, hplain]
    rfl

end Numbers

section Strings

/-- Hexadecimal digits are read back. -/
theorem digitValue?_digit (n : Nat) : Hex.digitValue? (Hex.digit n) = some (n % 16) := by
  have hall : ∀ d < 16, Hex.digitValue? (Hex.digit d) = some d := by decide
  have hlow : Hex.digit n = Hex.digit (n % 16) := by
    unfold Hex.digit
    rw [Nat.mod_mod]
  rw [hlow]
  exact hall _ (Nat.mod_lt n (by decide))

/-- Hexadecimal digits denote what of the number is in them. -/
theorem read?_digits (width n acc : Nat) (rest : List Char) :
    Hex.read? (Hex.digits width n ++ rest) acc =
      Hex.read? rest (16 ^ width * acc + n % 16 ^ width) := by
  induction width generalizing n rest with
  | zero => simp [Hex.digits, Nat.mod_one]
  | succ width ih =>
    rw [Hex.digits, List.append_assoc, ih, List.singleton_append, Hex.read?, digitValue?_digit,
      Option.bind_some, Nat.pow_succ', Nat.mod_mul]
    congr 1
    ring

/-- Whatever a character is printed as is read as the character. -/
theorem stringTail_escape (c : Char) (acc rest : List Char) :
    Json.stringTail acc (Json.escape c ++ rest) = Json.stringTail (c :: acc) rest := by
  unfold Json.escape
  split_ifs with h1 h2 h3 h4 h5 h6 h7 hcontrol
  · rw [h1]; rfl
  · rw [h2]; rfl
  · rw [h3]; rfl
  · rw [h4]; rfl
  · rw [h5]; rfl
  · rw [h6]; rfl
  · rw [h7]; rfl
  · -- a control character is no half of a pair
    have hlt : c.toNat < 32 := hcontrol
    have hread := read?_digits 4 c.toNat 0 []
    rw [List.append_nil, Nat.mul_zero, Nat.zero_add, Nat.mod_eq_of_lt (by omega)] at hread
    change Json.hex4? _ _ _ _ = some c.toNat at hread
    have hhigh : Json.isHighSurrogate c.toNat = false := by
      simp [Json.isHighSurrogate]
      omega
    have hlow : Json.isLowSurrogate c.toNat = false := by
      simp [Json.isLowSurrogate]
      omega
    change Json.stringTail acc ('\\' :: 'u' :: _ :: _ :: _ :: _ :: rest) = _
    rw [Json.stringTail, hread]
    simp [hhigh, hlow]
  · rw [List.singleton_append, Json.stringTail.eq_def]
    split <;> simp_all

theorem stringTail_escaped (cs acc rest : List Char) :
    Json.stringTail acc (cs.flatMap Json.escape ++ '"' :: rest) =
      some (String.ofList (acc.reverse ++ cs), rest) := by
  induction cs generalizing acc with
  | nil => simp [Json.stringTail]
  | cons c cs ih =>
    rw [List.flatMap_cons, List.append_assoc, stringTail_escape, ih, List.reverse_cons,
      List.append_assoc, List.singleton_append]

/-- A string that is printed is read back, to its closing quote. -/
theorem stringTail_render (s : String) (rest : List Char) :
    Json.stringTail [] (s.toList.flatMap Json.escape ++ '"' :: rest) = some (s, rest) := by
  rw [stringTail_escaped, List.reverse_nil, List.nil_append, String.ofList_toList]

end Strings

section Values

variable {bound : Nat} {v : Json} {vs : List Json} {m : String × Json} {ms : List (String × Json)}

/-- A value, or a list of them, begins here: neither with a blank nor as an array ends. -/
def Json.Begins (cs : List Char) : Prop :=
  ∃ c rest, cs = c :: rest ∧ isBlank c = false ∧ c ≠ ']'

/-- What is read back from the texts of values, and of the items or members in a pair of brackets. The
bound on steps is twice the length of the text, since there is a step for each list and one for each value
in it. -/
structure Json.ReadsBack (bound : Nat) : Prop where
  value : ∀ v rest, v.Whole → 2 * v.render.length ≤ bound → Stops rest →
    parseValue bound (v.render ++ rest) = some (v, rest)
  items : ∀ v vs rest, WholeItems (v :: vs) → 2 * (renderItems (v :: vs)).length + 1 ≤ bound →
    parseItems bound (renderItems (v :: vs) ++ ']' :: rest) = some (v :: vs, rest)
  members : ∀ m ms rest, WholeMembers (m :: ms) →
    2 * (renderMembers (m :: ms)).length + 1 ≤ bound →
    parseMembers bound (renderMembers (m :: ms) ++ '}' :: rest) = some (m :: ms, rest)

theorem stops_mark {c : Char} (h : c = ',' ∨ c = ']' ∨ c = '}') : Json.Stops (c :: rest) := by
  intro d hd
  obtain rfl : c = d := Option.some.inj hd
  rcases h with rfl | rfl | rfl <;> decide

theorem begins_digit {d : Char} (h : d.isDigit = true) (ds : List Char) : Json.Begins (d :: ds) := by
  refine ⟨d, ds, rfl, ?_, ?_⟩
  · rw [Json.isBlank]
    by_contra hblank
    simp only [Bool.not_eq_false, Bool.or_eq_true, decide_eq_true_eq] at hblank
    rcases hblank with ((rfl | rfl) | rfl) | rfl <;> contradiction
  · rintro rfl
    contradiction

theorem begins_append {cs : List Char} (h : Json.Begins cs) (more : List Char) :
    Json.Begins (cs ++ more) := by
  obtain ⟨c, rest, rfl, hc⟩ := h
  exact ⟨c, rest ++ more, rfl, hc⟩

/-- No value begins with a blank or as an array ends. -/
theorem begins_render (h : v.Whole) : Json.Begins v.render := by
  cases v with
  | null => exact ⟨_, _, rfl, by decide⟩
  | bool b => cases b <;> exact ⟨_, _, rfl, by decide⟩
  | number n =>
    cases n with
    | integer n =>
      rw [Json.render]
      cases n with
      | ofNat n =>
        obtain ⟨d, ds, hdigits, hd⟩ := toDigits_cons n
        rw [render_ofNat, hdigits]
        exact begins_digit hd ds
      | negSucc n =>
        rw [render_negSucc]
        exact ⟨_, _, rfl, by decide⟩
    | float bits => contradiction
  | string s => exact ⟨_, _, rfl, by decide⟩
  | array items => exact ⟨_, _, rfl, by decide⟩
  | object members => exact ⟨_, _, rfl, by decide⟩

theorem begins_renderItems (h : Json.WholeItems (v :: vs)) :
    Json.Begins (Json.renderItems (v :: vs)) := by
  have hv := begins_render h.1
  cases vs with
  | nil => exact hv
  | cons w ws => exact begins_append hv _

theorem begins_renderMembers (m : String × Json) (ms : List (String × Json)) :
    ∃ cs, Json.renderMembers (m :: ms) = '"' :: cs := by
  cases ms <;> exact ⟨_, rfl⟩

theorem skipBlanks_of_begins {cs : List Char} (h : Json.Begins cs) : Json.skipBlanks cs = cs := by
  obtain ⟨c, rest, rfl, hc, _⟩ := h
  rw [Json.skipBlanks, List.dropWhile_cons, hc]
  rfl

theorem parseValue_array {cs : List Char} (h : Json.Begins cs) :
    Json.parseValue (bound + 1) ('[' :: cs) =
      (Json.parseItems bound cs).map fun (items, rest) => (.array items, rest) := by
  have hskip := skipBlanks_of_begins h
  obtain ⟨c, rest, rfl, _, hc⟩ := h
  simp only [Json.parseValue, Json.opening, hskip]
  split
  · simp_all
  · rfl

theorem value_readsBack (ih : Json.ReadsBack bound) (hv : v.Whole)
    (hbound : 2 * v.render.length ≤ bound + 1) (hrest : Json.Stops rest) :
    Json.parseValue (bound + 1) (v.render ++ rest) = some (v, rest) := by
  cases v with
  | null => rfl
  | bool b => cases b <;> rfl
  | number n =>
    cases n with
    | integer n => rw [Json.render, Json.parseValue, opening_integer hv hrest]
    | float bits => contradiction
  | string s =>
    have htail := stringTail_render s rest
    simp [Json.render, Json.renderString, Json.parseValue, Json.opening, htail]
  | array items =>
    cases items with
    | nil => rfl
    | cons v vs =>
      have hlength : 2 * (Json.renderItems (v :: vs)).length + 1 ≤ bound := by
        simp only [Json.render, List.length_cons, List.length_append] at hbound
        omega
      have hitems := ih.items v vs rest hv hlength
      have hbegins := begins_append (begins_renderItems hv) (']' :: rest)
      have htext : (Json.array (v :: vs)).render ++ rest =
          '[' :: (Json.renderItems (v :: vs) ++ ']' :: rest) := by
        simp [Json.render]
      rw [htext, parseValue_array hbegins, hitems]
      rfl
  | object members =>
    cases members with
    | nil => rfl
    | cons m ms =>
      have hlength : 2 * (Json.renderMembers (m :: ms)).length + 1 ≤ bound := by
        simp only [Json.render, List.length_cons, List.length_append] at hbound
        omega
      have hmembers := ih.members m ms rest hv hlength
      have htext : (Json.object (m :: ms)).render ++ rest =
          '{' :: (Json.renderMembers (m :: ms) ++ '}' :: rest) := by
        simp [Json.render]
      obtain ⟨cs, hcs⟩ := begins_renderMembers m ms
      rw [hcs] at hmembers htext
      rw [htext, Json.parseValue]
      change (Json.parseMembers bound ('"' :: cs ++ '}' :: rest)).map _ = _
      rw [hmembers]
      rfl

theorem items_readBack (ih : Json.ReadsBack bound) (h : Json.WholeItems (v :: vs))
    (hbound : 2 * (Json.renderItems (v :: vs)).length + 1 ≤ bound + 1) :
    Json.parseItems (bound + 1) (Json.renderItems (v :: vs) ++ ']' :: rest) =
      some (v :: vs, rest) := by
  cases vs with
  | nil =>
    have hv := ih.value v (']' :: rest) h.1 (by simp [Json.renderItems] at hbound; omega)
      (stops_mark (by decide))
    rw [Json.renderItems, Json.parseItems, hv]
    rfl
  | cons w ws =>
    simp only [Json.renderItems, List.length_append, List.length_cons] at hbound
    have hv := ih.value v (',' :: (Json.renderItems (w :: ws) ++ ']' :: rest)) h.1 (by omega)
      (stops_mark (by decide))
    have hws := ih.items w ws rest h.2 (by omega)
    have hskip := skipBlanks_of_begins (begins_append (begins_renderItems h.2) (']' :: rest))
    have htext : Json.renderItems (v :: w :: ws) ++ ']' :: rest =
        v.render ++ ',' :: (Json.renderItems (w :: ws) ++ ']' :: rest) := by
      simp [Json.renderItems]
    rw [htext, Json.parseItems, hv]
    change (Json.parseItems bound (Json.skipBlanks _)).map _ = _
    rw [hskip, hws]
    rfl

theorem memberName?_render (name : String) {cs : List Char} (h : Json.Begins cs) :
    Json.memberName? (Json.renderString name ++ ':' :: cs) = some (name, cs) := by
  have htail := stringTail_render name (':' :: cs)
  have htext : Json.renderString name ++ ':' :: cs =
      '"' :: (name.toList.flatMap Json.escape ++ '"' :: ':' :: cs) := by
    simp [Json.renderString]
  rw [htext, Json.memberName?, htail]
  change some (name, Json.skipBlanks cs) = _
  rw [skipBlanks_of_begins h]

theorem members_readBack (ih : Json.ReadsBack bound) (h : Json.WholeMembers (m :: ms))
    (hbound : 2 * (Json.renderMembers (m :: ms)).length + 1 ≤ bound + 1) :
    Json.parseMembers (bound + 1) (Json.renderMembers (m :: ms) ++ '}' :: rest) =
      some (m :: ms, rest) := by
  obtain ⟨name, v⟩ := m
  cases ms with
  | nil =>
    simp only [Json.renderMembers, List.length_append, List.length_cons] at hbound
    have hv := ih.value v ('}' :: rest) h.1 (by omega) (stops_mark (by decide))
    have hname := memberName?_render name (begins_append (begins_render h.1) ('}' :: rest))
    have htext : Json.renderMembers [(name, v)] ++ '}' :: rest =
        Json.renderString name ++ ':' :: (v.render ++ '}' :: rest) := by
      simp [Json.renderMembers]
    rw [htext, Json.parseMembers, hname]
    change (Json.parseValue bound _).bind _ = _
    rw [hv]
    rfl
  | cons n ns =>
    simp only [Json.renderMembers, List.length_append, List.length_cons] at hbound
    have hv := ih.value v (',' :: (Json.renderMembers (n :: ns) ++ '}' :: rest)) h.1 (by omega)
      (stops_mark (by decide))
    have hns := ih.members n ns rest h.2 (by omega)
    have hname := memberName?_render name (begins_append (begins_render h.1)
      (',' :: (Json.renderMembers (n :: ns) ++ '}' :: rest)))
    have htext : Json.renderMembers ((name, v) :: n :: ns) ++ '}' :: rest =
        Json.renderString name ++
          ':' :: (v.render ++ ',' :: (Json.renderMembers (n :: ns) ++ '}' :: rest)) := by
      simp [Json.renderMembers]
    obtain ⟨cs, hcs⟩ := begins_renderMembers n ns
    rw [hcs] at hv hns hname htext
    rw [htext, Json.parseMembers, hname]
    change (Json.parseValue bound _).bind _ = _
    rw [hv]
    change (Json.parseMembers bound ('"' :: cs ++ '}' :: rest)).map _ = _
    rw [hns]
    rfl

theorem readsBack (bound : Nat) : Json.ReadsBack bound := by
  induction bound with
  | zero =>
    refine ⟨?_, fun _ _ _ _ h => absurd h (Nat.not_succ_le_zero _),
      fun _ _ _ _ h => absurd h (Nat.not_succ_le_zero _)⟩
    intro v rest hv hbound
    obtain ⟨c, cs, hcs, _⟩ := begins_render hv
    rw [hcs] at hbound
    contradiction
  | succ bound ih =>
    exact ⟨fun v rest hv hbound hrest => value_readsBack ih hv hbound hrest,
      fun v vs rest h hbound => items_readBack ih h hbound,
      fun m ms rest h hbound => members_readBack ih h hbound⟩

theorem parse_text (h : v.Whole) : Json.parse? v.text = some v := by
  have hlength : 2 * v.render.length ≤ 2 * v.render.length + 2 := Nat.le_add_right _ 2
  have hvalue := (readsBack _).value v [] h hlength (fun c hc => nomatch hc)
  rw [List.append_nil] at hvalue
  unfold Json.parse? Json.text
  rw [String.toList_ofList]
  simp only [skipBlanks_of_begins (begins_render h), hvalue]
  rfl

end Values

end WasmEmbed
