import WasmEmbed.Proofs.Value.Integers
import WasmEmbed.Store.Call

/-! The forms in which a host is handed values. Each value of a module has one, and coercion to the type
of the value gets the value back from it. So coercion, followed by the step back to the host, is a
projection onto these forms: what it has accepted once it accepts again and leaves as it is. -/
namespace WasmEmbed

/-- The form in which a host is handed the values of a type. -/
inductive HostValue.Canonical : ValType → HostValue → Prop where
  | i32 (n : BitVec 64) (hlow : -2 ^ 31 ≤ n.toInt) (hhigh : n.toInt ≤ 2 ^ 31 - 1) :
    Canonical .i32 (.int n)
  | i64 (n : BitVec 64) : Canonical .i64 (.int n)
  | f32 (bits : BitVec 32) : Canonical .f32 (.float32 bits)
  | f64 (bits : BitVec 64) : Canonical .f64 (.float bits)
  | v128 (bits : BitVec 128) : Canonical .v128 (.v128 bits)
  | ref (kind : RefKind) : Canonical (.ref kind) .null

section Values

/-- A value is what its image stands for where its type is expected. No floating point number is ever
converted, so that nothing happens to a NaN. -/
theorem toVal?_ofVal (v : Val) : (HostValue.ofVal v).toVal? v.type = some v := by
  cases v with
  | i32 n =>
    have hsame : (n.signExtend 64).toInt = n.toInt := BitVec.toInt_signExtend_of_le (by decide)
    exact congrArg (Option.map Val.i32) ((narrow?_eq_some_iff _ n).mpr hsame)
  | i64 n => rfl
  | f32 bits => rfl
  | f64 bits => rfl
  | v128 bits => rfl
  | nullRef kind => rfl

theorem coerce_ofVal (v : Val) (position : Position) (i : Nat) :
    coerce (.ofVal v) v.type position i = .ok v := by
  rw [coerce, toVal?_ofVal]

theorem type_of_made {α : Type} {found : Option α} {make : α → Val} {w : Val} {t : ValType}
    (hmake : ∀ x, (make x).type = t) (h : found.map make = some w) : w.type = t := by
  obtain ⟨x, _, rfl⟩ := Option.map_eq_some_iff.mp h
  exact hmake x

/-- In every case a value of the type is made, of something that may have to be found first. -/
theorem toVal?_type {v : HostValue} {t : ValType} {w : Val} (h : v.toVal? t = some w) :
    w.type = t := by
  unfold HostValue.toVal? at h
  split at h
  all_goals first
    | exact type_of_made (fun _ => rfl) h
    | exact Option.some.inj h ▸ rfl
    | contradiction

/-- Images of values convert back to them, all at once. -/
theorem convertAll_map {α : Type} {convert : α → ValType → Position → Nat → Except Error Val}
    {image : Val → α} (himage : ∀ v i, convert (image v) v.type .argument i = .ok v) (i : Nat)
    (vs : List Val) : convertAll convert i (vs.map Val.type) (vs.map image) = .ok vs := by
  induction vs generalizing i with
  | nil => rfl
  | cons v rest ih =>
    rw [List.map_cons, List.map_cons, convertAll, himage, ih]
    rfl

end Values

section Forms
variable {h : HostValue} {t : ValType} {v : Val}

/-- The sign is extended, so that 64 bits denote what 32 bits did. -/
theorem ofVal_canonical (v : Val) : (HostValue.ofVal v).Canonical v.type := by
  cases v with
  | i32 n =>
    have hsame : (n.signExtend 64).toInt = n.toInt := BitVec.toInt_signExtend_of_le (by decide)
    have hlow := BitVec.le_toInt n
    have hhigh := BitVec.toInt_lt (x := n)
    refine .i32 _ ?_ ?_
    · rw [hsame]
      omega
    · rw [hsame]
      omega
  | i64 n => exact .i64 n
  | f32 bits => exact .f32 bits
  | f64 bits => exact .f64 bits
  | v128 bits => exact .v128 bits
  | nullRef kind => exact .ref kind

/-- Every such form is that of a value, which it is coerced to. -/
theorem exists_of_canonical (hc : h.Canonical t) : ∃ v : Val, v.type = t ∧ .ofVal v = h := by
  cases hc with
  | i32 n hlow hhigh =>
    refine ⟨.i32 (BitVec.ofInt 32 n.toInt), rfl, congrArg HostValue.int ?_⟩
    apply BitVec.eq_of_toInt_eq
    rw [BitVec.toInt_signExtend_of_le (by decide), toInt_i32 hlow hhigh]
  | i64 n => exact ⟨.i64 n, rfl, rfl⟩
  | f32 bits => exact ⟨.f32 bits, rfl, rfl⟩
  | f64 bits => exact ⟨.f64 bits, rfl, rfl⟩
  | v128 bits => exact ⟨.v128 bits, rfl, rfl⟩
  | ref kind => exact ⟨.nullRef kind, rfl, rfl⟩

/-- Coercion gives values of the type that is asked for. -/
theorem coerce_type {position : Position} {index : Nat} (hc : coerce h t position index = .ok v) :
    v.type = t := toVal?_type ((coerce_ok_iff h t position index v).mp hc)

end Forms

/-- Every value is got back from the form in which the host is handed it, whatever the place, and a list
of results is taken back as a list of arguments. What a host value is coerced to is of the type asked
for, and its form is coerced to the same again; the forms of a type are just those that coercion and
the step back to the host leave as they are. -/
theorem coercion_projects :
    (∀ (v : Val) position index, coerce (.ofVal v) v.type position index = .ok v) ∧
    (∀ (i : Nat) (vs : List Val),
      convertAll coerce i (vs.map Val.type) (vs.map HostValue.ofVal) = .ok vs) ∧
    (∀ (h : HostValue) (t : ValType) position index v, coerce h t position index = .ok v →
      v.type = t ∧ (HostValue.ofVal v).Canonical t ∧
        ∀ position' index', coerce (.ofVal v) t position' index' = .ok v) ∧
    ∀ (h : HostValue) (t : ValType) position index,
      h.Canonical t ↔ ∃ v, coerce h t position index = .ok v ∧ .ofVal v = h := by
  refine ⟨coerce_ofVal, fun i vs => convertAll_map (fun v i => coerce_ofVal v .argument i) i vs, ?_, ?_⟩
  · intro h t position index v hc
    obtain rfl := coerce_type hc
    exact ⟨rfl, ofVal_canonical v, coerce_ofVal v⟩
  · intro h t position index
    constructor
    · intro hcanonical
      obtain ⟨v, rfl, rfl⟩ := exists_of_canonical hcanonical
      exact ⟨v, coerce_ofVal v position index, rfl⟩
    · rintro ⟨v, hc, rfl⟩
      obtain rfl := coerce_type hc
      exact ofVal_canonical v

/-- A double that is rounded to a single is a single from then on. -/
example : coerce (.float 0x3FB999999999999A#64) .f32 .argument 0 = .ok (.f32 0x3DCCCCCD#32) ∧
    coerce (.ofVal (.f32 0x3DCCCCCD#32)) .f32 .result 1 = .ok (.f32 0x3DCCCCCD#32) := by
  decide +kernel

end WasmEmbed
