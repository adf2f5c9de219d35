import WasmEmbed.Proofs.Cache.Transparency
import WasmEmbed.Proofs.Text.Utf8

/-! Where loading a module fails. A source holds bytes to compile, or it does not; what goes wrong before
there are such bytes is a failure to load, and all else is a failure to compile. -/
namespace WasmEmbed

/-- Bytes that a module to load is in: given as such, as text, or in a file, which holds them as they are
if it begins with the bytes that every binary module begins with, and else as text. -/
inductive Source.Holds : Source → List UInt8 → Prop where
  | bytes (bs : List UInt8) : Holds (.bytes bs) bs
  | text {s : String} {bs : List UInt8} (h : Wat.assemble s = .ok bs) : Holds (.text s) bs
  | binary {path : String} (rest : List UInt8) :
    Holds (.file path (.bytes (Binary.magic ++ rest))) (Binary.magic ++ rest)
  | written {path s : String} {bs : List UInt8} (hmagic : ∀ rest, utf8Bytes s ≠ Binary.magic ++ rest)
    (h : Wat.assemble s = .ok bs) : Holds (.file path (.bytes (utf8Bytes s))) bs

/-- What errors call a source. -/
def Source.origin : Source → String
  | .bytes _ => ""
  | .text _ => "text"
  | .file path _ => path

/-- The error, with another name for what could not be loaded. -/
def Error.renamed (origin : String) : Error → Error
  | .load _ reason => .load origin reason
  | e => e

variable {e : Engine} {bytes rest : List UInt8} {path origin s : String} {err : Error} {src : Source}

section Compiling

theorem magic_iff : bytes.take 4 = Binary.magic ↔ ∃ rest, bytes = Binary.magic ++ rest := by
  constructor
  · intro h
    refine ⟨bytes.drop 4, ?_⟩
    rw [← h, List.take_append_drop]
  · rintro ⟨rest, rfl⟩
    rfl

/-- The check of the header fails with errors of compilation only. -/
theorem checkHeader_error (h : Module.checkHeader bytes = .error err) :
    ∃ reason, err = .compilation reason := by
  unfold Module.checkHeader at h
  split at h
  · exact ⟨_, (Except.error.inj h).symm⟩
  · split at h
    · exact ⟨_, (Except.error.inj h).symm⟩
    · contradiction

theorem compileBytes_error {features : Features} (h : Module.compileBytes features bytes = .error err) :
    ∃ reason, err = .compilation reason := by
  unfold Module.compileBytes at h
  split at h
  · contradiction
  · exact ⟨_, (Except.error.inj h).symm⟩

/-- Compiling fails with errors of compilation only. -/
theorem compile_error (h : (Module.compile e bytes).1 = .error err) :
    ∃ reason, err = .compilation reason := by
  unfold Module.compile at h
  cases hheader : Module.checkHeader bytes with
  | error err' =>
    rw [hheader] at h
    obtain rfl := Except.error.inj h
    exact checkHeader_error hheader
  | ok _ =>
    rw [hheader] at h
    dsimp only at h
    split at h
    · contradiction
    · cases hcompile : Module.compileBytes e.config.features bytes with
      | error err' =>
        rw [hcompile] at h
        obtain rfl := Except.error.inj h
        exact compileBytes_error hcompile
      | ok a =>
        rw [hcompile] at h
        contradiction

/-- Bytes without a proper header are refused whatever the engine keeps, and it keeps nothing new. -/
theorem compile_headless (h : bytes.length < 8 ∨ ∀ rest, bytes ≠ Binary.magic ++ rest) :
    ∃ reason, ∀ e, Module.compile e bytes = (.error (.compilation reason), e) := by
  have hheader : ∃ err, Module.checkHeader bytes = .error err := by
    unfold Module.checkHeader
    split
    · exact ⟨_, rfl⟩
    · rename_i hlength
      have hmagic : bytes.take 4 ≠ Binary.magic := by
        intro hmagic
        obtain ⟨rest, hrest⟩ := magic_iff.mp hmagic
        exact h.elim hlength fun hnone => hnone rest hrest
      exact ⟨_, if_pos hmagic⟩
  obtain ⟨err, hheader⟩ := hheader
  obtain ⟨reason, rfl⟩ := checkHeader_error hheader
  refine ⟨reason, fun e => ?_⟩
  simp only [Module.compile, hheader]

end Compiling

section Files

/-- A file that begins as a binary module is one. -/
theorem ofFile_binary (e : Engine) (path : String) (rest : List UInt8) :
    Module.ofFile e path (.bytes (Binary.magic ++ rest)) =
      Module.compile e (Binary.magic ++ rest) := by
  have hmagic : (Binary.magic ++ rest).take 4 = Binary.magic := magic_iff.mpr ⟨rest, rfl⟩
  simp only [Module.ofFile, FileContent.read, if_pos hmagic]

/-- Another file is a text, if its bytes are those of one. -/
theorem ofFile_decoded (hmagic : ∀ rest, utf8Bytes s ≠ Binary.magic ++ rest) (e : Engine)
    (path : String) : Module.ofFile e path (.bytes (utf8Bytes s)) = Module.ofTextFrom path e s := by
  have hno : ¬ (utf8Bytes s).take 4 = Binary.magic :=
    fun h => (magic_iff.mp h).elim hmagic
  have hdecode : Utf8.decode (utf8Bytes s) = .ok s := decode_ok_iff.mpr rfl
  simp only [Module.ofFile, FileContent.read, if_neg hno, hdecode]

/-- Another file, whose bytes are no text, is not read at all. -/
theorem ofFile_undecoded (hmagic : ∀ rest, bytes ≠ Binary.magic ++ rest)
    (htext : ∀ s, utf8Bytes s ≠ bytes) (path : String) :
    ∃ detail, ∀ e, Module.ofFile e path (.bytes bytes) =
      (.error (.load path ("not UTF-8 text: " ++ detail)), e) := by
  have hno : ¬ bytes.take 4 = Binary.magic := fun h => (magic_iff.mp h).elim hmagic
  cases hdecode : Utf8.decode bytes with
  | ok s => exact absurd (decode_ok_iff.mp hdecode) (htext s)
  | error fault =>
    refine ⟨fault.message, fun e => ?_⟩
    simp only [Module.ofFile, FileContent.read, if_neg hno, hdecode]

/-- Only the name of the source depends on where a text is from. -/
theorem ofTextFrom_eq (origin : String) (e : Engine) (s : String) :
    Module.ofTextFrom origin e s =
      ((Module.ofText e s).1.mapError (Error.renamed origin), (Module.ofText e s).2) := by
  unfold Module.ofText Module.ofTextFrom
  cases Wat.assemble s with
  | error fault => rfl
  | ok bytes =>
    have hsame : (Module.compile e bytes).1.mapError (Error.renamed origin) =
        (Module.compile e bytes).1 := by
      cases hcompile : (Module.compile e bytes).1 with
      | ok m => rfl
      | error err =>
        obtain ⟨reason, rfl⟩ := compile_error hcompile
        rfl
    dsimp only
    rw [hsame]

end Files

section Sources

/-- A source that holds a module is loaded as its bytes are compiled. -/
theorem load_of_holds (h : src.Holds bytes) (e : Engine) : src.load e = Module.compile e bytes := by
  cases h with
  | bytes => rfl
  | text h => simp only [Source.load, Module.ofText, Module.ofTextFrom, h]
  | @binary path rest => exact ofFile_binary e path rest
  | written hmagic h =>
    simp only [Source.load, ofFile_decoded hmagic, Module.ofTextFrom, h]

/-- A source that holds no bytes is refused by every engine alike. -/
theorem load_of_not_holds (h : ∀ bytes, ¬ src.Holds bytes) :
    ∃ reason, ∀ e, src.load e = (.error (.load src.origin reason), e) := by
  cases src with
  | bytes bs => exact absurd (.bytes bs) (h bs)
  | text s =>
    cases hassemble : Wat.assemble s with
    | ok bytes => exact absurd (.text hassemble) (h bytes)
    | error fault =>
      refine ⟨fault.message, fun e => ?_⟩
      simp only [Source.load, Module.ofText, Module.ofTextFrom, hassemble]
      rfl
  | file path content =>
    cases hread : content.read with
    | error reason =>
      refine ⟨reason, fun e => ?_⟩
      simp only [Source.load, Module.ofFile, hread]
      rfl
    | ok bytes =>
      obtain rfl : content = .bytes bytes := by
        cases content <;> cases hread
        rfl
      by_cases hmagic : ∃ rest, bytes = Binary.magic ++ rest
      · obtain ⟨rest, rfl⟩ := hmagic
        exact absurd (.binary rest) (h _)
      · push Not at hmagic
        by_cases htext : ∃ s, utf8Bytes s = bytes
        · obtain ⟨s, rfl⟩ := htext
          cases hassemble : Wat.assemble s with
          | ok bytes => exact absurd (.written hmagic hassemble) (h bytes)
          | error fault =>
            refine ⟨fault.message, fun e => ?_⟩
            simp only [Source.load, ofFile_decoded hmagic, Module.ofTextFrom, hassemble]
            rfl
        · push Not at htext
          obtain ⟨detail, hrefused⟩ := ofFile_undecoded hmagic htext path
          exact ⟨_, hrefused⟩

end Sources

/-- A file is loaded as what it holds: as a binary module if it begins like one; else, if it is no text,
not at all; else as its text, where a failure to convert the text names the path. Compiling fails with
failures to compile only. What goes wrong in loading a text or a file before there are bytes to compile
is a failure to load, whatever the engine, and changes nothing; as soon as there are bytes the outcome is
that of compiling them. And bytes that are too short or do not begin like a module are refused by
compiling, whatever the engine keeps, which stays as it is. -/
theorem loading_attributed :
    (∀ e path rest, Module.ofFile e path (.bytes (Binary.magic ++ rest)) =
      Module.compile e (Binary.magic ++ rest)) ∧
    (∀ path bytes, (∀ rest, bytes ≠ Binary.magic ++ rest) → (∀ s, utf8Bytes s ≠ bytes) →
      ∃ detail, ∀ e, Module.ofFile e path (.bytes bytes) =
        (.error (.load path ("not UTF-8 text: " ++ detail)), e)) ∧
    (∀ e path s, (∀ rest, utf8Bytes s ≠ Binary.magic ++ rest) →
      Module.ofFile e path (.bytes (utf8Bytes s)) =
        ((Module.ofText e s).1.mapError (Error.renamed path), (Module.ofText e s).2)) ∧
    (∀ e bytes err, (Module.compile e bytes).1 = .error err → ∃ reason, err = .compilation reason) ∧
    (∀ src : Source, (∀ bytes, src.Holds bytes → ∀ e, src.load e = Module.compile e bytes) ∧
      ((∀ bytes, ¬ src.Holds bytes) →
        ∃ reason, ∀ e, src.load e = (.error (.load src.origin reason), e))) ∧
    ∀ bytes : List UInt8, (bytes.length < 8 ∨ ∀ rest, bytes ≠ Binary.magic ++ rest) →
      ∃ reason, ∀ e, Module.compile e bytes = (.error (.compilation reason), e) := by
  refine ⟨?_, ?_, ?_, ?_, ?_, ?_⟩
  · exact fun e path rest => ofFile_binary e path rest
  · exact fun path bytes hmagic htext => ofFile_undecoded hmagic htext path
  · intro e path s hmagic
    rw [ofFile_decoded hmagic, ofTextFrom_eq]
  · exact fun e bytes err h => compile_error h
  · exact fun src => ⟨fun bytes h e => load_of_holds h e, load_of_not_holds⟩
  · exact fun bytes h => compile_headless h

/-- A byte that no text has is no module to load; four bytes that every module begins with are none to
compile. -/
theorem fragments_attributed :
    (∃ detail, ∀ e, Module.ofFile e "m.wat" (.bytes [255]) =
      (.error (.load "m.wat" ("not UTF-8 text: " ++ detail)), e)) ∧
    ∃ reason, ∀ e, Module.ofFile e "m.wasm" (.bytes [0, 97, 115, 109]) =
      (.error (.compilation reason), e) := by
  have hmagic : ∀ rest, [255] ≠ Binary.magic ++ rest := fun rest h => nomatch (List.cons.inj h).2
  have htext : ∀ s, utf8Bytes s ≠ [255] := by
    intro s hs
    have hdecode : Utf8.decode [255] = .ok s := decode_ok_iff.mpr hs
    have hfault : Utf8.check 0 0 [255] = some (.invalid 1 0) := by decide
    unfold Utf8.decode at hdecode
    rw [hfault] at hdecode
    contradiction
  obtain ⟨hbinary, hjunk, _, _, _, hshort⟩ := loading_attributed
  obtain ⟨reason, hcompile⟩ := hshort [0, 97, 115, 109] (Or.inl (by decide))
  exact ⟨hjunk _ _ hmagic htext, reason, fun e => (hbinary e _ []).trans (hcompile e)⟩

end WasmEmbed
