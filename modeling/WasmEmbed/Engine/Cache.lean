import WasmEmbed.Code.Artifact
/-!
Compiled modules kept for reuse. A module is found again by the digest of its bytes and by the bytes
themselves, so a collision of digests costs a compilation and nothing else. When the cache is full
the entry made first goes.
-/

namespace WasmEmbed

open WasmEmbed.Code

/-- A module kept, with its number in the order of insertion. -/
structure CacheEntry where
  digest : String
  bytes : List UInt8
  artifact : Artifact
  sequence : Nat
  deriving Repr, Inhabited

/-- Entries with different digests, in no particular order. -/
structure Cache where
  entries : List CacheEntry := []
  /-- The number of the next entry. -/
  next : Nat := 0
  deriving Repr, Inhabited

namespace Cache

def size (c : Cache) : Nat := c.entries.length

/-- The module that was compiled from just these bytes. -/
def find? (c : Cache) (digest : String) (bytes : List UInt8) : Option Artifact :=
  match c.entries.find? fun e => e.digest == digest with
  | some e => if e.bytes = bytes then some e.artifact else none
  | none => none

/-- The entry with the least number. -/
def oldest? : List CacheEntry → Option CacheEntry
  | [] => none
  | e :: rest =>
    match oldest? rest with
    | none => some e
    | some f => if f.sequence < e.sequence then some f else some e

/-- The entries without those of a digest. -/
def without (entries : List CacheEntry) (digest : String) : List CacheEntry :=
  entries.filter fun e => e.digest != digest

theorem oldest?_mem {entries : List CacheEntry} {e : CacheEntry} (h : oldest? entries = some e) :
    e ∈ entries := by
  induction entries generalizing e with
  | nil => simp [oldest?] at h
  | cons x rest ih =>
    rw [oldest?] at h
    split at h
    · simp_all
    · rename_i f hf
      split at h
      · exact Option.some.inj h ▸ List.mem_cons_of_mem _ (ih hf)
      · simp_all

theorem length_without_lt {entries : List CacheEntry} {e : CacheEntry} (h : e ∈ entries) :
    (without entries e.digest).length < entries.length := by
  refine Nat.lt_of_le_of_ne (List.length_filter_le _ _) fun eq => ?_
  have := List.length_filter_eq_length_iff.1 eq e h
  simp at this

/-- The entries left when oldest ones go until another digest fits or is there already. -/
def makeRoom (capacity : Nat) (digest : String) (entries : List CacheEntry) : List CacheEntry :=
  if capacity ≤ entries.length ∧ ¬ entries.any (fun e => e.digest == digest) then
    match h : oldest? entries with
    | some e =>
      have : (without entries e.digest).length < entries.length := length_without_lt (oldest?_mem h)
      makeRoom capacity digest (without entries e.digest)
    | none => entries
  else entries
termination_by entries.length

/-- The cache with one more module, which replaces one of the same digest. -/
def insert (c : Cache) (capacity : Nat) (digest : String) (bytes : List UInt8)
    (artifact : Artifact) : Cache :=
  ⟨⟨digest, bytes, artifact, c.next⟩ :: without (makeRoom capacity digest c.entries) digest, c.next + 1⟩

/-- The cache without modules. Numbers go on. -/
def clear (c : Cache) : Cache := { c with entries := [] }

end Cache

end WasmEmbed
