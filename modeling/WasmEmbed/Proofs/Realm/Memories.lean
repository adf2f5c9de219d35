import WasmEmbed.Proofs.Realm.Limits
import WasmEmbed.Proofs.Store.Writing

/-! The memories of live stores, in every run: which ranges of bytes are accepted and which numbers of
pages, what is left of the memory, and that all else stays as it is. -/
namespace WasmEmbed
variable {σ : Type} {ms : List (Moment σ)} {history : List (Event σ)} {r : Realm σ} {s : Store σ}
  {c : Contents σ} {x : Memory}

/-- A memory that the host was given is there, with the type that its handle tells. -/
theorem memory_of_given (hr : Run history r) (hs : s ∈ r.stores) (hc : s.contents = some c)
    (hx : (Item.memory x).Given history) (hstore : x.store.id = s.id) :
    ∃ o, c.heap.memories[x.addr]? = some o ∧ o.type = x.type := by
  have hfound := store?_of_mem (consistent_of_run hr) hs
  exact (keeps_of_run hr hfound hc).holds (.memory x) hx hstore

/-- The memory of one page in the store that has room for less than two pages in each. -/
def boundedMemory : Memory := ⟨⟨1, 2⟩, "m", ⟨1, none, false⟩, 0⟩

theorem given_bounded : (Item.memory boundedMemory).Given boundedHistory :=
  ⟨memoryInstance, List.mem_filterMap.mpr ⟨boundedHistory[3], List.getElem_mem _, rfl⟩, _,
    List.mem_cons_self, rfl⟩

theorem bounded_page : ∃ s ∈ Realm.bounded.stores, ∃ c, s.id = 1 ∧ s.contents = some c ∧
    c.heap.limit = some 100000 ∧ boundedMemory.size s = .ok 1 :=
  ⟨_, List.mem_cons_self, _, rfl, rfl, rfl, rfl⟩

/-- In every run, and for every memory of a live store: a range of bytes can be read and written just
if it ends within the memory, however large its numbers are, and an empty range may lie at the end.
What is refused is told with the range and the size, and changes nothing, not even the buffer of a
reader. After a write all handles of this memory read the new bytes in the range and the old ones
around it, and all else in the store is as it was. -/
theorem memory_ranges_exact {history : List (Event σ)} {r : Realm σ} (hr : Run history r)
    {s : Store σ} (hs : s ∈ r.stores) (halive : s.isAlive = true) {x : Memory}
    (hx : (Item.memory x).Given history) (hstore : x.store.id = s.id) :
    ∃ pages bytes, s.SharesMemory x.addr pages bytes ∧ bytes.size = 65536 * pages ∧
      x.Ranges s pages bytes := by
  obtain ⟨c, hc⟩ := (isAlive_iff s).mp halive
  obtain ⟨o, ho, _⟩ := memory_of_given hr hs hc hx hstore
  refine ⟨o.pages, o.bytes, ?_, ?_, ?_⟩
  · exact store_sharesMemory hc (thing?_of_memory ho)
  · exact (memory_within o).size
  · exact ranges_of_held hstore hc ho

/-- The last byte of a page can be written. The one behind it cannot, though an empty range can be
read there. -/
theorem bounded_last_byte : ∃ s ∈ Realm.bounded.stores, s.id = 1 ∧ s.isAlive = true ∧
    Run boundedHistory Realm.bounded ∧ (Item.memory boundedMemory).Given boundedHistory ∧
    s.perform () (.writeMemory boundedMemory 65535 [7, 8]) =
      ⟨.error (.outOfBounds 65535 2 65536), none, s, ()⟩ ∧
    (s.perform () (.readMemory boundedMemory 65536 0)).result = .ok (.bytes []) ∧
    (s.perform () (.readMemory boundedMemory (2 ^ 64 - 1) 1)).result =
      .error (.outOfBounds (2 ^ 64 - 1) 1 65536) ∧
    ∃ t, s.perform () (.writeMemory boundedMemory 65535 [7]) = ⟨.ok .done, none, t, ()⟩ ∧
      boundedMemory.read t 65535 1 = .ok [7] := by
  obtain ⟨s, hs, c, hid, hc, _, hpage⟩ := bounded_page
  have halive : s.isAlive = true := (isAlive_iff s).mpr ⟨c, hc⟩
  obtain ⟨pages, bytes, hshares, hsize, hranges⟩ :=
    memory_ranges_exact run_bounded_made hs halive given_bounded hid.symm
  have hone : pages = 1 :=
    Except.ok.inj ((hshares.size boundedMemory hid.symm rfl).symm.trans hpage)
  have hsize : bytes.size = 65536 := by omega
  obtain ⟨t, new, hwritten, hsame, hleft, hnew⟩ := hranges.written () 65535 [7] (by simp [hsize])
  refine ⟨s, hs, hid, halive, run_bounded_made, given_bounded, ?_, ?_, ?_, t, hwritten, ?_⟩
  · rw [hranges.refused () 65535 [7, 8] (by simp [hsize]), hsize]
    rfl
  · rw [hranges.read, if_pos (by omega)]
    rfl
  · rw [hranges.read, if_neg (by omega), hsize]
  · have hread := hleft.read boundedMemory (hid.symm.trans hsame.alike.id.symm) rfl 65535 1
    rw [if_pos (by rw [hnew.size]; omega)] at hread
    have hbyte := hnew.inside 0 (by decide)
    rw [hread]
    exact congrArg (fun b => Except.ok [b]) hbyte

/-- In every run, and for every memory of a live store, of the limits that the store was made with: the
memory grows by a number of pages just if the sum is no more than its type allows, than 65536, and
than the limit has room for. Else a lack of resources is told, and nothing changes. The answer is the
number of pages before; the bytes that there were stay, those after them are zero, and all else in
the store is as it was; and to grow by a sum comes to the same store as to grow by its parts. -/
theorem memory_growth_exact (h : Course ms r) (hs : s ∈ r.stores) (halive : s.isAlive = true)
    (hx : (Item.memory x).Given (ms.map Moment.event)) (hstore : x.store.id = s.id) :
    ∃ opening ∈ ms, ∃ e limits, opening.Opens s.id e limits ∧
      ∃ pages bytes, s.SharesMemory x.addr pages bytes ∧ bytes.size = 65536 * pages ∧
        x.Growth s limits.maxMemoryBytes pages bytes := by
  have hr := run_of_course h
  have hfound := store?_of_mem (consistent_of_run hr) hs
  obtain ⟨c, hc⟩ := (isAlive_iff s).mp halive
  obtain ⟨o, ho, htype⟩ := memory_of_given hr hs hc hx hstore
  obtain ⟨opening, hopening, e, limits, hopens⟩ := opening_of_course h hfound
  refine ⟨opening, hopening, e, limits, hopens, o.pages, o.bytes, ?_, ?_, ?_⟩
  · exact store_sharesMemory hc (thing?_of_memory ho)
  · exact (memory_within o).size
  · rw [← limit_of_course h hfound hc hopening hopens]
    exact growth_of_held hstore hc ho htype

/-- A memory of one page, in a store without room for two, can be asked to grow by nothing, and cannot
grow by one page. -/
theorem bounded_cannot_grow : ∃ s ∈ Realm.bounded.stores, s.id = 1 ∧ s.isAlive = true ∧
    Run boundedHistory Realm.bounded ∧ (Item.memory boundedMemory).Given boundedHistory ∧
    (s.perform () (.growMemory boundedMemory 0)).result = .ok (.number 1) ∧
    s.perform () (.growMemory boundedMemory 1) =
      ⟨.error (.resource "Memory 'm' cannot grow: failed to grow memory by `1`"), none, s, ()⟩ := by
  obtain ⟨s, hs, c, hid, hc, hlimit, hpage⟩ := bounded_page
  have halive : s.isAlive = true := (isAlive_iff s).mpr ⟨c, hc⟩
  obtain ⟨ms, hms, h⟩ := course_of_run run_bounded_made
  have hgiven := given_bounded
  rw [← hms] at hgiven
  obtain ⟨opening, hopening, e, limits, hopens, pages, bytes, hshares, _, hgrowth⟩ :=
    memory_growth_exact h hs halive hgiven hid.symm
  have hone : pages = 1 :=
    Except.ok.inj ((hshares.size boundedMemory hid.symm rfl).symm.trans hpage)
  have hfound := store?_of_mem (consistent_of_run run_bounded_made) hs
  have hbytes : limits.maxMemoryBytes = some 100000 :=
    (limit_of_course h hfound hc hopening hopens).symm.trans hlimit
  rw [hone, hbytes] at hgrowth
  refine ⟨s, hs, hid, halive, run_bounded_made, given_bounded, ?_, ?_⟩
  · have hfits : ¬ boundedMemory.type.Exceeded (some 100000) (1 + 0) := by
      simp [MemoryType.Exceeded, boundedMemory]
    obtain ⟨t, new, hgrown, _⟩ := hgrowth.grown () 0 hfits
    rw [hgrown]
  · have hexceeded : boundedMemory.type.Exceeded (some 100000) (1 + 1) := by
      simp [MemoryType.Exceeded, boundedMemory]
    rw [hgrowth.refused () 1 hexceeded]
    rfl

end WasmEmbed
