import Mathlib.Data.List.Nodup
import Mathlib.Logic.Relation
import WasmEmbed.Proofs.Cache.Transparency

/-! The cache of an engine is a queue. Its entries have no order but for the numbers that they were given
when they were made; by these they are the modules of a queue with as many places, which the newest
joins at the end and the oldest leaves when there is no place. -/
namespace WasmEmbed
open WasmEmbed.Code

/-- What an entry of the cache holds. -/
structure Held where
  digest : String
  bytes : List UInt8
  artifact : Artifact

def CacheEntry.held (x : CacheEntry) : Held := ⟨x.digest, x.bytes, x.artifact⟩

/-- A queue of modules, the oldest first. -/
abbrev HeldQueue := List Held

/-- The queue after another module came. It takes the place of one of the same digest, and becomes the
newest; else the oldest goes if all places are taken. A queue without places holds nothing. -/
def HeldQueue.push (capacity : Nat) (q : HeldQueue) (x : Held) : HeldQueue :=
  if capacity = 0 then q
  else if ∃ y ∈ q, y.digest = x.digest then (q.filter fun y => y.digest ≠ x.digest) ++ [x]
  else if q.length = capacity then q.tail ++ [x]
  else q ++ [x]

/-- What an engine is asked for that its cache may notice. -/
inductive CacheCall where
  | compile (bytes : List UInt8)
  | clear

def CacheCall.use : CacheCall → EngineUse
  | compile bytes => .load (.bytes bytes)
  | clear => .clearCache

/-- The queue after a call. Bytes that are refused or held change nothing, and an engine that keeps no
modules holds none. -/
def Engine.requeue (e : Engine) (q : HeldQueue) : CacheCall → HeldQueue
  | .clear => []
  | .compile bytes =>
    match Module.compileAlone e bytes with
    | .error _ => q
    | .ok m =>
      if e.config.cacheModules = false then q
      else if ∃ y ∈ q, y.digest = e.digest bytes ∧ y.bytes = bytes then q
      else q.push e.capacity ⟨e.digest bytes, bytes, m.artifact⟩

/-- One round of making room: there is too little, and the oldest entry goes. -/
inductive Cache.Evicts (capacity : Nat) (digest : String) :
    List CacheEntry → List CacheEntry → Prop where
  | round {entries : List CacheEntry} {e : CacheEntry} (hfull : capacity ≤ entries.length)
    (hnew : ∀ x ∈ entries, x.digest ≠ digest) (holdest : Cache.oldest? entries = some e) :
    Evicts capacity digest entries (Cache.without entries e.digest)

/-- In the order of their numbers, which are all different, the entries hold what is in the queue. -/
def Cache.InOrder (entries : List CacheEntry) (q : HeldQueue) : Prop :=
  ∃ l : List CacheEntry, l.Perm entries ∧ l.Pairwise (fun x y => x.sequence < y.sequence) ∧
    l.map CacheEntry.held = q

/-- The engine keeps what is in the queue. -/
structure Engine.Mirrors (e : Engine) (q : HeldQueue) : Prop where
  order : Cache.InOrder e.cache.entries q
  below : ∀ x ∈ e.cache.entries, x.sequence < e.cache.next
  digests : (q.map Held.digest).Nodup
  bounded : q.length ≤ e.capacity
  unused : e.config.cacheModules = false → q = []

variable {entries l left : List CacheEntry} {x y : CacheEntry} {q : HeldQueue} {capacity : Nat}
  {digest : String} {c : Cache} {e f : Engine}

section Eviction

theorem oldest?_eq_none_iff : Cache.oldest? entries = none ↔ entries = [] := by
  cases entries with
  | nil => exact ⟨fun _ => rfl, fun _ => rfl⟩
  | cons x rest =>
    refine iff_of_false (fun h => ?_) (List.cons_ne_nil x rest)
    rw [Cache.oldest?] at h
    split at h
    · contradiction
    · split at h
      · contradiction
      · contradiction

/-- No entry has a smaller number than the oldest. -/
theorem oldest?_le (h : Cache.oldest? entries = some x) : ∀ y ∈ entries, x.sequence ≤ y.sequence := by
  induction entries generalizing x with
  | nil => contradiction
  | cons z rest ih =>
    rw [Cache.oldest?] at h
    intro y hy
    split at h
    · -- nothing comes after the only entry
      rename_i hnone
      rw [oldest?_eq_none_iff.mp hnone, List.mem_singleton] at hy
      exact Nat.le_of_eq (congrArg _ ((Option.some.inj h).symm.trans hy.symm))
    · rename_i w hw
      have hrest := ih hw
      split at h
      · obtain rfl := Option.some.inj h
        rcases List.mem_cons.mp hy with rfl | hy
        · omega
        · exact hrest y hy
      · obtain rfl := Option.some.inj h
        rcases List.mem_cons.mp hy with rfl | hy
        · exact Nat.le_refl _
        · have hle := hrest y hy
          omega

/-- The oldest entry is the first in the order of the numbers, wherever it stands. -/
theorem oldest?_of_perm (hperm : (x :: l).Perm entries)
    (hsorted : (x :: l).Pairwise fun x y => x.sequence < y.sequence) :
    Cache.oldest? entries = some x := by
  have hx : x ∈ entries := hperm.mem_iff.mp List.mem_cons_self
  cases ho : Cache.oldest? entries with
  | none =>
    rw [oldest?_eq_none_iff.mp ho] at hx
    exact absurd hx List.not_mem_nil
  | some y =>
    have hle := oldest?_le ho x hx
    rcases List.mem_cons.mp (hperm.mem_iff.mpr (Cache.oldest?_mem ho)) with rfl | hy
    · rfl
    · have hlt := (List.pairwise_cons.mp hsorted).1 y hy
      omega

theorem any_digest_iff : (entries.any fun x => x.digest == digest) = true ↔
    ∃ x ∈ entries, x.digest = digest := by
  rw [List.any_eq_true]
  exact exists_congr fun x => and_congr_right fun _ => beq_iff_eq

/-- Nothing goes where there is room, or where the entry will only be replaced. -/
theorem makeRoom_stop (h : capacity ≤ entries.length → ∃ x ∈ entries, x.digest = digest) :
    Cache.makeRoom capacity digest entries = entries := by
  rw [Cache.makeRoom]
  exact if_neg fun hfull => hfull.2 (any_digest_iff.mpr (h hfull.1))

/-- While the cache is full of other entries, the oldest goes. -/
theorem makeRoom_round (hfull : capacity ≤ entries.length) (hnew : ∀ x ∈ entries, x.digest ≠ digest)
    (holdest : Cache.oldest? entries = some x) : Cache.makeRoom capacity digest entries =
      Cache.makeRoom capacity digest (Cache.without entries x.digest) := by
  have hguard : capacity ≤ entries.length ∧ ¬ entries.any (fun x => x.digest == digest) := by
    refine ⟨hfull, fun hany => ?_⟩
    obtain ⟨y, hy, hsame⟩ := any_digest_iff.mp hany
    exact hnew y hy hsame
  rw [Cache.makeRoom, if_pos hguard]
  split
  · rename_i y hy
    obtain rfl := Option.some.inj (hy.symm.trans holdest)
    rfl
  · rename_i hnone
    rw [hnone] at holdest
    contradiction

/-- Each round takes an entry away, so that there are only so many. -/
theorem evicts_wellFounded (capacity : Nat) (digest : String) :
    WellFounded fun left entries => Cache.Evicts capacity digest entries left := by
  refine Subrelation.wf ?_ (measure List.length).wf
  rintro left entries ⟨_, _, holdest⟩
  exact Cache.length_without_lt (Cache.oldest?_mem holdest)

/-- Making room goes on in rounds until there is room, the digest is there, or nothing is. -/
theorem evicts_makeRoom (capacity : Nat) (digest : String) (entries : List CacheEntry) :
    Relation.ReflTransGen (Cache.Evicts capacity digest) entries
        (Cache.makeRoom capacity digest entries) ∧
      ∀ left, ¬ Cache.Evicts capacity digest (Cache.makeRoom capacity digest entries) left := by
  induction entries using (evicts_wellFounded capacity digest).induction with
  | _ entries ih =>
    by_cases hround : capacity ≤ entries.length ∧ ∀ x ∈ entries, x.digest ≠ digest
    · obtain ⟨hfull, hnew⟩ := hround
      cases ho : Cache.oldest? entries with
      | none =>
        obtain rfl := oldest?_eq_none_iff.mp ho
        have hstop : Cache.makeRoom capacity digest [] = [] := by
          rw [Cache.makeRoom]
          split
          · rfl
          · rfl
        rw [hstop]
        refine ⟨.refl, ?_⟩
        rintro left ⟨_, _, holdest⟩
        contradiction
      | some x =>
        have hevicts := Cache.Evicts.round hfull hnew ho
        obtain ⟨hrest, hend⟩ := ih _ hevicts
        rw [makeRoom_round hfull hnew ho]
        exact ⟨.head hevicts hrest, hend⟩
    · have hstop : Cache.makeRoom capacity digest entries = entries := by
        apply makeRoom_stop
        intro hfull
        by_contra hnone
        exact hround ⟨hfull, fun x hx hsame => hnone ⟨x, hx, hsame⟩⟩
      rw [hstop]
      refine ⟨.refl, ?_⟩
      rintro left ⟨hfull, hnew, _⟩
      exact hround ⟨hfull, hnew⟩

end Eviction

section Order

theorem without_eq_self (h : ∀ x ∈ entries, x.digest ≠ digest) :
    Cache.without entries digest = entries :=
  List.filter_eq_self.mpr fun x hx => bne_iff_ne.mpr (h x hx)

theorem length_inOrder (h : Cache.InOrder entries q) : entries.length = q.length := by
  obtain ⟨l, hperm, _, rfl⟩ := h
  rw [List.length_map, hperm.length_eq]

/-- An unordered cache and its queue hold the same texts under the same digests. -/
theorem mem_inOrder (h : Cache.InOrder entries q) (P : String → List UInt8 → Prop) :
    (∃ x ∈ entries, P x.digest x.bytes) ↔ ∃ y ∈ q, P y.digest y.bytes := by
  obtain ⟨l, hperm, _, rfl⟩ := h
  constructor
  · rintro ⟨x, hx, hP⟩
    exact ⟨x.held, List.mem_map_of_mem (hperm.mem_iff.mpr hx), hP⟩
  · rintro ⟨y, hy, hP⟩
    obtain ⟨x, hx, rfl⟩ := List.mem_map.mp hy
    exact ⟨x, hperm.mem_iff.mp hx, hP⟩

theorem inOrder_without (h : Cache.InOrder entries q) (digest : String) :
    Cache.InOrder (Cache.without entries digest) (q.filter fun y => y.digest ≠ digest) := by
  obtain ⟨l, hperm, hsorted, rfl⟩ := h
  refine ⟨Cache.without l digest, hperm.filter _, hsorted.filter _, ?_⟩
  rw [List.filter_map, Cache.without]
  congr 1
  refine List.filter_congr fun x _ => ?_
  rw [Bool.eq_iff_iff, bne_iff_ne]
  exact decide_eq_true_iff.symm

/-- In a full cache the entry that makes room is the first of the queue. No other entry has its
digest, so that only one goes and there is room. -/
theorem inOrder_makeRoom (h : Cache.InOrder entries q) (hdigests : (q.map Held.digest).Nodup)
    (hcapacity : capacity ≠ 0) (hfull : q.length = capacity)
    (hnew : ¬ ∃ y ∈ q, y.digest = digest) :
    Cache.InOrder (Cache.makeRoom capacity digest entries) q.tail := by
  have hlength := length_inOrder h
  have habsent : ∀ x ∈ entries, x.digest ≠ digest := fun x hx hsame =>
    hnew ((mem_inOrder h fun d _ => d = digest).mp ⟨x, hx, hsame⟩)
  obtain ⟨l, hperm, hsorted, rfl⟩ := h
  cases l with
  | nil => exact absurd hfull.symm hcapacity
  | cons x l =>
    have holdest := oldest?_of_perm hperm hsorted
    have hothers : ∀ y ∈ l, y.digest ≠ x.digest := by
      intro y hy hsame
      rw [List.map_map, List.map_cons, List.nodup_cons] at hdigests
      exact hdigests.1 (List.mem_map.mpr ⟨y, hy, hsame⟩)
    have hleft : (Cache.without entries x.digest).Perm l := by
      have hfirst : Cache.without (x :: l) x.digest = l := by
        rw [Cache.without, List.filter_cons_of_neg (by simp)]
        exact without_eq_self hothers
      exact hfirst ▸ (hperm.filter _).symm
    have hroom : (Cache.without entries x.digest).length < capacity := by
      rw [hleft.length_eq, ← hfull, List.length_map]
      exact Nat.lt_succ_self _
    rw [makeRoom_round (by omega) habsent holdest, makeRoom_stop fun hle => absurd hle (by omega)]
    exact ⟨l, hleft.symm, hsorted.of_cons, rfl⟩

/-- A new entry, with a number above all others, comes last in order. -/
theorem inOrder_cons (h : Cache.InOrder entries q) (hbelow : ∀ y ∈ entries, y.sequence < x.sequence) :
    Cache.InOrder (x :: entries) (q ++ [x.held]) := by
  obtain ⟨l, hperm, hsorted, rfl⟩ := h
  refine ⟨l ++ [x], ?_, ?_, List.map_append⟩
  · exact (List.perm_append_singleton x l).trans (hperm.cons x)
  · rw [List.pairwise_append]
    refine ⟨hsorted, List.pairwise_singleton _ x, fun y hy z hz => ?_⟩
    rw [List.mem_singleton.mp hz]
    exact hbelow y (hperm.mem_iff.mp hy)

/-- Insertion into the cache is coming to the queue. Whatever went to make room, the rest has
smaller numbers than the new entry. -/
theorem inOrder_insert (h : Cache.InOrder c.entries q) (hbelow : ∀ x ∈ c.entries, x.sequence < c.next)
    (hdigests : (q.map Held.digest).Nodup) (hcapacity : capacity ≠ 0) (hbounded : q.length ≤ capacity)
    (bytes : List UInt8) (a : Artifact) :
    Cache.InOrder (c.insert capacity digest bytes a).entries
      (q.push capacity ⟨digest, bytes, a⟩) := by
  have hlength := length_inOrder h
  have hpresent := mem_inOrder h fun d _ => d = digest
  have hjoin {q' : HeldQueue}
      (hleft : Cache.InOrder (Cache.without (Cache.makeRoom capacity digest c.entries) digest) q') :
      Cache.InOrder (c.insert capacity digest bytes a).entries (q' ++ [⟨digest, bytes, a⟩]) :=
    inOrder_cons (x := ⟨digest, bytes, a, c.next⟩) hleft fun y hy =>
      hbelow y (mem_of_mem_makeRoom (List.mem_filter.mp hy).1)
  unfold HeldQueue.push
  rw [if_neg hcapacity]
  split
  · rename_i hsame
    apply hjoin
    rw [makeRoom_stop fun _ => hpresent.mpr hsame]
    exact inOrder_without h digest
  · rename_i hnew
    have habsent : ∀ x ∈ c.entries, x.digest ≠ digest := fun x hx hsame =>
      hnew (hpresent.mp ⟨x, hx, hsame⟩)
    have hnothing : Cache.without (Cache.makeRoom capacity digest c.entries) digest =
        Cache.makeRoom capacity digest c.entries :=
      without_eq_self fun x hx => habsent x (mem_of_mem_makeRoom hx)
    split
    · rename_i hfull
      apply hjoin
      rw [hnothing]
      exact inOrder_makeRoom h hdigests hcapacity hfull hnew
    · apply hjoin
      rw [hnothing, makeRoom_stop fun hle => absurd hle (by omega)]
      exact h

/-- The queue never holds two entries of one digest. -/
theorem push_digests (hdigests : (q.map Held.digest).Nodup) (x : Held) :
    ((q.push capacity x).map Held.digest).Nodup := by
  have hjoin {q' : HeldQueue} (hleft : q'.Sublist q) (hnew : ∀ y ∈ q', y.digest ≠ x.digest) :
      ((q' ++ [x]).map Held.digest).Nodup := by
    rw [List.map_append, List.nodup_append]
    refine ⟨hdigests.sublist (hleft.map _), List.nodup_singleton _, ?_⟩
    intro d hd d' hd'
    obtain ⟨y, hy, rfl⟩ := List.mem_map.mp hd
    rw [List.mem_singleton.mp hd']
    exact hnew y hy
  unfold HeldQueue.push
  split
  · exact hdigests
  · split
    · exact hjoin List.filter_sublist fun y hy => by simpa using (List.mem_filter.mp hy).2
    · rename_i hnew
      have habsent : ∀ y ∈ q, y.digest ≠ x.digest := fun y hy hsame => hnew ⟨y, hy, hsame⟩
      split
      · exact hjoin (List.tail_sublist q) fun y hy => habsent y (List.mem_of_mem_tail hy)
      · exact hjoin (List.Sublist.refl q) habsent

/-- The queue never outgrows the capacity. -/
theorem push_bounded (hbounded : q.length ≤ capacity) (x : Held) :
    (q.push capacity x).length ≤ capacity := by
  unfold HeldQueue.push
  split
  · exact hbounded
  · split
    · rename_i hsame
      obtain ⟨y, hy, hy'⟩ := hsame
      have hlt : (q.filter fun y => y.digest ≠ x.digest).length < q.length := by
        refine Nat.lt_of_le_of_ne (List.length_filter_le _ _) fun heq => ?_
        have hall := List.length_filter_eq_length_iff.mp heq y hy
        simp [hy'] at hall
      rw [List.length_append, List.length_singleton]
      omega
    · split
      · rw [List.length_append, List.length_tail, List.length_singleton]
        omega
      · rw [List.length_append, List.length_singleton]
        omega

end Order

section Calls

theorem requeue_congr (h : e.Alike f) (q : HeldQueue) (call : CacheCall) :
    e.requeue q call = f.requeue q call := by
  cases call with
  | clear => rfl
  | compile bytes =>
    unfold Engine.requeue Module.compileAlone Module.ofArtifact
    rw [h.id, h.config, h.capacity, h.digest]

/-- Digests are all different, so that the entry that is found is the only one that could be. -/
theorem find?_isSome_iff (h : Cache.InOrder c.entries q) (hdigests : (q.map Held.digest).Nodup)
    (digest : String) (bytes : List UInt8) :
    (∃ a, c.find? digest bytes = some a) ↔ ∃ y ∈ q, y.digest = digest ∧ y.bytes = bytes := by
  rw [← mem_inOrder h fun d bs => d = digest ∧ bs = bytes]
  have hunique : ∀ x ∈ c.entries, ∀ y ∈ c.entries, x.digest = y.digest → x = y := by
    obtain ⟨l, hperm, _, rfl⟩ := h
    rw [List.map_map] at hdigests
    intro x hx y hy hsame
    exact List.inj_on_of_nodup_map hdigests (hperm.mem_iff.mpr hx) (hperm.mem_iff.mpr hy) hsame
  unfold Cache.find?
  split
  · rename_i x hx
    have hmem := List.mem_of_find?_eq_some hx
    have hdigest : x.digest = digest := by simpa using List.find?_some hx
    constructor
    · rintro ⟨a, ha⟩
      split at ha
      · exact ⟨x, hmem, hdigest, ‹_›⟩
      · contradiction
    · rintro ⟨y, hy, hsame, rfl⟩
      obtain rfl := hunique x hmem y hy (hdigest.trans hsame.symm)
      exact ⟨_, if_pos rfl⟩
  · rename_i hnone
    refine iff_of_false (fun ⟨_, h⟩ => by contradiction) ?_
    rintro ⟨x, hx, hsame, _⟩
    have hno := List.find?_eq_none.mp hnone x hx
    simp [hsame] at hno

/-- What compiling does to an engine, as what it does to the queue. -/
theorem compile_engine (he : e.Mirrors q) (bytes : List UInt8) :
    (Module.compile e bytes).2 = match Module.compileAlone e bytes with
      | .error _ => e
      | .ok m =>
        if e.config.cacheModules = false then e
        else if ∃ y ∈ q, y.digest = e.digest bytes ∧ y.bytes = bytes then e
        else e.keep (e.digest bytes) bytes m.artifact := by
  have hfound := find?_isSome_iff he.order he.digests (e.digest bytes) bytes
  unfold Module.compile Module.compileAlone
  cases Module.checkHeader bytes with
  | error err => rfl
  | ok _ =>
    dsimp only
    by_cases hoff : e.config.cacheModules = false
    · have hcached : e.cached? (e.digest bytes) bytes = none := if_neg (by rw [hoff]; decide)
      rw [hcached]
      cases Module.compileBytes e.config.features bytes with
      | error err => rfl
      | ok a =>
        have hkeep : e.keep (e.digest bytes) bytes a = e := if_neg fun h => by simp [hoff] at h
        exact hkeep.trans (if_pos hoff).symm
    · have hon : e.config.cacheModules = true := by simpa using hoff
      have hcached : e.cached? (e.digest bytes) bytes = e.cache.find? (e.digest bytes) bytes :=
        if_pos hon
      rw [hcached]
      cases hf : e.cache.find? (e.digest bytes) bytes with
      | some a =>
        rw [hf] at hfound
        have hheld := hfound.mp ⟨a, rfl⟩
        cases Module.compileBytes e.config.features bytes with
        | error err => rfl
        | ok a => exact ((if_neg hoff).trans (if_pos hheld)).symm
      | none =>
        rw [hf] at hfound
        have hnot := mt hfound.mpr fun ⟨_, h⟩ => by contradiction
        cases Module.compileBytes e.config.features bytes with
        | error err => rfl
        | ok a => exact ((if_neg hoff).trans (if_neg hnot)).symm

/-- What an engine keeps is one more in the queue. -/
theorem mirrors_keep (he : e.Mirrors q) (hon : e.config.cacheModules ≠ false) (digest : String)
    (bytes : List UInt8) (a : Artifact) :
    (e.keep digest bytes a).Mirrors (q.push e.capacity ⟨digest, bytes, a⟩) := by
  by_cases hcapacity : e.capacity = 0
  · have hkeep : e.keep digest bytes a = e := if_neg fun h => h.2 hcapacity
    have hpush : q.push e.capacity ⟨digest, bytes, a⟩ = q := if_pos hcapacity
    rw [hkeep, hpush]
    exact he
  · have hkeep : e.keep digest bytes a =
        { e with cache := e.cache.insert e.capacity digest bytes a } :=
      if_pos ⟨by simpa using hon, hcapacity⟩
    rw [hkeep]
    refine ⟨inOrder_insert he.order he.below he.digests hcapacity he.bounded bytes a, ?_,
      push_digests he.digests _, push_bounded he.bounded _, fun h => absurd h hon⟩
    intro x hx
    change x.sequence < e.cache.next + 1
    rcases List.mem_cons.mp hx with rfl | hx
    · exact Nat.lt_succ_self _
    · exact Nat.lt_succ_of_lt (he.below x (mem_of_mem_makeRoom (List.mem_filter.mp hx).1))

/-- Clearing takes all entries and leaves the number of the next one. -/
theorem mirrors_clear (e : Engine) : e.clearCache.Mirrors [] where
  order := ⟨[], .refl _, .nil, rfl⟩
  below := fun _ hx => absurd hx List.not_mem_nil
  digests := List.nodup_nil
  bounded := Nat.zero_le _
  unused := fun _ => rfl

/-- One use of an engine is one move of its queue. -/
theorem mirrors_perform (he : e.Mirrors q) (call : CacheCall) :
    (e.perform call.use).Mirrors (e.requeue q call) := by
  cases call with
  | clear => exact mirrors_clear e
  | compile bytes =>
    change (Module.compile e bytes).2.Mirrors _
    rw [compile_engine he]
    unfold Engine.requeue
    dsimp only
    cases Module.compileAlone e bytes with
    | error err => exact he
    | ok m =>
      dsimp only
      by_cases hoff : e.config.cacheModules = false
      · rw [if_pos hoff, if_pos hoff]
        exact he
      · rw [if_neg hoff, if_neg hoff]
        split
        · exact he
        · exact mirrors_keep he hoff _ _ _

/-- What an engine keeps after any calls is in the queue that the same calls lead to. -/
theorem mirrors_performAll (he : e.Mirrors q) (hlike : e.Alike f) (calls : List CacheCall) :
    (e.performAll (calls.map CacheCall.use)).Mirrors (calls.foldl f.requeue q) := by
  induction calls generalizing e q with
  | nil => exact he
  | cons call rest ih =>
    have hnext := mirrors_perform he call
    rw [requeue_congr hlike] at hnext
    exact ih hnext (engine_alike_trans (engine_alike_perform e call.use) hlike)

end Calls

/-- However often an engine compiles bytes and clears its cache, whatever the digests and its capacity
are, its cache is a queue: in the order of their numbers, all of them different, the entries are
those of the queue that a new module joins, and that the oldest leaves when there is no place; a
module that is held or refused changes nothing, and one that shares its digest with another takes
its place as the newest. So no more modules are held than the capacity allows, with one entry for a
digest, and none without capacity or if modules are not kept. Making room always ends. -/
theorem cache_is_queue (id capacity : Nat) (config : Config) (digest : List UInt8 → String)
    (calls : List CacheCall) :
    let fresh : Engine := { id, config, capacity, digest }
    let e := fresh.performAll (calls.map CacheCall.use)
    let q := calls.foldl fresh.requeue []
    Cache.InOrder e.cache.entries q ∧ e.cacheSize = q.length ∧ e.cacheSize ≤ capacity ∧
      (capacity = 0 ∨ config.cacheModules = false → e.cacheSize = 0) ∧
      (q.map Held.digest).Nodup ∧
      ∀ bytes, let evicts := Cache.Evicts capacity (digest bytes)
        (WellFounded fun left entries => evicts entries left) ∧
          ∀ entries, Relation.ReflTransGen evicts entries
              (Cache.makeRoom capacity (digest bytes) entries) ∧
            ∀ left, ¬ evicts (Cache.makeRoom capacity (digest bytes) entries) left := by
  intro fresh e q
  have halike : e.Alike fresh := engine_alike_performAll fresh _
  have hmirrors : e.Mirrors q :=
    mirrors_performAll (mirrors_clear fresh) (engine_alike_refl fresh) calls
  have hsize : e.cacheSize = q.length := length_inOrder hmirrors.order
  have hbounded : e.cacheSize ≤ capacity := by
    rw [hsize, show capacity = e.capacity from halike.capacity.symm]
    exact hmirrors.bounded
  refine ⟨hmirrors.order, hsize, hbounded, ?_, hmirrors.digests, fun bytes => ?_⟩
  · rintro (hzero | hoff)
    · exact Nat.le_zero.mp (hzero ▸ hbounded)
    · rw [hsize, hmirrors.unused ((congrArg Config.cacheModules halike.config).trans hoff)]
      rfl
  · exact ⟨evicts_wellFounded capacity _, evicts_makeRoom capacity _⟩

end WasmEmbed
