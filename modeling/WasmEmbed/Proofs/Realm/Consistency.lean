import WasmEmbed.Proofs.Realm.Frame
import WasmEmbed.Run

/-! What holds of every realm that a host can come to: numbers stand for one thing, every store has
its engine, engines keep only what compiling would give, and a store holds its token just as long as
its contents. -/
namespace WasmEmbed
variable {σ : Type}

/-- The store holds the token made for it, or is destroyed and holds none. -/
def Store.Watched (s : Store σ) : Prop := s.token = if s.isAlive then some (s.id + 1) else none

/-- What every request keeps. Numbers are below the next one, so that a new thing gets a number of
its own. -/
structure Realm.Consistent (r : Realm σ) : Prop where
  stores : (r.stores.map Store.id).Nodup
  engines : (r.engines.map Engine.id).Nodup
  storeBelow : ∀ s ∈ r.stores, s.id < r.next
  engineBelow : ∀ e ∈ r.engines, e.id < r.next
  home : ∀ s ∈ r.stores, ∃ e, r.engine? s.engine = some e
  sound : ∀ e ∈ r.engines, e.Sound
  watched : ∀ s ∈ r.stores, s.Watched

variable {r r' : Realm σ} {s t : Store σ} {e f : Engine} {q : Request σ} {a : Answer}

theorem store?_of_mem (hr : r.Consistent) (hs : s ∈ r.stores) : r.store? s.id = some s :=
  find?_of_mem Store.id s r.stores hr.stores hs

/-- The engine of a store was there before whatever comes next. -/
theorem home_lt_next (hr : r.Consistent) (hs : s ∈ r.stores) : s.engine < r.next := by
  obtain ⟨e, he⟩ := hr.home s hs
  obtain ⟨hmem, hid⟩ := engine?_eq_some he
  rw [← hid]
  exact hr.engineBelow e hmem

/-- To put a store back as it was found changes nothing. -/
theorem setStore_self (hr : r.Consistent) (hs : s ∈ r.stores) : r.setStore s = r := by
  unfold Realm.setStore
  rw [replace_self Store.id s r.stores hr.stores hs]

theorem watched_alike (h : s.Alike t) (ht : t.Watched) : s.Watched := by
  unfold Store.Watched
  rw [h.token, h.alive, h.id]
  exact ht

/-- A use leaves the token of its store as it is. -/
theorem watched_perform (hs : s.Watched) (world : σ) (u : Use σ) :
    (s.perform world u).store.Watched := by
  by_cases hu : u = .destroy
  · rw [hu]
    rfl
  · exact watched_alike (perform_alike hu) hs

/-- An engine may be replaced by a sound one of its number. -/
theorem consistent_setEngine (hr : r.Consistent) (he : r.engine? f.id = some e) (hf : f.Sound) :
    (r.setEngine f).Consistent where
  stores := hr.stores
  engines := by
    change ((r.engines.map _).map Engine.id).Nodup
    rw [map_key_replace Engine.id f r.engines]
    exact hr.engines
  storeBelow := hr.storeBelow
  engineBelow := by
    intro x hx
    rcases mem_replace Engine.id f r.engines hx with rfl | ⟨hx, _⟩
    · obtain ⟨hmem, hid⟩ := engine?_eq_some he
      rw [← hid]
      exact hr.engineBelow e hmem
    · exact hr.engineBelow x hx
  home := by
    intro s hs
    by_cases h : s.engine = f.id
    · rw [h]
      exact ⟨f, engine?_setEngine he⟩
    · rw [engine?_setEngine_of_ne h]
      exact hr.home s hs
  sound := by
    intro x hx
    rcases mem_replace Engine.id f r.engines hx with rfl | ⟨hx, _⟩
    · exact hf
    · exact hr.sound x hx
  watched := hr.watched

/-- A store may be replaced by one of its number, with its engine and token. -/
theorem consistent_setStore (hr : r.Consistent) (hs : s ∈ r.stores) (hid : t.id = s.id)
    (hengine : t.engine = s.engine) (ht : t.Watched) : (r.setStore t).Consistent where
  stores := by
    change ((r.stores.map _).map Store.id).Nodup
    rw [map_key_replace Store.id t r.stores]
    exact hr.stores
  engines := hr.engines
  storeBelow := by
    intro x hx
    rcases mem_replace Store.id t r.stores hx with rfl | ⟨hx, _⟩
    · rw [hid]
      exact hr.storeBelow s hs
    · exact hr.storeBelow x hx
  engineBelow := hr.engineBelow
  home := by
    intro x hx
    rcases mem_replace Store.id t r.stores hx with rfl | ⟨hx, _⟩
    · rw [hengine]
      exact hr.home s hs
    · exact hr.home x hx
  sound := hr.sound
  watched := by
    intro x hx
    rcases mem_replace Store.id t r.stores hx with rfl | ⟨hx, _⟩
    · exact ht
    · exact hr.watched x hx

theorem consistent_newEngine (hr : r.Consistent) (config : Config) :
    ({ r with engines := { id := r.next, config } :: r.engines, next := r.next + 1 } :
      Realm σ).Consistent where
  stores := hr.stores
  engines := by
    apply List.nodup_cons.mpr ⟨?_, hr.engines⟩
    intro h
    obtain ⟨e, he, hid⟩ := List.mem_map.mp h
    exact absurd hid (Nat.ne_of_lt (hr.engineBelow e he))
  storeBelow := fun s hs => Nat.lt_succ_of_lt (hr.storeBelow s hs)
  engineBelow := by
    intro x hx
    rcases List.mem_cons.mp hx with rfl | hx
    · exact Nat.lt_succ_self _
    · exact Nat.lt_succ_of_lt (hr.engineBelow x hx)
  home := by
    intro s hs
    obtain ⟨e, he⟩ := hr.home s hs
    have hlt := home_lt_next hr hs
    exact ⟨e, (engine?_cons_of_ne (Nat.ne_of_gt hlt)).trans he⟩
  sound := by
    intro x hx
    rcases List.mem_cons.mp hx with rfl | hx
    · exact cache_sound_clear _ {}
    · exact hr.sound x hx
  watched := hr.watched

/-- A store with the next number is like no other. -/
theorem consistent_newStore (hr : r.Consistent) (hid : s.id = r.next)
    (he : r.engine? s.engine = some e) (hs : s.Watched) :
    ({ r with stores := s :: r.stores, next := r.next + 2 } : Realm σ).Consistent where
  stores := by
    apply List.nodup_cons.mpr ⟨?_, hr.stores⟩
    intro h
    obtain ⟨t, ht, heq⟩ := List.mem_map.mp h
    exact absurd (heq.trans hid) (Nat.ne_of_lt (hr.storeBelow t ht))
  engines := hr.engines
  storeBelow := by
    intro x hx
    change x.id < r.next + 2
    rcases List.mem_cons.mp hx with rfl | hx
    · omega
    · have hlt := hr.storeBelow x hx
      omega
  engineBelow := by
    intro x hx
    change x.id < r.next + 2
    have hlt := hr.engineBelow x hx
    omega
  home := by
    intro x hx
    rcases List.mem_cons.mp hx with rfl | hx
    · exact ⟨e, he⟩
    · exact hr.home x hx
  sound := hr.sound
  watched := by
    intro x hx
    rcases List.mem_cons.mp hx with rfl | hx
    · exact hs
    · exact hr.watched x hx

theorem consistent_drop (hr : r.Consistent) (id : Nat) : (r.drop id).Consistent where
  stores := hr.stores.sublist (List.Sublist.map _ List.filter_sublist)
  engines := hr.engines
  storeBelow := fun s hs => hr.storeBelow s (List.mem_of_mem_filter hs)
  engineBelow := hr.engineBelow
  home := fun s hs => hr.home s (List.mem_of_mem_filter hs)
  sound := hr.sound
  watched := fun s hs => hr.watched s (List.mem_of_mem_filter hs)

theorem consistent_world (hr : r.Consistent) (world : σ) :
    ({ r with world } : Realm σ).Consistent :=
  ⟨hr.stores, hr.engines, hr.storeBelow, hr.engineBelow, hr.home, hr.sound, hr.watched⟩

/-- A store is made with the token that `Watched` asks for, its number plus one. -/
theorem consistent_answers (hr : r.Consistent) (h : r.Answers q a r') : r'.Consistent := by
  cases h with
  | noEngine => exact hr
  | noStore => exact hr
  | refused => exact hr
  | engine he =>
    rw [engine_create_ok he]
    exact consistent_newEngine hr _
  | @module id e he src =>
    obtain ⟨hmem, hid⟩ := engine?_eq_some he
    refine consistent_setEngine hr (e := e) ?_ (engine_sound_load (hr.sound _ hmem) src)
    rw [(engine_alike_load e src).id, hid]
    exact he
  | @cleared id e he =>
    obtain ⟨hmem, hid⟩ := engine?_eq_some he
    refine consistent_setEngine hr (e := e) ?_ (cache_sound_clear _ _)
    change r.engine? e.id = some e
    rw [hid]
    exact he
  | @store id limits e s he hs =>
    obtain ⟨c, _, rfl⟩ := store_create_ok hs
    refine consistent_newStore hr (e := e) rfl ?_ rfl
    change r.engine? e.id = some e
    rw [(engine?_eq_some he).2]
    exact he
  | @used id s hs u =>
    have hmem := (store?_eq_some hs).1
    have hwatched := watched_perform (hr.watched s hmem) r.world u
    have hset := consistent_setStore hr hmem (perform_id s r.world u) (perform_engine s r.world u)
      hwatched
    exact consistent_world hset _
  | dropped hs => exact consistent_drop hr _

/-- Every request keeps a realm consistent, also one that a host could not make. -/
theorem consistent_perform (hr : r.Consistent) (q : Request σ) : (r.perform q).2.Consistent :=
  consistent_answers hr (perform_answers r q)

/-- Every run leads to a consistent realm. -/
theorem consistent_of_run {history : List (Event σ)} (h : Run history r) : r.Consistent := by
  induction h with
  | start world =>
    constructor
    · exact List.nodup_nil
    · exact List.nodup_nil
    all_goals
      intro x hx
      exact absurd hx List.not_mem_nil
  | request before q given ih => exact consistent_perform ih q
  | elsewhere before world ih => exact consistent_world ih world

/-- A host with an engine and two stores that are empty. -/
def Realm.pair : Realm Unit where
  engines := [{ id := 0, config := {} }]
  stores := [⟨3, 0, {}, some { heap := { limit := none }, fuel := none }, some 4⟩,
    ⟨1, 0, {}, some { heap := { limit := none }, fuel := none }, some 2⟩]
  next := 5
  world := ()

def pairHistory : List (Event Unit) :=
  [⟨.newEngine {}, .reply (.ok (.engine 0)) none⟩, ⟨.newStore 0 {}, .reply (.ok (.store 1)) none⟩,
    ⟨.newStore 0 {}, .reply (.ok (.store 3)) none⟩]

theorem run_pair : Run pairHistory Realm.pair := by
  have hengine := (Run.start ()).request (.newEngine {}) trivial
  have hfirst := hengine.request (.newStore 0 {}) List.mem_cons_self
  exact hfirst.request (.newStore 0 {}) List.mem_cons_self

end WasmEmbed
