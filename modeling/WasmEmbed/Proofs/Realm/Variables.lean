import WasmEmbed.Proofs.Realm.Placing
import WasmEmbed.Proofs.Store.Frame
import WasmEmbed.Proofs.Store.Sharing

/-! The variables of live stores, in every run: when a value of the host is taken and which of several
reasons is told when it is not, what is read afterwards, and that a constant never changes. -/
namespace WasmEmbed
variable {σ : Type}

/-- Why a variable does not take a value of the host. Of several reasons the first counts. -/
inductive Global.Refuses (x : Global) (s : Store σ) (value : HostValue) : Error → Prop where
  | foreign (hstore : x.store.id ≠ s.id) : Refuses x s value (.storeMismatch "global")
  | destroyed (hstore : x.store.id = s.id) (hdead : s.isAlive = false) :
    Refuses x s value (.useAfterFree "global")
  | constant (hstore : x.store.id = s.id) (halive : s.isAlive = true)
    (hconstant : x.type.isMutable = false) : Refuses x s value (.immutableGlobal x.name)
  | unfit {expected got : String} (hstore : x.store.id = s.id) (halive : s.isAlive = true)
    (hmutable : x.type.isMutable = true)
    (hcoerce : coerce value x.type.content .global 0 = .error (.type .global 0 expected got)) :
    Refuses x s value (.type .global 0 expected got)

/-- What comes of writing values of the host through a handle. What is refused changes nothing. Else
all handles of the variable read what the value was converted to, and all else is as it was. -/
structure Global.Assigns (x : Global) (s : Store σ) : Prop where
  refused : ∀ world value e, x.Refuses s value e →
    s.perform world (.setGlobal x value) = ⟨.error e, none, s, world⟩
  written : ∀ world value, (∀ e, ¬ x.Refuses s value e) → ∃ v t,
    coerce value x.type.content .global 0 = .ok v ∧
      s.perform world (.setGlobal x value) = ⟨.ok .done, none, t, world⟩ ∧
      s.SameBut t .global x.addr ∧
      ∀ y : Global, y.store.id = s.id → y.addr = x.addr → y.get t = .ok v

/-- A constant reads as it did at every moment since the host had the handle, and is one and the same
in every state that code comes to which is executed in the store. -/
structure Global.Constant (x : Global) (ms : List (Moment σ)) (s : Store σ) : Prop where
  kept : ∀ earlier m later, ms = earlier ++ m :: later →
    (Item.global x).Given (earlier.map Moment.event) → ∀ t ∈ m.realm.stores, t.id = s.id →
      x.get s = x.get t
  running : x.store.id = s.id → ∀ c, s.contents = some c → ∃ g, c.heap.globals[x.addr]? = some g ∧
    ∀ world u instantiation back addr args m, s.Runs world u instantiation back addr args →
      back.Reaches s.maxFrames addr args m → m.resources.heap.globals[x.addr]? = some g

variable {ms : List (Moment σ)} {history : List (Event σ)} {r : Realm σ} {s t : Store σ}
  {c d : Contents σ} {x : Global} {value : HostValue} {world : σ} {e : Error} {addr : Nat}
  {g : GlobalObj}

section Assigning

/-- Each reason to refuse an assignment comes before those behind it. -/
theorem set_refused (h : x.Refuses s value e) : x.set s value = .error e := by
  unfold Global.set
  cases h with
  | foreign hstore =>
    rw [contentsFor_foreign hstore]
    rfl
  | destroyed hstore hdead =>
    rw [contentsFor_destroyed hstore ((isAlive_eq_false_iff s).mp hdead)]
    rfl
  | constant hstore halive hconstant =>
    obtain ⟨c, hc⟩ := (isAlive_iff s).mp halive
    rw [contentsFor_live hstore hc, hconstant]
    rfl
  | unfit hstore halive hmutable hcoerce =>
    obtain ⟨c, hc⟩ := (isAlive_iff s).mp halive
    rw [contentsFor_live hstore hc, hmutable, hcoerce]
    rfl

/-- What is not refused is written: no check but these is made. -/
theorem set_written (h : ∀ e, ¬ x.Refuses s value e) : ∃ c v, x.store.id = s.id ∧
    s.contents = some c ∧ x.type.isMutable = true ∧ coerce value x.type.content .global 0 = .ok v ∧
    x.set s value =
      .ok (s.withContents { c with heap := c.heap.perform (.global x.addr (.val v)) }) := by
  have hstore : x.store.id = s.id := by
    by_contra hne
    exact h _ (.foreign hne)
  have halive : s.isAlive = true := by
    by_contra hdead
    exact h _ (.destroyed hstore (Bool.eq_false_iff.mpr hdead))
  have hmutable : x.type.isMutable = true := by
    by_contra hconstant
    exact h _ (.constant hstore halive (Bool.eq_false_iff.mpr hconstant))
  obtain ⟨c, hc⟩ := (isAlive_iff s).mp halive
  cases hcoerce : coerce value x.type.content .global 0 with
  | error e =>
    obtain ⟨_, rfl⟩ := (coerce_error_iff value x.type.content .global 0 e).mp hcoerce
    exact absurd (.unfit hstore halive hmutable hcoerce) (h _)
  | ok v =>
    refine ⟨c, v, hstore, hc, hmutable, rfl, ?_⟩
    unfold Global.set
    rw [contentsFor_live hstore hc, hmutable, hcoerce]
    rfl

/-- A variable that is held is assigned to, or the assignment is refused for the first reason. -/
theorem assigns_of_held
    (hheld : ∀ c, s.contents = some c → x.store.id = s.id → c.heap.Holds x.addr (.global x.type)) :
    x.Assigns s where
  refused := by
    intro world value e h
    exact update_refused (set_refused h) world
  written := by
    intro world value h
    obtain ⟨c, v, hstore, hc, hmutable, hcoerce, hset⟩ := set_written h
    obtain ⟨g, hg, htype⟩ := hheld c hc hstore
    have hhas : x.Has s g.value := ⟨c, g, hc, hg, htype, rfl⟩
    have hafter := has_of_set hc hhas hmutable (makes_coerce _ _ _ _ _ hcoerce)
    refine ⟨v, s.withContents { c with heap := c.heap.perform (.global x.addr (.val v)) }, hcoerce,
      ?_, ?_, ?_⟩
    · exact update_done hset world
    · exact sameBut_withContents hc rfl
    · -- a read tells a handle by its address alone, so that `y` reads what `x` has
      intro y hy haddr
      obtain ⟨d, k, hd, hk, _, hvalue⟩ := hafter
      rw [← haddr] at hk
      have hread := store_sharesGlobal hd (thing?_of_global hk) y hy rfl
      rw [hread, hvalue]
      rfl

end Assigning

section Constants

theorem globalObj_ext {k : GlobalObj} (htype : k.type = g.type) (hvalue : k.value = g.value) :
    k = g := by
  cases g
  cases k
  simp only [GlobalObj.mk.injEq]
  exact ⟨htype, hvalue⟩

/-- A constant is the same wherever things have only become what they may become. -/
theorem constant_of_grows {h k : Heap σ} (hgrows : h.Grows k) (hg : h.globals[addr]? = some g)
    (hconstant : g.type.isMutable = false) : k.globals[addr]? = some g := by
  obtain ⟨g', hg', hbecomes⟩ := hgrows.globals addr g hg
  rw [hg', globalObj_ext hbecomes.type (hbecomes.constant hconstant)]

/-- A variable that the host was given is there, with the type that its handle tells. -/
theorem variable_of_given (hr : Run history r) (hs : r.store? s.id = some s)
    (hc : s.contents = some c) (hx : (Item.global x).Given history) (hstore : x.store.id = s.id) :
    ∃ g, c.heap.globals[x.addr]? = some g ∧ g.type = x.type :=
  (keeps_of_run hr hs hc).holds (.global x) hx hstore

/-- A constant variable has the value that it had when the host was given it. -/
theorem constant_kept {earlier later : List (Moment σ)} {m : Moment σ} (h : Course ms r)
    (hs : s ∈ r.stores) (hc : s.contents = some c) (hconstant : x.type.isMutable = false)
    (hms : ms = earlier ++ m :: later) (hx : (Item.global x).Given (earlier.map Moment.event))
    (ht : t ∈ m.realm.stores) (hid : t.id = s.id) : x.get s = x.get t := by
  have hbefore := run_of_course (course_before h hms)
  have hfound := store?_of_mem (consistent_of_run (run_of_course h)) hs
  have hthere := store?_of_mem (consistent_of_run hbefore) ht
  have hm : m ∈ ms := by
    rw [hms]
    exact List.mem_append_right _ List.mem_cons_self
  obtain ⟨b, hb, hgrows⟩ := heap_grows_of_course h hfound hc hm (hid ▸ hthere)
  by_cases hstore : x.store.id = t.id
  · obtain ⟨g, hg, htype⟩ := variable_of_given hbefore hthere hb hx hstore
    have hkept := constant_of_grows hgrows hg (by rw [htype, hconstant])
    apply get_same hid.symm hb hc
    rw [thing?_of_global hkept, thing?_of_global hg]
  · -- both stores refuse the handle for the same reason
    have hstore' : x.store.id ≠ s.id := by rwa [← hid]
    rw [Global.get, Global.get, contentsFor_foreign hstore, contentsFor_foreign hstore']

/-- A constant variable has one value at all moments. -/
theorem constant_of_course (h : Course ms r) (hs : s ∈ r.stores) (halive : s.isAlive = true)
    (hx : (Item.global x).Given (ms.map Moment.event)) (hconstant : x.type.isMutable = false) :
    x.Constant ms s where
  kept := by
    intro earlier m later hms hbefore t ht hid
    obtain ⟨c, hc⟩ := (isAlive_iff s).mp halive
    exact constant_kept h hs hc hconstant hms hbefore ht hid
  running := by
    intro hstore c hc
    have hr := run_of_course h
    have hfound := store?_of_mem (consistent_of_run hr) hs
    obtain ⟨g, hg, htype⟩ := variable_of_given hr hfound hc hx hstore
    refine ⟨g, hg, ?_⟩
    intro world u instantiation back addr args m hruns hreaches
    have hgrows := grows_trans (runs_grows hruns hc) (reaches_grows hreaches)
    exact constant_of_grows hgrows hg (by rw [htype, hconstant])

end Constants

/-- In every run, and for every store and variable: a value of the host is refused for the first of
these reasons that there is, and then nothing changes: the variable is of another store, the store is
destroyed, the variable is a constant, the value does not convert to its type. Any other value is
written: all handles of the variable read what it was converted to, and all else in the store is as
it was. A constant reads the same at all times, whatever is executed and done. -/
theorem global_assignment_exact (h : Course ms r) (hs : s ∈ r.stores)
    (hx : (Item.global x).Given (ms.map Moment.event)) :
    x.Assigns s ∧ (s.isAlive = true → x.type.isMutable = false → x.Constant ms s) := by
  have hr := run_of_course h
  have hfound := store?_of_mem (consistent_of_run hr) hs
  constructor
  · apply assigns_of_held
    intro c hc hstore
    exact variable_of_given hr hfound hc hx hstore
  · intro halive hconstant
    exact constant_of_course h hs halive hx hconstant

/-- The bytes of a module that exports a variable and a constant. -/
def gaugeBytes : List UInt8 :=
  [0, 97, 115, 109, 1, 0, 0, 0, 6, 11, 2, 127, 1, 65, 7, 11, 127, 0, 65, 42, 11, 7, 9, 2, 1, 118, 3, 0,
    1, 107, 3, 1]

def gaugeModule : Module where
  engine := 0
  artifact := {
    globals := [⟨⟨.i32, true⟩, [.const (.i32 7)]⟩, ⟨⟨.i32, false⟩, [.const (.i32 42)]⟩]
    exports := [⟨"v", .global, 0⟩, ⟨"k", .global, 1⟩] }
  exports := [⟨"v", .global ⟨.i32, true⟩⟩, ⟨"k", .global ⟨.i32, false⟩⟩]
  imports := []
  contentHash := SipHash.contentDigest gaugeBytes

def gaugeVariable : Global := ⟨⟨1, 2⟩, "v", ⟨.i32, true⟩, 0⟩

def gaugeConstant : Global := ⟨⟨1, 2⟩, "k", ⟨.i32, false⟩, 1⟩

def gaugeInstance : Instance :=
  ⟨⟨1, 2⟩, 0, gaugeModule, [("v", .global gaugeVariable), ("k", .global gaugeConstant)]⟩

def gaugeHistory : List (Event Unit) :=
  [⟨.newEngine {}, .reply (.ok (.engine 0)) none⟩,
    ⟨.newStore 0 {}, .reply (.ok (.store 1)) none⟩,
    ⟨.compile 0 (.bytes gaugeBytes), .reply (.ok (.module gaugeModule)) none⟩,
    ⟨.use 1 (.instantiate gaugeModule {}), .reply (.ok (.instance gaugeInstance)) none⟩]

def Realm.gauge : Realm Unit := (({ world := () } : Realm Unit).performAll
  [.newEngine {}, .newStore 0 {}, .compile 0 (.bytes gaugeBytes),
    .use 1 (.instantiate gaugeModule {})]).2

theorem run_gauge_made : Run gaugeHistory Realm.gauge := by
  have hengine : Run (gaugeHistory.take 1) _ := (Run.start ()).request (.newEngine {}) trivial
  have hopened : Run (gaugeHistory.take 2) _ := hengine.request (.newStore 0 {}) List.mem_cons_self
  have hcompiled : Run (gaugeHistory.take 3) _ :=
    hopened.request (.compile 0 (.bytes gaugeBytes)) List.mem_cons_self
  have hmodule : gaugeModule ∈ (gaugeHistory.take 3).filterMap Event.module? :=
    List.mem_filterMap.mpr ⟨(gaugeHistory.take 3)[2], List.getElem_mem _, rfl⟩
  exact hcompiled.request (.use 1 (.instantiate gaugeModule {}))
    ⟨List.mem_cons_self, hmodule, fun e he => absurd he List.not_mem_nil⟩

theorem given_gauge {x : Item}
    (hx : ("v", x) ∈ gaugeInstance.exports ∨ ("k", x) ∈ gaugeInstance.exports) :
    x.Given gaugeHistory := by
  refine ⟨gaugeInstance, List.mem_filterMap.mpr ⟨gaugeHistory[3], List.getElem_mem _, rfl⟩, ?_⟩
  rcases hx with hx | hx
  · exact ⟨_, hx, rfl⟩
  · exact ⟨_, hx, rfl⟩

theorem gauge_store : ∃ s, Realm.gauge.store? 1 = some s ∧ s ∈ Realm.gauge.stores ∧ s.id = 1 ∧
    s.isAlive = true ∧ gaugeConstant.get s = .ok (.i32 42) :=
  ⟨_, rfl, List.mem_cons_self, rfl, rfl, rfl⟩

/-- The variable takes an integer and no null; the constant takes nothing, and is 42 all the time. -/
theorem gauge_assigned : ∃ s ∈ Realm.gauge.stores, s.isAlive = true ∧
    Run gaugeHistory Realm.gauge ∧ (Item.global gaugeVariable).Given gaugeHistory ∧
    (Item.global gaugeConstant).Given gaugeHistory ∧
    s.perform () (.setGlobal gaugeVariable .null) =
      ⟨.error (.type .global 0 "i32" "null"), none, s, ()⟩ ∧
    s.perform () (.setGlobal gaugeConstant .null) = ⟨.error (.immutableGlobal "k"), none, s, ()⟩ ∧
    ∃ t, s.perform () (.setGlobal gaugeVariable (.int 9)) = ⟨.ok .done, none, t, ()⟩ ∧
      gaugeVariable.get t = .ok (.i32 9) ∧ gaugeConstant.get t = .ok (.i32 42) := by
  obtain ⟨s, hfound, hs, hid, halive, hread⟩ := gauge_store
  obtain ⟨ms, hms, h⟩ := course_of_run run_gauge_made
  have hvariable : (Item.global gaugeVariable).Given gaugeHistory :=
    given_gauge (by simp [gaugeInstance])
  have hconstant : (Item.global gaugeConstant).Given gaugeHistory :=
    given_gauge (by simp [gaugeInstance])
  obtain ⟨hassigns, _⟩ := global_assignment_exact h hs (hms.symm ▸ hvariable)
  obtain ⟨hnever, _⟩ := global_assignment_exact h hs (hms.symm ▸ hconstant)
  have htaken : ∀ e, ¬ gaugeVariable.Refuses s (.int 9) e := by
    intro e he
    cases he with
    | foreign hstore => exact hstore hid.symm
    | destroyed _ hdead => exact absurd (halive.symm.trans hdead) (by decide)
    | constant _ _ hconstant => contradiction
    | unfit _ _ _ hcoerce => contradiction
  obtain ⟨v, t, hcoerce, hdone, hsame, hreads⟩ := hassigns.written () (.int 9) htaken
  have hnine : v = .i32 9 := (Except.ok.inj hcoerce).symm
  refine ⟨s, hs, halive, run_gauge_made, hvariable, hconstant, ?_, ?_, t, hdone, ?_, ?_⟩
  · exact hassigns.refused () .null _ (.unfit hid.symm halive rfl rfl)
  · -- null is no integer either, but a constant is refused before the value is looked at
    exact hnever.refused () .null _ (.constant hid.symm halive rfl)
  · rw [← hnine]
    exact hreads gaugeVariable hid.symm rfl
  · -- the theorem once more, for the run that goes on with the assignment
    have hasked : (Request.use 1 (.setGlobal gaugeVariable (.int 9))).Given
        (ms.map Moment.event) := by
      rw [hms]
      exact ⟨List.mem_cons_self, hvariable⟩
    have hlater := h.request _ hasked
    rw [perform_use hfound] at hlater
    have hleft := (store?_eq_some (store?_after hfound (.setGlobal gaugeVariable (.int 9)))).1
    have hsettled : s.perform Realm.gauge.world (.setGlobal gaugeVariable (.int 9)) = _ := hdone
    rw [hsettled] at hlater hleft
    have hlive : t.isAlive = true := hsame.alike.alive.trans halive
    have hbefore : (Item.global gaugeConstant).Given (ms.map Moment.event) := hms.symm ▸ hconstant
    have hthere : (Item.global gaugeConstant).Given ((ms ++ [Moment.mk Realm.gauge
        (.use 1 (.setGlobal gaugeVariable (.int 9)))]).map Moment.event) := by
      rw [List.map_append]
      exact given_append.mpr (Or.inl hbefore)
    obtain ⟨_, hkept⟩ := global_assignment_exact hlater hleft hthere
    rw [(hkept hlive rfl).kept ms _ [] rfl hbefore s hs hsame.alike.id.symm, hread]

end WasmEmbed
