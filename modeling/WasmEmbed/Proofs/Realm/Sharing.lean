import WasmEmbed.Proofs.Failure.Callback
import WasmEmbed.Proofs.Realm.Placing
import WasmEmbed.Proofs.Store.Sharing

/-! Linking shares. The import of an instance is the very thing that it was defined by: whoever leads to
it, be it a handle or an index of some instance, reads what was last written to it, by whomever; and
what an instance declares itself nobody had before. -/
namespace WasmEmbed
open WasmEmbed.Code
variable {σ : Type}

/-- The instance at a place knows the thing with an address by an index. -/
def Heap.Leads (h : Heap σ) (place : Nat) (kind : ExternKind) (i addr : Nat) : Prop :=
  ∃ l, h.links[place]? = some l ∧ (l.addrs kind)[i]? = some addr

/-- The handles and the code of an instance that was made with these imports lead to the same things:
an export is what its index stands for, and an import is what it was defined by. -/
structure Instance.Linked (i : Instance) (imports : Imports σ) (place : Nat) (h : Heap σ) : Prop where
  names : i.exports.map Prod.fst = i.module.artifact.exports.map (·.name)
  exported : ∀ (k : Nat) (e : Export), i.module.artifact.exports[k]? = some e →
    ∃ x, i.exports[k]? = some (e.name, x) ∧ x.type.kind = e.kind ∧
      h.Leads place e.kind e.index x.addr ∧ h.Holds x.addr x.type
  imported : ∀ (k : Nat) (imp : ImportType) (x : Item), i.module.imports[k]? = some imp →
    imports.get? imp.module imp.name = some (.item x) → x.type = imp.type ∧
      h.Leads place imp.type.kind (importIndex i.module.imports imp.type.kind k) x.addr
  code : ∀ j addr : Nat, importCount i.module.imports .function ≤ j →
    h.Leads place .function j addr →
      ∃ c, h.funcs[addr]? = some (.code c) ∧ c.link = place

/-- The import with a number of the instance `C` at the place `q` is the thing `y` that the instance `P`
at the place `p` exports: each has an index for it, and whatever of `C` exports the import again is
a handle of it. -/
structure Heap.Shared (h : Heap σ) (p q : Nat) (P C : Instance) (k n : Nat) (y : Item) : Prop where
  exporter : ∃ e, P.module.artifact.exports[k]? = some e ∧ y.type.kind = e.kind ∧
    h.Leads p e.kind e.index y.addr
  importer : ∃ imp, C.module.imports[n]? = some imp ∧ imp.type = y.type ∧
    h.Leads q y.type.kind (importIndex C.module.imports y.type.kind n) y.addr
  again : ∀ (j : Nat) (e : Export), C.module.artifact.exports[j]? = some e →
    e.kind = y.type.kind → e.index = importIndex C.module.imports y.type.kind n →
      ∃ z, C.exports[j]? = some (e.name, z) ∧ z.type.kind = y.type.kind ∧ z.addr = y.addr

/-- Of all that is read and written through handles of the store: each reads what its thing is, and what
is written through one the thing is from then on. -/
structure Store.Shares (s : Store σ) (c : Contents σ) (history : List (Event σ)) : Prop where
  globals : ∀ addr g, c.heap.thing? .global addr = some (.global g) → s.SharesGlobal addr g
  memories : ∀ addr t pages bytes, c.heap.thing? .memory addr = some (.memory t pages bytes) →
    s.SharesMemory addr pages bytes
  setGlobal : ∀ (world : σ) (x : Global) (value : HostValue), (Item.global x).Given history →
    x.store.id = s.id → s.HostWrites c world (.setGlobal x value)
  writeMemory : ∀ (world : σ) (x : Memory) (offset : Nat) (bytes : List UInt8),
    (Item.memory x).Given history → x.store.id = s.id →
      s.HostWrites c world (.writeMemory x offset bytes)
  growMemory : ∀ (world : σ) (x : Memory) (delta : Nat), x.store.id = s.id →
    s.HostWrites c world (.growMemory x delta)

/-- Of all that code reads and writes where it has come to in a use with these writes: things are what
the writes until then have made of them, it reads what they are, and what it writes they are from then
on. It gets at no thing that its instance does not know. -/
structure Machine.Shares (m : Machine σ) (c : Contents σ) (log : List Write) : Prop where
  now : ∃ done rest, log = done ++ (m.asks ++ rest) ∧
    ∀ kind addr x, c.heap.thing? kind addr = some x →
      m.resources.heap.thing? kind addr = some (x.replay c.heap.limit kind addr done)
  step : m.step.resources.heap = m.resources.heap.performAll m.asks
  known : ∀ w ∈ m.asks, ∀ kind addr, w.target = some (kind, addr) →
    ∃ i, m.resources.heap.Leads m.frame.link kind i addr
  globals : ∀ addr g, m.resources.heap.thing? .global addr = some (.global g) →
    m.SharesGlobal addr g
  memories : ∀ addr t pages bytes,
    m.resources.heap.thing? .memory addr = some (.memory t pages bytes) →
      m.SharesMemory addr t pages bytes
  written : ∀ w ∈ m.asks, ∀ kind addr, w.target = some (kind, addr) → kind ≠ .table →
    m.resources.heap.Written m.step.resources.heap w

variable {ms earlier later : List (Moment σ)} {m m₁ m₂ : Moment σ} {r : Realm σ} {s t : Store σ}
  {b c d : Contents σ} {i P C : Instance} {imports imports₁ imports₂ : Imports σ}
  {h before before₁ before₂ : Heap σ} {l : Link} {kind : ExternKind} {addr place id : Nat} {x y : Item}
  {world : σ} {u : Use σ} {instantiation : Bool} {back : Resources σ} {args : List Operand}

section Routes

/-- Where there is an instance, an index leads to the address in its index space. -/
theorem leads_iff (hl : h.links[place]? = some l) {j : Nat} :
    h.Leads place kind j addr ↔ (l.addrs kind)[j]? = some addr := by
  constructor
  · rintro ⟨l', hl', haddr⟩
    rw [Option.some.inj (hl.symm.trans hl')]
    exact haddr
  · exact fun haddr => ⟨l, hl, haddr⟩

/-- An instance that is placed knows what it imports by the addresses that it was given. -/
theorem linked_of_placed (hvalid : i.module.artifact.Valid) (hp : i.Placed imports before h l) :
    i.Linked imports before.links.size h := by
  refine ⟨?_, ?_, ?_, ?_⟩
  · rw [hp.exports, Instance.handles]
    exact List.ext_getElem (by simp) fun j _ _ => by simp
  · -- an export was given its address when the instance was made, and that is typed as exported
    intro k e he
    obtain ⟨hk, rfl⟩ := List.getElem?_eq_some_iff.mp he
    have hexport := externType_eq (hvalid.exports _ (List.getElem_mem hk))
    obtain ⟨addr, haddr, hheld⟩ := typed_addr hp.typed hexport
    refine ⟨Item.ofType i.store i.id k i.module.artifact.exports[k].name addr
      (i.module.artifact.externType i.module.artifact.exports[k].kind
        i.module.artifact.exports[k].index), ?_, ?_, ?_, ?_⟩
    · rw [hp.exports, Instance.handles, List.getElem?_mapIdx, he, Option.map_some, addr_eq haddr]
    · rw [Item.type_ofType]
      cases i.module.artifact.exports[k].kind <;> rfl
    · rw [addr_ofType]
      exact ⟨l, hp.found, haddr⟩
    · rw [addr_ofType, Item.type_ofType]
      exact hheld
  · intro k imp x hk hx
    obtain ⟨htype, haddr⟩ := hp.imported k imp x hk hx
    exact ⟨htype, l, hp.found, haddr⟩
  · intro j addr hj hleads
    exact hp.code j addr hj ((leads_iff hp.found).mp hleads)

/-- An instance is made of a module that the host was given, which is a valid one. It was given
before the moment, so the course until then tells that it is valid. -/
theorem valid_of_makes (hcourse : Course ms r) (hm : m ∈ ms)
    (hmakes : m.Makes id i imports before) : i.module.Valid := by
  induction hcourse with
  | start world => exact absurd hm List.not_mem_nil
  | elsewhere before world ih => exact ih hm
  | @request ms r hcourse q given ih =>
    rcases mem_snoc hm with hold | rfl
    · exact ih hold
    · rw [show q = _ from hmakes.request] at given
      exact valid_of_run (run_of_course hcourse) _ given.2.1

/-- In every course an instance goes on to know what it was linked with. -/
theorem linked_of_course (hcourse : Course ms r) (hs : s ∈ r.stores) (hc : s.contents = some c)
    (hm : m ∈ ms) (hmakes : m.Makes s.id i imports before) :
    i.Linked imports before.links.size c.heap := by
  have hfound := store?_of_mem (consistent_of_run (run_of_course hcourse)) hs
  obtain ⟨l, hp⟩ := placed_of_course hcourse hfound hc hm hmakes
  exact linked_of_placed (valid_of_makes hcourse hm hmakes).artifact hp

/-- Defining by an instance defines each export under its name. -/
theorem defineInstance_of_linked (hvalid : P.module.artifact.Valid) (hP : P.Linked imports place h)
    (t : Imports σ) (module : String) {name : String} (hx : (name, x) ∈ P.exports) :
    (t.defineInstance module P).get? module name = some (.item x) :=
  get?_defineAll t module (hP.names ▸ hvalid.names) hx

/-- An import that was defined by an export is what is exported. -/
theorem shared_of_linked {p q k n : Nat} {name : String} {imp : ImportType}
    (hP : P.Linked imports₁ p h) (hC : C.Linked imports₂ q h) (hk : P.exports[k]? = some (name, y))
    (hn : C.module.imports[n]? = some imp)
    (hx : imports₂.get? imp.module imp.name = some (.item x)) (hfresh : x.fresh = y.fresh) :
    h.Shared p q P C k n y := by
  obtain ⟨_, haddr, htype⟩ := fresh_eq hfresh
  obtain ⟨himported, himporter⟩ := hC.imported n imp x hn hx
  rw [← himported, haddr, htype] at himporter
  refine ⟨?_, ⟨imp, hn, himported.symm.trans htype, himporter⟩, ?_⟩
  · -- there are as many handles as exports
    have hlength := congrArg List.length hP.names
    rw [List.length_map, List.length_map] at hlength
    have hlt := (List.getElem?_eq_some_iff.mp hk).1
    rw [hlength] at hlt
    have he := List.getElem?_eq_getElem hlt
    obtain ⟨y', hy', hkind, hleads, _⟩ := hP.exported k _ he
    obtain ⟨_, rfl⟩ := Prod.mk.inj (Option.some.inj (hk.symm.trans hy'))
    exact ⟨_, he, hkind, hleads⟩
  · -- the export and the import go by one index, which leads to one address only
    intro j e he hkind hindex
    obtain ⟨z, hz, hzkind, hleads, _⟩ := hC.exported j e he
    obtain ⟨l, hl, hzaddr⟩ := hleads
    rw [hkind, hindex, ← leads_iff hl] at hzaddr
    obtain ⟨l', hl', hyaddr⟩ := himporter
    obtain ⟨l'', hl'', hzaddr⟩ := hzaddr
    obtain rfl := Option.some.inj (hl'.symm.trans hl'')
    exact ⟨z, hz, hzkind.trans hkind, Option.some.inj (hzaddr.symm.trans hyaddr)⟩

/-- What an instance declares itself, no instance has that was made before. All that the first one
knows was there when the second one was made, whose own things were put behind all that. -/
theorem own_of_course (hcourse : Course ms r) (hs : s ∈ r.stores) (hc : s.contents = some c)
    (hms : ms = earlier ++ m₂ :: later) (hm₁ : m₁ ∈ earlier)
    (hP : m₁.Makes s.id P imports₁ before₁) (hC : m₂.Makes s.id C imports₂ before₂) {j k a b : Nat}
    (hj : importCount C.module.imports kind ≤ j) (ha : c.heap.Leads before₁.links.size kind k a)
    (hb : c.heap.Leads before₂.links.size kind j b) : a ≠ b := by
  have hfound := store?_of_mem (consistent_of_run (run_of_course hcourse)) hs
  have hmem₂ : m₂ ∈ ms := by simp [hms]
  obtain ⟨t, c₂, ht, hc₂, rfl⟩ := hC.found
  obtain ⟨l₁, hp₁⟩ := placed_of_course (course_before hcourse hms) ht hc₂ hm₁ hP
  obtain ⟨b₂, hb₂, hgrows⟩ := heap_grows_of_course hcourse hfound hc hmem₂ ht
  obtain rfl := Option.some.inj (hc₂.symm.trans hb₂)
  obtain ⟨l₁', hfound₁, hbecomes⟩ := hgrows.links _ l₁ hp₁.found
  have ha := (leads_iff hfound₁).mp ha
  rw [addrs_becomes hbecomes] at ha
  have hknown : a < c₂.heap.count kind := lt_count_of_typed hp₁.typed ha
  obtain ⟨l₂, hp₂⟩ := placed_of_course hcourse hfound hc hmem₂ hC
  have hnew := hp₂.own kind j b hj ((leads_iff hp₂.found).mp hb)
  omega

end Routes

section Host
variable {history : List (Event σ)}

/-- Reading asks only for the thing, writing also for a handle that tells its type. -/
theorem store_shares (hr : Run history r) (hs : s ∈ r.stores) (hc : s.contents = some c) :
    s.Shares c history := by
  have hkeeps := keeps_of_run hr (store?_of_mem (consistent_of_run hr) hs) hc
  refine ⟨?_, ?_, ?_, ?_, ?_⟩
  · intro addr g hg
    exact store_sharesGlobal hc hg
  · intro addr t pages bytes ho
    exact store_sharesMemory hc ho
  · intro world x value hx hstore
    exact hostWrites_global hc (hkeeps.holds (.global x) hx hstore)
  · intro world x offset bytes hx hstore
    exact hostWrites_bytes hc (hkeeps.holds (.memory x) hx hstore)
  · intro world x delta hstore
    exact hostWrites_pages hc

end Host

section Code
variable {code : Machine σ} {w : Write} {maxFrames : Nat}

/-- A use that runs a function does its writes last; before come those of the segments, if an
instance is made. Without bulk memory operations the segments were checked before any was copied. -/
theorem runs_log (hruns : s.Runs world u instantiation back addr args) (hc : s.contents = some c) :
    ∃ h done, c.heap.Adjoins h ∧ back.heap = h.performAll done ∧
      s.log world u = done ++ back.log s.maxFrames addr args := by
  have hlive := live_of_contents hc
  cases hruns with
  | @call f args vs c' hfor hargs =>
    obtain rfl := Option.some.inj (hc.symm.trans (contentsFor_ok hfor).2)
    refine ⟨c.heap, [], adjoins_refl c.heap, rfl, ?_⟩
    simp only [Store.log, Func.log, hlive, hargs]
    rfl
  | @callTyped f args vs c' hfor hargs =>
    obtain rfl := Option.some.inj (hc.symm.trans (contentsFor_ok hfor).2)
    refine ⟨c.heap, [], adjoins_refl c.heap, rfl, ?_⟩
    simp only [Store.log, Func.log, hlive, hargs]
    rfl
  | @start m imports before copied imported l i hlinked hcopied hstart =>
    obtain @⟨ref, c', ds, heap, imported, href, hc', hm, hds, hprovided⟩ := hlinked
    obtain rfl := Option.some.inj (hc.symm.trans hc')
    obtain @⟨heap', place, failed, after, halloc, hfits, hcopy⟩ := hcopied
    have hbeside := adjoins_provideAll c.heap {} ds
    rw [hprovided] at hbeside
    have hcopied := copyActive_heap { heap := heap', fuel := c.fuel, world } m.artifact
      (heap'.link place)
    rw [hcopy] at hcopied
    have hcheck : (if s.config.bulkMemory then .ok ()
        else heap'.checkSegments m.artifact (heap'.link place) : Except Error Unit) = .ok () := by
      rcases hfits with hbulk | hcheck
      · rw [hbulk]
        rfl
      · rw [hcheck, ite_self]
    refine ⟨heap', _, adjoins_trans hbeside (adjoins_allocate halloc), hcopied, ?_⟩
    simp only [Store.log, Instance.log, href, hm, ne_eq, not_true, if_false, hds, hlive,
      Instance.buildLog, hprovided, Resources.makeLog, Contents.resources, halloc, hcheck, hcopy,
      hstart]

/-- Where code has come to, its writes so far are done, and those that it asks for come next. -/
theorem visits_log (hvisits : back.Visits maxFrames addr args code) :
    ∃ done rest, back.log maxFrames addr args = done ++ (code.asks ++ rest) ∧
      code.resources.heap = back.heap.performAll done := by
  obtain ⟨n, start, hn, hinvoke, hsteps⟩ := hvisits
  have hstart := invoke_heap back maxFrames [] addr args.reverse
  rw [hinvoke] at hstart
  have hstart : start.resources.heap = back.heap := hstart
  obtain ⟨bound, hbound⟩ : ∃ bound, maxSteps = n + (bound + 1) := ⟨maxSteps - n - 1, by omega⟩
  obtain ⟨rest, hrest⟩ : ∃ rest, code.log (bound + 1) = code.asks ++ rest := ⟨_, rfl⟩
  refine ⟨start.log n, rest, ?_, ?_⟩
  · unfold Resources.log
    rw [hinvoke]
    dsimp only
    rw [hbound, log_of_steps hsteps, hrest]
  · rw [steps_log hsteps, hstart]

/-- Where there is no instance, no index leads anywhere. -/
theorem leads_of_known {j : Nat} (hj : ((h.link place).addrs kind)[j]? = some addr) :
    h.Leads place kind j addr := by
  unfold Heap.link at hj
  rw [Array.getD_eq_getD_getElem?] at hj
  cases hl : h.links[place]? with
  | some l =>
    rw [hl] at hj
    exact ⟨l, hl, hj⟩
  | none =>
    rw [hl] at hj
    cases kind <;> simp [Link.addrs] at hj

/-- Whatever code comes to, it shares the things of the store with all others. -/
theorem code_shares {history : List (Event σ)} (hr : Run history r) (hs : s ∈ r.stores)
    (hc : s.contents = some c) (given : u.Given history)
    (hruns : s.Runs world u instantiation back addr args)
    (hvisits : back.Visits s.maxFrames addr args code) : code.Shares c (s.log world u) := by
  obtain ⟨owed, htyped⟩ := visits_typed (runnable_of_runs hr hs given hruns) hvisits
  obtain ⟨h, copied, hbeside, hback, hlog⟩ := runs_log hruns hc
  obtain ⟨done, rest, hdone, hheap⟩ := visits_log hvisits
  refine ⟨⟨copied ++ done, rest, ?_, ?_⟩, step_asks code, ?_, ?_, ?_, ?_⟩
  · rw [hlog, hdone, List.append_assoc]
  · intro kind addr x hx
    rw [hheap, hback, ← performAll_append, thing?_performAll (hbeside.2 kind addr x hx), hbeside.1]
  · -- what an instruction writes to is found by an index of its own instance
    intro w hw kind addr htarget
    obtain ⟨_, _, _, _, hproper⟩ := asks_of_mem hw
    obtain ⟨j, hj⟩ := known_of_proper hproper htarget
    exact ⟨j, leads_of_known hj⟩
  · intro addr g hg
    exact sharesGlobal_of_thing? hg
  · intro addr t pages bytes ho
    exact sharesMemory_of_thing? ho
  · intro w hw kind addr htarget hkind
    exact written_of_asks htyped hw htarget hkind

end Code

/-- In every run, and for every store that is there, an instance has what its imports were defined by,
one by one or all at once, and no other has had before what it declares itself. The handles of the
store and the code of all its instances read what was last written to a thing, by whomever, and it
stays as it is as long as nobody writes to it. -/
theorem linking_shares (h : Course ms r) (hs : s ∈ r.stores) (hc : s.contents = some c) :
    (∀ m ∈ ms, ∀ P imports before, m.Makes s.id P imports before →
      P.Linked imports before.links.size c.heap ∧ (∀ e ∈ P.exports, e.2.store.id = s.id) ∧
        ∀ (t : Imports σ) (module : String), ∀ e ∈ P.exports,
          (t.define module e.1 e.2).get? module e.1 = some (.item e.2) ∧
            (t.defineInstance module P).get? module e.1 = some (.item e.2)) ∧
    (∀ m₁ ∈ ms, ∀ m₂ ∈ ms, ∀ P C imports₁ imports₂ before₁ before₂,
      m₁.Makes s.id P imports₁ before₁ → m₂.Makes s.id C imports₂ before₂ →
        ∀ k n name imp x y, P.exports[k]? = some (name, y) → C.module.imports[n]? = some imp →
          imports₂.get? imp.module imp.name = some (.item x) → x.fresh = y.fresh →
            c.heap.Shared before₁.links.size before₂.links.size P C k n y) ∧
    (∀ earlier m₂ later, ms = earlier ++ m₂ :: later → ∀ m₁ ∈ earlier,
      ∀ P C imports₁ imports₂ before₁ before₂,
        m₁.Makes s.id P imports₁ before₁ → m₂.Makes s.id C imports₂ before₂ →
          ∀ kind j k a b, importCount C.module.imports kind ≤ j →
            c.heap.Leads before₁.links.size kind k a →
              c.heap.Leads before₂.links.size kind j b → a ≠ b) ∧
    s.Shares c (ms.map Moment.event) ∧
    (∀ world u, u.Given (ms.map Moment.event) → ∀ instantiation back addr args,
      s.Runs world u instantiation back addr args →
        ∀ code, back.Visits s.maxFrames addr args code → code.Shares c (s.log world u)) ∧
    ∀ earlier m later, ms = earlier ++ m :: later → ∀ t b, m.realm.store? s.id = some t →
      t.contents = some b → ∀ kind addr x, b.heap.thing? kind addr = some x →
        let log := (m :: later).flatMap (Moment.log s.id)
        c.heap.thing? kind addr = some (x.replay b.heap.limit kind addr log) ∧
          ((∀ w ∈ log, w.target ≠ some (kind, addr)) → c.heap.thing? kind addr = some x) := by
  have hfound := store?_of_mem (consistent_of_run (run_of_course h)) hs
  refine ⟨?_, ?_, ?_, ?_, ?_, ?_⟩
  · intro m hm P imports before hmakes
    have hlinked := linked_of_course h hs hc hm hmakes
    refine ⟨hlinked, home_of_makes hmakes, fun t module e he => ⟨?_, ?_⟩⟩
    · rw [Imports.define, get?_insert, if_pos rfl]
    · exact defineInstance_of_linked (valid_of_makes h hm hmakes).artifact hlinked t module he
  · intro m₁ hm₁ m₂ hm₂ P C imports₁ imports₂ before₁ before₂ hP hC k n name imp x y
    exact shared_of_linked (linked_of_course h hs hc hm₁ hP) (linked_of_course h hs hc hm₂ hC)
  · intro earlier m₂ later hms m₁ hm₁ P C imports₁ imports₂ before₁ before₂ hP hC kind j k a b
    exact own_of_course h hs hc hms hm₁ hP hC
  · exact store_shares (run_of_course h) hs hc
  · intro world u given instantiation back addr args hruns code hvisits
    exact code_shares (run_of_course h) hs hc given hruns hvisits
  · intro earlier m later hms t b ht hb kind addr x hx
    have hnow := thing?_of_course h hfound hc hms ht hb hx
    refine ⟨hnow, fun hquiet => ?_⟩
    rw [hnow, replay_quiet _ _ hquiet]

/-- The bytes of a module that exports a variable. -/
def counterBytes : List UInt8 :=
  [0, 97, 115, 109, 1, 0, 0, 0, 6, 6, 1, 127, 1, 65, 7, 11, 7, 5, 1, 1, 103, 3, 0]

def counterModule : Module where
  engine := 0
  artifact := { globals := [⟨⟨.i32, true⟩, [.const (.i32 7)]⟩], exports := [⟨"g", .global, 0⟩] }
  exports := [⟨"g", .global ⟨.i32, true⟩⟩]
  imports := []
  contentHash := SipHash.contentDigest counterBytes

/-- The bytes of a module that exports a variable which it imports. -/
def borrowerBytes : List UInt8 :=
  [0, 97, 115, 109, 1, 0, 0, 0, 2, 8, 1, 1, 112, 1, 103, 3, 127, 1, 7, 5, 1, 1, 104, 3, 0]

def borrowerModule : Module where
  engine := 0
  artifact := { imports := [⟨"p", "g", .global ⟨.i32, true⟩⟩], exports := [⟨"h", .global, 0⟩] }
  exports := [⟨"h", .global ⟨.i32, true⟩⟩]
  imports := [⟨"p", "g", .global ⟨.i32, true⟩⟩]
  contentHash := SipHash.contentDigest borrowerBytes

def counterGlobal (name : String) : Global := ⟨⟨1, 2⟩, name, ⟨.i32, true⟩, 0⟩

def counterInstance : Instance := ⟨⟨1, 2⟩, 0, counterModule, [("g", .global (counterGlobal "g"))]⟩

def borrowerInstance : Instance := ⟨⟨1, 2⟩, 1, borrowerModule, [("h", .global (counterGlobal "h"))]⟩

/-- The variable is set through the handle of the instance that borrows it, and read through both. -/
theorem counter_shared : ∃ (ms : List (Moment Unit)) (r : Realm Unit) (s : Store Unit)
    (c : Contents Unit), Course ms r ∧ s ∈ r.stores ∧ s.contents = some c ∧
      c.heap.Shared 0 1 counterInstance borrowerInstance 0 0 (.global (counterGlobal "g")) ∧
      (counterGlobal "g").get s = .ok (.i32 9) ∧ (counterGlobal "h").get s = .ok (.i32 9) := by
  have hengine := (Course.start ()).request (.newEngine {}) trivial
  have hopened := hengine.request (.newStore 0 {}) List.mem_cons_self
  have hcounter := hopened.request (.compile 0 (.bytes counterBytes)) List.mem_cons_self
  have hcleared := hcounter.request (.clearCache 0) List.mem_cons_self
  have hborrower := hcleared.request (.compile 0 (.bytes borrowerBytes)) List.mem_cons_self
  have hfirst := hborrower.request (.use 1 (.instantiate counterModule {}))
    ⟨List.mem_cons_self, List.mem_filterMap.mpr ⟨_, List.getElem_mem (n := 2) (by simp), rfl⟩,
      fun e he => absurd he List.not_mem_nil⟩
  let imports : Imports Unit := ({} : Imports Unit).defineInstance "p" counterInstance
  have hsecond := hfirst.request (.use 1 (.instantiate borrowerModule imports))
    ⟨List.mem_cons_self, List.mem_filterMap.mpr ⟨_, List.getElem_mem (n := 4) (by simp), rfl⟩,
      fun e he => by
        rw [List.mem_singleton.mp he]
        exact ⟨counterInstance, List.mem_filterMap.mpr ⟨_, List.getElem_mem (n := 5) (by simp), rfl⟩,
          _, List.mem_cons_self, rfl⟩⟩
  have hset := hsecond.request (.use 1 (.setGlobal (counterGlobal "h") (.int 9)))
    ⟨List.mem_cons_self, borrowerInstance,
      List.mem_filterMap.mpr ⟨_, List.getElem_mem (n := 6) (by simp), rfl⟩, _,
      List.mem_cons_self, rfl⟩
  obtain ⟨_, hpairs, _, hshares, _⟩ := linking_shares hset List.mem_cons_self rfl
  have hglobal := hshares.globals 0 ⟨⟨.i32, true⟩, .val (.i32 9), rfl⟩ rfl
  refine ⟨_, _, _, _, hset, List.mem_cons_self, rfl, ?_, hglobal _ rfl rfl, hglobal _ rfl rfl⟩
  exact hpairs _ (List.getElem_mem (n := 5) (by simp)) _ (List.getElem_mem (n := 6) (by simp))
    _ _ _ _ _ _
    ⟨rfl, rfl, _, _, rfl, rfl, rfl⟩ ⟨rfl, rfl, _, _, rfl, rfl, rfl⟩ 0 0 _ _ _ _ rfl rfl rfl rfl

end WasmEmbed
