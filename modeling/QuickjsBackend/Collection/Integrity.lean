import QuickjsBackend.Collection.Reentry

/-! # Integrity of maps under re-entry

At a release the map is represented but for the record that is at it. Calls of callbacks
keep what is represented, and the operation under way finds its record where it was.
-/

namespace QuickjsBackend

open Foundation

namespace MapState

variable {store : KeyStore} {s next : MapState} {id other : Nat} {mr : MapRecord} {key : JSValue}
  {locks : Nat → Nat} {deleting valueless : List Nat}

theorem countOf_eq (hpeek : s.peek id = some mr) : s.countOf id = mr.refCount := by
  rw [countOf, hpeek]

theorem Rep.lookUp_kept (hrep : s.Rep store locks deleting valueless) (key : JSValue) :
    ∃ answer, s.lookUp store key = .ok (answer, s) := by
  obtain ⟨found, hfound, hsome, _⟩ := hrep.mapFindRecord_spec key
  cases found with
  | none =>
      refine ⟨.undefined, ?_⟩
      simp only [lookUp, hfound, bind, Except.bind, pure, Except.pure]
  | some id =>
      obtain ⟨mr, hpeek, _⟩ := hsome id rfl
      refine ⟨mr.value, ?_⟩
      simp only [lookUp, hfound, record_eq hpeek, bind, Except.bind, pure, Except.pure]

theorem Rep.put_kept (hrep : s.Rep store locks deleting valueless) (this value : JSValue)
    {slack : Option Nat}
    (hfree : ∀ id ∈ valueless, s.mapFindRecord store key ≠ .ok (some id))
    (hgrow : deleting = [] ∨ slack = none ∨ s.mapFindRecord store key ≠ .ok none ∨
      s.recordCount + 1 < s.recordCountThreshold) :
    ∃ next, s.put store this key value slack = .ok (this, next) ∧
      next.Rep store locks deleting valueless ∧
      (∀ other, (∃ mr, s.peek other = some mr) → ∃ mr, next.peek other = some mr) ∧
      ∃ id mr, next.peek id = some mr ∧ mr.value = value ∧
        (mr.key = key ∨ s.mapFindRecord store key = .ok (some id)) := by
  obtain ⟨found, hfound, hsome, _⟩ := hrep.mapFindRecord_spec key
  cases found with
  | none =>
      have hroom : deleting = [] ∨ slack = none ∨ s.recordCount + 1 < s.recordCountThreshold :=
        hgrow.imp_right (Or.imp_right (Or.resolve_left · (not_not_intro hfound)))
      obtain ⟨added, next, hadd, hstore, hnextRep, _, hself, hkept⟩ :=
        hrep.insert_spec key value slack hroom
      refine ⟨next, ?_, hnextRep, fun other hother => ?_, _, _, hself, rfl, .inl rfl⟩
      · simp only [put, hfound, hadd, hstore, bind, Except.bind, pure, Except.pure]
      · obtain ⟨old, hold⟩ := hother
        exact ⟨old, (hkept other (Nat.ne_of_lt (lt_of_peek hold))).trans hold⟩
  | some id =>
      obtain ⟨mr, hpeek, hlive, _, _⟩ := hsome id rfl
      have hvalueless : id ∉ valueless := fun hmem => hfree id hmem hfound
      obtain ⟨freed, next, hrelease, hstore, hnextRep, _, hself, hkept⟩ :=
        hrep.replace_spec hpeek hlive hvalueless value
      refine ⟨next, ?_, hnextRep, fun other hother => ?_, id, _, hself, rfl, .inr hfound⟩
      · simp only [put, hfound, hrelease, hstore, bind, Except.bind, pure, Except.pure]
      · by_cases heq : other = id
        · subst other
          exact ⟨_, hself⟩
        · rwa [hkept other heq]

/-- A record that is deleted stays in memory when iterators count it. -/
theorem Rep.discard_kept (hrep : s.Rep store locks deleting valueless)
    (hfree : ∀ id ∈ valueless, s.mapFindRecord store key ≠ .ok (some id)) :
    ∃ answer next, s.discard store key = .ok (answer, next) ∧
      next.Rep store locks deleting valueless ∧
      ∀ other, (s.mapFindRecord store key = .ok (some other) → 1 < s.countOf other) →
        (∃ mr, s.peek other = some mr) → ∃ mr, next.peek other = some mr := by
  obtain ⟨found, hfound, hsome, _⟩ := hrep.mapFindRecord_spec key
  cases found with
  | none =>
      refine ⟨.bool false, s, ?_, hrep, fun _ _ hother => hother⟩
      simp only [discard, hfound, bind, Except.bind, pure, Except.pure]
  | some id =>
      obtain ⟨mr, hpeek, hlive, hdeleting, _⟩ := hsome id rfl
      obtain ⟨next, hnext, hnextRep, _, hkept, hself⟩ :=
        hrep.mapDeleteRecord_spec hpeek hlive hdeleting fun hmem => hfree id hmem hfound
      refine ⟨.bool true, next, ?_, hnextRep, fun other hmany hother => ?_⟩
      · simp only [discard, hfound, hnext, bind, Except.bind, pure, Except.pure]
      · by_cases heq : other = id
        · subst other
          have hcount := (hrep.refCount id mr hpeek).1
          have hlocked := hmany hfound
          rw [countOf_eq hpeek] at hlocked
          rw [hlive, if_neg Bool.false_ne_true] at hcount
          exact hself (by omega)
        · rwa [hkept other heq]

end MapState

namespace MapMachine

/-- A map between two releases: represented but for the record that is at one, and the
walk under way finds the record at which it goes on. -/
structure Good (store : KeyStore) (m : MapMachine) : Prop where
  rep : m.map.Rep store m.cursors.count m.control.deleting m.control.valueless
  saved : ∀ id ∈ m.control.saved, (∃ mr, m.map.peek id = some mr) ∧ id ∉ m.control.deleting

variable {store : KeyStore} {m : MapMachine} {id : Nat} {mr : MapRecord}

theorem good_new : Good store new := ⟨MapState.rep_new, nofun⟩

theorem good_idle {map : MapState} {cursors : List Nat} (hrep : map.Rep store cursors.count [] []) :
    Good store ⟨map, cursors, .idle⟩ := ⟨hrep, nofun⟩

/-- A call that keeps what is represented and the record at which the walk goes on. -/
theorem Good.keep (hgood : Good store m) {map : MapState} {cursors : List Nat}
    (hrep : map.Rep store cursors.count m.control.deleting m.control.valueless)
    (hkept : ∀ id ∈ m.control.saved,
      (∃ mr, m.map.peek id = some mr) → ∃ mr, map.peek id = some mr) :
    Good store ⟨map, cursors, m.control⟩ :=
  ⟨hrep, fun id hid => ⟨hkept id hid (hgood.saved id hid).1, (hgood.saved id hid).2⟩⟩

theorem startDelete_good (hrep : m.map.Rep store m.cursors.count [] [])
    (hpeek : m.map.peek id = some mr) (hlive : mr.empty = false) {rest : Option (Option Nat)}
    (hrest : ∀ link ∈ rest.join, (∃ mr, m.map.peek link = some mr) ∧ link ≠ id) :
    ∃ next, m.startDelete id rest = .ok next ∧ Good store next := by
  obtain ⟨map, hmap, hmapRep, hmemory, _⟩ := hrep.beginDelete_spec hpeek hlive List.not_mem_nil
  refine ⟨⟨map, m.cursors, .keyReleased id rest⟩, ?_, hmapRep, fun link hlink => ?_⟩
  · simp only [startDelete, hmap, bind, Except.bind, pure, Except.pure]
  · obtain ⟨hfound, hne⟩ := hrest link hlink
    refine ⟨?_, fun hmem => hne (List.mem_singleton.mp hmem)⟩
    rwa [MapState.peek, hmemory]

theorem walk_good (hrep : m.map.Rep store m.cursors.count [] []) {link : Option Nat}
    (hlink : ∀ id ∈ link, ∃ mr, m.map.peek id = some mr) :
    ∃ next, m.walk link = .ok next ∧ Good store next := by
  have hfollowing : ∀ id, (∃ mr, m.map.peek id = some mr) → ∀ other ∈ m.map.following id,
      (∃ mr, m.map.peek other = some mr) ∧ other ≠ id := by
    intro id hid other hother
    obtain ⟨hmem, hne⟩ := hrep.toLinked.mem_following ((hrep.mem_records id).mpr hid) hother
    exact ⟨(hrep.mem_records other).mp hmem, hne⟩
  cases link with
  | none => exact ⟨{ m with control := .idle }, rfl, good_idle hrep⟩
  | some id =>
      have hid := hlink id rfl
      obtain ⟨found, hfound, hspec⟩ := MapState.firstFull_spec (id :: m.map.following id)
        fun other hother => by
          rcases List.mem_cons.mp hother with rfl | hother
          · exact hid
          · exact (hfollowing id hid other hother).1
      cases found with
      | none =>
          refine ⟨{ m with control := .idle }, ?_, good_idle hrep⟩
          simp only [walk, hfound, bind, Except.bind, pure, Except.pure]
      | some full =>
          obtain ⟨_, mr, hpeek, hlive⟩ := hspec full rfl
          have hrest : ∀ other ∈ (some (m.map.following full).head?).join,
              (∃ mr, m.map.peek other = some mr) ∧ other ≠ full :=
            fun other hother => hfollowing full ⟨mr, hpeek⟩ other (List.mem_of_head? hother)
          obtain ⟨next, hnext, hgood⟩ := startDelete_good hrep hpeek hlive hrest
          refine ⟨next, ?_, hgood⟩
          simpa only [walk, hfound, bind, Except.bind] using hnext

/-- No callback has run before an operation reaches its first release. -/
theorem begin_good {cursors : List Nat} {map : MapState} (hrep : map.Rep store cursors.count [] [])
    (caller : MapCaller) (call : MapCall) :
    ∃ next, (⟨map, cursors, .idle⟩ : MapMachine).begin store caller call = .ok next ∧
      Good store next := by
  cases call with
  | set key value slack =>
      obtain ⟨found, hfound, hsome, _⟩ := hrep.mapFindRecord_spec (store.mapNormalizeKey key)
      cases found with
      | none =>
          obtain ⟨added, stored, hadd, hstore, hstoredRep, _⟩ :=
            hrep.insert_spec (store.mapNormalizeKey key) value slack (Or.inl rfl)
          refine ⟨⟨stored, cursors, .idle⟩, ?_, good_idle hstoredRep⟩
          simp only [begin, hfound, hadd, hstore, bind, Except.bind, pure, Except.pure]
      | some id =>
          obtain ⟨mr, hpeek, hlive, _⟩ := hsome id rfl
          obtain ⟨freed, hfreed, hfreedRep, _⟩ :=
            hrep.releaseValue_spec hpeek hlive List.not_mem_nil
          refine ⟨⟨freed, cursors, .storing id value⟩, ?_, hfreedRep, nofun⟩
          simp only [begin, hfound, hfreed, bind, Except.bind, pure, Except.pure]
  | get key =>
      obtain ⟨answer, hanswer⟩ := hrep.lookUp_kept (caller.looksUp store key)
      refine ⟨⟨map, cursors, .idle⟩, ?_, good_idle hrep⟩
      simp only [begin, hanswer, bind, Except.bind, pure, Except.pure]
  | delete key =>
      obtain ⟨found, hfound, hsome, _⟩ := hrep.mapFindRecord_spec (caller.looksUp store key)
      cases found with
      | none =>
          refine ⟨⟨map, cursors, .idle⟩, ?_, good_idle hrep⟩
          simp only [begin, hfound, bind, Except.bind, pure, Except.pure]
      | some id =>
          obtain ⟨mr, hpeek, hlive, _⟩ := hsome id rfl
          have hstart : ∃ next, (⟨map, cursors, .idle⟩ : MapMachine).startDelete id none =
              .ok next ∧ Good store next := startDelete_good hrep hpeek hlive nofun
          obtain ⟨next, hnext, hgood⟩ := hstart
          refine ⟨next, ?_, hgood⟩
          simpa only [begin, hfound, bind, Except.bind] using hnext
  | clear =>
      have hwalk : ∃ next, (⟨map, cursors, .idle⟩ : MapMachine).walk map.records.head? = .ok next ∧
          Good store next := walk_good hrep fun id hid =>
        (hrep.mem_records id).mp (List.mem_of_head? hid)
      exact hwalk

theorem resume_good (hgood : Good store m) : ∃ next, m.resume = .ok next ∧ Good store next := by
  obtain ⟨map, cursors, control⟩ := m
  obtain ⟨hrep, hsaved⟩ := hgood
  cases control with
  | idle => exact ⟨_, rfl, hrep, hsaved⟩
  | storing id value =>
      obtain ⟨_, stored, _, _, hstore, hstoredRep, _⟩ :=
        hrep.storeValue_spec List.not_mem_nil value
      refine ⟨⟨stored, cursors, .idle⟩, ?_, good_idle hstoredRep⟩
      simp only [resume, hstore, bind, Except.bind, pure, Except.pure]
  | keyReleased id rest =>
      obtain ⟨mr, hpeek, hlive⟩ :=
        MapState.live_iff.mp (hrep.pending id (Or.inl List.mem_cons_self))
      obtain ⟨freed, hfreed, hfreedRep, hmemory, _⟩ :=
        hrep.releaseValue_spec hpeek hlive List.not_mem_nil
      refine ⟨⟨freed, cursors, .valueReleased id rest⟩, ?_, hfreedRep, fun link hlink => ?_⟩
      · simp only [resume, hfreed, bind, Except.bind, pure, Except.pure]
      · obtain ⟨hfound, hne⟩ := hsaved link hlink
        refine ⟨?_, hne⟩
        rwa [MapState.peek, hmemory]
  | valueReleased id rest =>
      obtain ⟨finished, hfinish, hfinishedRep, _, _, hother, _⟩ :=
        hrep.finishDelete_spec List.not_mem_nil List.not_mem_nil
      cases rest with
      | none =>
          refine ⟨⟨finished, cursors, .idle⟩, ?_, good_idle hfinishedRep⟩
          simp only [resume, hfinish, bind, Except.bind, pure, Except.pure]
      | some link =>
          have hlink : ∀ other ∈ link, ∃ mr, finished.peek other = some mr := by
            intro other hmem
            obtain ⟨hfound, hne⟩ := hsaved other hmem
            rwa [hother other fun heq => hne (List.mem_singleton.mpr heq)]
          have hwalk : ∃ next, (⟨finished, cursors, .valueReleased id (some link)⟩ :
              MapMachine).walk link = .ok next ∧ Good store next := walk_good hfinishedRep hlink
          obtain ⟨next, hnext, hnextGood⟩ := hwalk
          refine ⟨next, ?_, hnextGood⟩
          simpa only [resume, hfinish, bind, Except.bind] using hnext

/-- A call of a callback that leaves the operation under way alone. -/
theorem interrupt_good (hgood : Good store m) (caller : MapCaller) (call : MapCall)
    (hcontrol : m.control ≠ .idle) (hcalm : m.Undisturbed store (.call caller call)) :
    ∃ next, m.interrupt store caller call = .ok next ∧ Good store next := by
  cases call with
  | set key value slack =>
      obtain ⟨map, hmap, hmapRep, hkept, _⟩ := hgood.rep.put_kept .undefined value hcalm.1 hcalm.2
      refine ⟨{ m with map }, ?_, hgood.keep hmapRep fun id _ => hkept id⟩
      cases caller with
      | api =>
          simp only [interrupt, MapState.perform, MapState.mapSet, hmap, bind, Except.bind, pure,
            Except.pure]
      | script =>
          simp only [interrupt, MapState.perform, MapState.jsMapSet, hmap, bind, Except.bind, pure,
            Except.pure]
  | get key =>
      obtain ⟨answer, hanswer⟩ := hgood.rep.lookUp_kept (caller.looksUp store key)
      refine ⟨m, ?_, hgood⟩
      cases caller with
      | api =>
          have hget : m.map.lookUp store key = .ok (answer, m.map) := hanswer
          simp only [interrupt, MapState.perform, MapState.mapGet, hget, bind, Except.bind, pure,
            Except.pure]
      | script =>
          have hget : m.map.lookUp store (store.mapNormalizeKey key) = .ok (answer, m.map) :=
            hanswer
          simp only [interrupt, MapState.perform, MapState.jsMapGet, hget, bind, Except.bind, pure,
            Except.pure]
  | delete key =>
      obtain ⟨answer, map, hmap, hmapRep, hkept⟩ := hgood.rep.discard_kept hcalm.1
      refine ⟨{ m with map }, ?_, hgood.keep hmapRep fun id hid => hkept id (hcalm.2 id hid)⟩
      cases caller with
      | api =>
          have hdelete : m.map.discard store key = .ok (answer, map) := hmap
          simp only [interrupt, MapState.perform, MapState.mapDelete, hdelete, bind, Except.bind,
            pure, Except.pure]
      | script =>
          have hdelete : m.map.discard store (store.mapNormalizeKey key) = .ok (answer, map) := hmap
          simp only [interrupt, MapState.perform, MapState.jsMapDelete, hdelete, bind, Except.bind,
            pure, Except.pure]
  | clear => exact absurd hcalm hcontrol

theorem step_good (hgood : Good store m) (action : MapAction)
    (hcalm : m.Undisturbed store action) :
    ∃ next, step store m action = .ok next ∧ Good store next := by
  cases action with
  | call caller call =>
      by_cases hcontrol : m.control = .idle
      · obtain ⟨map, cursors, control⟩ := m
        obtain rfl : control = .idle := hcontrol
        simp only [step, if_true]
        exact begin_good hgood.rep caller call
      · simp only [step, if_neg hcontrol]
        exact interrupt_good hgood caller call hcontrol hcalm
  | next current =>
      by_cases hcurrent : ∀ id ∈ current, id ∈ m.cursors
      · obtain ⟨found, map, hmap, hmapRep, hkept⟩ := hgood.rep.jsMapIteratorNext_spec hcurrent
        refine ⟨{ m with map, cursors := MapState.moved m.cursors current found }, ?_,
          hgood.keep hmapRep fun id hid => hkept id (hcalm id hid)⟩
        simp only [step, advance, if_pos hcurrent, hmap, bind, Except.bind, pure, Except.pure]
      · exact ⟨m, if_neg hcurrent, hgood⟩
  | finalize current =>
      by_cases hcurrent : current ∈ m.cursors
      · obtain ⟨map, hmap, hmapRep, hother, hself⟩ := hgood.rep.leave_spec hcurrent
        refine ⟨{ m with map, cursors := m.cursors.erase current }, ?_,
          hgood.keep hmapRep fun id hid hfound => ?_⟩
        · simp only [step, finalize, if_pos hcurrent, hmap, bind, Except.bind, pure, Except.pure]
        · by_cases heq : id = current
          · subst id
            exact hself (hcalm current hid rfl)
          · rwa [hother id heq]
      · exact ⟨m, if_neg hcurrent, hgood⟩
  | resume => exact resume_good hgood

/-- Along every run: while the calls of callbacks leave the operation under way alone,
no freed record is touched and the map is represented after every operation. -/
theorem represented_of_undisturbed (store : KeyStore) (actions : List MapAction)
    (hcalm : (step store).Always (fun m action _ => m.Undisturbed store action) new actions) :
    (step store).Always (fun _ _ outcome => ∃ next, outcome = .ok next ∧
      (next.control = .idle → next.map.Rep store next.cursors.count [] [])) new actions := by
  refine (step store).always_of_guard (Good store) ?_ ?_ good_new hcalm
  · intro m action hgood haction
    obtain ⟨next, hnext, hnextGood⟩ := step_good hgood action haction
    refine ⟨next, hnext, fun hidle => ?_⟩
    have hrep := hnextGood.rep
    rwa [hidle] at hrep
  · intro m action next hgood haction hstep
    obtain ⟨middle, hmiddle, hmiddleGood⟩ := step_good hgood action haction
    rw [hmiddle, Except.ok.injEq] at hstep
    exact hstep ▸ hmiddleGood

/-- An iterator stands at a record while its value is replaced and while it is deleted;
callbacks look the key up, set others and move the iterator. -/
theorem represented_of_undisturbed_iterator :
    (step MapState.plainKeys).Always (fun _ _ outcome => ∃ next, outcome = .ok next ∧
      (next.control = .idle →
        next.map.Rep MapState.plainKeys next.cursors.count [] [])) new
      [.call .api (.set (.int 1) (.ref .object 10) none), .next none,
        .call .api (.set (.int 1) (.ref .object 11) none),
        .call .api (.get (.int 1)), .call .script (.set (.int 2) .null none), .resume,
        .call .api (.delete (.int 1)), .call .script (.delete (.int 2)), .resume,
        .next (some 0), .resume, .call .api .clear] :=
  represented_of_undisturbed MapState.plainKeys _ (by decide)

/-- The callback of an old value deletes the record into which `JS_MapSet` is about to
store the new one. -/
theorem mapSet_writes_freed_record :
    ¬ ∀ (store : KeyStore) (actions : List MapAction),
      (step store).Always (fun _ _ outcome => ∃ next, outcome = .ok next ∧
        (next.control = .idle → next.map.Rep store next.cursors.count [] [])) new actions := by
  intro hall
  have hreached : ∃ reached, (step MapState.plainKeys).run new
        [.call .api (.set (.int 1) (.ref .object 10) none), .call .api (.set (.int 1) .null none),
          .call .api (.delete (.int 1))] = .ok reached ∧
      step MapState.plainKeys reached .resume = .error .useAfterFree := ⟨_, rfl, rfl⟩
  obtain ⟨reached, hrun, hresume⟩ := hreached
  obtain ⟨next, hnext, _⟩ := (step MapState.plainKeys).always_iff_forall_reached.mp
    (hall MapState.plainKeys
      ([.call .api (.set (.int 1) (.ref .object 10) none), .call .api (.set (.int 1) .null none),
        .call .api (.delete (.int 1))] ++ [.resume])) _ _ [] reached rfl hrun
  rw [hresume] at hnext
  cases hnext

end MapMachine

end QuickjsBackend
