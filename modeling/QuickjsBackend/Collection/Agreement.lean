import QuickjsBackend.Foundation.OrderedMap
import QuickjsBackend.Foundation.Run
import QuickjsBackend.Collection.Insertion

/-! # Operations on maps

The library has functions of its own beside those that scripts call. They share the
table, but `JS_MapGet` and `JS_MapDelete` look up the key as it is given. The reference
is one map in the order of insertion, with the keys of `SameValueZero`.
-/

namespace QuickjsBackend

open Foundation

namespace MapState

section Operations

variable (store : KeyStore) (this : JSValue) (s : MapState)

/-- The setters, from `map_find_record`. -/
def put (key value : JSValue) (slack : Option Nat) : Except MapFault (JSValue × MapState) := do
  match ← s.mapFindRecord store key with
  | some id =>
      let s ← s.releaseValue id
      let s ← s.storeValue id value
      return (this, s)
  | none =>
      let (id, s) ← s.mapAddRecord store key slack
      let s ← s.storeValue id value
      return (this, s)

/-- The getters, from `map_find_record`. -/
def lookUp (key : JSValue) : Except MapFault (JSValue × MapState) := do
  match ← s.mapFindRecord store key with
  | some id =>
      let mr ← s.record id
      return (mr.value, s)
  | none => return (.undefined, s)

/-- The deleting functions, from `map_find_record`. -/
def discard (key : JSValue) : Except MapFault (JSValue × MapState) := do
  match ← s.mapFindRecord store key with
  | some id =>
      let s ← s.mapDeleteRecord id
      return (.bool true, s)
  | none => return (.bool false, s)

/-- The walk of the clearing functions. No callback runs, and the deletion of a record
leaves the links between the others as they are. -/
def discardAll : Except MapFault (JSValue × MapState) := do
  let s ← s.records.foldlM mapDeleteRecord s
  return (.undefined, s)

/-- `JS_MapSet`. -/
def mapSet (key value : JSValue) (slack : Option Nat) : Except MapFault (JSValue × MapState) :=
  s.put store this (store.mapNormalizeKey key) value slack

/-- `JS_MapGet`. -/
def mapGet (key : JSValue) : Except MapFault (JSValue × MapState) := s.lookUp store key

/-- `JS_MapDelete`. -/
def mapDelete (key : JSValue) : Except MapFault (JSValue × MapState) := s.discard store key

/-- `JS_MapClear`. -/
def mapClear : Except MapFault (JSValue × MapState) := s.discardAll

/-- `js_map_set`. -/
def jsMapSet (key value : JSValue) (slack : Option Nat) : Except MapFault (JSValue × MapState) :=
  s.put store this (store.mapNormalizeKey key) value slack

/-- `js_map_get`. -/
def jsMapGet (key : JSValue) : Except MapFault (JSValue × MapState) :=
  s.lookUp store (store.mapNormalizeKey key)

/-- `js_map_delete`. -/
def jsMapDelete (key : JSValue) : Except MapFault (JSValue × MapState) :=
  s.discard store (store.mapNormalizeKey key)

/-- `js_map_clear`. -/
def jsMapClear : Except MapFault (JSValue × MapState) := s.discardAll

end Operations

end MapState

/-- Who operates on the map: the library, through `Map` of its interface, or a script. -/
inductive MapCaller
  | api
  | script
  deriving DecidableEq

/-- An operation on a map. Setting also says whether a table that has to grow gets memory. -/
inductive MapCall
  | set (key value : JSValue) (slack : Option Nat)
  | get (key : JSValue)
  | delete (key : JSValue)
  | clear

namespace MapCall

/-- The operation on the reference map. -/
def reference (store : KeyStore) (this : JSValue) (map : OrderedMap KeyClass JSValue) :
    MapCall → JSValue × OrderedMap KeyClass JSValue
  | set key value _ => (this, map.set (store.keyClass key) value)
  | get key => ((map.get (store.keyClass key)).getD .undefined, map)
  | delete key => (.bool (map.get (store.keyClass key)).isSome, map.erase (store.keyClass key))
  | clear => (.undefined, .empty)

/-- The keys that the operation looks up, and those that it looks up for a script. -/
def consulted (store : KeyStore) : MapCaller → MapCall → List JSValue
  | _, set key _ _ => [store.mapNormalizeKey key]
  | .api, get key => [key, store.mapNormalizeKey key]
  | .script, get key => [store.mapNormalizeKey key]
  | .api, delete key => [key, store.mapNormalizeKey key]
  | .script, delete key => [store.mapNormalizeKey key]
  | _, clear => []

end MapCall

namespace MapState

section Steps

variable (store : KeyStore) (this : JSValue) (s : MapState)

def perform : MapCaller → MapCall → Except MapFault (JSValue × MapState)
  | .api, .set key value slack => s.mapSet store this key value slack
  | .api, .get key => s.mapGet store key
  | .api, .delete key => s.mapDelete store key
  | .api, .clear => s.mapClear
  | .script, .set key value slack => s.jsMapSet store this key value slack
  | .script, .get key => s.jsMapGet store key
  | .script, .delete key => s.jsMapDelete store key
  | .script, .clear => s.jsMapClear

/-- The key and the value of a record. -/
def entry (id : Nat) : Option (KeyClass × JSValue) :=
  (s.peek id).map fun mr => (store.keyClass mr.key, mr.value)

/-- What the map holds, in the order of its list. -/
def contents : List (KeyClass × JSValue) := s.liveRecords.filterMap (s.entry store)

/-- No record is confused with a key, or missed for it. -/
def Distinguishes (key : JSValue) : Prop :=
  ∀ id mr, s.peek id = some mr → mr.empty = false → store.Coherent s.hashSize mr.key key

/-- The table and the reference map side by side. -/
def besideReference :
    StepFn (MapState × OrderedMap KeyClass JSValue) (MapCaller × MapCall) MapFault :=
  fun state action => do
    let (_, next) ← state.1.perform store this action.1 action.2
    return (next, (action.2.reference store this state.2).2)

/-- The operation answers as the one of scripts and as the reference do, and the map
holds what the reference holds. -/
def Agrees (state : MapState × OrderedMap KeyClass JSValue) (action : MapCaller × MapCall) : Prop :=
  ∃ answer next, state.1.perform store this action.1 action.2 = .ok (answer, next) ∧
    (state.1.perform store this .script action.2).map Prod.fst = .ok answer ∧
    answer = (action.2.reference store this state.2).1 ∧
    next.contents store = (action.2.reference store this state.2).2.entries

end Steps

end MapState

/-- The table represents the reference map. -/
structure MapState.Refines (store : KeyStore) (s : MapState) (map : OrderedMap KeyClass JSValue) :
    Prop where
  rep : s.Rep store (fun _ => 0) [] []
  contents_eq : s.contents store = map.entries

namespace MapState

variable {store : KeyStore} {this : JSValue} {s next : MapState} {id other : Nat} {mr : MapRecord}
  {key value : JSValue} {map : OrderedMap KeyClass JSValue}

theorem distinguishes_iff : s.Distinguishes store key ↔
    ∀ slot ∈ s.memory, ∀ mr ∈ slot, mr.empty = false → store.Coherent s.hashSize mr.key key := by
  constructor
  · intro hkey slot hslot mr hmr
    obtain ⟨id, hlt, hid⟩ := List.getElem_of_mem hslot
    refine hkey id mr ?_
    rw [peek, List.getD_eq_getElem _ _ hlt, hid]
    exact hmr
  · intro hkey id mr hpeek
    refine hkey (some mr) ?_ mr rfl
    rw [← hpeek, peek, List.getD_eq_getElem _ _ (lt_of_peek hpeek)]
    exact List.getElem_mem _

instance : Decidable (s.Distinguishes store key) := decidable_of_iff' _ distinguishes_iff

theorem refines_new : Refines store new .empty := ⟨rep_new, rfl⟩

theorem entry_eq (hpeek : s.peek id = some mr) :
    s.entry store id = some (store.keyClass mr.key, mr.value) := by
  rw [entry, hpeek, Option.map_some]

theorem entry_congr (hpeek : next.peek id = s.peek id) :
    next.entry store id = s.entry store id := by
  rw [entry, hpeek, entry]

theorem filterMap_entry_congr {ids : List Nat}
    (hids : ∀ id ∈ ids, next.peek id = s.peek id) :
    ids.filterMap (next.entry store) = ids.filterMap (s.entry store) :=
  List.filterMap_congr fun id hid => entry_congr (hids id hid)

/-- A live record stands for one entry of the reference. -/
theorem Refines.split (href : s.Refines store map) (hpeek : s.peek id = some mr)
    (hlive : mr.empty = false) :
    ∃ before after, s.liveRecords = before ++ id :: after ∧ id ∉ before ∧ id ∉ after ∧
      map.entries = before.filterMap (s.entry store) ++
        (store.keyClass mr.key, mr.value) :: after.filterMap (s.entry store) := by
  have hmem : id ∈ s.liveRecords := List.mem_filter.mpr
    ⟨(href.rep.mem_records id).mpr ⟨mr, hpeek⟩, live_iff.mpr ⟨mr, hpeek, hlive⟩⟩
  obtain ⟨before, after, hsplit⟩ := List.append_of_mem hmem
  have hnodup : s.liveRecords.Nodup := href.rep.nodup.filter _
  rw [hsplit, List.nodup_middle, List.nodup_cons, List.mem_append, not_or] at hnodup
  refine ⟨before, after, hsplit, hnodup.1.1, hnodup.1.2, ?_⟩
  rw [← href.contents_eq, contents, hsplit, List.filterMap_append,
    List.filterMap_cons_some (entry_eq hpeek)]

/-- The walk over a bucket finds the record of a key that the table distinguishes. -/
theorem Refines.mapFindRecord_spec (href : s.Refines store map) (hkey : s.Distinguishes store key) :
    (∃ id mr, s.mapFindRecord store key = .ok (some id) ∧ s.peek id = some mr ∧ mr.empty = false ∧
      store.keyClass mr.key = store.keyClass key) ∨
    (s.mapFindRecord store key = .ok none ∧
      ∀ entry ∈ map.entries, entry.1 ≠ store.keyClass key) := by
  obtain ⟨found, hfound, hsome, hnone⟩ := href.rep.mapFindRecord_spec key
  cases found with
  | some id =>
      obtain ⟨mr, hpeek, hlive, _, hrecognised⟩ := hsome id rfl
      have hclass := ((store.coherent_iff _ _ _).mp (hkey id mr hpeek hlive)).mp hrecognised
      exact Or.inl ⟨id, mr, hfound, hpeek, hlive, hclass⟩
  | none =>
      refine Or.inr ⟨hfound, fun entry hentry hclass => ?_⟩
      rw [← href.contents_eq, contents, List.mem_filterMap] at hentry
      obtain ⟨id, hid, hentry⟩ := hentry
      obtain ⟨mr, hpeek, hlive⟩ := live_iff.mp (List.mem_filter.mp hid).2
      rw [entry_eq hpeek, Option.some.injEq] at hentry
      subst hentry
      exact hnone rfl id mr hpeek hlive List.not_mem_nil
        (((store.coherent_iff _ _ _).mp (hkey id mr hpeek hlive)).mpr hclass)

theorem Refines.lookUp_spec (href : s.Refines store map) (hkey : s.Distinguishes store key) :
    s.lookUp store key = .ok ((map.get (store.keyClass key)).getD .undefined, s) := by
  rcases href.mapFindRecord_spec hkey with
    ⟨id, mr, hfound, hpeek, hlive, hclass⟩ | ⟨hfound, habsent⟩
  · obtain ⟨before, after, _, _, _, hsplit⟩ := href.split hpeek hlive
    rw [hclass] at hsplit
    rw [OrderedMap.get_of_split hsplit, Option.getD_some]
    simp only [lookUp, hfound, record_eq hpeek, bind, Except.bind, pure, Except.pure]
  · rw [OrderedMap.get_of_absent habsent, Option.getD_none]
    simp only [lookUp, hfound, bind, Except.bind, pure, Except.pure]

theorem Refines.discard_spec (href : s.Refines store map) (hkey : s.Distinguishes store key) :
    ∃ next, s.discard store key = .ok (.bool (map.get (store.keyClass key)).isSome, next) ∧
      next.Refines store (map.erase (store.keyClass key)) := by
  rcases href.mapFindRecord_spec hkey with
    ⟨id, mr, hfound, hpeek, hlive, hclass⟩ | ⟨hfound, habsent⟩
  · obtain ⟨before, after, hrecords, hbefore, hafter, hsplit⟩ := href.split hpeek hlive
    rw [hclass] at hsplit
    obtain ⟨next, hnext, hrep, hnextLive, hnextPeek, _⟩ :=
      href.rep.mapDeleteRecord_spec hpeek hlive List.not_mem_nil List.not_mem_nil
    refine ⟨next, ?_, hrep, ?_⟩
    · rw [OrderedMap.get_of_split hsplit, Option.isSome_some]
      simp only [discard, hfound, hnext, bind, Except.bind, pure, Except.pure]
    · rw [OrderedMap.erase_of_split hsplit, contents, hnextLive, hrecords,
        List.erase_append_right _ hbefore, List.erase_cons_head, List.filterMap_append]
      congr 1
      · exact filterMap_entry_congr fun other hother => hnextPeek other fun heq =>
          hbefore (heq ▸ hother)
      · exact filterMap_entry_congr fun other hother => hnextPeek other fun heq =>
          hafter (heq ▸ hother)
  · refine ⟨s, ?_, href.rep, ?_⟩
    · rw [OrderedMap.get_of_absent habsent, Option.isSome_none]
      simp only [discard, hfound, bind, Except.bind, pure, Except.pure]
    · rw [OrderedMap.erase_of_absent habsent, href.contents_eq]

/-- An entry of the reference takes another value. -/
theorem Refines.put_found (href : s.Refines store map) (hpeek : s.peek id = some mr)
    (hlive : mr.empty = false) (hclass : store.keyClass mr.key = store.keyClass key)
    (value : JSValue) :
    ∃ freed next, s.releaseValue id = .ok freed ∧ freed.storeValue id value = .ok next ∧
      next.Refines store (map.set (store.keyClass key) value) := by
  obtain ⟨before, after, hrecords, hbefore, hafter, hsplit⟩ := href.split hpeek hlive
  rw [hclass] at hsplit
  obtain ⟨freed, next, hfree, hstore, hrep, hnextLive, hself, hother⟩ :=
    href.rep.replace_spec hpeek hlive List.not_mem_nil value
  refine ⟨freed, next, hfree, hstore, hrep, ?_⟩
  rw [OrderedMap.set_of_split hsplit, contents, hnextLive, hrecords, List.filterMap_append,
    List.filterMap_cons_some (entry_eq hself), hclass,
    filterMap_entry_congr fun other hmem => hother other fun heq => hbefore (heq ▸ hmem),
    filterMap_entry_congr fun other hmem => hother other fun heq => hafter (heq ▸ hmem)]

/-- The reference gets one more entry. -/
theorem Refines.put_absent (href : s.Refines store map)
    (habsent : ∀ entry ∈ map.entries, entry.1 ≠ store.keyClass key) (value : JSValue)
    (slack : Option Nat) :
    ∃ id added next, s.mapAddRecord store key slack = .ok (id, added) ∧
      added.storeValue id value = .ok next ∧
      next.Refines store (map.set (store.keyClass key) value) := by
  obtain ⟨added, next, hadd, hstore, hrep, hnextLive, hself, hother⟩ :=
    href.rep.insert_spec key value slack (Or.inl rfl)
  refine ⟨s.memory.length, added, next, hadd, hstore, hrep, ?_⟩
  have hkept : s.liveRecords.filterMap (next.entry store) =
      s.liveRecords.filterMap (s.entry store) := by
    apply filterMap_entry_congr
    intro other hmem
    exact hother other fun heq =>
      href.rep.toLinked.length_not_mem (heq ▸ (List.mem_filter.mp hmem).1)
  rw [OrderedMap.set_of_absent habsent, ← href.contents_eq, contents, contents, hnextLive,
    List.filterMap_append, hkept, List.filterMap_cons_some (entry_eq hself), List.filterMap_nil]

variable (this) in
theorem Refines.put_spec (href : s.Refines store map) (hkey : s.Distinguishes store key)
    (value : JSValue) (slack : Option Nat) :
    ∃ next, s.put store this key value slack = .ok (this, next) ∧
      next.Refines store (map.set (store.keyClass key) value) := by
  rcases href.mapFindRecord_spec hkey with
    ⟨id, mr, hfound, hpeek, hlive, hclass⟩ | ⟨hfound, habsent⟩
  · obtain ⟨freed, next, hfree, hstore, hnext⟩ := href.put_found hpeek hlive hclass value
    refine ⟨next, ?_, hnext⟩
    simp only [put, hfound, hfree, hstore, bind, Except.bind, pure, Except.pure]
  · obtain ⟨id, added, next, hadd, hstore, hnext⟩ := href.put_absent habsent value slack
    refine ⟨next, ?_, hnext⟩
    simp only [put, hfound, hadd, hstore, bind, Except.bind, pure, Except.pure]

theorem Refines.discardAll_spec (href : s.Refines store map) :
    ∃ next, s.discardAll = .ok (.undefined, next) ∧ next.Refines store .empty := by
  obtain ⟨next, hnext, hrep, hlive⟩ := href.rep.foldlM_mapDeleteRecord href.rep.nodup
    fun id hid => (href.rep.mem_records id).mp hid
  have hnil : next.liveRecords = [] := by
    apply List.eq_nil_iff_forall_not_mem.mpr
    intro id hid
    obtain ⟨hold, habsent⟩ := hlive id hid
    exact habsent (List.mem_filter.mp hold).1
  refine ⟨next, ?_, hrep, ?_⟩
  · simp only [discardAll, hnext, bind, Except.bind, pure, Except.pure]
  · rw [contents, hnil]
    rfl

variable (this) in
/-- One operation, when the table distinguishes the keys that are looked up. -/
theorem Refines.perform_spec (href : s.Refines store map) (caller : MapCaller) (call : MapCall)
    (hkeys : ∀ key ∈ call.consulted store caller, s.Distinguishes store key) :
    ∃ next, s.perform store this caller call = .ok ((call.reference store this map).1, next) ∧
      next.Refines store (call.reference store this map).2 := by
  have hclass := store.keyClass_mapNormalizeKey
  cases call with
  | set key value slack =>
      have hspec := href.put_spec this
        (hkeys (store.mapNormalizeKey key) (by cases caller <;> exact List.mem_cons_self))
        value slack
      rw [hclass] at hspec
      cases caller with
      | api => exact hspec
      | script => exact hspec
  | get key =>
      cases caller with
      | api => exact ⟨s, href.lookUp_spec (hkeys key List.mem_cons_self), href⟩
      | script =>
          have hspec := href.lookUp_spec (hkeys (store.mapNormalizeKey key) List.mem_cons_self)
          rw [hclass] at hspec
          exact ⟨s, hspec, href⟩
  | delete key =>
      cases caller with
      | api => exact href.discard_spec (hkeys key List.mem_cons_self)
      | script =>
          have hspec := href.discard_spec (hkeys (store.mapNormalizeKey key) List.mem_cons_self)
          rw [hclass] at hspec
          exact hspec
  | clear =>
      cases caller with
      | api => exact href.discardAll_spec
      | script => exact href.discardAll_spec

theorem consulted_script_subset (store : KeyStore) (caller : MapCaller) (call : MapCall) :
    call.consulted store .script ⊆ call.consulted store caller := by
  cases call with
  | set key value slack => cases caller <;> exact List.Subset.refl _
  | get key =>
      cases caller with
      | api => exact List.subset_cons_self _ _
      | script => exact List.Subset.refl _
  | delete key =>
      cases caller with
      | api => exact List.subset_cons_self _ _
      | script => exact List.Subset.refl _
  | clear => cases caller <;> exact List.Subset.refl _

/-- Along every run of operations of the library and of scripts: while the table
distinguishes the keys that are looked up, each operation answers as the one of scripts
and as the reference map do. -/
theorem agrees_of_distinguishes (store : KeyStore) (this : JSValue)
    (actions : List (MapCaller × MapCall))
    (hkeys : (besideReference store this).Always (fun state action _ =>
      ∀ key ∈ action.2.consulted store action.1, state.1.Distinguishes store key)
      (new, .empty) actions) :
    (besideReference store this).Always (fun state action _ => Agrees store this state action)
      (new, .empty) actions := by
  refine (besideReference store this).always_of_guard
    (fun state => Refines store state.1 state.2) ?_ ?_ refines_new hkeys
  · rintro ⟨s, map⟩ ⟨caller, call⟩ href hkeys
    obtain ⟨next, hnext, hnextRef⟩ := href.perform_spec this caller call hkeys
    obtain ⟨other, hother, _⟩ := href.perform_spec this .script call
      fun key hkey => hkeys key (consulted_script_subset store caller call hkey)
    exact ⟨_, next, hnext, by rw [hother]; rfl, rfl, hnextRef.contents_eq⟩
  · rintro ⟨s, map⟩ ⟨caller, call⟩ ⟨next, nextMap⟩ href hkeys hstep
    obtain ⟨middle, hmiddle, hmiddleRef⟩ := href.perform_spec this caller call hkeys
    have hresult : besideReference store this (s, map) (caller, call) =
        .ok (middle, (call.reference store this map).2) := by
      simp only [besideReference, hmiddle, bind, Except.bind, pure, Except.pure]
    rw [hresult, Except.ok.injEq, Prod.mk.injEq] at hstep
    obtain ⟨rfl, rfl⟩ := hstep
    exact hmiddleRef

/-- A store in which no key is a string or a big number. -/
def plainKeys : KeyStore where
  nanBoxing := true
  address ptr := BitVec.ofNat 64 ptr
  string _ := []
  big _ := 0

/-- Zero set by a script, and found by the library as an integer. -/
theorem agrees_of_distinguishes_zero :
    (besideReference plainKeys .undefined).Always
      (fun state action _ => Agrees plainKeys .undefined state action) (new, .empty)
      [(.script, .set (.int 0) (.int 7) none), (.api, .get (.int 0)), (.api, .delete (.int 0)),
        (.script, .clear)] :=
  agrees_of_distinguishes plainKeys .undefined _ (by decide)

/-- Four numbers set by a script, so that the table grows. -/
def fourNumbers : List (MapCaller × MapCall) :=
  [(.script, .set (.int 0) (.int 7) (some 0)), (.script, .set (.int 1) .null (some 0)),
    (.script, .set (.int 2) .null (some 0)), (.script, .set (.int 3) .null (some 0))]

/-- The library does not find the negative zero that a script finds. -/
theorem mapGet_negative_zero :
    ¬ ∀ (store : KeyStore) (this : JSValue) (actions : List (MapCaller × MapCall)),
      (besideReference store this).Always (fun state action _ => Agrees store this state action)
        (new, .empty) actions := by
  intro hall
  have hreached : ∃ reached, (besideReference plainKeys .undefined).run (new, .empty) fourNumbers =
        .ok reached ∧
      (reached.1.mapGet plainKeys (.float64 0x8000000000000000)).map Prod.fst = .ok .undefined ∧
      (reached.1.jsMapGet plainKeys (.float64 0x8000000000000000)).map Prod.fst = .ok (.int 7) :=
    ⟨_, rfl, by decide, by decide⟩
  obtain ⟨reached, hrun, hget, hscript⟩ := hreached
  obtain ⟨answer, next, hperform, hagrees, _⟩ :=
    (besideReference plainKeys .undefined).always_iff_forall_reached.mp
      (hall plainKeys .undefined (fourNumbers ++ [(.api, .get (.float64 0x8000000000000000))]))
      fourNumbers _ [] reached rfl hrun
  have hanswer : (reached.1.mapGet plainKeys (.float64 0x8000000000000000)).map Prod.fst =
      .ok answer := by
    rw [show reached.1.mapGet plainKeys (.float64 0x8000000000000000) = .ok (answer, next) from
      hperform]
    rfl
  have heq := hagrees.symm.trans hscript
  rw [hget] at hanswer
  rw [← Except.ok.inj hanswer] at heq
  cases heq

end MapState

end QuickjsBackend
