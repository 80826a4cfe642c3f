import QuickjsBackend.Foundation.Run
import QuickjsBackend.Collection.Agreement
import QuickjsBackend.Collection.Iterator

/-! # Maps while callbacks run

A released key or value may be an object whose weak callback operates on the same map.
Objects that die while a callback runs are queued by the engine, so that operations of
callbacks are not interrupted by further callbacks. An operation stops at each of its
releases; there the callbacks run, and `resume` goes on with it.
-/

namespace QuickjsBackend

open Foundation

/-- Where the operation under way is: at a release, with the record it is at and, in a
deletion of `JS_MapClear`, the link it has read in advance. -/
inductive MapControl
  | idle
  | storing (id : Nat) (value : JSValue)
  | keyReleased (id : Nat) (rest : Option (Option Nat))
  | valueReleased (id : Nat) (rest : Option (Option Nat))
  deriving DecidableEq

namespace MapControl

/-- The records that have lost their place in the table. -/
def deleting : MapControl → List Nat
  | idle => []
  | storing _ _ => []
  | keyReleased id _ => [id]
  | valueReleased id _ => [id]

/-- The records that have lost their value. -/
def valueless : MapControl → List Nat
  | idle => []
  | storing id _ => [id]
  | keyReleased _ _ => []
  | valueReleased id _ => [id]

/-- The record at which the walk of `JS_MapClear` goes on. -/
def saved : MapControl → Option Nat
  | idle => none
  | storing _ _ => none
  | keyReleased _ rest => rest.join
  | valueReleased _ rest => rest.join

end MapControl

/-- A map with the records at which its iterators stand. -/
structure MapMachine where
  map : MapState
  cursors : List Nat
  control : MapControl

/-- What happens to a map. A call is made by the embedder or, at a release, by a
callback; an iterator that stands at a record, or at none yet, goes on or dies. -/
inductive MapAction
  | call (caller : MapCaller) (call : MapCall)
  | next (current : Option Nat)
  | finalize (id : Nat)
  | resume

/-- The key that a getter or a deleting function looks up. -/
def MapCaller.looksUp (store : KeyStore) : MapCaller → JSValue → JSValue
  | api, key => key
  | script, key => store.mapNormalizeKey key

namespace MapMachine

def new : MapMachine := ⟨.new, [], .idle⟩

section Definitions

variable (store : KeyStore) (m : MapMachine)

def startDelete (id : Nat) (rest : Option (Option Nat)) : Except MapFault MapMachine := do
  let map ← m.map.beginDelete id
  return { m with map, control := .keyReleased id rest }

/-- The walk of `JS_MapClear` from a link it has read: empty records are passed over. -/
def walk (link : Option Nat) : Except MapFault MapMachine :=
  match link with
  | none => return { m with control := .idle }
  | some id => do
      match ← m.map.firstFull (id :: m.map.following id) with
      | none => return { m with control := .idle }
      | some id => m.startDelete id (some (m.map.following id).head?)

/-- An operation up to its first release. -/
def begin (caller : MapCaller) : MapCall → Except MapFault MapMachine
  | .set key value slack => do
      match ← m.map.mapFindRecord store (store.mapNormalizeKey key) with
      | some id =>
          let map ← m.map.releaseValue id
          return { m with map, control := .storing id value }
      | none =>
          let (id, map) ← m.map.mapAddRecord store (store.mapNormalizeKey key) slack
          let map ← map.storeValue id value
          return { m with map }
  | .get key => do
      let (_, map) ← m.map.lookUp store (caller.looksUp store key)
      return { m with map }
  | .delete key => do
      match ← m.map.mapFindRecord store (caller.looksUp store key) with
      | some id => m.startDelete id none
      | none => return m
  | .clear => m.walk m.map.records.head?

/-- An operation from a release up to the next one. -/
def resume : Except MapFault MapMachine :=
  match m.control with
  | .idle => .ok m
  | .storing id value => do
      let map ← m.map.storeValue id value
      return { m with map, control := .idle }
  | .keyReleased id rest => do
      let map ← m.map.releaseValue id
      return { m with map, control := .valueReleased id rest }
  | .valueReleased id rest => do
      let map ← m.map.finishDelete id
      match rest with
      | none => return { m with map, control := .idle }
      | some link => walk { m with map } link

/-- A call of a callback runs through. -/
def interrupt (caller : MapCaller) (call : MapCall) : Except MapFault MapMachine := do
  let (_, map) ← m.map.perform store .undefined caller call
  return { m with map }

/-- `js_map_iterator_next`; nothing happens without an iterator at the record. -/
def advance (current : Option Nat) : Except MapFault MapMachine :=
  if ∀ id ∈ current, id ∈ m.cursors then do
    let (found, map) ← m.map.jsMapIteratorNext current
    return { m with map, cursors := MapState.moved m.cursors current found }
  else .ok m

/-- `js_map_iterator_finalizer` of an iterator at a record. -/
def finalize (id : Nat) : Except MapFault MapMachine :=
  if id ∈ m.cursors then do
    let map ← m.map.mapDecrefRecord id
    return { m with map, cursors := m.cursors.erase id }
  else .ok m

def step : StepFn MapMachine MapAction MapFault := fun m action =>
  match action with
  | .call caller call =>
      if m.control = .idle then m.begin store caller call else m.interrupt store caller call
  | .next current => m.advance current
  | .finalize id => m.finalize id
  | .resume => m.resume

/-- What callbacks do leaves the operation under way alone: they do not find the record
whose value is released, do not free the record at which the walk goes on, do not clear
the map, and the table does not grow while a record is taken out of it. -/
def Undisturbed : MapAction → Prop
  | .call _ (.set key _ slack) =>
      (∀ id ∈ m.control.valueless,
        m.map.mapFindRecord store (store.mapNormalizeKey key) ≠ .ok (some id)) ∧
      (m.control.deleting = [] ∨ slack = none ∨
        m.map.mapFindRecord store (store.mapNormalizeKey key) ≠ .ok none ∨
        m.map.recordCount + 1 < m.map.recordCountThreshold)
  | .call _ (.get _) => True
  | .call caller (.delete key) =>
      (∀ id ∈ m.control.valueless,
        m.map.mapFindRecord store (caller.looksUp store key) ≠ .ok (some id)) ∧
      ∀ id ∈ m.control.saved, m.map.mapFindRecord store (caller.looksUp store key) = .ok (some id) →
        1 < m.map.countOf id
  | .call _ .clear => m.control = .idle
  | .next current => ∀ id ∈ m.control.saved, current = some id → 1 < m.map.countOf id
  | .finalize current => ∀ id ∈ m.control.saved, current = id → 1 < m.map.countOf id
  | .resume => True

instance (action : MapAction) : Decidable (m.Undisturbed store action) :=
  match action with
  | .call _ (.set _ _ _) => inferInstanceAs (Decidable (_ ∧ _))
  | .call _ (.get _) => inferInstanceAs (Decidable True)
  | .call _ (.delete _) => inferInstanceAs (Decidable (_ ∧ _))
  | .call _ .clear => inferInstanceAs (Decidable (_ = _))
  | .next _ => inferInstanceAs (Decidable (∀ _ ∈ _, _))
  | .finalize _ => inferInstanceAs (Decidable (∀ _ ∈ _, _))
  | .resume => inferInstanceAs (Decidable True)

end Definitions

end MapMachine

end QuickjsBackend
