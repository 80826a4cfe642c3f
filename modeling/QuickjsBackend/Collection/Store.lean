import QuickjsBackend.Access.Operations
import QuickjsBackend.Collection.Integrity
import QuickjsBackend.Engine.Runtime

/-! # References of store operations

`Object::Set`, `Template::InitPropertys` and `Map::Set` put a value into a slot of their
target. Some engine calls consume the reference they are given, others take one of their
own, and the layer makes up for it. The reference counts of the engine are accounted for
over whole runs, in which setters, conversions and weak callbacks go on storing while a
call is in progress.
-/

namespace QuickjsBackend

open Foundation

/-- A property of an object. -/
abbrev PropertyPlace := Ptr × JSAtom

/-- A property holds a value, or a getter and a setter. -/
inductive Half
  | value
  | getter
  | setter
  deriving DecidableEq

/-- `u.value` of a `JSProperty`, or one of the two of `u.getset`. -/
abbrev Slot := PropertyPlace × Half

/-- What becomes of the value that `JS_SetProperty` or `JS_DefinePropertyValue` consumes: a
property holds it, or it is released, after a setter or a conversion has had it or at once
when the call is refused. A length that goes down clears other slots. -/
inductive SetOutcome
  | stored (place : PropertyPlace)
  | spent (cleared : List Slot)

namespace SetOutcome

/-- The slots that change hands. -/
def replaces : SetOutcome → List Slot
  | stored place => [(place, .value), (place, .getter), (place, .setter)]
  | spent cleared => cleared

/-- What the target holds afterwards. -/
def puts (value : JSValue) : SetOutcome → List (Slot × JSValue)
  | stored place => [((place, .value), value)]
  | spent _ => []

end SetOutcome

inductive StoreFault
  | layer (fault : Fault)
  | map (fault : MapFault)

/-- Objects and maps with the handles of the embedder. -/
structure StoreMachine where
  -- the values in the slots of open handle scopes, oldest first
  handles : List JSValue
  -- `prev_pos_` of the open scopes, innermost first
  scopes : List Nat
  -- whether an isolate and a context are current
  entered : Bool
  slots : List (Slot × JSValue)
  -- what the calls in progress have still to release
  releases : List JSValue
  maps : List MapMachine
  -- the counts of the engine
  refCount : Ptr → Int
  -- proof-facing: what the rest of the engine counts
  others : Ptr → Int

/-- What the embedder and scripts do. Between any two steps of a call in progress others
run. -/
inductive StoreAction
  | openScope
  | closeScope
  | enter (entered : Bool)
  | produce (value : JSValue)
  | set (key value : JSValue) (outcome : SetOutcome)
  | setIndex (value : JSValue) (outcome : SetOutcome)
  -- one round of the loops in `InitPropertys`
  | initField (func : JSValue) (outcome : SetOutcome)
  | initAccessor (getter setter : Option JSValue) (readOnly : Bool) (place : Option PropertyPlace)
  | script (value : JSValue) (outcome : SetOutcome)
  | release
  | newMap
  | map (id : Nat) (action : MapAction)
  -- the rest of the engine takes and releases references
  | engine (change : Ptr → Int)

namespace StoreMachine

def new (refCount : Ptr → Int) : StoreMachine where
  handles := []
  scopes := []
  entered := false
  slots := []
  releases := []
  maps := []
  refCount
  others := refCount

section Definitions

variable (store : KeyStore) (m : StoreMachine)

/-- `JS_DupValue`. -/
def dupValue (value : JSValue) : StoreMachine := { m with refCount := m.refCount + value.refs }

/-- `Isolate::Escape`, with its check for a current scope. -/
def escape (value : JSValue) : Except StoreFault StoreMachine :=
  match m.scopes with
  | [] => .error (.layer .abort)
  | _ :: _ => .ok (m.dupValue value)

def valuesIn (slots : List Slot) : List JSValue :=
  (m.slots.filter fun entry => entry.1 ∈ slots).map Prod.snd

def slotsWithout (slots : List Slot) : List (Slot × JSValue) :=
  m.slots.filter fun entry => entry.1 ∉ slots

/-- A slot takes a value over; what was in it is released, and what others held that go
with the change. -/
def setValue (slot : Slot) (others : List Slot) (value : JSValue) : StoreMachine :=
  { m with
    slots := (slot, value) :: m.slotsWithout (slot :: others)
    releases := m.valuesIn (slot :: others) ++ m.releases }

/-- `JS_SetProperty`, `JS_SetPropertyUint32` and `JS_DefinePropertyValue`, whose last
argument is a reference to the value. -/
def consume (value : JSValue) : SetOutcome → StoreMachine
  | .stored place => m.setValue (place, .value) [(place, .getter), (place, .setter)] value
  | .spent cleared =>
      { m with
        slots := m.slotsWithout cleared
        releases := value :: m.valuesIn cleared ++ m.releases }

/-- `JS_DefineProperty` for a function of an accessor, to which it takes a reference of its
own. Without `JS_PROP_HAS_GET` or `JS_PROP_HAS_SET` that slot is left alone. -/
def defineHalf (place : PropertyPlace) (half : Half) : Option JSValue → StoreMachine
  | none => m
  | some func => (m.dupValue func).setValue (place, half) [(place, .value)] func

/-- `JS_DefineProperty` with a getter and a setter; no place when it throws. -/
def defineProperty (getter setter : Option JSValue) : Option PropertyPlace → StoreMachine
  | none => m
  | some place => (m.defineHalf place .getter getter).defineHalf place .setter setter

/-- `FunctionTemplate::GetFunction`, or another call whose result a handle takes over. -/
def produce (value : JSValue) : StoreMachine :=
  { m.dupValue value with handles := m.handles ++ [value] }

/-- `Object::Set` with a value as key. -/
def set (key value : JSValue) (outcome : SetOutcome) : Except StoreFault StoreMachine := do
  let m ← m.escape value
  if key.isNumber && !m.entered then throw (.layer .nullDeref)
  return m.consume value outcome

/-- `Object::Set` with an index. -/
def setIndex (value : JSValue) (outcome : SetOutcome) : Except StoreFault StoreMachine := do
  let m ← m.escape value
  return m.consume value outcome

/-- `Template::InitPropertys` for one of `fields_`. -/
def initField (func : JSValue) (outcome : SetOutcome) : Except StoreFault StoreMachine := do
  let m ← (m.produce func).escape func
  return m.consume func outcome

/-- A getter or a setter, with the reference that `InitPropertys` takes to it. -/
def accessorFunction : Option JSValue → Except StoreFault StoreMachine
  | none => .ok m
  | some func => (m.produce func).escape func

/-- `Template::InitPropertys` for one of `accessor_property_infos_`. -/
def initAccessor (getter setter : Option JSValue) (readOnly : Bool) (place : Option PropertyPlace) :
    Except StoreFault StoreMachine := do
  let setter := if readOnly then none else setter
  let m ← m.accessorFunction getter
  let m ← m.accessorFunction setter
  let m := m.defineProperty getter setter place
  return { m with releases := getter.getD .undefined :: setter.getD .undefined :: m.releases }

/-- An assignment in a script. -/
def script (value : JSValue) (outcome : SetOutcome) : StoreMachine :=
  (m.dupValue value).consume value outcome

/-- `HandleScope::Exit`. -/
def closeScope : Except StoreFault StoreMachine :=
  match m.scopes with
  | [] => .error (.layer .misuse)
  | prevPos :: scopes => .ok { m with
      handles := m.handles.take prevPos
      scopes
      releases := m.handles.drop prevPos ++ m.releases }

/-- `JS_FreeValue` of the next value that a call in progress releases. -/
def release : StoreMachine :=
  match m.releases with
  | [] => m
  | value :: releases => { m with releases, refCount := m.refCount - value.refs }

/-- An operation on a map, which takes and releases references to keys and values. -/
def mapStep (id : Nat) (action : MapAction) : Except StoreFault StoreMachine :=
  match m.maps[id]? with
  | none => .error (.layer .misuse)
  | some machine =>
      match MapMachine.step store machine action with
      | .ok next => .ok { m with
          maps := m.maps.set id next
          refCount := m.refCount + (next.map.held - machine.map.held) }
      | .error fault => .error (.map fault)

def step : StepFn StoreMachine StoreAction StoreFault := fun m action =>
  match action with
  | .openScope => .ok { m with scopes := m.handles.length :: m.scopes }
  | .closeScope => m.closeScope
  | .enter entered => .ok { m with entered }
  | .produce value => .ok (m.produce value)
  | .set key value outcome => m.set key value outcome
  | .setIndex value outcome => m.setIndex value outcome
  | .initField func outcome => m.initField func outcome
  | .initAccessor getter setter readOnly place => m.initAccessor getter setter readOnly place
  | .script value outcome => .ok (m.script value outcome)
  | .release => .ok m.release
  | .newMap => .ok { m with maps := m.maps ++ [.new] }
  | .map id action => m.mapStep store id action
  | .engine change => .ok { m with
      refCount := m.refCount + change
      others := m.others + change }

/-- What a store needs: an open scope, something current for a number as key, and that
callbacks leave an operation under way on a map alone. -/
def Permits : StoreAction → Prop
  | .set key _ _ => m.scopes ≠ [] ∧ (key.isNumber = true → m.entered = true)
  | .setIndex _ _ | .initField _ _ | .initAccessor _ _ _ _ => m.scopes ≠ []
  | .map id action =>
      match m.maps[id]? with
      | none => False
      | some machine => machine.Undisturbed store action
  | _ => True

instance (action : StoreAction) : Decidable (m.Permits store action) :=
  match action with
  | .set _ _ _ => inferInstanceAs (Decidable (_ ∧ _))
  | .setIndex _ _ | .initField _ _ | .initAccessor _ _ _ _ => inferInstanceAs (Decidable (_ ≠ _))
  | .map id action =>
      match hmachine : m.maps[id]? with
      | none => isFalse (by simp [Permits, hmachine])
      | some machine => decidable_of_iff (machine.Undisturbed store action)
          (by simp [Permits, hmachine])
  | .openScope | .closeScope | .enter _ | .produce _ | .script _ _ | .release | .newMap
  | .engine _ => inferInstanceAs (Decidable True)

end Definitions

end StoreMachine

namespace StoreAction

/-- The actions that are store operations or parts of them. -/
def isStore : StoreAction → Bool
  | .set _ _ _ | .setIndex _ _ | .initField _ _ | .initAccessor _ _ _ _ | .map _ _ => true
  | _ => false

/-- The slots of which an action releases what they hold. -/
def replaces : StoreAction → List Slot
  | .set _ _ outcome | .setIndex _ outcome | .initField _ outcome | .script _ outcome =>
      outcome.replaces
  | .initAccessor getter setter readOnly (some place) =>
      (if getter.isSome then [(place, .getter), (place, .value)] else []) ++
        if setter.isSome && !readOnly then [(place, .setter), (place, .value)] else []
  | _ => []

/-- What slots of the target hold afterwards. -/
def puts : StoreAction → List (Slot × JSValue)
  | .set _ value outcome | .setIndex value outcome | .script value outcome => outcome.puts value
  | .initField func outcome => outcome.puts func
  | .initAccessor getter setter readOnly (some place) =>
      getter.toList.map (fun func => ((place, .getter), func)) ++
        (if readOnly then none else setter).toList.map fun func => ((place, .setter), func)
  | _ => []

end StoreAction

namespace MapMachine

/-- `Map::Set` finds a record, whose value it releases before it stores, or makes one; then
the record holds the value. -/
def Stores (store : KeyStore) (m : MapMachine) (action : MapAction) (next : MapMachine) : Prop :=
  match action, m.control with
  | .call _ (.set key value _), _ =>
      (∃ id, m.map.mapFindRecord store (store.mapNormalizeKey key) = .ok (some id) ∧
        next.control = .storing id value) ∨
      ∃ id mr, next.map.peek id = some mr ∧ mr.value = value ∧
        (mr.key = store.mapNormalizeKey key ∨
          m.map.mapFindRecord store (store.mapNormalizeKey key) = .ok (some id))
  | .resume, .storing id value => ∃ mr, next.map.peek id = some mr ∧ mr.value = value
  | _, _ => True

end MapMachine

namespace StoreMachine

/-- The values in slots of objects, one for each slot. -/
def stored (m : StoreMachine) : List JSValue := m.slots.map Prod.snd

/-- The references of the maps. -/
def mapped (m : StoreMachine) : Ptr → Int := (m.maps.map fun machine => machine.map.held).sum

/-- Each reference that the engine counts is owned by a handle, by a slot, by a call that
will release it, by a map, or by the rest of the engine; no slot is there twice; and a map
has one reference for each key and value. -/
structure Balanced (store : KeyStore) (m : StoreMachine) : Prop where
  refCount : m.refCount =
    m.others + totalRefs m.handles + totalRefs m.stored + totalRefs m.releases + m.mapped
  slots : (m.slots.map Prod.fst).Nodup
  maps : ∀ machine ∈ m.maps, MapMachine.Good store machine

/-- What an action does when it goes through: the handles stay, up to the end of their
scope; the slots of the target hold what was put there, and no others change; the record
of a map holds its value; a call in progress releases what it has to; and the engine counts
each reference once. -/
structure Keeps (store : KeyStore) (m : StoreMachine) (action : StoreAction)
    (next : StoreMachine) : Prop where
  handles : action ≠ .closeScope → m.handles <+: next.handles
  closes : action = .closeScope →
    ∃ prevPos, m.scopes = prevPos :: next.scopes ∧ next.handles = m.handles.take prevPos
  slots : ∀ entry, entry ∈ next.slots ↔
    entry ∈ action.puts ∨ entry ∈ m.slots ∧ entry.1 ∉ action.replaces
  maps : ∀ id operation machine, action = .map id operation → m.maps[id]? = some machine →
    ∃ after, next.maps[id]? = some after ∧ machine.Stores store operation after
  releases : action = .release → next.releases = m.releases.tail
  balanced : next.Balanced store

/-- A store operation goes through, and keeps references as everything else does. -/
structure KeepsReferences (store : KeyStore) (m : StoreMachine) (action : StoreAction)
    (outcome : Except StoreFault StoreMachine) : Prop where
  through : action.isStore = true → ∃ next, outcome = .ok next
  keeps : ∀ next, outcome = .ok next → m.Keeps store action next

variable {store : KeyStore} {m next : StoreMachine} {action : StoreAction}

/-! ### Accounts -/

/-- Besides what handles, slots, calls and maps own, the layer has some references in its
hands. -/
def Owes (m : StoreMachine) (hand : Ptr → Int) : Prop :=
  m.refCount =
    m.others + totalRefs m.handles + totalRefs m.stored + totalRefs m.releases + m.mapped + hand

theorem owes_zero_iff : m.Owes 0 ↔ m.refCount =
    m.others + totalRefs m.handles + totalRefs m.stored + totalRefs m.releases + m.mapped := by
  rw [Owes, add_zero]

variable {hand : Ptr → Int} {value : JSValue}

/-- What is in some slots and what is in the others is all that is stored. -/
theorem totalRefs_split (slots : List Slot) :
    totalRefs (m.valuesIn slots) + totalRefs ((m.slotsWithout slots).map Prod.snd) =
      totalRefs m.stored := by
  unfold valuesIn slotsWithout stored
  induction m.slots with
  | nil => rfl
  | cons entry rest ih =>
      by_cases hmem : entry.1 ∈ slots
      · simp only [List.filter_cons, hmem, decide_true, not_true_eq_false, decide_false, if_true,
          Bool.false_eq_true, if_false, List.map_cons, totalRefs_cons, ← ih]
        abel
      · simp only [List.filter_cons, hmem, decide_true, not_false_eq_true, decide_false, if_true,
          Bool.false_eq_true, if_false, List.map_cons, totalRefs_cons, ← ih]
        abel

theorem Owes.dupValue (howes : m.Owes hand) (value : JSValue) :
    (m.dupValue value).Owes (hand + value.refs) := by
  unfold Owes at howes ⊢
  change m.refCount + value.refs = m.others + totalRefs m.handles + totalRefs m.stored +
    totalRefs m.releases + m.mapped + _
  rw [howes]
  abel

/-- A handle takes over what was in hand. -/
theorem Owes.hold (howes : m.Owes (hand + value.refs)) :
    Owes { m with handles := m.handles ++ [value] } hand := by
  unfold Owes at howes ⊢
  change m.refCount = m.others + totalRefs (m.handles ++ [value]) + totalRefs m.stored +
    totalRefs m.releases + m.mapped + hand
  rw [howes, totalRefs_append, totalRefs_cons, totalRefs_nil]
  abel

theorem Owes.produce (howes : m.Owes hand) (value : JSValue) : (m.produce value).Owes hand :=
  (howes.dupValue value).hold

theorem Owes.setValue (howes : m.Owes (hand + value.refs)) (slot : Slot) (others : List Slot) :
    (m.setValue slot others value).Owes hand := by
  unfold Owes at howes ⊢
  have hsplit := totalRefs_split (m := m) (slot :: others)
  change m.refCount = m.others + totalRefs m.handles +
    totalRefs (value :: (m.slotsWithout (slot :: others)).map Prod.snd) +
      totalRefs (m.valuesIn (slot :: others) ++ m.releases) + m.mapped + hand
  rw [howes, totalRefs_cons, totalRefs_append, ← hsplit]
  abel

/-- What is to be released leaves the hands of the layer. -/
theorem Owes.defer (howes : m.Owes (hand + value.refs)) :
    Owes { m with releases := value :: m.releases } hand := by
  unfold Owes at howes ⊢
  change m.refCount = m.others + totalRefs m.handles + totalRefs m.stored +
    totalRefs (value :: m.releases) + m.mapped + hand
  rw [howes, totalRefs_cons]
  abel

theorem Owes.clear (howes : m.Owes hand) (cleared : List Slot) : Owes { m with
      slots := m.slotsWithout cleared
      releases := m.valuesIn cleared ++ m.releases } hand := by
  unfold Owes at howes ⊢
  have hsplit := totalRefs_split (m := m) cleared
  change m.refCount = m.others + totalRefs m.handles +
    totalRefs ((m.slotsWithout cleared).map Prod.snd) +
      totalRefs (m.valuesIn cleared ++ m.releases) + m.mapped + hand
  rw [howes, totalRefs_append, ← hsplit]
  abel

theorem Owes.consume (howes : m.Owes (hand + value.refs)) (outcome : SetOutcome) :
    (m.consume value outcome).Owes hand := by
  cases outcome with
  | stored place => exact howes.setValue _ _
  | spent cleared => exact (howes.clear cleared).defer

/-- The slot has a reference of its own. -/
theorem Owes.defineHalf (howes : m.Owes hand) (place : PropertyPlace) (half : Half)
    (func : Option JSValue) : (m.defineHalf place half func).Owes hand := by
  cases func with
  | none => exact howes
  | some func => exact (howes.dupValue func).setValue _ _

theorem Owes.defineProperty (howes : m.Owes hand) (getter setter : Option JSValue)
    (place : Option PropertyPlace) : (m.defineProperty getter setter place).Owes hand := by
  cases place with
  | none => exact howes
  | some place => exact (howes.defineHalf place .getter getter).defineHalf place .setter setter

theorem Owes.release (howes : m.Owes hand) : m.release.Owes hand := by
  unfold StoreMachine.release
  split
  · exact howes
  next value releases hreleases =>
    unfold Owes at howes ⊢
    change m.refCount - value.refs = m.others + totalRefs m.handles + totalRefs m.stored +
      totalRefs releases + m.mapped + hand
    rw [howes, hreleases, totalRefs_cons]
    abel

theorem closeScope_ok (hstep : m.closeScope = .ok next) :
    ∃ prevPos scopes, m.scopes = prevPos :: scopes ∧ next = { m with
      handles := m.handles.take prevPos
      scopes
      releases := m.handles.drop prevPos ++ m.releases } := by
  unfold closeScope at hstep
  split at hstep
  · cases hstep
  next prevPos scopes hscopes => exact ⟨prevPos, scopes, hscopes, (Except.ok.inj hstep).symm⟩

theorem Owes.closeScope (howes : m.Owes hand) (hstep : m.closeScope = .ok next) :
    next.Owes hand := by
  obtain ⟨prevPos, scopes, _, rfl⟩ := closeScope_ok hstep
  unfold Owes at howes ⊢
  have hhandles : totalRefs m.handles =
      totalRefs (m.handles.take prevPos) + totalRefs (m.handles.drop prevPos) := by
    rw [← totalRefs_append, List.take_append_drop]
  change m.refCount = m.others + totalRefs (m.handles.take prevPos) + totalRefs m.stored +
    totalRefs (m.handles.drop prevPos ++ m.releases) + m.mapped + hand
  rw [howes, hhandles, totalRefs_append]
  abel

/-- The engine counts what the map holds. -/
theorem Owes.mapped (howes : m.Owes hand) {id : Nat} {machine : MapMachine}
    (hmachine : m.maps[id]? = some machine) (after : MapMachine) : Owes { m with
      maps := m.maps.set id after
      refCount := m.refCount + (after.map.held - machine.map.held) } hand := by
  obtain ⟨hlt, hget⟩ := List.getElem?_eq_some_iff.mp hmachine
  have hsum : ((m.maps.set id after).map fun machine => machine.map.held).sum =
      (m.maps.map fun machine => machine.map.held).sum +
        (after.map.held - machine.map.held) := by
    rw [List.map_set, List.sum_set', dif_pos (by simpa using hlt), List.getElem_map, hget,
      neg_add_eq_sub]
  unfold Owes at howes ⊢
  change m.refCount + _ = m.others + totalRefs m.handles + totalRefs m.stored +
    totalRefs m.releases + ((m.maps.set id after).map fun machine => machine.map.held).sum + hand
  rw [howes, hsum, StoreMachine.mapped]
  abel

/-! ### Frames -/

/-- Handles stay where they are, maps are left alone, and slots change as they are told; none
gets there twice. -/
structure Frame (replaces : List Slot) (puts : List (Slot × JSValue)) (m next : StoreMachine) :
    Prop where
  handles : m.handles <+: next.handles
  maps : next.maps = m.maps
  slots : ∀ entry, entry ∈ next.slots ↔ entry ∈ puts ∨ entry ∈ m.slots ∧ entry.1 ∉ replaces
  nodup : (m.slots.map Prod.fst).Nodup → (next.slots.map Prod.fst).Nodup

theorem Frame.refl (m : StoreMachine) : Frame [] [] m m :=
  ⟨List.prefix_rfl, rfl, by simp, id⟩

/-- What comes later leaves alone what was put there. -/
theorem Frame.trans {middle : StoreMachine} {replaces replaced : List Slot}
    {puts later : List (Slot × JSValue)} (hfirst : Frame replaces puts m middle)
    (hsecond : Frame replaced later middle next)
    (hapart : ∀ entry ∈ puts, entry.1 ∉ replaced) :
    Frame (replaces ++ replaced) (puts ++ later) m next where
  handles := hfirst.handles.trans hsecond.handles
  maps := hsecond.maps.trans hfirst.maps
  slots entry := by
    have hentry := hapart entry
    rw [hsecond.slots, hfirst.slots, List.mem_append, List.mem_append, not_or]
    tauto
  nodup hslots := hsecond.nodup (hfirst.nodup hslots)

/-- A frame around no stores goes before any other. -/
theorem Frame.before {middle : StoreMachine} {replaces : List Slot} {puts : List (Slot × JSValue)}
    (hfirst : Frame [] [] m middle) (hsecond : Frame replaces puts middle next) :
    Frame replaces puts m next :=
  hfirst.trans hsecond (by simp)

theorem nodup_slotsWithout (slots : List Slot) (hslots : (m.slots.map Prod.fst).Nodup) :
    ((m.slotsWithout slots).map Prod.fst).Nodup :=
  hslots.sublist (List.filter_sublist.map Prod.fst)

theorem mem_slotsWithout {slots : List Slot} {entry : Slot × JSValue} :
    entry ∈ m.slotsWithout slots ↔ entry ∈ m.slots ∧ entry.1 ∉ slots := by
  rw [slotsWithout, List.mem_filter, decide_eq_true_iff]

theorem not_mem_slotsWithout {slot : Slot} {slots : List Slot} (hslot : slot ∈ slots) :
    slot ∉ (m.slotsWithout slots).map Prod.fst := by
  intro hmem
  obtain ⟨entry, hentry, rfl⟩ := List.mem_map.mp hmem
  exact (mem_slotsWithout.mp hentry).2 hslot

theorem frame_dupValue (value : JSValue) : Frame [] [] m (m.dupValue value) :=
  ⟨List.prefix_rfl, rfl, (Frame.refl m).slots, id⟩

theorem frame_produce (value : JSValue) : Frame [] [] m (m.produce value) :=
  ⟨List.prefix_append _ _, rfl, (Frame.refl m).slots, id⟩

theorem frame_setValue (slot : Slot) (others : List Slot) (value : JSValue) :
    Frame (slot :: others) [(slot, value)] m (m.setValue slot others value) where
  handles := List.prefix_rfl
  maps := rfl
  slots entry := by
    rw [setValue, List.mem_cons, mem_slotsWithout, List.mem_singleton]
  nodup hslots :=
    List.nodup_cons.mpr ⟨not_mem_slotsWithout List.mem_cons_self, nodup_slotsWithout _ hslots⟩

theorem frame_consume (value : JSValue) (outcome : SetOutcome) :
    Frame outcome.replaces (outcome.puts value) m (m.consume value outcome) := by
  cases outcome with
  | stored place => exact frame_setValue _ _ value
  | spent cleared =>
      refine ⟨List.prefix_rfl, rfl, fun entry => ?_, nodup_slotsWithout cleared⟩
      simp only [consume, mem_slotsWithout, SetOutcome.puts, SetOutcome.replaces, List.not_mem_nil,
        false_or]

theorem frame_defineHalf (place : PropertyPlace) (half : Half) (func : Option JSValue) :
    Frame (if func.isSome then [(place, half), (place, .value)] else [])
      (func.toList.map fun func => ((place, half), func)) m (m.defineHalf place half func) := by
  cases func with
  | none => exact Frame.refl m
  | some func => exact (frame_dupValue func).before (frame_setValue _ _ func)

theorem frame_defineProperty (getter setter : Option JSValue) (place : PropertyPlace) :
    Frame ((if getter.isSome then [(place, .getter), (place, .value)] else []) ++
        if setter.isSome then [(place, .setter), (place, .value)] else [])
      (getter.toList.map (fun func => ((place, .getter), func)) ++
        setter.toList.map fun func => ((place, .setter), func))
      m (m.defineProperty getter setter (some place)) := by
  refine (frame_defineHalf place .getter getter).trans (frame_defineHalf place .setter setter)
    fun entry hentry => ?_
  obtain ⟨func, _, rfl⟩ := List.mem_map.mp hentry
  cases setter <;> simp

/-! ### Operations -/

theorem escape_of_open (hopen : m.scopes ≠ []) (value : JSValue) :
    m.escape value = .ok (m.dupValue value) := by
  obtain ⟨prevPos, scopes, hscopes⟩ := List.exists_cons_of_ne_nil hopen
  rw [StoreMachine.escape, hscopes]

/-- An operation went through: what it puts is framed and what is owed stays the same. -/
def Settles (m : StoreMachine) (action : StoreAction) (outcome : Except StoreFault StoreMachine) :
    Prop :=
  ∃ next, outcome = .ok next ∧ Frame action.replaces action.puts m next ∧
    ∀ hand, m.Owes hand → next.Owes hand

theorem settles_set (hopen : m.scopes ≠ []) {key : JSValue}
    (hentered : key.isNumber = true → m.entered = true) (value : JSValue) (outcome : SetOutcome) :
    Settles m (.set key value outcome) (m.set key value outcome) := by
  have hcurrent : (key.isNumber && !m.entered) = false := by
    cases hkey : key.isNumber with
    | false => rfl
    | true => rw [hentered hkey]; rfl
  refine ⟨(m.dupValue value).consume value outcome, ?_,
    (frame_dupValue value).before (frame_consume value outcome),
    fun hand howes => (howes.dupValue value).consume outcome⟩
  have hduplicate : (key.isNumber && !(m.dupValue value).entered) = false := hcurrent
  simp only [set, escape_of_open hopen, hduplicate, bind, Except.bind, pure, Except.pure,
    Bool.false_eq_true, if_false]

theorem settles_setIndex (hopen : m.scopes ≠ []) (value : JSValue) (outcome : SetOutcome) :
    Settles m (.setIndex value outcome) (m.setIndex value outcome) := by
  refine ⟨(m.dupValue value).consume value outcome, ?_,
    (frame_dupValue value).before (frame_consume value outcome),
    fun hand howes => (howes.dupValue value).consume outcome⟩
  simp only [setIndex, escape_of_open hopen, bind, Except.bind, pure, Except.pure]

theorem settles_initField (hopen : m.scopes ≠ []) (func : JSValue) (outcome : SetOutcome) :
    Settles m (.initField func outcome) (m.initField func outcome) := by
  have hproduced : (m.produce func).scopes ≠ [] := hopen
  refine ⟨((m.produce func).dupValue func).consume func outcome, ?_,
    (frame_produce func).before ((frame_dupValue func).before (frame_consume func outcome)),
    fun hand howes => ((howes.produce func).dupValue func).consume outcome⟩
  simp only [initField, escape_of_open hproduced, bind, Except.bind, pure, Except.pure]

/-- The reference to a function that is there. -/
theorem accessorFunction_spec (hopen : m.scopes ≠ []) (func : Option JSValue) :
    ∃ next, m.accessorFunction func = .ok next ∧ next.scopes = m.scopes ∧ Frame [] [] m next ∧
      ∀ hand, m.Owes hand → next.Owes (hand + (func.getD .undefined).refs) := by
  cases func with
  | none =>
      refine ⟨m, rfl, rfl, Frame.refl m, fun hand howes => ?_⟩
      rwa [Option.getD_none, show JSValue.undefined.refs = 0 from rfl, add_zero]
  | some func =>
      have hproduced : (m.produce func).scopes ≠ [] := hopen
      exact ⟨(m.produce func).dupValue func, escape_of_open hproduced func, rfl,
        (frame_produce func).before (frame_dupValue func),
        fun hand howes => (howes.produce func).dupValue func⟩

/-- Without `JS_PROP_HAS_SET` a setter is as good as none. -/
theorem frame_initAccessor (getter setter : Option JSValue) (readOnly : Bool)
    (place : Option PropertyPlace) :
    Frame (StoreAction.initAccessor getter setter readOnly place).replaces
      (StoreAction.initAccessor getter setter readOnly place).puts m
      (m.defineProperty getter (if readOnly then none else setter) place) := by
  cases place with
  | none => exact Frame.refl m
  | some place =>
      have hsetter : (if readOnly then none else setter).isSome = (setter.isSome && !readOnly) := by
        cases readOnly <;> simp
      have hframe := frame_defineProperty (m := m) getter (if readOnly then none else setter) place
      rwa [hsetter] at hframe

theorem settles_initAccessor (hopen : m.scopes ≠ []) (getter setter : Option JSValue)
    (readOnly : Bool) (place : Option PropertyPlace) :
    Settles m (.initAccessor getter setter readOnly place)
      (m.initAccessor getter setter readOnly place) := by
  obtain ⟨first, hfirst, hscopes, hfirstFrame, hfirstOwes⟩ := accessorFunction_spec hopen getter
  have hfirstOpen : first.scopes ≠ [] := hscopes ▸ hopen
  obtain ⟨second, hsecond, _, hsecondFrame, hsecondOwes⟩ :=
    accessorFunction_spec hfirstOpen (if readOnly then none else setter)
  refine ⟨_, by
    simp only [initAccessor, hfirst, hsecond, bind, Except.bind, pure, Except.pure]; rfl, ?_, ?_⟩
  · have hframe := hfirstFrame.before
      (hsecondFrame.before (frame_initAccessor getter setter readOnly place))
    exact ⟨hframe.handles, hframe.maps, hframe.slots, hframe.nodup⟩
  · intro hand howes
    have hdefined := (hsecondOwes _ (hfirstOwes hand howes)).defineProperty getter
      (if readOnly then none else setter) place
    -- `JS_FreeValue` of the setter comes last
    exact Owes.defer (Owes.defer hdefined)

end StoreMachine

/-! ### Maps -/

namespace MapMachine

variable {store : KeyStore} {m next : MapMachine} {key value : JSValue} {slack : Option Nat}

theorem begin_stores (hgood : Good store m) (hcontrol : m.control = .idle) (caller : MapCaller)
    (hstep : m.begin store caller (.set key value slack) = .ok next) :
    m.Stores store (.call caller (.set key value slack)) next := by
  obtain ⟨map, cursors, control⟩ := m
  obtain rfl : control = .idle := hcontrol
  have hrep : map.Rep store cursors.count [] [] := hgood.rep
  obtain ⟨found, hfound, hsome, _⟩ := hrep.mapFindRecord_spec (store.mapNormalizeKey key)
  cases found with
  | none =>
      obtain ⟨added, stored, hadd, hstore, _, _, hself, _⟩ :=
        hrep.insert_spec (store.mapNormalizeKey key) value slack (Or.inl rfl)
      simp only [begin, hfound, hadd, hstore, bind, Except.bind, pure, Except.pure] at hstep
      cases hstep
      exact .inr ⟨_, _, hself, rfl, .inl rfl⟩
  | some id =>
      obtain ⟨mr, hpeek, hlive, _⟩ := hsome id rfl
      obtain ⟨freed, hfreed, _⟩ := hrep.releaseValue_spec hpeek hlive List.not_mem_nil
      simp only [begin, hfound, hfreed, bind, Except.bind, pure, Except.pure] at hstep
      cases hstep
      exact .inl ⟨id, hfound, rfl⟩

/-- `Map::Set` in a callback runs through. -/
theorem interrupt_stores (hgood : Good store m) (caller : MapCaller)
    (hcalm : m.Undisturbed store (.call caller (.set key value slack)))
    (hstep : m.interrupt store caller (.set key value slack) = .ok next) :
    m.Stores store (.call caller (.set key value slack)) next := by
  obtain ⟨map, hmap, _, _, hstored⟩ := hgood.rep.put_kept .undefined value hcalm.1 hcalm.2
  have hput : m.interrupt store caller (.set key value slack) = .ok { m with map } := by
    cases caller with
    | api =>
        simp only [interrupt, MapState.perform, MapState.mapSet, hmap, bind, Except.bind, pure,
          Except.pure]
    | script =>
        simp only [interrupt, MapState.perform, MapState.jsMapSet, hmap, bind, Except.bind, pure,
          Except.pure]
  cases hput.symm.trans hstep
  exact .inr hstored

theorem resume_stores (hgood : Good store m) (hstep : m.resume = .ok next) :
    m.Stores store .resume next := by
  obtain ⟨map, cursors, control⟩ := m
  cases control with
  | idle => trivial
  | storing id value =>
      obtain ⟨mr, stored, hpeek, _, hstore, _, hmemory, hrecords, _⟩ :=
        hgood.rep.storeValue_spec List.not_mem_nil value
      simp only [resume, hstore, bind, Except.bind, pure, Except.pure] at hstep
      cases hstep
      exact ⟨_, (MapState.stored_spec hpeek hmemory hrecords).2.1, rfl⟩
  | keyReleased id rest => trivial
  | valueReleased id rest => trivial

theorem step_stores (hgood : Good store m) {action : MapAction}
    (hcalm : m.Undisturbed store action) (hstep : step store m action = .ok next) :
    m.Stores store action next := by
  cases action with
  | call caller call =>
      cases call with
      | set key value slack =>
          by_cases hcontrol : m.control = .idle
          · simp only [step, hcontrol, if_true] at hstep
            exact begin_stores hgood hcontrol caller hstep
          · simp only [step, if_neg hcontrol] at hstep
            exact interrupt_stores hgood caller hcalm hstep
      | get => trivial
      | delete => trivial
      | clear => trivial
  | next => trivial
  | finalize => trivial
  | resume => exact resume_stores hgood hstep

end MapMachine

/-! ### Runs -/

namespace StoreMachine

variable {store : KeyStore} {m next : StoreMachine} {action : StoreAction}

theorem balanced_new (store : KeyStore) (refCount : Ptr → Int) :
    (new refCount).Balanced store where
  refCount := by simp [new, stored, mapped]
  slots := List.nodup_nil
  maps _ hmem := nomatch hmem

theorem Balanced.owes (hbalanced : m.Balanced store) : m.Owes 0 :=
  owes_zero_iff.mpr hbalanced.refCount

/-- What is framed and owes nothing is balanced, and keeps what it should. -/
theorem Settles.keepsReferences (hsettles : Settles m action (step store m action))
    (hbalanced : m.Balanced store) (hcloses : action ≠ .closeScope) (hreleases : action ≠ .release)
    (hmap : ∀ id operation, action ≠ .map id operation) :
    KeepsReferences store m action (step store m action) := by
  obtain ⟨next, hnext, hframe, howes⟩ := hsettles
  refine ⟨fun _ => ⟨next, hnext⟩, fun other hother => ?_⟩
  cases hnext.symm.trans hother
  exact {
    handles := fun _ => hframe.handles
    closes := fun heq => absurd heq hcloses
    slots := hframe.slots
    maps := fun id operation _ heq _ => absurd heq (hmap id operation)
    releases := fun heq => absurd heq hreleases
    balanced := ⟨owes_zero_iff.mp (howes 0 hbalanced.owes), hframe.nodup hbalanced.slots,
      fun machine hmem => hbalanced.maps machine (hframe.maps ▸ hmem)⟩ }

theorem keepsReferences_closeScope (hbalanced : m.Balanced store) :
    KeepsReferences store m .closeScope (step store m .closeScope) := by
  refine ⟨fun hstore => (nomatch hstore), fun next hnext => ?_⟩
  have howes : next.Owes 0 := hbalanced.owes.closeScope hnext
  obtain ⟨prevPos, scopes, hscopes, rfl⟩ := closeScope_ok hnext
  exact {
    handles := fun hne => absurd rfl hne
    closes := fun _ => ⟨prevPos, hscopes, rfl⟩
    slots := (Frame.refl m).slots
    maps := fun _ _ _ heq => (nomatch heq)
    releases := fun heq => (nomatch heq)
    balanced := ⟨owes_zero_iff.mp howes, hbalanced.slots, hbalanced.maps⟩ }

theorem keepsReferences_release (hbalanced : m.Balanced store) :
    KeepsReferences store m .release (step store m .release) := by
  refine ⟨fun hstore => (nomatch hstore), fun next hnext => ?_⟩
  cases hnext
  have hunchanged : m.release.handles = m.handles ∧ m.release.slots = m.slots ∧
      m.release.maps = m.maps ∧ m.release.releases = m.releases.tail := by
    unfold StoreMachine.release
    split
    next hnil => exact ⟨rfl, rfl, rfl, by rw [hnil]; rfl⟩
    next hcons => exact ⟨rfl, rfl, rfl, by rw [hcons]; rfl⟩
  obtain ⟨hhandles, hslots, hmaps, hreleases⟩ := hunchanged
  exact {
    handles := fun _ => hhandles ▸ List.prefix_rfl
    closes := fun heq => (nomatch heq)
    slots := fun entry => by rw [hslots]; exact (Frame.refl m).slots entry
    maps := fun _ _ _ heq => (nomatch heq)
    releases := fun _ => hreleases
    balanced := ⟨owes_zero_iff.mp hbalanced.owes.release, hslots ▸ hbalanced.slots,
      hmaps ▸ hbalanced.maps⟩ }

theorem keepsReferences_map (hbalanced : m.Balanced store) {id : Nat} {operation : MapAction}
    (hpermits : m.Permits store (.map id operation)) :
    KeepsReferences store m (.map id operation) (step store m (.map id operation)) := by
  unfold Permits at hpermits
  cases hmachine : m.maps[id]? with
  | none =>
      simp only [hmachine] at hpermits
  | some machine =>
      simp only [hmachine] at hpermits
      have hgood := hbalanced.maps machine (List.mem_of_getElem? hmachine)
      obtain ⟨after, hafter, hafterGood⟩ := MapMachine.step_good hgood operation hpermits
      have hstep : step store m (.map id operation) = .ok { m with
          maps := m.maps.set id after
          refCount := m.refCount + (after.map.held - machine.map.held) } := by
        simp only [step, mapStep, hmachine, hafter]
      obtain ⟨hlt, _⟩ := List.getElem?_eq_some_iff.mp hmachine
      rw [hstep]
      refine ⟨fun _ => ⟨_, rfl⟩, fun next hnext => ?_⟩
      cases hnext
      exact {
        handles := fun _ => List.prefix_rfl
        closes := fun heq => (nomatch heq)
        slots := (Frame.refl m).slots
        maps := fun other action found heq hfound => by
          cases heq
          cases hmachine.symm.trans hfound
          exact ⟨after, List.getElem?_set_self hlt, MapMachine.step_stores hgood hpermits hafter⟩
        releases := fun heq => (nomatch heq)
        balanced := ⟨owes_zero_iff.mp (hbalanced.owes.mapped hmachine after), hbalanced.slots,
          fun other hmem => (List.mem_or_eq_of_mem_set hmem).elim (hbalanced.maps other)
            fun heq => heq ▸ hafterGood⟩ }

theorem keepsReferences_newMap (hbalanced : m.Balanced store) :
    KeepsReferences store m .newMap (step store m .newMap) := by
  refine ⟨fun hstore => (nomatch hstore), fun next hnext => ?_⟩
  cases hnext
  exact {
    handles := fun _ => List.prefix_rfl
    closes := fun heq => (nomatch heq)
    slots := (Frame.refl m).slots
    maps := fun _ _ _ heq => (nomatch heq)
    releases := fun heq => (nomatch heq)
    balanced := by
      refine ⟨?_, hbalanced.slots, fun machine hmem => ?_⟩
      · have hmapped : ({ m with maps := m.maps ++ [.new] } : StoreMachine).mapped = m.mapped := by
          simp [mapped, MapMachine.new, MapState.new]
        rw [hmapped]
        exact hbalanced.refCount
      · rcases List.mem_append.mp hmem with hmem | hmem
        · exact hbalanced.maps machine hmem
        · rw [List.mem_singleton.mp hmem]
          exact MapMachine.good_new }

/-- The rest of the engine counts for itself. -/
theorem settles_engine (change : Ptr → Int) :
    Settles m (.engine change) (step store m (.engine change)) := by
  refine ⟨_, rfl, ⟨List.prefix_rfl, rfl, (Frame.refl m).slots, id⟩, fun hand howes => ?_⟩
  unfold Owes at howes ⊢
  change m.refCount + change = m.others + change + totalRefs m.handles + totalRefs m.stored +
    totalRefs m.releases + m.mapped + hand
  rw [howes]
  abel

theorem keepsReferences_step (hbalanced : m.Balanced store) (hpermits : m.Permits store action) :
    KeepsReferences store m action (step store m action) := by
  cases action with
  | openScope =>
      have hsettles : Settles m .openScope (step store m .openScope) :=
        ⟨_, rfl, ⟨List.prefix_rfl, rfl, (Frame.refl m).slots, id⟩, fun _ howes => howes⟩
      exact hsettles.keepsReferences hbalanced (by simp) (by simp) (by simp)
  | closeScope => exact keepsReferences_closeScope hbalanced
  | enter entered =>
      have hsettles : Settles m (.enter entered) (step store m (.enter entered)) :=
        ⟨_, rfl, ⟨List.prefix_rfl, rfl, (Frame.refl m).slots, id⟩, fun _ howes => howes⟩
      exact hsettles.keepsReferences hbalanced (by simp) (by simp) (by simp)
  | produce value =>
      have hsettles : Settles m (.produce value) (step store m (.produce value)) :=
        ⟨_, rfl, frame_produce value, fun hand howes => howes.produce value⟩
      exact hsettles.keepsReferences hbalanced (by simp) (by simp) (by simp)
  | set key value outcome =>
      have hsettles := settles_set hpermits.1 hpermits.2 value outcome
      exact Settles.keepsReferences hsettles hbalanced (by simp) (by simp) (by simp)
  | setIndex value outcome =>
      have hsettles := settles_setIndex hpermits value outcome
      exact Settles.keepsReferences hsettles hbalanced (by simp) (by simp) (by simp)
  | initField func outcome =>
      have hsettles := settles_initField hpermits func outcome
      exact Settles.keepsReferences hsettles hbalanced (by simp) (by simp) (by simp)
  | initAccessor getter setter readOnly place =>
      have hsettles := settles_initAccessor hpermits getter setter readOnly place
      exact Settles.keepsReferences hsettles hbalanced (by simp) (by simp) (by simp)
  | script value outcome =>
      have hsettles : Settles m (.script value outcome) (step store m (.script value outcome)) :=
        ⟨_, rfl, (frame_dupValue value).before (frame_consume value outcome),
          fun hand howes => (howes.dupValue value).consume outcome⟩
      exact hsettles.keepsReferences hbalanced (by simp) (by simp) (by simp)
  | release => exact keepsReferences_release hbalanced
  | newMap => exact keepsReferences_newMap hbalanced
  | map id operation => exact keepsReferences_map hbalanced hpermits
  | engine change =>
      exact (settles_engine change).keepsReferences hbalanced (by simp) (by simp) (by simp)

/-- Along every run whose stores have an open scope, with something current where the key
is a number, and whose callbacks leave operations under way on a map alone: stores go
through, the handles of their callers stay, the slots of their targets and the records of
maps hold what was stored, and the engine counts each of these references once. -/
theorem keepsReferences_of_permits (store : KeyStore) (refCount : Ptr → Int)
    (actions : List StoreAction)
    (hpermits : (step store).Always (fun m action _ => m.Permits store action) (new refCount)
      actions) :
    (step store).Always (KeepsReferences store) (new refCount) actions :=
  (step store).always_of_guard (Balanced store)
    (fun _ _ hbalanced haction => keepsReferences_step hbalanced haction)
    (fun _ _ next hbalanced haction hnext =>
      ((keepsReferences_step hbalanced haction).keeps next hnext).balanced)
    (balanced_new store refCount) hpermits

/-- An object is set twice from one handle, into an accessor of a template and into a map;
then the scope of the handle is closed. -/
theorem keepsReferences_of_permits_repeated :
    (step MapState.plainKeys).Always (KeepsReferences MapState.plainKeys) (new fun _ => 1)
      [.openScope, .enter true, .newMap, .produce (.ref .object 10),
        .set (.int 1) (.ref .object 10) (.stored (20, 1)),
        .set (.int 1) (.ref .object 10) (.stored (20, 1)), .release,
        .setIndex (.ref .object 10) (.spent []), .release,
        .initAccessor (some (.ref .object 11)) none true (some (20, 2)), .release, .release,
        .map 0 (.call .api (.set (.int 1) (.ref .object 10) none)),
        .map 0 (.call .api (.set (.int 1) (.ref .object 11) none)), .map 0 .resume,
        .closeScope, .release, .release] :=
  keepsReferences_of_permits MapState.plainKeys _ _ (by decide)

/-- The callback of an old value deletes the record into which `Map::Set` is about to store
the new one. -/
theorem set_releases_twice :
    ¬ ∀ (store : KeyStore) (refCount : Ptr → Int) (actions : List StoreAction),
      (step store).Always (KeepsReferences store) (new refCount) actions := by
  intro hall
  have halways := hall MapState.plainKeys (fun _ => 1)
    [.newMap, .map 0 (.call .api (.set (.int 1) (.ref .object 10) none)),
      .map 0 (.call .api (.set (.int 1) .null none)),
      .map 0 (.call .api (.delete (.int 1))), .map 0 .resume]
  obtain ⟨next, hnext⟩ := ((((halways.2 _ rfl).2 _ rfl).2 _ rfl).2 _ rfl).1.through rfl
  cases hnext

end StoreMachine

end QuickjsBackend
