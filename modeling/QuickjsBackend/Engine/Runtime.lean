import Mathlib.Logic.Function.Basic
import QuickjsBackend.Engine.Value

/-! # Reference counts, object death, and the finalizer of this layer

The runtime as this layer sees it: the count of every cell, whether the cell is
still allocated, and the user data the callback wrapper hangs on objects with
internal fields. A count that reaches zero frees the cell and runs the
finalizer; the cycle collector frees cells whose only references come from
other garbage. Objects that die while others are being freed wait in a list of
the engine, and those of a cycle wait for one another: they are condemned, and
freed when their turn comes whatever their count is by then. The frees that a
dying object causes among its own fields, and the operations an embedder
performs in its weak callback, are later steps of the run.
-/

namespace QuickjsBackend

/-- Whether a cell was allocated and not yet freed; a condemned one is in
`gc_zero_ref_count_list` or in `tmp_obj_list`. Addresses are not reused, so a
value that outlives its cell stays recognizable. -/
inductive CellState
  | unused
  | live
  | condemned
  | freed
  deriving DecidableEq, Repr

/-- The cell has its memory. -/
def CellState.Allocated : CellState → Prop
  | .live | .condemned => True
  | .unused | .freed => False

instance (state : CellState) : Decidable state.Allocated := by
  cases state <;> unfold CellState.Allocated <;> infer_instance

/-- `ObjectUserData`, allocated by the callback wrapper for internal fields; a
null `callback_` is `none`. -/
structure ObjectUserData where
  len : Int
  callback : Option Nat
  parameter : Nat
  ptrs : List Nat
  deriving DecidableEq, Repr

/-- How a step of this layer can fail: an action outside the contract of the
API, a failed `V8::Check`, a read through a null pointer, or the use of a cell
that was freed. -/
inductive Fault
  | misuse
  | abort
  | nullDeref
  | useAfterFree
  deriving DecidableEq, Repr

structure Runtime where
  refCount : Ptr → Int
  cell : Ptr → CellState
  gcPhase : GcPhase
  -- what `JS_GetOpaque` finds under the layer's class id
  userData : Ptr → Option ObjectUserData
  -- weak callbacks run so far, with the object and the data they were given
  invoked : List (Ptr × ObjectUserData)

namespace Runtime

/-- `JS_NewRuntime`: no cell is allocated yet. -/
def new : Runtime where
  refCount := 0
  cell := fun _ => .unused
  gcPhase := .none
  userData := fun _ => none
  invoked := []

variable (rt : Runtime)

/-- An engine call returns a value with a reference for its caller: a cell it
has just allocated, or one more reference to a live one. -/
def produce (value : JSValue) : Runtime :=
  match value with
  | .ref kind ptr =>
      { rt with
        refCount := rt.refCount + (JSValue.ref kind ptr).refs
        cell := Function.update rt.cell ptr .live }
  | _ => rt

/-- `JS_DupValueRT`. -/
def dupValueRT (value : JSValue) : Runtime :=
  { rt with refCount := rt.refCount + value.refs }

/-- `V8FinalizerWrap`. -/
def v8FinalizerWrap (ptr : Ptr) : Runtime :=
  match rt.userData ptr with
  | none => rt
  | some objectUdata =>
      { rt with
        invoked := if objectUdata.callback.isSome then rt.invoked ++ [(ptr, objectUdata)]
          else rt.invoked
        userData := Function.update rt.userData ptr none }

/-- `free_object`: the finalizer runs and the memory is given back. -/
def freeObject (ptr : Ptr) : Runtime :=
  { rt.v8FinalizerWrap ptr with cell := Function.update rt.cell ptr .freed }

/-- The cell goes to a list of cells that are about to be freed. -/
def condemn (ptr : Ptr) : Runtime :=
  if rt.cell ptr = .live then { rt with cell := Function.update rt.cell ptr .condemned } else rt

/-- The cycle collector has found an object that only other garbage refers to. -/
def condemnGarbage (ptr : Ptr) : Runtime :=
  { rt.condemn ptr with gcPhase := .removeCycles }

/-- `__JS_FreeValueRT`, called with a count of zero. The object that dies first has
`free_zero_refcount` run, those that die meanwhile wait for it. -/
def freeZeroRefCount (kind : RefTag) (ptr : Ptr) : Runtime :=
  if kind.isQueued then
    match rt.gcPhase with
    | .none => { rt.freeObject ptr with gcPhase := .decref }
    | .decref => rt.condemn ptr
    | .removeCycles => rt
  else rt.freeObject ptr

/-- `JS_FreeValueRT`. -/
def freeValueRT (value : JSValue) : Runtime :=
  match value with
  | .ref kind ptr =>
      let released := { rt with refCount := rt.refCount - (JSValue.ref kind ptr).refs }
      if released.refCount ptr ≤ 0 then released.freeZeroRefCount kind ptr else released
  | _ => rt

/-- A value whose cell, if it has one, is allocated and not about to be freed. -/
def Live (value : JSValue) : Prop :=
  ∀ kind ptr, value = .ref kind ptr → rt.cell ptr = .live

/-- A value whose cell, if it has one, has not been freed yet. -/
def Allocated (value : JSValue) : Prop :=
  ∀ kind ptr, value = .ref kind ptr → (rt.cell ptr).Allocated

/-- The engine hands out pointers to new cells and to live ones. -/
def Available (value : JSValue) : Prop :=
  ∀ kind ptr, value = .ref kind ptr → rt.cell ptr = .unused ∨ rt.cell ptr = .live

instance (value : JSValue) : Decidable (rt.Live value) :=
  match value with
  | .ref _ ptr =>
      if hcell : rt.cell ptr = .live then
        isTrue (by rintro _ _ ⟨⟩; exact hcell)
      else isFalse fun hlive => hcell (hlive _ _ rfl)
  | .int _ | .bool _ | .null | .undefined | .uninitialized | .catchOffset _ | .exception
  | .float64 _ | .external _ => isTrue (by rintro _ _ ⟨⟩)

instance (value : JSValue) : Decidable (rt.Allocated value) :=
  match value with
  | .ref _ ptr =>
      if hcell : (rt.cell ptr).Allocated then
        isTrue (by rintro _ _ ⟨⟩; exact hcell)
      else isFalse fun hall => hcell (hall _ _ rfl)
  | .int _ | .bool _ | .null | .undefined | .uninitialized | .catchOffset _ | .exception
  | .float64 _ | .external _ => isTrue (by rintro _ _ ⟨⟩)

/-- `JS_FreeValueRT` of the value gets to `__JS_FreeValueRT`, and may run weak callbacks. -/
def isLastReference : JSValue → Bool
  | .ref _ ptr => rt.refCount ptr ≤ 1
  | _ => false

variable {rt}

@[simp] theorem live_ref {kind : RefTag} {ptr : Ptr} :
    rt.Live (.ref kind ptr) ↔ rt.cell ptr = .live :=
  ⟨fun hlive => hlive kind ptr rfl, by rintro hcell _ _ ⟨⟩; exact hcell⟩

theorem Live.allocated {value : JSValue} (hlive : rt.Live value) : rt.Allocated value := by
  intro kind ptr hvalue
  rw [hlive kind ptr hvalue]
  trivial

theorem hasRefCount_of_isLastReference {value : JSValue} (hlast : rt.isLastReference value = true) :
    value.hasRefCount = true := by
  cases value with
  | ref kind ptr => exact JSValue.hasRefCount_ref kind ptr
  | _ => cases hlast

/-- The cell that a live value refers to. -/
theorem Live.of_refs_pos {value : JSValue} {ptr : Ptr} (hlive : rt.Live value)
    (hpos : 0 < value.refs ptr) : rt.cell ptr = .live := by
  cases value with
  | ref kind target =>
      simp only [JSValue.refs] at hpos
      split at hpos
      next heq =>
        subst target
        exact live_ref.mp hlive
      next => exact absurd hpos (lt_irrefl 0)
  | _ => exact absurd hpos (lt_irrefl 0)

theorem live_of_not_hasRefCount {value : JSValue} (hcount : value.hasRefCount = false) :
    rt.Live value := by
  rintro kind ptr rfl
  simp [JSValue.hasRefCount_ref] at hcount

@[simp] theorem produce_refCount (value : JSValue) :
    (rt.produce value).refCount = rt.refCount + value.refs := by
  cases value with
  | ref kind ptr => rfl
  | _ => exact (add_zero rt.refCount).symm

theorem produce_live (value : JSValue) : (rt.produce value).Live value := by
  rintro kind ptr rfl
  exact Function.update_self ..

theorem produce_cell_of_live (value : JSValue) {ptr : Ptr} (hlive : rt.cell ptr = .live) :
    (rt.produce value).cell ptr = .live := by
  cases value with
  | ref kind target =>
      by_cases heq : ptr = target
      · subst ptr
        exact Function.update_self ..
      · exact (Function.update_of_ne heq ..).trans hlive
  | _ => exact hlive

@[simp] theorem dupValueRT_refCount (value : JSValue) :
    (rt.dupValueRT value).refCount = rt.refCount + value.refs := rfl

@[simp] theorem dupValueRT_cell (value : JSValue) :
    (rt.dupValueRT value).cell = rt.cell := rfl

theorem foldl_dupValueRT_refCount (values : List JSValue) :
    (values.foldl dupValueRT rt).refCount = rt.refCount + totalRefs values := by
  induction values generalizing rt with
  | nil => simp
  | cons value rest ih => rw [List.foldl_cons, ih, dupValueRT_refCount, totalRefs_cons, add_assoc]

theorem foldl_dupValueRT_cell (values : List JSValue) :
    (values.foldl dupValueRT rt).cell = rt.cell := by
  induction values generalizing rt with
  | nil => rfl
  | cons value rest ih => rw [List.foldl_cons, ih, dupValueRT_cell]

@[simp] theorem v8FinalizerWrap_refCount (ptr : Ptr) :
    (rt.v8FinalizerWrap ptr).refCount = rt.refCount := by
  unfold v8FinalizerWrap
  split <;> rfl

@[simp] theorem freeObject_refCount (ptr : Ptr) :
    (rt.freeObject ptr).refCount = rt.refCount :=
  v8FinalizerWrap_refCount ptr

@[simp] theorem freeObject_cell (ptr : Ptr) :
    (rt.freeObject ptr).cell = Function.update rt.cell ptr .freed := rfl

@[simp] theorem condemn_refCount (ptr : Ptr) : (rt.condemn ptr).refCount = rt.refCount := by
  unfold condemn
  split <;> rfl

theorem condemn_cell_self {ptr : Ptr} (hlive : rt.cell ptr = .live) :
    (rt.condemn ptr).cell ptr = .condemned := by
  simp only [condemn, hlive, if_true, Function.update_self]

theorem condemn_cell_of_ne {ptr target : Ptr} (hne : ptr ≠ target) :
    (rt.condemn target).cell ptr = rt.cell ptr := by
  unfold condemn
  split
  · exact Function.update_of_ne hne ..
  · rfl

@[simp] theorem freeZeroRefCount_refCount (kind : RefTag) (ptr : Ptr) :
    (rt.freeZeroRefCount kind ptr).refCount = rt.refCount := by
  unfold freeZeroRefCount
  split
  · split
    · exact freeObject_refCount ptr
    · exact condemn_refCount ptr
    · rfl
  · exact freeObject_refCount ptr

theorem freeZeroRefCount_cell_of_ne (kind : RefTag) {ptr target : Ptr} (hne : ptr ≠ target) :
    (rt.freeZeroRefCount kind target).cell ptr = rt.cell ptr := by
  unfold freeZeroRefCount
  split
  · split
    · exact Function.update_of_ne hne ..
    · exact condemn_cell_of_ne hne
    · rfl
  · exact Function.update_of_ne hne ..

/-- Whatever else a release does, it takes one reference off the count. -/
@[simp] theorem freeValueRT_refCount (value : JSValue) :
    (rt.freeValueRT value).refCount = rt.refCount - value.refs := by
  cases value with
  | ref kind ptr =>
      simp only [freeValueRT]
      split
      · rw [freeZeroRefCount_refCount]
      · rfl
  | _ => exact (sub_zero rt.refCount).symm

variable (rt) in
/-- A release touches at most the cell whose last reference it drops. -/
theorem freeValueRT_cell (value : JSValue) (ptr : Ptr) :
    (rt.freeValueRT value).cell ptr = rt.cell ptr ∨
      (∃ kind, value = .ref kind ptr) ∧ rt.refCount ptr - 1 ≤ 0 := by
  cases value with
  | ref kind target =>
      simp only [freeValueRT]
      split
      next hzero =>
        by_cases heq : ptr = target
        · subst ptr
          simp only [Pi.sub_apply, JSValue.refs_ref_self] at hzero
          exact Or.inr ⟨⟨kind, rfl⟩, hzero⟩
        · exact Or.inl (freeZeroRefCount_cell_of_ne kind heq)
      next => exact Or.inl rfl
  | _ => exact Or.inl rfl

variable (rt) in
/-- Releasing the value drops the last reference to the cell and ends its life.
While cycles are being removed the engine leaves an object with no reference
alone. -/
def LastReference (value : JSValue) (ptr : Ptr) : Prop :=
  ∃ kind, value = .ref kind ptr ∧ rt.refCount ptr ≤ 1 ∧
    (kind.isQueued = true → rt.gcPhase ≠ .removeCycles)

variable (rt) in
theorem freeZeroRefCount_live_iff (kind : RefTag) {ptr : Ptr} (hlive : rt.cell ptr = .live) :
    (rt.freeZeroRefCount kind ptr).cell ptr = .live ↔
      kind.isQueued = true ∧ rt.gcPhase = .removeCycles := by
  unfold freeZeroRefCount
  cases hqueued : kind.isQueued with
  | false => simp
  | true =>
      cases hphase : rt.gcPhase with
      | none => simp
      | decref => simp [condemn_cell_self hlive]
      | removeCycles => simp [hlive]

theorem freeValueRT_live_iff (value : JSValue) {ptr : Ptr} (hlive : rt.cell ptr = .live) :
    (rt.freeValueRT value).cell ptr = .live ↔ ¬ rt.LastReference value ptr := by
  have hdying : ∀ kind, _ := fun kind => freeZeroRefCount_live_iff
    { rt with refCount := rt.refCount - (JSValue.ref kind ptr).refs } kind hlive
  constructor
  · rintro hcell ⟨kind, rfl, hlast, hphase⟩
    have hzero : rt.refCount ptr - (JSValue.ref kind ptr).refs ptr ≤ 0 := by
      rw [JSValue.refs_ref_self]
      omega
    simp only [freeValueRT, Pi.sub_apply, hzero, if_true] at hcell
    obtain ⟨hqueued, hremove⟩ := (hdying kind).mp hcell
    exact hphase hqueued hremove
  · intro hnot
    rcases rt.freeValueRT_cell value ptr with hsame | ⟨⟨kind, rfl⟩, hzero⟩
    · rw [hsame, hlive]
    · have hremove : kind.isQueued = true ∧ rt.gcPhase = .removeCycles := by
        by_contra hother
        exact hnot ⟨kind, rfl, by omega, fun hqueued hphase => hother ⟨hqueued, hphase⟩⟩
      simp only [freeValueRT]
      split
      · exact (hdying kind).mpr hremove
      · exact hlive

end Runtime

end QuickjsBackend
