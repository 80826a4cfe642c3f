import QuickjsBackend.Engine.Value
import QuickjsBackend.Foundation.Run

/-! # Views of array buffers

Typed arrays and data views record an offset and a length in bytes, both checked against
their buffer when they are made. User code runs before the new view is linked to the
buffer and can detach it, as it can at any time later.
-/

namespace QuickjsBackend

open Foundation

/-- `JS_CLASS_ARRAY_BUFFER`. -/
def classArrayBuffer : Nat := 19

/-- `JS_CLASS_SHARED_ARRAY_BUFFER`. -/
def classSharedArrayBuffer : Nat := 20

/-- `JS_CLASS_UINT8C_ARRAY`. -/
def classUint8cArray : Nat := 21

/-- `JS_CLASS_FLOAT64_ARRAY`. -/
def classFloat64Array : Nat := 31

/-- `JS_CLASS_DATAVIEW`. -/
def classDataview : Nat := 32

/-- `JS_TYPED_ARRAY_COUNT`. -/
def typedArrayCount : Nat := classFloat64Array - classUint8cArray + 1

inductive ViewFault
  | outOfTable
  | rangeError
  | typeError
  deriving DecidableEq, Repr

/-- The entries of `typed_array_size_log2`. -/
def sizeLog2Entries : List Nat := [0, 0, 0, 1, 1, 2, 2, 3, 3, 2, 3]

/-- A read of `typed_array_size_log2` for a class that is no lower than the first. -/
def typedArraySizeLog2 (classId : Nat) : Except ViewFault Nat :=
  match sizeLog2Entries[classId - classUint8cArray]? with
  | some sizeLog2 => .ok sizeLog2
  | none => .error .outOfTable

structure ArrayBuffer where
  byteLength : Nat
  detached : Bool
  deriving DecidableEq, Repr

/-- `JSTypedArray`, with the object of its buffer. -/
structure TypedArray where
  buffer : Ptr
  offset : Nat
  length : Nat
  deriving DecidableEq, Repr

/-- The union of a `JSObject`. -/
inductive ViewPayload
  | arrayBuffer (buffer : ArrayBuffer)
  | typedArray (view : TypedArray)
  | other

structure ViewObject where
  classId : Nat
  payload : ViewPayload

/-- A view whose arguments have passed the checks of the constructor. -/
structure PendingView where
  classId : Nat
  buffer : Ptr
  offset : Nat
  len : Nat

structure ViewWorld where
  objects : List ViewObject
  pending : List PendingView

/-- The arguments of the constructor of a typed array: a length, an object with so many
elements, or a buffer with an offset and maybe a length. -/
inductive TypedArrayArgs
  | length (len : Int)
  | elements (len : Nat)
  | buffer (buffer : JSValue) (offset : Int) (len : Option Int)

/-- What happens to buffers and views. A constructor call is two actions, with user code
in between. -/
inductive ViewAction
  | newArrayBuffer (len : Nat) (shared : Bool)
  | newObject (classId : Nat)
  | detach (buffer : JSValue)
  | typedArray (kind : Fin typedArrayCount) (args : TypedArrayArgs)
  | dataview (buffer : JSValue) (offset : Int) (len : Option Int)
  | finish (index : Nat)

/-- What `JS_GetArrayBufferViewInfo` writes. -/
structure ViewInfo where
  byteOffset : Nat
  byteLength : Nat
  bytesPerElement : Nat

/-- `JS_ToIndex`, of the integer that a value converts to. -/
def toIndex (value : Int) : Except ViewFault Nat :=
  if value < 0 ∨ 2 ^ 53 - 1 < value then .error .rangeError else .ok value.toNat

namespace ViewWorld

def start : ViewWorld := ⟨[], []⟩

def objectOf (w : ViewWorld) : JSValue → Option ViewObject
  | .ref .object ptr => w.objects[ptr]?
  | _ => none

/-- `u.array_buffer` of an object. -/
def bufferAt (w : ViewWorld) (ptr : Ptr) : Option ArrayBuffer :=
  match w.objects[ptr]? with
  | some ⟨_, .arrayBuffer buffer⟩ => some buffer
  | _ => none

/-- `js_array_buffer_constructor3`. The new object is the last one. -/
def newArrayBuffer (w : ViewWorld) (len : Nat) (shared : Bool) : Except ViewFault ViewWorld :=
  if 2 ^ 31 - 1 < len then .error .rangeError
  else
    let classId := if shared then classSharedArrayBuffer else classArrayBuffer
    .ok { w with objects := w.objects ++ [⟨classId, .arrayBuffer ⟨len, false⟩⟩] }

/-- `js_get_array_buffer`, with the address of the object. -/
def jsGetArrayBuffer (w : ViewWorld) : JSValue → Except ViewFault (Ptr × ArrayBuffer)
  | .ref .object ptr =>
      match w.objects[ptr]? with
      | some ⟨classId, .arrayBuffer buffer⟩ =>
          if classId ≠ classArrayBuffer ∧ classId ≠ classSharedArrayBuffer then .error .typeError
          else .ok (ptr, buffer)
      | _ => .error .typeError
  | _ => .error .typeError

/-- The size that `JS_GetArrayBuffer` gives. -/
def getArrayBuffer (w : ViewWorld) (value : JSValue) : Except ViewFault Nat := do
  let (_, buffer) ← w.jsGetArrayBuffer value
  if buffer.detached then .error .typeError else .ok buffer.byteLength

/-- `JS_DetachArrayBuffer`; a shared buffer is not detached. -/
def detachArrayBuffer (w : ViewWorld) : JSValue → ViewWorld
  | .ref .object ptr =>
      { w with objects := w.objects.modify ptr fun object =>
          match object.payload with
          | .arrayBuffer _ =>
              if object.classId = classArrayBuffer then
                { object with payload := .arrayBuffer ⟨0, true⟩ }
              else object
          | .typedArray _ => object
          | .other => object }
  | _ => w

def suspend (w : ViewWorld) (view : PendingView) : ViewWorld :=
  { w with pending := w.pending ++ [view] }

/-- `js_typed_array_constructor`, up to the object being made. -/
def typedArrayConstructor (w : ViewWorld) (classId : Nat) :
    TypedArrayArgs → Except ViewFault ViewWorld
  | .length len => do
      let sizeLog2 ← typedArraySizeLog2 classId
      let len ← toIndex len
      let next ← w.newArrayBuffer (len <<< sizeLog2) false
      return next.suspend ⟨classId, w.objects.length, 0, len⟩
  | .elements len => do
      let sizeLog2 ← typedArraySizeLog2 classId
      let next ← w.newArrayBuffer (len <<< sizeLog2) false
      return next.suspend ⟨classId, w.objects.length, 0, len⟩
  | .buffer value offset len => do
      let sizeLog2 ← typedArraySizeLog2 classId
      let (ptr, buffer) ← w.jsGetArrayBuffer value
      let offset ← toIndex offset
      if buffer.detached then .error .typeError
      else if offset &&& ((1 <<< sizeLog2) - 1) ≠ 0 ∨ buffer.byteLength < offset
        then .error .rangeError
      else
        match len with
        | none =>
            if buffer.byteLength &&& ((1 <<< sizeLog2) - 1) ≠ 0 then .error .rangeError
            else return w.suspend ⟨classId, ptr, offset, (buffer.byteLength - offset) >>> sizeLog2⟩
        | some len => do
            let len ← toIndex len
            if buffer.byteLength < offset + (len <<< sizeLog2) then .error .rangeError
            else return w.suspend ⟨classId, ptr, offset, len⟩

/-- `js_dataview_constructor`, up to the object being made. -/
def dataviewConstructor (w : ViewWorld) (value : JSValue) (offset : Int) (len : Option Int) :
    Except ViewFault ViewWorld := do
  let (ptr, buffer) ← w.jsGetArrayBuffer value
  let offset ← toIndex offset
  if buffer.detached then .error .typeError
  else if buffer.byteLength < offset then .error .rangeError
  else
    match len with
    | none => return w.suspend ⟨classDataview, ptr, offset, buffer.byteLength - offset⟩
    | some len => do
        let len ← toIndex len
        if buffer.byteLength - offset < len then .error .rangeError
        else return w.suspend ⟨classDataview, ptr, offset, len⟩

/-- The new view, whose offset and length are 32 bits wide. -/
def link (w : ViewWorld) (index : Nat) (view : PendingView) (length : Nat) : ViewWorld where
  objects := w.objects ++
    [⟨view.classId, .typedArray ⟨view.buffer, view.offset % 2 ^ 32, length % 2 ^ 32⟩⟩]
  pending := w.pending.eraseIdx index

/-- The end of a constructor: `typed_array_init`, or the end of
`js_dataview_constructor`, which looks again whether the buffer is detached. -/
def finish (w : ViewWorld) (index : Nat) : Except ViewFault ViewWorld :=
  match w.pending[index]? with
  | some view =>
      if view.classId = classDataview then
        match w.bufferAt view.buffer with
        | some buffer =>
            if buffer.detached then .error .typeError else .ok (w.link index view view.len)
        | none => .error .typeError
      else do
        let sizeLog2 ← typedArraySizeLog2 view.classId
        return w.link index view (view.len <<< sizeLog2)
  | none => .error .typeError

def step : StepFn ViewWorld ViewAction ViewFault := fun w action =>
  match action with
  | .newArrayBuffer len shared => w.newArrayBuffer len shared
  | .newObject classId =>
      -- the classes of buffers and views are left to their constructors
      if classArrayBuffer ≤ classId ∧ classId ≤ classDataview then .error .typeError
      else .ok { w with objects := w.objects ++ [⟨classId, .other⟩] }
  | .detach buffer => .ok (w.detachArrayBuffer buffer)
  | .typedArray kind args => w.typedArrayConstructor (classUint8cArray + kind) args
  | .dataview buffer offset len => w.dataviewConstructor buffer offset len
  | .finish index => w.finish index

/-- The test of `JS_IsArrayBufferView`. -/
def IsViewClass (classId : Nat) : Prop :=
  classDataview = classId ∨ classUint8cArray ≤ classId ∧ classId ≤ classFloat64Array

instance (classId : Nat) : Decidable (IsViewClass classId) := inferInstanceAs (Decidable (_ ∨ _))

/-- `JS_IsArrayBufferView`. -/
def isArrayBufferView (w : ViewWorld) (value : JSValue) : Bool :=
  match w.objectOf value with
  | some object => decide (IsViewClass object.classId)
  | none => false

/-- `get_typed_array`, with what the object is a view of. -/
def getTypedArray (w : ViewWorld) (value : JSValue) (isDataview : Bool) :
    Except ViewFault (Nat × TypedArray) :=
  match w.objectOf value with
  | some ⟨classId, .typedArray view⟩ =>
      if isDataview then
        if classId ≠ classDataview then .error .typeError else .ok (classId, view)
      else if ¬ (classUint8cArray ≤ classId ∧ classId ≤ classFloat64Array) then .error .typeError
      else .ok (classId, view)
  | _ => .error .typeError

/-- `typed_array_is_detached`. -/
def typedArrayIsDetached (w : ViewWorld) (view : TypedArray) : Bool :=
  match w.bufferAt view.buffer with
  | some buffer => buffer.detached
  | none => false

/-- The `is_dataview` argument of the calls. -/
def isDataview (w : ViewWorld) (value : JSValue) : Bool :=
  match w.objectOf value with
  | some object => decide (classDataview = object.classId)
  | none => false

/-- `JS_GetArrayBufferView`. -/
def getArrayBufferView (w : ViewWorld) (value : JSValue) : Except ViewFault JSValue :=
  if w.isArrayBufferView value then do
    let (_, view) ← w.getTypedArray value (w.isDataview value)
    if w.typedArrayIsDetached view then .error .typeError else .ok (.ref .object view.buffer)
  else .error .typeError

/-- `JS_GetArrayBufferViewInfo` with three outputs; it answers `FALSE` without a write to
any of them when there is no result. -/
def getArrayBufferViewInfo (w : ViewWorld) (value : JSValue) : Except ViewFault (Option ViewInfo) :=
  if w.isArrayBufferView value then
    match w.getTypedArray value (w.isDataview value) with
    | .error _ => .ok none
    | .ok (classId, view) =>
        if w.typedArrayIsDetached view then .ok none
        else do
          let sizeLog2 ← typedArraySizeLog2 classId
          return some ⟨view.offset, view.length, 1 <<< sizeLog2⟩
  else .ok none

/-- `ArrayBufferView::Buffer`. -/
def buffer (w : ViewWorld) (value : JSValue) : Except ViewFault JSValue :=
    w.getArrayBufferView value

/-- `ArrayBufferView::ByteOffset`, of a local variable that may never be written. -/
def byteOffset (w : ViewWorld) (value : JSValue) : Except ViewFault (Option Nat) := do
  let info ← w.getArrayBufferViewInfo value
  return info.map (·.byteOffset)

/-- `ArrayBufferView::ByteLength`. -/
def byteLength (w : ViewWorld) (value : JSValue) : Except ViewFault (Option Nat) := do
  let info ← w.getArrayBufferViewInfo value
  return info.map (·.byteLength)

/-- The bytes of a view in the making. -/
def byteCount (view : PendingView) : Nat :=
  if view.classId = classDataview then view.len
  else view.len <<< sizeLog2Entries.getD (view.classId - classUint8cArray) 0

/-- Some bytes lie within a buffer, unless it is detached. -/
def Fits (w : ViewWorld) (ptr : Ptr) (offset length : Nat) : Prop :=
  ∃ buffer, w.bufferAt ptr = some buffer ∧
    (buffer.detached = false → offset + length ≤ buffer.byteLength)

structure Consistent (w : ViewWorld) : Prop where
  buffers : ∀ (ptr : Ptr) classId buffer, w.objects[ptr]? = some ⟨classId, .arrayBuffer buffer⟩ →
    (classId = classArrayBuffer ∨ classId = classSharedArrayBuffer) ∧ buffer.byteLength < 2 ^ 31
  views : ∀ (ptr : Ptr) object, w.objects[ptr]? = some object → IsViewClass object.classId →
    ∃ view, object.payload = .typedArray view ∧ w.Fits view.buffer view.offset view.length
  pending : ∀ view ∈ w.pending, IsViewClass view.classId ∧
    w.Fits view.buffer view.offset (byteCount view)

variable {w next : ViewWorld} {ptr : Ptr} {value : JSValue} {offset length : Nat}

/-- Buffers stay as they are, or are detached. -/
def Keeps (w next : ViewWorld) : Prop :=
  ∀ ptr buffer, w.bufferAt ptr = some buffer →
    ∃ later, next.bufferAt ptr = some later ∧ (later = buffer ∨ later.detached = true)

theorem Fits.mono (hfits : w.Fits ptr offset length) (hkeeps : w.Keeps next) :
    next.Fits ptr offset length := by
  obtain ⟨buffer, hbuffer, hle⟩ := hfits
  obtain ⟨later, hlater, hsame⟩ := hkeeps ptr buffer hbuffer
  refine ⟨later, hlater, fun hattached => ?_⟩
  rcases hsame with rfl | hdetached
  · exact hle hattached
  · rw [hattached] at hdetached
    cases hdetached

theorem bufferAt_eq_some_iff {buffer : ArrayBuffer} :
    w.bufferAt ptr = some buffer ↔ ∃ classId, w.objects[ptr]? =
      some ⟨classId, .arrayBuffer buffer⟩ := by
  unfold bufferAt
  constructor
  · intro hbuffer
    split at hbuffer
    next classId found hfound =>
      cases hbuffer
      exact ⟨classId, hfound⟩
    next => cases hbuffer
  · rintro ⟨classId, hfound⟩
    rw [hfound]

theorem keeps_push (object : ViewObject) (pending : List PendingView) :
    w.Keeps ⟨w.objects ++ [object], pending⟩ := by
  intro ptr buffer hbuffer
  obtain ⟨classId, hfound⟩ := bufferAt_eq_some_iff.mp hbuffer
  have hlt := (List.getElem?_eq_some_iff.mp hfound).1
  exact ⟨buffer, bufferAt_eq_some_iff.mpr ⟨classId, (List.getElem?_append_left hlt).trans hfound⟩,
    Or.inl rfl⟩

/-- Another object, which is a buffer, a view of one, or neither. -/
theorem Consistent.push (hw : Consistent w) {object : ViewObject} {pending : List PendingView}
    (hbuffer : ∀ buffer, object.payload = .arrayBuffer buffer →
      (object.classId = classArrayBuffer ∨ object.classId = classSharedArrayBuffer) ∧
        buffer.byteLength < 2 ^ 31)
    (hview : IsViewClass object.classId →
      ∃ view, object.payload = .typedArray view ∧ w.Fits view.buffer view.offset view.length)
    (hpending : ∀ view ∈ pending, view ∈ w.pending) :
    Consistent ⟨w.objects ++ [object], pending⟩ := by
  have hkeeps := keeps_push (w := w) object pending
  have hcases : ∀ {ptr : Ptr} {found}, (w.objects ++ [object])[ptr]? = some found →
      w.objects[ptr]? = some found ∨ found = object := by
    intro ptr found hfound
    rcases Nat.lt_or_ge ptr w.objects.length with hlt | hge
    · rw [List.getElem?_append_left hlt] at hfound
      exact Or.inl hfound
    · rw [List.getElem?_append_right hge] at hfound
      exact Or.inr (List.mem_singleton.mp (List.mem_of_getElem? hfound))
  constructor
  · intro ptr classId buffer hfound
    rcases hcases hfound with hold | hnew
    · exact hw.buffers ptr classId buffer hold
    · subst object
      exact hbuffer buffer rfl
  · intro ptr found hfound hclass
    rcases hcases hfound with hold | hnew
    · obtain ⟨view, hview, hfits⟩ := hw.views ptr found hold hclass
      exact ⟨view, hview, hfits.mono hkeeps⟩
    · subst found
      obtain ⟨view, hview, hfits⟩ := hview hclass
      exact ⟨view, hview, hfits.mono hkeeps⟩
  · intro view hmem
    obtain ⟨hclass, hfits⟩ := hw.pending view (hpending view hmem)
    exact ⟨hclass, hfits.mono hkeeps⟩

theorem Consistent.suspend (hw : Consistent w) {view : PendingView}
    (hclass : IsViewClass view.classId)
    (hfits : w.Fits view.buffer view.offset (byteCount view)) : Consistent (w.suspend view) where
  buffers := hw.buffers
  views := hw.views
  pending other hother := by
    rcases List.mem_append.mp hother with hold | hnew
    · exact hw.pending other hold
    · rw [List.mem_singleton.mp hnew]
      exact ⟨hclass, hfits⟩

theorem Consistent.newArrayBuffer (hw : Consistent w) {len : Nat} {shared : Bool}
    (hnext : w.newArrayBuffer len shared = .ok next) :
    Consistent next ∧ next.bufferAt w.objects.length = some ⟨len, false⟩ := by
  unfold ViewWorld.newArrayBuffer at hnext
  split at hnext
  next => cases hnext
  next hlen =>
    cases hnext
    constructor
    · apply hw.push
      · intro buffer hbuffer
        cases hbuffer
        refine ⟨?_, show len < 2 ^ 31 by omega⟩
        cases shared with
        | true => exact Or.inr rfl
        | false => exact Or.inl rfl
      · have hnot : ∀ shared : Bool,
            ¬ IsViewClass (if shared then classSharedArrayBuffer else classArrayBuffer) := by decide
        exact fun hclass => absurd hclass (hnot shared)
      · exact fun _ hmem => hmem
    · exact bufferAt_eq_some_iff.mpr ⟨_, List.getElem?_concat_length⟩

/-- Detaching changes at most one object, which is a buffer. -/
theorem detach_cases (w : ViewWorld) (target : Ptr) {found : ViewObject}
    (hfound : (w.detachArrayBuffer (.ref .object target)).objects[ptr]? = some found) :
    w.objects[ptr]? = some found ∨
      found = ⟨classArrayBuffer, .arrayBuffer ⟨0, true⟩⟩ ∧ (w.bufferAt ptr).isSome = true := by
  simp only [detachArrayBuffer, List.getElem?_modify] at hfound
  obtain ⟨⟨classId, payload⟩, hold, heq⟩ := Option.map_eq_some_iff.mp hfound
  split at heq
  next =>
    cases payload with
    | arrayBuffer buffer =>
        simp only at heq
        split at heq
        next hclass =>
          refine Or.inr ⟨?_, ?_⟩
          · rw [← heq, hclass]
          · rw [bufferAt_eq_some_iff.mpr ⟨classId, hold⟩]
            rfl
        next => exact Or.inl (heq ▸ hold)
    | typedArray view => exact Or.inl (heq ▸ hold)
    | other => exact Or.inl (heq ▸ hold)
  next => exact Or.inl (heq ▸ hold)

theorem keeps_detach (w : ViewWorld) (target : Ptr) :
    w.Keeps (w.detachArrayBuffer (.ref .object target)) := by
  intro ptr buffer hbuffer
  obtain ⟨classId, hold⟩ := bufferAt_eq_some_iff.mp hbuffer
  have hlt := (List.getElem?_eq_some_iff.mp hold).1
  have hlength : ptr < (w.detachArrayBuffer (.ref .object target)).objects.length := by
    simpa only [detachArrayBuffer, List.length_modify] using hlt
  have hfound := List.getElem?_eq_getElem hlength
  rcases detach_cases w target hfound with hsame | ⟨hdetached, -⟩
  · rw [hold, Option.some.injEq] at hsame
    rw [← hsame] at hfound
    exact ⟨buffer, bufferAt_eq_some_iff.mpr ⟨classId, hfound⟩, Or.inl rfl⟩
  · rw [hdetached] at hfound
    exact ⟨⟨0, true⟩, bufferAt_eq_some_iff.mpr ⟨classArrayBuffer, hfound⟩, Or.inr rfl⟩

theorem Consistent.detach (hw : Consistent w) (value : JSValue) :
    Consistent (w.detachArrayBuffer value) := by
  unfold detachArrayBuffer
  split
  next target =>
    have hkeeps := keeps_detach w target
    change Consistent (w.detachArrayBuffer (.ref .object target))
    constructor
    · intro ptr classId buffer hfound
      rcases detach_cases w target hfound with hold | ⟨hdetached, -⟩
      · exact hw.buffers ptr classId buffer hold
      · cases hdetached
        exact ⟨Or.inl rfl, by decide⟩
    · intro ptr object hfound hclass
      rcases detach_cases w target hfound with hold | ⟨hdetached, -⟩
      · obtain ⟨view, hview, hfits⟩ := hw.views ptr object hold hclass
        exact ⟨view, hview, hfits.mono hkeeps⟩
      · subst object
        exact absurd hclass (by decide)
    · intro view hmem
      obtain ⟨hclass, hfits⟩ := hw.pending view hmem
      exact ⟨hclass, hfits.mono hkeeps⟩
  next => exact hw

theorem jsGetArrayBuffer_eq_ok {buffer : ArrayBuffer}
    (hbuffer : w.jsGetArrayBuffer value = .ok (ptr, buffer)) : w.bufferAt ptr = some buffer := by
  unfold jsGetArrayBuffer at hbuffer
  split at hbuffer
  next target =>
    split at hbuffer
    next classId found hfound =>
      split at hbuffer
      next => cases hbuffer
      next =>
        cases hbuffer
        exact bufferAt_eq_some_iff.mpr ⟨classId, hfound⟩
    next => cases hbuffer
  next => cases hbuffer

/-- The entry that a read of the table gives. -/
theorem typedArraySizeLog2_eq_ok {classId sizeLog2 : Nat}
    (hsize : typedArraySizeLog2 classId = .ok sizeLog2) :
    sizeLog2Entries.getD (classId - classUint8cArray) 0 = sizeLog2 := by
  unfold typedArraySizeLog2 at hsize
  split at hsize
  next found hfound =>
    cases hsize
    rw [List.getD_eq_getElem?_getD, hfound, Option.getD_some]
  next => cases hsize

theorem byteCount_typedArray {classId sizeLog2 : Nat} (hclass : classId ≤ classFloat64Array)
    (hsize : typedArraySizeLog2 classId = .ok sizeLog2) (ptr : Ptr) (offset len : Nat) :
    byteCount ⟨classId, ptr, offset, len⟩ = len <<< sizeLog2 := by
  have hne : classId ≠ classDataview := by
    rintro rfl
    exact absurd hclass (by decide)
  rw [byteCount, if_neg hne, typedArraySizeLog2_eq_ok hsize]

/-- A view that starts a buffer of its own. -/
theorem Consistent.fresh (hw : Consistent w) {classId sizeLog2 len : Nat}
    (hlower : classUint8cArray ≤ classId) (hupper : classId ≤ classFloat64Array)
    (hsize : typedArraySizeLog2 classId = .ok sizeLog2)
    (hnext : w.newArrayBuffer (len <<< sizeLog2) false = .ok next) :
    Consistent (next.suspend ⟨classId, w.objects.length, 0, len⟩) := by
  obtain ⟨hconsistent, hbuffer⟩ := hw.newArrayBuffer hnext
  refine hconsistent.suspend (Or.inr ⟨hlower, hupper⟩) ⟨_, hbuffer, fun _ => ?_⟩
  rw [byteCount_typedArray hupper hsize, Nat.zero_add]

theorem Consistent.typedArray (hw : Consistent w) {classId : Nat} {args : TypedArrayArgs}
    (hlower : classUint8cArray ≤ classId) (hupper : classId ≤ classFloat64Array)
    (hnext : w.typedArrayConstructor classId args = .ok next) : Consistent next := by
  cases args with
  | length len =>
      obtain ⟨sizeLog2, hsize, hnext⟩ := bind_eq_ok.mp hnext
      obtain ⟨index, -, hnext⟩ := bind_eq_ok.mp hnext
      obtain ⟨middle, hmiddle, hnext⟩ := bind_eq_ok.mp hnext
      cases hnext
      exact hw.fresh hlower hupper hsize hmiddle
  | elements len =>
      obtain ⟨sizeLog2, hsize, hnext⟩ := bind_eq_ok.mp hnext
      obtain ⟨middle, hmiddle, hnext⟩ := bind_eq_ok.mp hnext
      cases hnext
      exact hw.fresh hlower hupper hsize hmiddle
  | buffer value offset len =>
      obtain ⟨sizeLog2, hsize, hnext⟩ := bind_eq_ok.mp hnext
      obtain ⟨⟨ptr, buffer⟩, hbuffer, hnext⟩ := bind_eq_ok.mp hnext
      obtain ⟨offset, -, hnext⟩ := bind_eq_ok.mp hnext
      have hclass : IsViewClass classId := Or.inr ⟨hlower, hupper⟩
      have hbuffer := jsGetArrayBuffer_eq_ok hbuffer
      split at hnext
      next => cases hnext
      next =>
        split at hnext
        next => cases hnext
        next hoffset =>
          have hle : offset ≤ buffer.byteLength := Nat.not_lt.mp fun h => hoffset (Or.inr h)
          cases len with
          | none =>
              simp only at hnext
              split at hnext
              next => cases hnext
              next =>
                cases hnext
                refine hw.suspend hclass ⟨buffer, hbuffer, fun _ => ?_⟩
                have hshift : ((buffer.byteLength - offset) >>> sizeLog2) <<< sizeLog2 ≤
                    buffer.byteLength - offset := by
                  rw [Nat.shiftRight_eq_div_pow, Nat.shiftLeft_eq]
                  exact Nat.div_mul_le_self _ _
                rw [byteCount_typedArray hupper hsize]
                change offset + _ ≤ _
                omega
          | some len =>
              obtain ⟨len, -, hnext⟩ := bind_eq_ok.mp hnext
              split at hnext
              next => cases hnext
              next hfits =>
                cases hnext
                refine hw.suspend hclass ⟨buffer, hbuffer, fun _ => ?_⟩
                rw [byteCount_typedArray hupper hsize]
                exact Nat.not_lt.mp hfits

theorem Consistent.dataview (hw : Consistent w) {start : Int} {len : Option Int}
    (hnext : w.dataviewConstructor value start len = .ok next) : Consistent next := by
  obtain ⟨⟨ptr, buffer⟩, hbuffer, hnext⟩ := bind_eq_ok.mp hnext
  obtain ⟨offset, -, hnext⟩ := bind_eq_ok.mp hnext
  have hbuffer := jsGetArrayBuffer_eq_ok hbuffer
  have hbytes : ∀ len, byteCount ⟨classDataview, ptr, offset, len⟩ = len := fun len => if_pos rfl
  split at hnext
  next => cases hnext
  next =>
    split at hnext
    next => cases hnext
    next hoffset =>
      cases len with
      | none =>
          cases hnext
          refine hw.suspend (Or.inl rfl) ⟨buffer, hbuffer, fun _ => ?_⟩
          rw [hbytes]
          change offset + _ ≤ _
          omega
      | some len =>
          obtain ⟨len, -, hnext⟩ := bind_eq_ok.mp hnext
          split at hnext
          next => cases hnext
          next hlen =>
            cases hnext
            refine hw.suspend (Or.inl rfl) ⟨buffer, hbuffer, fun _ => ?_⟩
            rw [hbytes]
            change offset + _ ≤ _
            omega

/-- Offset and length survive being stored in 32 bits, since buffers are shorter than
that. -/
theorem Consistent.link (hw : Consistent w) {index : Nat} {view : PendingView}
    (hview : w.pending[index]? = some view) : Consistent (w.link index view (byteCount view)) := by
  obtain ⟨hclass, buffer, hbuffer, hfits⟩ := hw.pending view (List.mem_of_getElem? hview)
  obtain ⟨classId, hfound⟩ := bufferAt_eq_some_iff.mp hbuffer
  have hsmall := (hw.buffers _ _ _ hfound).2
  apply hw.push
  · intro buffer hpayload
    cases hpayload
  · intro _
    refine ⟨_, rfl, buffer, hbuffer, fun hattached => ?_⟩
    have hle := hfits hattached
    rw [Nat.mod_eq_of_lt (by omega), Nat.mod_eq_of_lt (by omega)]
    exact hle
  · intro other hmem
    exact List.mem_of_mem_eraseIdx hmem

theorem Consistent.finish (hw : Consistent w) {index : Nat} (hnext : w.finish index = .ok next) :
    Consistent next := by
  unfold ViewWorld.finish at hnext
  split at hnext
  next view hview =>
    have hlink := hw.link hview
    have hbound := (hw.pending view (List.mem_of_getElem? hview)).1
    split at hnext
    next hclass =>
      rw [byteCount, if_pos hclass] at hlink
      split at hnext
      next =>
        split at hnext
        next => cases hnext
        next =>
          cases hnext
          exact hlink
      next => cases hnext
    next hclass =>
      obtain ⟨sizeLog2, hsize, hnext⟩ := bind_eq_ok.mp hnext
      cases hnext
      rw [byteCount, if_neg hclass, typedArraySizeLog2_eq_ok hsize] at hlink
      exact hlink
  next => cases hnext

theorem consistent_start : Consistent start where
  buffers _ _ _ hfound := by cases hfound
  views _ _ hfound := by cases hfound
  pending _ hmem := by cases hmem

theorem consistent_step (hw : Consistent w) {action : ViewAction}
    (hstep : step w action = .ok next) :
    Consistent next := by
  cases action with
  | newArrayBuffer len shared => exact (hw.newArrayBuffer hstep).1
  | newObject classId =>
      simp only [step] at hstep
      split at hstep
      next => cases hstep
      next houtside =>
        cases hstep
        refine hw.push (fun _ hpayload => by cases hpayload) (fun hclass => ?_) (fun _ hmem => hmem)
        refine absurd ?_ houtside
        rcases hclass with rfl | ⟨hlower, hupper⟩
        · decide
        · exact ⟨Nat.le_trans (by decide) hlower, Nat.le_trans hupper (by decide)⟩
  | detach buffer =>
      cases hstep
      exact hw.detach buffer
  | typedArray kind args =>
      have hkind : (kind : Nat) < 11 := kind.isLt
      refine hw.typedArray (Nat.le_add_right _ _) ?_ hstep
      rw [classUint8cArray, classFloat64Array]
      omega
  | dataview buffer offset len => exact hw.dataview hstep
  | finish index => exact hw.finish hstep

/-- What a value that is accepted is a view of. -/
structure Views (w : ViewWorld) (value : JSValue) (classId : Nat) (view : TypedArray)
    (buffer : ArrayBuffer) : Prop where
  object : w.objectOf value = some ⟨classId, .typedArray view⟩
  isView : IsViewClass classId
  hasBuffer : w.bufferAt view.buffer = some buffer
  fits : buffer.detached = false → view.offset + view.length ≤ buffer.byteLength

theorem Consistent.exists_views (hw : Consistent w) (haccepted : w.isArrayBufferView value = true) :
    ∃ classId view buffer, w.Views value classId view buffer := by
  unfold isArrayBufferView at haccepted
  split at haccepted
  next object hobject =>
    have hclass := of_decide_eq_true haccepted
    have hfound : ∃ ptr : Ptr, w.objects[ptr]? = some object := by
      unfold objectOf at hobject
      split at hobject
      next ptr => exact ⟨ptr, hobject⟩
      next => cases hobject
    obtain ⟨ptr, hfound⟩ := hfound
    obtain ⟨view, hview, buffer, hbuffer, hfits⟩ := hw.views ptr object hfound hclass
    exact ⟨object.classId, view, buffer, by rw [hobject, ← hview], hclass, hbuffer, hfits⟩
  next => cases haccepted

variable {classId : Nat} {view : TypedArray} {buffer : ArrayBuffer}

theorem Views.getTypedArray_eq (hviews : w.Views value classId view buffer) :
    w.getTypedArray value (w.isDataview value) = .ok (classId, view) := by
  unfold getTypedArray isDataview
  rw [hviews.object]
  by_cases hclass : classDataview = classId
  · simp only [hclass, decide_true, if_true, ne_eq, not_true_eq_false, if_false]
  · have hrange := hviews.isView.resolve_left hclass
    simp only [hclass, decide_false, Bool.false_eq_true, if_false, hrange, and_self,
      not_true_eq_false]

theorem Views.accepted (hviews : w.Views value classId view buffer) :
    w.isArrayBufferView value = true := by
  unfold isArrayBufferView
  rw [hviews.object]
  exact decide_eq_true hviews.isView

theorem Views.detached_eq (hviews : w.Views value classId view buffer) :
    w.typedArrayIsDetached view = buffer.detached := by
  rw [typedArrayIsDetached, hviews.hasBuffer]

theorem Views.info_eq (hviews : w.Views value classId view buffer) :
    w.getArrayBufferViewInfo value =
      if buffer.detached then .ok none
      else (typedArraySizeLog2 classId).map fun sizeLog2 =>
        some ⟨view.offset, view.length, 1 <<< sizeLog2⟩ := by
  unfold getArrayBufferViewInfo
  rw [if_pos hviews.accepted, hviews.getTypedArray_eq]
  simp only [hviews.detached_eq]
  split
  next => rfl
  next => cases typedArraySizeLog2 classId <;> rfl

/-- The table has an entry for each typed array, and none for data views. -/
theorem typedArraySizeLog2_isOk_iff (hclass : IsViewClass classId) :
    (∃ sizeLog2, typedArraySizeLog2 classId = .ok sizeLog2) ↔ classId ≠ classDataview := by
  constructor
  · rintro ⟨sizeLog2, hsize⟩ rfl
    cases hsize
  · intro hne
    obtain ⟨hlower, hupper⟩ := hclass.resolve_left (Ne.symm hne)
    have hlt : classId - classUint8cArray < sizeLog2Entries.length := by
      have hlength : sizeLog2Entries.length = 11 := rfl
      rw [hlength, classUint8cArray]
      rw [classFloat64Array] at hupper
      omega
    unfold typedArraySizeLog2
    generalize classId - classUint8cArray = index at hlt
    rw [List.getElem?_eq_getElem hlt]
    exact ⟨_, rfl⟩

/-- What is asked of an accepted value: the table is read within its entries, offset and
length are written, zero for a detached view, and lie within the buffer of an attached
one. -/
structure Inspects (w : ViewWorld) (value : JSValue) : Prop where
  reads : w.getArrayBufferViewInfo value ≠ .error .outOfTable
  defined : ∃ offset length, w.byteOffset value = .ok (some offset) ∧
    w.byteLength value = .ok (some length) ∧
    ∀ classId view, w.objectOf value = some ⟨classId, .typedArray view⟩ →
      if w.typedArrayIsDetached view then offset = 0 ∧ length = 0
      else ∃ buffer size, w.buffer value = .ok buffer ∧ w.getArrayBuffer buffer = .ok size ∧
        offset + length ≤ size

/-- The value is a typed array, no data view, and its buffer is attached. -/
def AttachedTypedArray (w : ViewWorld) (value : JSValue) : Prop :=
  ∃ classId view, w.objectOf value = some ⟨classId, .typedArray view⟩ ∧ classId ≠ classDataview ∧
    w.typedArrayIsDetached view = false

theorem Views.getArrayBuffer_eq (hw : Consistent w) (hviews : w.Views value classId view buffer)
    (hattached : buffer.detached = false) :
    w.getArrayBuffer (.ref .object view.buffer) = .ok buffer.byteLength := by
  obtain ⟨classId, hfound⟩ := bufferAt_eq_some_iff.mp hviews.hasBuffer
  have hclass : ¬ (classId ≠ classArrayBuffer ∧ classId ≠ classSharedArrayBuffer) := by
    rintro ⟨hne, hne'⟩
    exact (hw.buffers _ _ _ hfound).1.elim hne hne'
  simp only [getArrayBuffer, jsGetArrayBuffer, hfound, if_neg hclass]
  simp [bind, Except.bind, hattached]

theorem Consistent.inspects (hw : Consistent w) (haccepted : w.isArrayBufferView value = true) :
    w.Inspects value ↔ w.AttachedTypedArray value := by
  obtain ⟨classId, view, buffer, hviews⟩ := hw.exists_views haccepted
  have hinfo := hviews.info_eq
  constructor
  · rintro ⟨-, offset, length, hoffset, -, -⟩
    obtain ⟨info, hok, hsome⟩ := bind_eq_ok.mp hoffset
    rw [hinfo] at hok
    split at hok
    next =>
      cases hok
      cases hsome
    next hattached =>
      refine ⟨classId, view, hviews.object, ?_, ?_⟩
      · refine (typedArraySizeLog2_isOk_iff hviews.isView).mp ?_
        cases hsize : typedArraySizeLog2 classId with
        | ok sizeLog2 => exact ⟨sizeLog2, rfl⟩
        | error fault =>
            rw [hsize] at hok
            cases hok
      · rw [hviews.detached_eq]
        exact Bool.eq_false_of_not_eq_true hattached
  · rintro ⟨classId', view', hobject, hne, hattached⟩
    rw [hviews.object] at hobject
    cases hobject
    rw [hviews.detached_eq] at hattached
    obtain ⟨sizeLog2, hsize⟩ := (typedArraySizeLog2_isOk_iff hviews.isView).mpr hne
    rw [hattached, hsize] at hinfo
    refine ⟨fun h => ?_, view.offset, view.length, ?_, ?_, ?_⟩
    · rw [hinfo] at h
      cases h
    · rw [ViewWorld.byteOffset, hinfo]
      rfl
    · rw [ViewWorld.byteLength, hinfo]
      rfl
    · intro classId' view' hobject
      rw [hviews.object] at hobject
      cases hobject
      rw [hviews.detached_eq, hattached]
      refine ⟨.ref .object view.buffer, buffer.byteLength, ?_,
        hviews.getArrayBuffer_eq hw hattached, hviews.fits hattached⟩
      rw [ViewWorld.buffer, getArrayBufferView, if_pos haccepted, hviews.getTypedArray_eq]
      simp [bind, Except.bind, hviews.detached_eq, hattached]

/-- After any run, the queries of a value that is accepted as a view are as they should
be exactly when it is a typed array over an attached buffer. -/
theorem inspects_iff (actions : List ViewAction) (hrun : step.run start actions = .ok w)
    (haccepted : w.isArrayBufferView value = true) :
    w.Inspects value ↔ w.AttachedTypedArray value :=
  Consistent.inspects (step.run_invariant_of_step Consistent
    (fun _ _ _ hw hstep => consistent_step hw hstep) consistent_start hrun) haccepted

/-- A view of 16-bit numbers. -/
theorem inspects_uint16 : ∃ w, step.run start [.typedArray ⟨4, by decide⟩ (.length 2), .finish 0] = .ok w ∧
    w.isArrayBufferView (.ref .object 1) = true ∧
    (w.Inspects (.ref .object 1) ↔ w.AttachedTypedArray (.ref .object 1)) :=
  ⟨_, rfl, rfl, inspects_iff [.typedArray ⟨4, by decide⟩ (.length 2), .finish 0] rfl rfl⟩

/-- A data view reads past the table. -/
theorem dataview_reads_past_table : ∃ w, step.run start
      [.newArrayBuffer 4 false, .dataview (.ref .object 0) 0 none, .finish 0] = .ok w ∧
    w.isArrayBufferView (.ref .object 1) = true ∧
    w.getArrayBufferViewInfo (.ref .object 1) = .error .outOfTable ∧
      ¬ w.Inspects (.ref .object 1) :=
  ⟨_, rfl, rfl, rfl, fun hinspects => hinspects.reads rfl⟩

end ViewWorld

end QuickjsBackend
