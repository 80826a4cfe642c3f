import Mathlib.Data.List.GetD
import QuickjsBackend.Callback.Wrapper

/-! # Arguments of native callbacks

A script gets hold of the functions behind templates and accessors and invokes each of
them in any way. The engine passes on an array of as many arguments as there are; the
callback of a function reads it through `operator[]`, that of a setter takes the array
itself for a handle.
-/

namespace QuickjsBackend

/-- `argv`: the arguments, and the words behind them unless the pointer is null. -/
structure ArgArray where
  args : List JSValue
  behind : Option (Nat → JSValue)
  empty_of_null : behind = none → args = []

namespace ArgArray

/-- The word at an index from where the pointer points. -/
def word (array : ArgArray) (index : Nat) : Option JSValue :=
  array.behind.map fun behind => array.args.getD index (behind (index - array.args.length))

/-- `NULL`. -/
def null : ArgArray := ⟨[], none, fun _ => rfl⟩

/-- An array in memory. -/
def inMemory (args : List JSValue) (behind : Nat → JSValue) : ArgArray := ⟨args, some behind, nofun⟩

end ArgArray

/-- How the engine comes to invoke a function: for a property that is read or written, in
a call, construction or `apply` with an array of arguments, through
`Function.prototype.call`, through a bound function or through a proxy. -/
inductive Route
  | read
  | assign (value : JSValue) (behind : Nat → JSValue)
  | invoke (args : List JSValue) (behind : Nat → JSValue)
  | functionCall (args : List JSValue) (behind : Nat → JSValue)
  | bound (boundArgs : List JSValue) (behind : Nat → JSValue) (route : Route)
  | proxy (route : Route)

namespace Route

/-- The array that the engine passes on. `js_function_call` takes the receiver off its
arguments, and passes `NULL` when there was none. -/
def argv : Route → ArgArray
  | read => .null
  | assign value behind => .inMemory [value] behind
  | invoke args behind => .inMemory args behind
  | functionCall [] _ => .null
  | functionCall (_ :: args) behind => .inMemory args behind
  | bound boundArgs behind route => .inMemory (boundArgs ++ route.argv.args) behind
  | proxy route => route.argv

/-- The arguments of the invocation. -/
def args (route : Route) : List JSValue := route.argv.args

end Route

/-- What a C function is called with. -/
structure CallFrame where
  argc : Nat
  argv : ArgArray

/-- `js_c_function_data_call` of a function of the given length. -/
def jsCFunctionDataCall (length : Nat) (argv : ArgArray) (behind : Nat → JSValue) : CallFrame where
  argc := argv.args.length
  argv :=
    if argv.args.length < length then
      .inMemory (argv.args ++ List.replicate (length - argv.args.length) .undefined) behind
    else argv

/-- What a handle to an argument points at: the undefined of the isolate, a word of
`argv`, or nothing. -/
inductive ArgHandle
  | undefined
  | word (index : Nat)
  | null
  deriving DecidableEq, Repr

/-- What a callback asks for: `info[i]`, or the value that a setter is given. -/
inductive ArgRead
  | index (i : Int)
  | value
  deriving DecidableEq, Repr

namespace CallFrame

variable (frame : CallFrame)

/-- `FunctionCallbackInfo::operator[]`. -/
def subscript (i : Int) : ArgHandle :=
  if 0 ≤ i ∧ i < frame.argc then .word i.toNat else .undefined

/-- `reinterpret_cast<Value*>(argv)`. -/
def value : ArgHandle :=
  match frame.argv.behind with
  | some _ => .word 0
  | none => .null

def denotes : ArgHandle → Option JSValue
  | .undefined => some .undefined
  | .word index => frame.argv.word index
  | .null => none

end CallFrame

namespace ArgRead

/-- What the callback should find. -/
def expected (args : List JSValue) : ArgRead → JSValue
  | index i => if 0 ≤ i then args.getD i.toNat .undefined else .undefined
  | value => args.headD .undefined

end ArgRead

namespace Wrapper

/-- The length that `GetFunction` and `InitAccessors` register. -/
def length : Wrapper → Nat
  | function _ _ => 0
  | getter => 0
  | setter => 0

/-- The handle that the callback of a wrapper gets, where it can ask at all. -/
def argument (frame : CallFrame) : Wrapper → ArgRead → Option ArgHandle
  | function _ _, .index i => some (frame.subscript i)
  | function _ _, .value => none
  | getter, _ => none
  | setter, .index _ => none
  | setter, .value => some frame.value

/-- The frame in which the wrapper runs. -/
def frame (wrapper : Wrapper) (route : Route) (behind : Nat → JSValue) : CallFrame :=
  jsCFunctionDataCall wrapper.length route.argv behind

/-- Whatever the callback asks for is an argument or undefined, and only words that hold
arguments are read. -/
def ReadsArguments (wrapper : Wrapper) (route : Route) (behind : Nat → JSValue) : Prop :=
  ∀ read handle, wrapper.argument (wrapper.frame route behind) read = some handle →
    (∀ index, handle = .word index → index < route.args.length) ∧
      (wrapper.frame route behind).denotes handle = some (read.expected route.args)

end Wrapper

section Arguments

variable {wrapper : Wrapper} {route : Route} {behind : Nat → JSValue}

/-- No function is registered with a length, so that nothing is padded. -/
theorem frame_eq (wrapper : Wrapper) (route : Route) (behind : Nat → JSValue) :
    wrapper.frame route behind = ⟨route.args.length, route.argv⟩ := by
  have hlength : wrapper.length = 0 := by cases wrapper <;> rfl
  simp only [Wrapper.frame, jsCFunctionDataCall, hlength, Nat.not_lt_zero, if_false, Route.args]

/-- A word below `argc` is the argument with that index. -/
theorem ArgArray.word_of_lt {array : ArgArray} {index : Nat} (hlt : index < array.args.length) :
    array.word index = some (array.args.getD index .undefined) := by
  cases hbehind : array.behind with
  | none =>
      rw [array.empty_of_null hbehind] at hlt
      exact absurd hlt (Nat.not_lt_zero index)
  | some behind =>
      rw [word, hbehind, Option.map_some, List.getD_eq_getElem _ _ hlt,
        List.getD_eq_getElem _ _ hlt]

theorem subscript_spec (i : Int) :
    (∀ index, (CallFrame.mk route.args.length route.argv).subscript i = ArgHandle.word index →
      index < route.args.length) ∧
    (CallFrame.mk route.args.length route.argv).denotes
      ((CallFrame.mk route.args.length route.argv).subscript i) =
        some ((ArgRead.index i).expected route.args) := by
  by_cases hin : 0 ≤ i ∧ i < route.args.length
  · have hlt : i.toNat < route.args.length := by omega
    have hat : (CallFrame.mk route.args.length route.argv).subscript i = .word i.toNat := if_pos hin
    rw [hat]
    refine ⟨?_, ?_⟩
    · rintro index ⟨⟩
      exact hlt
    · simp only [CallFrame.denotes, ArgRead.expected, if_pos hin.1]
      exact ArgArray.word_of_lt hlt
  · have hat : (CallFrame.mk route.args.length route.argv).subscript i = .undefined := if_neg hin
    rw [hat]
    refine ⟨nofun, ?_⟩
    simp only [CallFrame.denotes, ArgRead.expected]
    split
    next hnonneg =>
      rw [List.getD_eq_default _ _ (by omega)]
    next => rfl

theorem value_of_args {argc : Nat} (hargs : route.args ≠ []) :
    (CallFrame.mk argc route.argv).value = .word 0 := by
  cases hbehind : route.argv.behind with
  | none => exact absurd (route.argv.empty_of_null hbehind) hargs
  | some behind => simp only [CallFrame.value, hbehind]

/-- The handle of a setter points into `argv` or nowhere. -/
theorem value_cases (frame : CallFrame) : frame.value = .word 0 ∨ frame.value = .null := by
  unfold CallFrame.value
  split
  · exact Or.inl rfl
  · exact Or.inr rfl

theorem setter_reads_iff :
    Wrapper.setter.ReadsArguments route behind ↔ route.args ≠ [] := by
  constructor
  · intro hreads hargs
    obtain ⟨hbound, hdenotes⟩ := hreads .value _ rfl
    rcases value_cases (Wrapper.setter.frame route behind) with hword | hnull
    · have hlt := hbound 0 hword
      rw [hargs] at hlt
      exact absurd hlt (Nat.not_lt_zero 0)
    · rw [hnull] at hdenotes
      cases hdenotes
  · intro hargs read handle hhandle
    cases read with
    | index i => cases hhandle
    | value =>
        have hpos : 0 < route.args.length := List.length_pos_iff.mpr hargs
        rw [frame_eq] at hhandle ⊢
        rw [Wrapper.argument, value_of_args hargs, Option.some.injEq] at hhandle
        subst handle
        refine ⟨?_, ?_⟩
        · rintro index ⟨⟩
          exact hpos
        · rw [CallFrame.denotes, ArgArray.word_of_lt hpos, ArgRead.expected]
          change some (route.args.getD 0 .undefined) = _
          cases route.args with
          | nil => rfl
          | cons first rest => rfl

/-- Exactly the setters that are invoked without an argument read what is none. -/
theorem readsArguments_iff (wrapper : Wrapper) (route : Route) (behind : Nat → JSValue) :
    wrapper.ReadsArguments route behind ↔ ¬ (wrapper = .setter ∧ route.args = []) := by
  cases wrapper with
  | function isConstructCall internalFieldCount =>
      refine iff_of_true ?_ nofun
      intro read handle hhandle
      rw [frame_eq] at hhandle ⊢
      cases read with
      | index i =>
          rw [Wrapper.argument, Option.some.injEq] at hhandle
          subst handle
          exact subscript_spec i
      | value => cases hhandle
  | getter =>
      refine iff_of_true ?_ nofun
      intro read handle hhandle
      cases hhandle
  | setter =>
      rw [setter_reads_iff, not_and]
      exact ⟨fun hargs _ => hargs, fun himp => himp rfl⟩

/-- The setter of a descriptor, called without an argument. -/
theorem setter_reads_behind :
    ¬ ∀ (wrapper : Wrapper) (route : Route) (behind : Nat → JSValue),
      wrapper.ReadsArguments route behind := by
  intro hall
  obtain ⟨hbound, _⟩ := hall .setter (.invoke [] fun _ => .int 7) (fun _ => .undefined) .value _ rfl
  exact absurd (hbound 0 rfl) (Nat.lt_irrefl 0)

end Arguments

end QuickjsBackend
