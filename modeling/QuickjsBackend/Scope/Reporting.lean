import QuickjsBackend.Engine.Runtime
import QuickjsBackend.Foundation.Faulting
import Mathlib.Data.BitVec

/-! # Reports of an exception

`Isolate::handleException`, `TryCatch::Message`, `TryCatch::StackTrace` and
`Exception::CreateMessage` ask the engine about a thrown value. Each question may run
getters and conversions of a script, which may throw in turn.
-/

namespace QuickjsBackend

open Foundation Foundation.Faulting

/-- A value a script can have: no exception marker. -/
abbrev ScriptValue := { value : JSValue // value.isException = false }

/-- The names under which a thrown value is asked. -/
inductive ReportKey
  | fileName
  | lineNumber
  | stack
  deriving DecidableEq

/-- What scripts do when the engine asks: an answer or what they throw, and their state
afterwards. -/
structure ReportEngine (Script : Type) where
  getProperty : ScriptValue → ReportKey → Script → Except ScriptValue ScriptValue × Script
  toCString : ScriptValue → Script → Except ScriptValue (List UInt8) × Script
  toInt32 : ScriptValue → Script → Except ScriptValue (BitVec 32) × Script

structure Reporting (Script : Type) where
  script : Script
  -- `current_exception` of the runtime, `JS_NULL` without one
  pending : JSValue
  -- proof-facing: what the reporter has acquired and not given back
  refs : Ptr → Int
  cStrings : Int
  -- proof-facing: an exception marker was converted or put in a handle
  usedMarker : Bool

abbrev Reporter (Script : Type) := Faulting Fault (Reporting Script)

/-- Everything acquired has been given back, no marker was used and no exception is
pending. -/
def Reporting.Settled {Script : Type} (r : Reporting Script) : Prop :=
  r.refs = 0 ∧ r.cStrings = 0 ∧ r.usedMarker = false ∧ r.pending = .null

/-- `v8::Message`. -/
structure Message where
  resourceName : List UInt8
  lineNumber : BitVec 32

/-- What `handleException` writes to `std::cerr`. -/
structure ErrorLine where
  position : Option (List UInt8 × List UInt8)
  message : List UInt8

inductive ReportCall
  | handleException
  | message
  | stackTrace
  | createMessage
  deriving DecidableEq

inductive ReportAnswer
  | line (maybe : Option ErrorLine)
  | message (message : Message)
  | handle (value : JSValue)

namespace ReportEngine

variable {Script : Type} (engine : ReportEngine Script)

/-- `JS_ToCString` of a value: `undefined` is an atom and needs no script. -/
def cString (value : ScriptValue) (script : Script) :
    Except ScriptValue (List UInt8) × Script :=
  if value.1.isUndefined then (.ok "undefined".toUTF8.toList, script)
  else engine.toCString value script

/-- `JS_GetException`. -/
def jsGetException : Reporter Script JSValue := fun r =>
  .ok (r.pending, { r with pending := .null, refs := r.refs + r.pending.refs })

/-- `JS_GetProperty`. -/
def jsGetProperty (value : ScriptValue) (key : ReportKey) : Reporter Script JSValue := fun r =>
  match engine.getProperty value key r.script with
  | (.ok answer, script) => .ok (answer.1, { r with script, refs := r.refs + answer.1.refs })
  | (.error thrown, script) => .ok (.exception, { r with script, pending := thrown.1 })

/-- `JS_ToCString`, which answers `NULL` when it throws. -/
def jsToCString (value : JSValue) : Reporter Script (Option (List UInt8)) := fun r =>
  if legal : value.isException = false then
    match engine.cString ⟨value, legal⟩ r.script with
    | (.ok text, script) => .ok (some text, { r with script, cStrings := r.cStrings + 1 })
    | (.error thrown, script) => .ok (none, { r with script, pending := thrown.1 })
  else .ok (none, { r with usedMarker := true })

/-- `JS_ToInt32`, which writes 0 when it throws. -/
def jsToInt32 (value : JSValue) : Reporter Script (BitVec 32) := fun r =>
  if legal : value.isException = false then
    match engine.toInt32 ⟨value, legal⟩ r.script with
    | (.ok answer, script) => .ok (answer, { r with script })
    | (.error thrown, script) => .ok (0, { r with script, pending := thrown.1 })
  else .ok (0, { r with usedMarker := true })

/-- `JS_FreeValue`. -/
def jsFreeValue (value : JSValue) : Reporter Script Unit := fun r =>
  .ok ((), { r with refs := r.refs - value.refs })

/-- `JS_FreeCString`. -/
def jsFreeCString (ptr : Option (List UInt8)) : Reporter Script Unit := fun r =>
  .ok ((), { r with cStrings := if ptr.isSome then r.cStrings - 1 else r.cStrings })

/-- A `const char*` where a C string is needed: to assign `NULL` to a `std::string`, or to
write it to a stream, is undefined. -/
def text (ptr : Option (List UInt8)) : Reporter Script (List UInt8) :=
  match ptr with
  | some bytes => pure (bytes.takeWhile (· ≠ 0))
  | none => throw .misuse

/-- The value becomes the slot's, which its scope releases. -/
def storeSlot (value : JSValue) : Reporter Script Unit := fun r =>
  .ok ((), { r with
    refs := r.refs - value.refs
    usedMarker := r.usedMarker || value.isException })

/-- The body that `TryCatch::Message` and `Exception::CreateMessage` share. -/
def makeMessage (catched : ScriptValue) : Reporter Script Message := do
  let fileNameVal ← engine.jsGetProperty catched .fileName
  let lineNumVal ← engine.jsGetProperty catched .lineNumber
  let message ←
    if fileNameVal.isUndefined then
      pure ⟨"<unknow>".toUTF8.toList, -1⟩
    else do
      let fileName ← engine.jsToCString fileNameVal
      let resourceName ← text fileName
      jsFreeCString fileName
      let lineNumber ← engine.jsToInt32 lineNumVal
      pure ⟨resourceName, lineNumber⟩
  jsFreeValue lineNumVal
  jsFreeValue fileNameVal
  return message

/-- `TryCatch::Message`. -/
def message (catched : ScriptValue) : Reporter Script Message := engine.makeMessage catched

/-- `Exception::CreateMessage`. -/
def createMessage (exception : ScriptValue) : Reporter Script Message :=
  engine.makeMessage exception

/-- `TryCatch::StackTrace`, both overloads. -/
def stackTrace (catched : ScriptValue) : Reporter Script JSValue := do
  let value ← engine.jsGetProperty catched .stack
  storeSlot value
  return value

/-- What `Isolate::handleException` writes about a value that is neither undefined nor
null. -/
def writeLine (ex : ScriptValue) : Reporter Script ErrorLine := do
  let fileNameVal ← engine.jsGetProperty ex .fileName
  let lineNumVal ← engine.jsGetProperty ex .lineNumber
  let msg ← engine.jsToCString ex
  let fileName ← engine.jsToCString fileNameVal
  let lineNum ← engine.jsToCString lineNumVal
  let line ←
    if fileNameVal.isUndefined then do
      let message ← text msg
      pure ⟨none, message⟩
    else do
      let file ← text fileName
      let number ← text lineNum
      let message ← text msg
      pure ⟨some (file, number), message⟩
  jsFreeCString lineNum
  jsFreeCString fileName
  jsFreeCString msg
  jsFreeValue lineNumVal
  jsFreeValue fileNameVal
  jsFreeValue ex
  return line

/-- `Isolate::handleException` without a `TryCatch`. A marker is never pending. -/
def handleException : Reporter Script (Option ErrorLine) := do
  let ex ← jsGetException
  if legal : ex.isException = false then
    if ex.isUndefined || ex.isNull then return none
    else return some (← engine.writeLine ⟨ex, legal⟩)
  else throw .misuse

end ReportEngine

/-- An isolate with its current context, and what scripts do in each `JSContext`. -/
structure ReportWorld (Script : Type) where
  -- `current_context_->context_`
  current : Option Nat
  engines : Nat → ReportEngine Script

namespace ReportWorld

variable {Script : Type} (w : ReportWorld Script)

/-- The reporter is called about a thrown value. -/
def report (call : ReportCall) (ex : ScriptValue) : Reporter Script ReportAnswer :=
  match w.current with
  | none => throw .nullDeref
  | some context =>
      match call with
      | .handleException => .line <$> (w.engines context).handleException
      | .message => .message <$> (w.engines context).message ex
      | .stackTrace => .handle <$> (w.engines context).stackTrace ex
      | .createMessage => .message <$> (w.engines context).createMessage ex

/-- The value has just been thrown and, but for `handleException`, taken from the engine. -/
def thrown (call : ReportCall) (ex : ScriptValue) (script : Script) : Reporting Script where
  script := script
  pending := if call = .handleException then ex.1 else .null
  refs := 0
  cStrings := 0
  usedMarker := false

/-- The reporter completes, has given back what it acquired, has used no marker and leaves
no exception pending. -/
def ReportsTotally (call : ReportCall) (ex : ScriptValue) (script : Script) : Prop :=
  (w.report call ex).Completes (thrown call ex script) fun _ after => after.Settled

end ReportWorld

/-- What was asked for is there. -/
def Succeeds {α : Type} (answer : Except ScriptValue α) : Prop := ∃ value, answer = .ok value

/-- Nothing is pending afterwards: `current_exception` cannot tell a thrown `null` from
none. -/
def Quiet {α : Type} (answer : Except ScriptValue α) : Prop :=
  ∀ thrown, answer = .error thrown → thrown.1 = .null

namespace ReportEngine

variable {Script : Type} (engine : ReportEngine Script)

/-- The questions of `Message` and `CreateMessage` that must be answered. -/
def MessageAnswered (ex : ScriptValue) (script : Script) : Prop :=
  let fileName := engine.getProperty ex .fileName script
  let lineNumber := engine.getProperty ex .lineNumber fileName.2
  ∃ fileNameVal, fileName.1 = .ok fileNameVal ∧
    if fileNameVal.1.isUndefined then Quiet lineNumber.1
    else
      let resourceName := engine.cString fileNameVal lineNumber.2
      Succeeds resourceName.1 ∧
        ∃ lineNumVal, lineNumber.1 = .ok lineNumVal ∧
          Quiet (engine.toInt32 lineNumVal resourceName.2).1

/-- The questions of `handleException` that must be answered. -/
def LineAnswered (ex : ScriptValue) (script : Script) : Prop :=
  let fileName := engine.getProperty ex .fileName script
  let lineNumber := engine.getProperty ex .lineNumber fileName.2
  let msg := engine.cString ex lineNumber.2
  Succeeds msg.1 ∧
    ∃ fileNameVal lineNumVal, fileName.1 = .ok fileNameVal ∧ lineNumber.1 = .ok lineNumVal ∧
      let file := engine.cString fileNameVal msg.2
      let line := engine.cString lineNumVal file.2
      if fileNameVal.1.isUndefined then Quiet line.1 else Succeeds file.1 ∧ Succeeds line.1

end ReportEngine

namespace ReportWorld

variable {Script : Type} (w : ReportWorld Script)

/-- The questions of a reporter that must be answered. -/
def Answered (call : ReportCall) (ex : ScriptValue) (script : Script) : Prop :=
  ∃ context, w.current = some context ∧
    match call with
    | .handleException =>
        ex.1.isUndefined = true ∨ ex.1.isNull = true ∨
          (w.engines context).LineAnswered ex script
    | .message | .createMessage => (w.engines context).MessageAnswered ex script
    | .stackTrace => Succeeds ((w.engines context).getProperty ex .stack script).1

end ReportWorld

/-! ### What each call does -/

section Calls

variable {Script : Type} {engine : ReportEngine Script} {r : Reporting Script}
  {value : ScriptValue}

theorem Quiet.ok {α : Type} {answer : α} : Quiet (.ok answer) := fun _ h => by cases h

theorem quiet_error_iff {α : Type} {ex : ScriptValue} :
    Quiet (.error ex : Except ScriptValue α) ↔ ex.1 = .null :=
  ⟨fun hquiet => hquiet ex rfl, fun hnull thrown h => by cases h; exact hnull⟩

theorem succeeds_ok {α : Type} {answer : α} : Succeeds (.ok answer) := ⟨answer, rfl⟩

theorem not_succeeds_error {α : Type} {ex : ScriptValue} :
    ¬Succeeds (.error ex : Except ScriptValue α) := fun ⟨_, h⟩ => by cases h

@[simp] theorem JSValue.refs_exception : JSValue.exception.refs = 0 := rfl

namespace ReportEngine

@[simp] theorem completes_jsFreeValue {ex : JSValue} {post : Unit → Reporting Script → Prop} :
    Completes (jsFreeValue ex) r post ↔ post () { r with refs := r.refs - ex.refs } :=
  completes_of_ok rfl

@[simp] theorem completes_jsFreeCString {ptr : Option (List UInt8)}
    {post : Unit → Reporting Script → Prop} :
    Completes (jsFreeCString ptr) r post ↔
      post () { r with cStrings := if ptr.isSome then r.cStrings - 1 else r.cStrings } :=
  completes_of_ok rfl

@[simp] theorem completes_storeSlot {ex : JSValue} {post : Unit → Reporting Script → Prop} :
    Completes (storeSlot ex) r post ↔
      post () { r with
        refs := r.refs - ex.refs
        usedMarker := r.usedMarker || ex.isException } :=
  completes_of_ok rfl

@[simp] theorem completes_text_some {bytes : List UInt8}
    {post : List UInt8 → Reporting Script → Prop} :
    Completes (text (some bytes)) r post ↔ post (bytes.takeWhile (· ≠ 0)) r :=
  completes_of_ok rfl

@[simp] theorem completes_text_none {post : List UInt8 → Reporting Script → Prop} :
    ¬Completes (text none) r post :=
  not_completes_of_error rfl

theorem completes_jsGetProperty {key : ReportKey} {post : JSValue → Reporting Script → Prop} :
    Completes (engine.jsGetProperty value key) r post ↔
      match engine.getProperty value key r.script with
      | (.ok answer, script) => post answer.1 { r with script, refs := r.refs + answer.1.refs }
      | (.error thrown, script) => post .exception { r with script, pending := thrown.1 } := by
  cases hget : engine.getProperty value key r.script with
  | mk answer script => cases answer <;> exact completes_of_ok (by simp only [jsGetProperty, hget])

theorem completes_jsToCString {post : Option (List UInt8) → Reporting Script → Prop} :
    Completes (engine.jsToCString value.1) r post ↔
      match engine.cString value r.script with
      | (.ok text, script) => post (some text) { r with script, cStrings := r.cStrings + 1 }
      | (.error thrown, script) => post none { r with script, pending := thrown.1 } := by
  cases hstring : engine.cString value r.script with
  | mk answer script =>
      cases answer <;>
        exact completes_of_ok (by simp only [jsToCString, value.2, dite_true, hstring])

@[simp] theorem completes_jsToCString_exception
    {post : Option (List UInt8) → Reporting Script → Prop} :
    Completes (engine.jsToCString .exception) r post ↔ post none { r with usedMarker := true } :=
  completes_of_ok rfl

theorem completes_jsToInt32 {post : BitVec 32 → Reporting Script → Prop} :
    Completes (engine.jsToInt32 value.1) r post ↔
      match engine.toInt32 value r.script with
      | (.ok answer, script) => post answer { r with script }
      | (.error thrown, script) => post 0 { r with script, pending := thrown.1 } := by
  cases hint : engine.toInt32 value r.script with
  | mk answer script =>
      cases answer <;> exact completes_of_ok (by simp only [jsToInt32, value.2, dite_true, hint])

@[simp] theorem completes_jsToInt32_exception {post : BitVec 32 → Reporting Script → Prop} :
    Completes (engine.jsToInt32 .exception) r post ↔ post 0 { r with usedMarker := true } :=
  completes_of_ok rfl

/-! ### Each reporter -/

variable {ex : ScriptValue} {script : Script}

theorem completes_makeMessage :
    Completes (engine.makeMessage ex) ⟨script, .null, 0, 0, false⟩
      (fun _ after => after.Settled) ↔ engine.MessageAnswered ex script := by
  unfold makeMessage MessageAnswered
  simp only [completes_bind, completes_jsGetProperty]
  rcases engine.getProperty ex .fileName script with ⟨fileName | fileName, afterFile⟩
  · -- the marker is no undefined, so that `JS_ToCString` gets it
    dsimp only
    rcases engine.getProperty ex .lineNumber afterFile with ⟨line | line, afterLine⟩ <;>
      simp [JSValue.isUndefined]
  · dsimp only
    cases hundefined : fileName.1.isUndefined with
    | true =>
        rcases engine.getProperty ex .lineNumber afterFile with ⟨line | line, afterLine⟩ <;>
          simp [hundefined, Reporting.Settled, Quiet.ok, quiet_error_iff]
    | false =>
        rcases engine.getProperty ex .lineNumber afterFile with ⟨line | line, afterLine⟩
        · dsimp only
          rcases hstring : engine.cString fileName afterLine with ⟨text | text, afterText⟩ <;>
            simp [hundefined, Reporting.Settled, completes_jsToCString, hstring]
        · dsimp only
          rcases hstring : engine.cString fileName afterLine with ⟨text | text, afterText⟩
          · simp [hundefined, completes_jsToCString, hstring, not_succeeds_error]
          · rcases hint : engine.toInt32 line afterText with ⟨number | number, afterNumber⟩ <;>
              simp [hundefined, Reporting.Settled, completes_jsToCString, completes_jsToInt32,
                hstring, hint, succeeds_ok, Quiet.ok, quiet_error_iff]

theorem cString_undefined (hundefined : value.1.isUndefined = true) :
    engine.cString value script = (.ok "undefined".toUTF8.toList, script) := if_pos hundefined

theorem completes_writeLine :
    Completes (engine.writeLine ex) ⟨script, .null, ex.1.refs, 0, false⟩
      (fun _ after => after.Settled) ↔ engine.LineAnswered ex script := by
  unfold writeLine LineAnswered
  simp only [completes_bind, completes_jsGetProperty, completes_jsToCString]
  rcases engine.getProperty ex .fileName script with ⟨fileName | fileName, afterFile⟩
  · dsimp only
    rcases engine.getProperty ex .lineNumber afterFile with ⟨line | line, afterLine⟩ <;>
      dsimp only <;>
      rcases engine.cString ex afterLine with ⟨msg | msg, afterMsg⟩
    case ok.error | ok.ok =>
      dsimp only
      rcases hnumber : engine.cString line afterMsg with ⟨number | number, afterNumber⟩ <;>
        simp [JSValue.isUndefined, hnumber]
    all_goals simp [JSValue.isUndefined]
  · dsimp only
    rcases engine.getProperty ex .lineNumber afterFile with ⟨line | line, afterLine⟩ <;>
      dsimp only <;>
      rcases engine.cString ex afterLine with ⟨msg | msg, afterMsg⟩ <;>
      dsimp only <;>
      cases hundefined : fileName.1.isUndefined
    -- the marker for `lineNumber` is converted
    case error.error.false | error.error.true | error.ok.false | error.ok.true =>
      rcases engine.cString fileName afterMsg with ⟨file | file, afterText⟩ <;>
        simp [Reporting.Settled]
    -- no file name is written, so that the conversions of both need not give anything
    case ok.error.true | ok.ok.true =>
      simp only [cString_undefined hundefined]
      rcases hnumber : engine.cString line afterMsg with ⟨number | number, afterNumber⟩ <;>
        simp [Reporting.Settled, cString_undefined hundefined, hundefined, hnumber, succeeds_ok,
          not_succeeds_error, Quiet.ok, quiet_error_iff]
    case ok.error.false | ok.ok.false =>
      rcases hfile : engine.cString fileName afterMsg with ⟨file | file, afterText⟩ <;>
        dsimp only <;>
        rcases hnumber : engine.cString line afterText with ⟨number | number, afterNumber⟩ <;>
        simp [Reporting.Settled, hundefined, hfile, hnumber, succeeds_ok, not_succeeds_error]

theorem completes_stackTrace :
    Completes (engine.stackTrace ex) ⟨script, .null, 0, 0, false⟩
      (fun _ after => after.Settled) ↔ Succeeds (engine.getProperty ex .stack script).1 := by
  unfold stackTrace
  simp only [completes_bind, completes_jsGetProperty]
  rcases engine.getProperty ex .stack script with ⟨value | value, after⟩
  · simp [Reporting.Settled, JSValue.isException, not_succeeds_error]
  · simp [Reporting.Settled, succeeds_ok, value.2]

theorem completes_handleException :
    Completes engine.handleException ⟨script, ex.1, 0, 0, false⟩
      (fun _ after => after.Settled) ↔
        ex.1.isUndefined = true ∨ ex.1.isNull = true ∨ engine.LineAnswered ex script := by
  have hget : jsGetException (⟨script, ex.1, 0, 0, false⟩ : Reporting Script) =
      .ok (ex.1, ⟨script, .null, ex.1.refs, 0, false⟩) := by
    rw [jsGetException, zero_add]
  unfold handleException
  rw [completes_bind, completes_of_ok hget, dif_pos ex.2]
  by_cases hundefined : ex.1.isUndefined = true
  · have hrefs : ex.1.refs = 0 := by rw [of_decide_eq_true hundefined]; rfl
    simp [hundefined, hrefs, Reporting.Settled]
  by_cases hnull : ex.1.isNull = true
  · have hrefs : ex.1.refs = 0 := by rw [of_decide_eq_true hnull]; rfl
    simp [hnull, hrefs, Reporting.Settled]
  simp only [hundefined, hnull, Bool.or_false, Bool.false_eq_true, if_false, false_or,
    completes_bind, completes_pure]
  exact completes_writeLine

end ReportEngine

namespace ReportWorld

/-- A reporter is total exactly when a context is current and no question that it needs
throws. -/
theorem reportsTotally_iff (w : ReportWorld Script) (call : ReportCall) (ex : ScriptValue)
    (script : Script) : w.ReportsTotally call ex script ↔ w.Answered call ex script := by
  unfold ReportsTotally Answered report
  cases hcurrent : w.current with
  | none => simp
  | some context =>
      simp only [Option.some.injEq, exists_eq_left']
      cases call with
      | handleException => exact completes_map.trans ReportEngine.completes_handleException
      | message => exact completes_map.trans ReportEngine.completes_makeMessage
      | createMessage => exact completes_map.trans ReportEngine.completes_makeMessage
      | stackTrace => exact completes_map.trans ReportEngine.completes_stackTrace

/-- Scripts that change nothing, in which a symbol or `null` has no properties and no
string. -/
def plainEngine : ReportEngine Unit where
  getProperty value _ script :=
    match value.1 with
    | .null | .undefined => (.error ⟨.ref .object 0, rfl⟩, script)
    | _ => (.ok ⟨.undefined, rfl⟩, script)
  toCString value script :=
    match value.1 with
    | .ref .symbol _ => (.error ⟨.ref .object 0, rfl⟩, script)
    | _ => (.ok [], script)
  toInt32 _ script := (.ok 0, script)

/-- `throw null` with a `TryCatch`: the marker that `JS_GetProperty` answers is converted,
and the `NULL` of that conversion assigned to a `std::string`. -/
theorem message_of_null :
    ¬∀ (Script : Type) (w : ReportWorld Script) (call : ReportCall) (ex : ScriptValue)
      (script : Script), (∃ context, w.current = some context) →
        w.ReportsTotally call ex script := by
  intro total
  have hnull := total Unit ⟨some 0, fun _ => plainEngine⟩ .message ⟨.null, rfl⟩ () ⟨0, rfl⟩
  obtain ⟨_, _, hrun, -⟩ := hnull
  cases hrun

end ReportWorld

end Calls

end QuickjsBackend
