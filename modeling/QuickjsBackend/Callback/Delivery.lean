import QuickjsBackend.Callback.Effect

/-! # Who gets an exception

`exception_` is one field for all nesting levels: the next wrapper to finish
takes whatever is in it, and takes undefined for nothing at all. `TryCatch`
objects are one chain for all native frames: an operation hands its exception to
the innermost object, whichever frame that belongs to, and null or undefined
there read as nothing caught. Who gets it is decided invocation by invocation and
operation by operation, as long as a context is current to take it from the engine.
-/

namespace QuickjsBackend

namespace Invocation

variable (invocation : Invocation)

/-- The last value that the invocation itself passed to `ThrowException`. -/
def lastThrown : Option JSValue := (invocation.deeds.filterMap id).getLast?

/-- It completes abruptly, with the last value it threw, exactly if it threw, and
leaves `exception_` undefined. -/
structure Delivered : Prop where
  completion : invocation.completion =
    match invocation.lastThrown with
    | some thrown => .threw thrown
    | none => .returned invocation.returns
  after : invocation.after = .undefined

/-- A throw is its last deed and not of undefined; without a throw, some callback
has run in it or nothing was pending when it started. -/
def Prompt : Prop :=
  match invocation.deeds.getLast? with
  | some (some thrown) => thrown ≠ .undefined
  | some none => invocation.lastThrown = none
  | none => invocation.started = .undefined

variable {invocation}

theorem lastThrown_concat (deeds : List (Option JSValue)) (thrown : JSValue) :
    ((deeds ++ [some thrown]).filterMap id).getLast? = some thrown := by
  simp [List.filterMap_append]

theorem delivered_iff_prompt (hconsistent : invocation.Consistent) :
    invocation.Delivered ↔ invocation.Prompt := by
  obtain ⟨started, deeds, returns, completion, after⟩ := invocation
  simp only [Consistent] at hconsistent
  have hafter : after = .undefined := by
    rw [← deliver_pending (pendingAfter started deeds) returns, hconsistent]
  have hiff : Delivered ⟨started, deeds, returns, completion, after⟩ ↔
      (deliver (pendingAfter started deeds) returns).1 =
        match (deeds.filterMap id).getLast? with
        | some thrown => .threw thrown
        | none => .returned returns := by
    rw [hconsistent]
    exact ⟨fun hdelivered => hdelivered.completion, fun hcompletion => ⟨hcompletion, hafter⟩⟩
  rw [hiff]
  rcases List.eq_nil_or_concat deeds with rfl | ⟨earlier, last, rfl⟩
  · simp only [pendingAfter, List.foldl_nil, List.filterMap_nil, List.getLast?_nil, Prompt]
    by_cases hstarted : started = .undefined
    · simp [hstarted, deliver_undefined]
    · simp [hstarted, deliver_of_ne returns hstarted]
  · rw [List.concat_eq_append]
    cases last with
    | none =>
        have hpending : pendingAfter started (earlier ++ [none]) = .undefined := by
          rw [pendingAfter, List.foldl_append]
          rfl
        rw [hpending, deliver_undefined]
        simp only [Prompt, List.getLast?_concat, lastThrown]
        cases ((earlier ++ [none]).filterMap id).getLast? <;> simp
    | some thrown =>
        have hpending : pendingAfter started (earlier ++ [some thrown]) = thrown := by
          rw [pendingAfter, List.foldl_append]
          rfl
        rw [hpending, lastThrown_concat]
        simp only [Prompt, List.getLast?_concat]
        by_cases hthrown : thrown = .undefined
        · simp [hthrown, deliver_undefined]
        · simp [hthrown, deliver_of_ne returns hthrown]

end Invocation

namespace Operation

variable (operation : Operation)

/-- It returns. An exception gives an empty result and is in the innermost `TryCatch`
of the frame, which reports it; a normal completion gives a result and changes what
no `TryCatch` reports. -/
def Sound : Prop :=
  match operation.completion with
  | none => False
  | some (.threw thrown) => operation.result = some none ∧
      (operation.own = true → operation.after.head? = some thrown ∧ hasCaught thrown = true)
  | some (.returned value) => operation.result = some (some value) ∧
      operation.after.map hasCaught = operation.before.map hasCaught

/-- It is made in a context. In a frame with a `TryCatch` it throws neither null nor
undefined; completing normally, the last exception that escaped from a frame inside it
makes no difference to what the innermost `TryCatch` reports. -/
structure Heard : Prop where
  inContext : operation.InContext
  heard :
    match operation.completion with
    | none => True
    | some (.threw thrown) => operation.own = true → hasCaught thrown = true
    | some (.returned _) =>
        ∀ catched inner, operation.before.head? = some catched →
          operation.inner.getLast? = some inner → hasCaught inner = hasCaught catched

variable {operation}

theorem Sound.result_ne_none (hsound : operation.Sound) : operation.result ≠ none := by
  unfold Sound at hsound
  split at hsound
  next => exact hsound.elim
  next => rw [hsound.1]; exact Option.some_ne_none _
  next => rw [hsound.1]; exact Option.some_ne_none _

theorem sound_iff_heard (hconsistent : operation.Consistent) (hreturns : operation.result ≠ none) :
    operation.Sound ↔ operation.Heard := by
  obtain ⟨result, hresult⟩ := Option.ne_none_iff_exists'.mp hreturns
  obtain ⟨hcontext, completion, hcompletion, rfl, hafter⟩ := hconsistent.returned result hresult
  have hheard : operation.Heard ↔ _ := ⟨Heard.heard, fun hheard => ⟨hcontext, hheard⟩⟩
  rw [hheard]
  simp only [Sound, hcompletion]
  cases completion with
  | threw thrown =>
      simp only [Completion.thrown, Option.toList_some, List.foldl_append, List.foldl_cons,
        List.foldl_nil] at hafter
      constructor
      · rintro ⟨_, hown⟩ howned
        exact (hown howned).2
      · intro hthrown
        refine ⟨hresult, fun howned => ⟨?_, hthrown howned⟩⟩
        cases hbefore : operation.before with
        | nil => exact absurd hbefore (hconsistent.own howned)
        | cons catched outer =>
            rw [hafter, hbefore, foldl_catchIn_cons]
            rfl
  | returned value =>
      simp only [Completion.thrown, Option.toList_none, List.append_nil] at hafter
      simp only [Completion.result] at hresult
      cases hbefore : operation.before with
      | nil =>
          have hnone : operation.after = [] := by rw [hafter, hbefore, foldl_catchIn_nil]
          simp [hresult, hnone]
      | cons catched outer =>
          rw [hafter, hbefore, foldl_catchIn_cons, List.getLastD_eq_getLast?]
          cases operation.inner.getLast? with
          | none => simp [hresult]
          | some inner => simp [hresult]

end Operation

variable (native : Native) (state : ExceptionState)

/-- In a run of nested callbacks and scripts every exception is delivered to the
invocation that threw it, and to no other, exactly when all are prompt. This is about
the invocations that finish: one in which an operation throws while no context is
current does not, and nothing comes after it. -/
theorem exceptions_delivered_iff :
    (∀ invocation, .invocation invocation ∈ (runNative false native state).records →
        invocation.Delivered) ↔
      ∀ invocation, .invocation invocation ∈ (runNative false native state).records →
        invocation.Prompt := by
  have haccounted := runNative_accounted false native state fun h => absurd h Bool.false_ne_true
  constructor
  · intro hdelivered invocation hrecord
    exact (Invocation.delivered_iff_prompt (haccounted.consistent _ hrecord)).mp
      (hdelivered invocation hrecord)
  · intro hprompt invocation hrecord
    exact (Invocation.delivered_iff_prompt (haccounted.consistent _ hrecord)).mpr
      (hprompt invocation hrecord)

/-- A script that calls a native callback and then completes normally. -/
def callInto (body : Native) : Script :=
  .invoke (.function false 0) .undefined body fun _ => .complete (.returned .undefined)

/-- Native code that runs a script and returns. -/
def runAndReturn (script : Script) : Native :=
  .operate .run script (.complete (.returned .undefined)) fun _ => .ret .undefined

/-- Native code in a `Context::Scope`. -/
def inContext (body : Native) : Native := .contextScope 0 body .done (.ret .undefined)

/-- A callback throws and calls into a script before it returns: the callback
which that script calls completes abruptly in its place. -/
theorem throw_before_call_misdelivered :
    ∃ first inner second outer,
      (runNative false (inContext (runAndReturn (callInto (.throwException (.int 1)
        (runAndReturn (callInto (.ret .undefined))))))) .new).records =
          [.invocation first, .operation inner, .invocation second, .operation outer] ∧
      first.lastThrown = none ∧ first.completion = .threw (.int 1) ∧
      second.lastThrown = some (.int 1) ∧ second.completion = .returned .undefined ∧
      ¬ first.Delivered ∧ ¬ second.Delivered := by
  refine ⟨_, _, _, _, rfl, rfl, rfl, rfl, rfl, ?_, ?_⟩
  · intro hdelivered
    cases hdelivered.completion
  · intro hdelivered
    cases hdelivered.completion

/-- In a run of nested callbacks and scripts the `TryCatch` objects report what
happened, at every operation, exactly when every operation is heard. -/
theorem tryCatch_sound_iff :
    (∀ operation, .operation operation ∈ (runNative false native state).records →
        operation.Sound) ↔
      ∀ operation, .operation operation ∈ (runNative false native state).records →
        operation.Heard := by
  have haccounted := runNative_accounted false native state fun h => absurd h Bool.false_ne_true
  constructor
  · intro hsound operation hrecord
    exact (Operation.sound_iff_heard (haccounted.consistent _ hrecord)
      (hsound operation hrecord).result_ne_none).mp (hsound operation hrecord)
  · intro hheard operation hrecord
    refine (Operation.sound_iff_heard (haccounted.consistent _ hrecord) fun hresult => ?_).mpr
      (hheard operation hrecord)
    -- the operation did not return, so one inside it was not made in a context
    obtain ⟨other, hother, hcontext⟩ := haccounted.blamed operation hrecord hresult
    exact hcontext (hheard other hother).inContext

/-- A script completes normally after calling a callback that runs a failing
script without a `TryCatch` of its own: the object around it reports the inner
exception. -/
theorem inner_exception_reported_outside :
    ∃ inner callback operation,
      (runNative false (inContext (.tryCatch (runAndReturn (callInto (runAndReturn
        (.complete (.threw (.int 1)))))) fun _ => .ret .undefined)) .new).records =
          [.operation inner, .invocation callback, .operation operation] ∧
      operation.completion = some (.returned .undefined) ∧
      operation.before.map hasCaught = [false] ∧ operation.after.map hasCaught = [true] ∧
      ¬ operation.Sound := by
  refine ⟨_, _, _, rfl, rfl, rfl, rfl, ?_⟩
  rintro ⟨_, hunchanged⟩
  exact absurd hunchanged (by decide)

end QuickjsBackend
