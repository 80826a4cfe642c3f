import QuickjsBackend.Callback.CallTree

/-! # What a run does to the exception state

A piece of code acts on its surroundings through two fields only: its deeds
account for `exception_`, and the exceptions that reach the innermost `TryCatch`
open at its start account for the chain of `TryCatch` objects. Both compose
along a run, and every record of a run is consistent with them. A run that does not
come to its end has a record of who read the missing context.
-/

namespace QuickjsBackend

/-- What is in `exception_` after the deeds: each throw overwrites it, and each
native callback empties it. -/
def pendingAfter (start : JSValue) (deeds : List (Option JSValue)) : JSValue :=
  deeds.foldl (fun _ deed => deed.getD .undefined) start

theorem foldl_catchIn_nil (values : List JSValue) : values.foldl catchIn [] = [] := by
  induction values with
  | nil => rfl
  | cons value rest ih => exact ih

/-- Catching changes the innermost object only. -/
theorem foldl_catchIn_cons (values : List JSValue) (catched : JSValue) (outer : List JSValue) :
    values.foldl catchIn (catched :: outer) = values.getLastD catched :: outer := by
  induction values generalizing catched with
  | nil => rfl
  | cons value rest ih =>
      rw [List.foldl_cons, catchIn, ih value]
      cases rest <;> rfl

structure Effect (before after : ExceptionState) (deeds : List (Option JSValue))
    (inner : List JSValue) : Prop where
  exception : after.exception = pendingAfter before.exception deeds
  tryCatches : after.tryCatches = inner.foldl catchIn before.tryCatches
  currentContext : after.currentContext = before.currentContext

theorem Effect.refl (state : ExceptionState) : Effect state state [] [] := ⟨rfl, rfl, rfl⟩

theorem Effect.trans {first second third : ExceptionState} {deeds later : List (Option JSValue)}
    {inner outer : List JSValue} (hfirst : Effect first second deeds inner)
    (hsecond : Effect second third later outer) :
    Effect first third (deeds ++ later) (inner ++ outer) where
  exception := by
    rw [hsecond.exception, hfirst.exception, pendingAfter, pendingAfter, pendingAfter,
      List.foldl_append]
  tryCatches := by rw [hsecond.tryCatches, hfirst.tryCatches, List.foldl_append]
  currentContext := hsecond.currentContext.trans hfirst.currentContext

theorem Effect.tryCatches_ne_nil {before after : ExceptionState} {deeds : List (Option JSValue)}
    {inner : List JSValue} (heffect : Effect before after deeds inner)
    (hbefore : before.tryCatches ≠ []) : after.tryCatches ≠ [] := by
  rw [heffect.tryCatches]
  cases hcatches : before.tryCatches with
  | nil => exact absurd hcatches hbefore
  | cons catched outer => simp [foldl_catchIn_cons]

def Invocation.Consistent (invocation : Invocation) : Prop :=
  deliver (pendingAfter invocation.started invocation.deeds) invocation.returns =
    (invocation.completion, invocation.after)

/-- A context is current wherever the operation, or the destructor of a `TryCatch`
inside it, reads it. -/
structure Operation.InContext (operation : Operation) : Prop where
  source : operation.kind = .run → operation.currentContext ≠ none
  thrown : ∀ value, operation.completion = some (.threw value) → operation.currentContext ≠ none
  destroyed : none ∉ operation.destroyed

structure Operation.Consistent (operation : Operation) : Prop where
  own : operation.own = true → operation.before ≠ []
  returned : ∀ result, operation.result = some result → operation.InContext ∧
    ∃ completion, operation.completion = some completion ∧ result = completion.result ∧
      operation.after =
        (operation.inner ++ completion.thrown.toList).foldl catchIn operation.before

def Record.Consistent : Record → Prop
  | .invocation finished => finished.Consistent
  | .operation finished => finished.Consistent

/-- Some operation reads the missing context, itself or in a destructor. -/
def Blamed (records : List Record) : Prop :=
  ∃ operation, .operation operation ∈ records ∧ ¬ operation.InContext

theorem Blamed.append_left {records : List Record} (hblamed : Blamed records)
    (later : List Record) : Blamed (records ++ later) := by
  obtain ⟨operation, hmem, hcontext⟩ := hblamed
  exact ⟨operation, List.mem_append_left _ hmem, hcontext⟩

theorem Blamed.append_right {later : List Record} (hblamed : Blamed later)
    (records : List Record) : Blamed (records ++ later) := by
  obtain ⟨operation, hmem, hcontext⟩ := hblamed
  exact ⟨operation, List.mem_append_right _ hmem, hcontext⟩

/-- The account of a run that may also stop for the cause. -/
structure Ran.Accounted {α : Type} (cause : Prop) (before : ExceptionState) (ran : Ran α) :
    Prop where
  effect : ∀ value, ran.value = some value → Effect before ran.state ran.deeds ran.inner
  destroyed : ∀ value, ran.value = some value → none ∉ ran.destroyed
  stopped : ran.value = none → cause ∨ none ∈ ran.destroyed ∨ Blamed ran.records
  consistent : ∀ record ∈ ran.records, record.Consistent
  blamed : ∀ operation, .operation operation ∈ ran.records → operation.result = none →
    Blamed ran.records

namespace Ran

variable {α β : Type} {cause : Prop} {before : ExceptionState} {ran : Ran α}

theorem accounted_idle (cause : Prop) (value : α) (state : ExceptionState) :
    (idle value state).Accounted cause state where
  effect _ _ := .refl state
  destroyed _ _ := List.not_mem_nil
  stopped hnone := nomatch hnone
  consistent _ hmem := nomatch hmem
  blamed _ hmem := nomatch hmem

theorem accounted_stopped (hcause : cause) (state : ExceptionState) :
    (stopped state : Ran α).Accounted cause state where
  effect _ hsome := nomatch hsome
  destroyed _ hsome := nomatch hsome
  stopped _ := .inl hcause
  consistent _ hmem := nomatch hmem
  blamed _ hmem := nomatch hmem

theorem andThen_of_some {rest : α → ExceptionState → Ran β} {value : α}
    (hvalue : ran.value = some value) :
    ran.andThen rest =
      { value := (rest value ran.state).value
        state := (rest value ran.state).state
        deeds := ran.deeds ++ (rest value ran.state).deeds
        inner := ran.inner ++ (rest value ran.state).inner
        destroyed := ran.destroyed ++ (rest value ran.state).destroyed
        records := ran.records ++ (rest value ran.state).records } := by
  unfold andThen
  rw [hvalue]

theorem andThen_of_none {rest : α → ExceptionState → Ran β} (hvalue : ran.value = none) :
    ran.andThen rest =
      { value := none
        state := ran.state
        deeds := ran.deeds
        inner := ran.inner
        destroyed := ran.destroyed
        records := ran.records } := by
  unfold andThen
  rw [hvalue]

/-- What goes through to the end has gone through at each stage. -/
theorem andThen_eq_some {rest : α → ExceptionState → Ran β} {result : β}
    (hresult : (ran.andThen rest).value = some result) :
    ∃ value, ran.value = some value ∧ (rest value ran.state).value = some result := by
  cases hvalue : ran.value with
  | none =>
      rw [andThen_of_none hvalue] at hresult
      cases hresult
  | some value =>
      rw [andThen_of_some hvalue] at hresult
      exact ⟨value, rfl, hresult⟩

namespace Accounted

theorem mono {other : Prop} (haccounted : ran.Accounted cause before) (himp : cause → other) :
    ran.Accounted other before where
  effect := haccounted.effect
  destroyed := haccounted.destroyed
  stopped hnone := (haccounted.stopped hnone).imp_left himp
  consistent := haccounted.consistent
  blamed := haccounted.blamed

/-- Accounts compose along a run. -/
theorem andThen {rest : α → ExceptionState → Ran β} (haccounted : ran.Accounted cause before)
    (hrest : ∀ value, ran.value = some value →
      (rest value ran.state).Accounted cause ran.state) :
    (ran.andThen rest).Accounted cause before := by
  cases hvalue : ran.value with
  | none =>
      rw [andThen_of_none hvalue]
      exact ⟨fun _ hsome => (nomatch hsome), fun _ hsome => (nomatch hsome),
        fun _ => haccounted.stopped hvalue, haccounted.consistent, haccounted.blamed⟩
  | some value =>
      have hafter := hrest value hvalue
      rw [andThen_of_some hvalue]
      refine ⟨fun result hresult => ?_, fun result hresult => ?_, fun hnone => ?_,
        fun record hmem => ?_, fun operation hmem hresult => ?_⟩
      · exact (haccounted.effect value hvalue).trans (hafter.effect result hresult)
      · exact fun hmem => (List.mem_append.mp hmem).elim (haccounted.destroyed value hvalue)
          (hafter.destroyed result hresult)
      · rcases hafter.stopped hnone with hcause | hdestroyed | hblamed
        · exact .inl hcause
        · exact .inr (.inl (List.mem_append_right _ hdestroyed))
        · exact .inr (.inr (hblamed.append_right _))
      · exact (List.mem_append.mp hmem).elim (haccounted.consistent record)
          (hafter.consistent record)
      · rcases List.mem_append.mp hmem with hmem | hmem
        · exact (haccounted.blamed operation hmem hresult).append_left _
        · exact (hafter.blamed operation hmem hresult).append_right _

end Accounted

theorem accounted_throwException (value : JSValue) (state : ExceptionState) :
    (throwException value state).Accounted cause state where
  effect _ _ := ⟨rfl, rfl, rfl⟩
  destroyed _ _ := List.not_mem_nil
  stopped hnone := nomatch hnone
  consistent _ hmem := nomatch hmem
  blamed _ hmem := nomatch hmem

theorem accounted_getException (state : ExceptionState) :
    (getException state).Accounted cause state where
  effect _ _ := ⟨rfl, rfl, rfl⟩
  destroyed _ _ := List.not_mem_nil
  stopped hnone := nomatch hnone
  consistent _ hmem := nomatch hmem
  blamed _ hmem := nomatch hmem

/-- What a `TryCatch` has caught is gone with it. -/
theorem Accounted.destroyTryCatch {inside : Ran JSValue}
    (hinside : inside.Accounted False
      { before with tryCatches := .undefined :: before.tryCatches }) :
    inside.destroyTryCatch.Accounted False before := by
  have htryCatches (value : JSValue) (hvalue : inside.value = some value) :
      inside.state.tryCatches.tail = before.tryCatches := by
    rw [(hinside.effect value hvalue).tryCatches, foldl_catchIn_cons]
    rfl
  unfold Ran.destroyTryCatch
  cases hvalue : inside.value with
  | none =>
      refine ⟨fun _ hsome => ?_, fun _ hsome => ?_, fun _ => ?_, hinside.consistent,
        hinside.blamed⟩
      · cases hsome
      · cases hsome
      · simpa using hinside.stopped hvalue
  | some value =>
      have heffect := hinside.effect value hvalue
      cases hcontext : inside.state.currentContext with
      | none =>
          refine ⟨fun _ hsome => ?_, fun _ hsome => ?_, fun _ => .inr (.inl ?_),
            hinside.consistent, hinside.blamed⟩
          · simp [hcontext] at hsome
          · simp [hcontext] at hsome
          · simp [hcontext]
      | some context =>
          refine ⟨fun _ _ => ⟨heffect.exception, htryCatches value hvalue, ?_⟩, fun _ _ => ?_,
            fun hnone => ?_, hinside.consistent, hinside.blamed⟩
          · exact heffect.currentContext
          · simpa [hcontext] using hinside.destroyed value hvalue
          · simp [hcontext] at hnone

theorem Accounted.restoreContext {inside : Ran Unit} {context : Option Nat}
    (hinside : inside.Accounted False { before with currentContext := context }) :
    (inside.restoreContext before.currentContext).Accounted False before where
  effect value hvalue :=
    ⟨(hinside.effect value hvalue).exception, (hinside.effect value hvalue).tryCatches, rfl⟩
  destroyed := hinside.destroyed
  stopped := hinside.stopped
  consistent := hinside.consistent
  blamed := hinside.blamed

end Ran

theorem deliver_undefined (returns : JSValue) :
    deliver .undefined returns = (.returned returns, .undefined) := rfl

theorem deliver_of_ne {pending : JSValue} (returns : JSValue) (hpending : pending ≠ .undefined) :
    deliver pending returns = (.threw pending, .undefined) := by
  have hdefined : pending.isUndefined = false := by simpa [JSValue.isUndefined] using hpending
  simp only [deliver, hdefined, Bool.not_false, if_true]

/-- Whatever a wrapper finds in `exception_`, it leaves undefined there. -/
theorem deliver_pending (pending returns : JSValue) : (deliver pending returns).2 = .undefined := by
  by_cases hpending : pending = .undefined
  · rw [hpending, deliver_undefined]
  · rw [deliver_of_ne returns hpending]

theorem Ran.Accounted.leaveWrapper {body : Ran JSValue} {before : ExceptionState}
    (hbody : body.Accounted False before) (wrapper : Wrapper) (this : JSValue) :
    (body.leaveWrapper wrapper this before.exception).Accounted False before := by
  unfold Ran.leaveWrapper
  cases hvalue : body.value with
  | none =>
      exact ⟨fun _ hsome => (nomatch hsome), fun _ hsome => (nomatch hsome),
        fun _ => hbody.stopped hvalue, hbody.consistent, hbody.blamed⟩
  | some value =>
      have heffect := hbody.effect value hvalue
      refine ⟨fun _ _ => ⟨deliver_pending _ _, heffect.tryCatches, heffect.currentContext⟩,
        fun _ _ => hbody.destroyed value hvalue, fun hnone => (nomatch hnone),
        fun record hmem => ?_, fun operation hmem hresult => ?_⟩
      · rcases List.mem_append.mp hmem with hmem | hmem
        · exact hbody.consistent record hmem
        · rw [List.mem_singleton.mp hmem]
          show deliver (pendingAfter before.exception body.deeds) _ = _
          rw [← heffect.exception]
      · rcases List.mem_append.mp hmem with hmem | hmem
        · exact (hbody.blamed operation hmem hresult).append_left _
        · cases List.mem_singleton.mp hmem

section Operations

variable {script report : ExceptionState → Ran Completion} {state : ExceptionState}

theorem handleException_accounted (hreport : ∀ state, (report state).Accounted False state) :
    (handleException report state).Accounted (state.currentContext = none) state := by
  unfold handleException
  cases hcontext : state.currentContext with
  | none => exact Ran.accounted_stopped rfl state
  | some context =>
      refine (Ran.accounted_getException state).andThen fun _ _ => ?_
      split
      · exact ((hreport _).mono False.elim).andThen fun _ _ => Ran.accounted_idle _ _ _
      · exact Ran.accounted_idle _ _ _

theorem processResult_accounted (hreport : ∀ state, (report state).Accounted False state)
    (completion : Completion) :
    (processResult report completion state).Accounted
      (completion.thrown ≠ none ∧ state.currentContext = none) state := by
  cases completion with
  | returned value => exact Ran.accounted_idle _ _ _
  | threw value =>
      have hhandled :
          (handleException report state).Accounted (state.currentContext = none) state :=
        handleException_accounted hreport
      exact (hhandled.mono fun hnone => ⟨Option.some_ne_none value, hnone⟩).andThen
        fun _ _ => Ran.accounted_idle _ _ _

/-- An exception goes to the innermost `TryCatch`, and what is reported was not
caught. -/
theorem processResult_eq_some (hreport : ∀ state, (report state).Accounted False state)
    {completion : Completion} {result : Option JSValue}
    (hcurrent : ∀ value, completion = .threw value → state.currentException = value)
    (hresult : (processResult report completion state).value = some result) :
    result = completion.result ∧
      (∀ value, completion = .threw value → state.currentContext ≠ none) ∧
      (processResult report completion state).state.tryCatches =
        completion.thrown.toList.foldl catchIn state.tryCatches := by
  have heffect := (processResult_accounted hreport completion).effect result hresult
  cases completion with
  | returned value =>
      cases hresult
      exact ⟨rfl, fun _ hthrew => (nomatch hthrew), rfl⟩
  | threw value =>
      have hvalue := hcurrent value rfl
      obtain ⟨_, hhandled, hempty⟩ := Ran.andThen_eq_some hresult
      cases hempty
      cases hcontext : state.currentContext with
      | none =>
          simp only [handleException, hcontext] at hhandled
          cases hhandled
      | some context =>
          refine ⟨rfl, fun _ _ => Option.some_ne_none context, ?_⟩
          cases hcatches : state.tryCatches with
          | nil => rw [heffect.tryCatches, hcatches, foldl_catchIn_nil, foldl_catchIn_nil]
          | cons catched outer =>
              simp [processResult, handleException, hcontext, hcatches, Ran.andThen,
                Ran.getException, Ran.idle, Completion.thrown, catchIn, hvalue]

theorem begin_accounted (kind : OperationKind) :
    (kind.begin state).Accounted (kind = .run ∧ state.currentContext = none) state := by
  unfold OperationKind.begin
  split
  next =>
    split
    next hcontext => exact Ran.accounted_stopped ⟨rfl, hcontext⟩ state
    next => exact Ran.accounted_idle _ _ _
  next => exact Ran.accounted_idle _ _ _
  next => exact Ran.accounted_idle _ _ _

theorem begin_eq_some {kind : OperationKind} (hbegun : (kind.begin state).value = some ()) :
    kind = .run → state.currentContext ≠ none := by
  rintro rfl hcontext
  simp only [OperationKind.begin, hcontext] at hbegun
  cases hbegun

/-- An operation that does not return has a record of who is to blame. -/
theorem operate_accounted {own : Bool} {kind : OperationKind}
    (hown : own = true → state.tryCatches ≠ [])
    (hscript : ∀ state, (script state).Accounted False state)
    (hcurrent : ∀ state value, (script state).value = some (.threw value) →
      (script state).state.currentException = value)
    (hreport : ∀ state, (report state).Accounted False state) :
    (operate own kind script report state).Accounted False state := by
  let ran := (kind.begin state).andThen fun _ begun => script begun
  let processed := ran.andThen (processResult report)
  let operation : Operation :=
    ⟨kind, own, state.currentContext, state.tryCatches, ran.inner, processed.destroyed, ran.value,
      processed.value, processed.state.tryCatches⟩
  have hran : ran.Accounted (kind = .run ∧ state.currentContext = none) state :=
    (begin_accounted kind).andThen fun _ _ => (hscript _).mono False.elim
  have hthrown (value : JSValue) (hthrew : ran.value = some (.threw value)) :
      ran.state.currentException = value := by
    obtain ⟨_, hbegun, hthrew⟩ := Ran.andThen_eq_some hthrew
    simp only [ran, Ran.andThen_of_some hbegun]
    exact hcurrent _ value hthrew
  have hprocessed : processed.Accounted (¬ operation.InContext) state := by
    refine (hran.mono ?_).andThen fun completion hcompletion =>
      (processResult_accounted hreport completion).mono ?_
    · rintro ⟨hrun, hnone⟩ hcontext
      exact hcontext.source hrun hnone
    · rintro ⟨hthrew, hnone⟩ hcontext
      cases completion with
      | returned => exact hthrew rfl
      | threw value =>
          refine hcontext.thrown value hcompletion ?_
          rw [← hnone]
          exact (hran.effect _ hcompletion).currentContext.symm
  have hblamed (hnone : processed.value = none) :
      Blamed (processed.records ++ [.operation operation]) := by
    have hlast : Record.operation operation ∈ processed.records ++ [.operation operation] :=
      List.mem_append_right _ List.mem_cons_self
    rcases hprocessed.stopped hnone with hcontext | hdestroyed | hblamed
    · exact ⟨operation, hlast, hcontext⟩
    · exact ⟨operation, hlast, fun hcontext => hcontext.destroyed hdestroyed⟩
    · exact hblamed.append_left _
  have hconsistent : operation.Consistent := by
    refine ⟨hown, fun result hresult => ?_⟩
    obtain ⟨completion, hcompletion, hlast⟩ := Ran.andThen_eq_some hresult
    obtain ⟨_, hbegun, _⟩ := Ran.andThen_eq_some hcompletion
    have heffect := hran.effect completion hcompletion
    obtain ⟨rfl, hcontext, htryCatches⟩ := processResult_eq_some hreport
      (fun value hthrew => hthrown value (hcompletion.trans (congrArg some hthrew))) hlast
    refine ⟨⟨begin_eq_some hbegun, fun value hthrew => ?_, hprocessed.destroyed _ hresult⟩,
      completion, hcompletion, rfl, ?_⟩
    · cases hcompletion.symm.trans hthrew
      show state.currentContext ≠ none
      rw [← heffect.currentContext]
      exact hcontext value rfl
    · show processed.state.tryCatches = _
      simp only [processed, Ran.andThen_of_some hcompletion]
      rw [htryCatches, heffect.tryCatches, List.foldl_append]
  refine ⟨hprocessed.effect, hprocessed.destroyed, fun hnone => .inr (.inr (hblamed hnone)),
    fun record hmem => ?_, fun other hmem hresult => ?_⟩
  · rcases List.mem_append.mp hmem with hmem | hmem
    · exact hprocessed.consistent record hmem
    · rw [List.mem_singleton.mp hmem]
      exact hconsistent
  · rcases List.mem_append.mp hmem with hmem | hmem
    · exact (hprocessed.blamed other hmem hresult).append_left _
    · cases List.mem_singleton.mp hmem
      exact hblamed hresult

end Operations

/-- The exception of a script is the one `JS_GetException` finds. -/
theorem runScript_currentException {script : Script} {state : ExceptionState} {value : JSValue}
    (hthrew : (runScript script state).value = some (.threw value)) :
    (runScript script state).state.currentException = value := by
  match script with
  | .complete completion =>
      cases hthrew
      rfl
  | .invoke wrapper this body rest =>
      simp only [runScript] at hthrew ⊢
      obtain ⟨completion, hleft, hthrew⟩ := Ran.andThen_eq_some hthrew
      rw [Ran.andThen_of_some hleft]
      exact runScript_currentException hthrew

mutual

/-- The account of native code, by recursion on the code. -/
theorem runNative_accounted (own : Bool) (native : Native) (state : ExceptionState)
    (hown : own = true → state.tryCatches ≠ []) :
    (runNative own native state).Accounted False state := by
  match native with
  | .ret value => exact Ran.accounted_idle False value state
  | .throwException value rest =>
      exact (Ran.accounted_throwException value state).andThen fun _ _ =>
        runNative_accounted own rest _ hown
  | .operate kind script report rest =>
      have hoperated : (operate own kind (fun begun => runScript script begun)
          (fun handled => runScript report handled) state).Accounted False state :=
        operate_accounted hown (fun begun => runScript_accounted script begun)
          (fun _ _ hthrew => runScript_currentException hthrew)
          (fun handled => runScript_accounted report handled)
      exact hoperated.andThen fun result hresult => runNative_accounted own (rest result) _
        fun h => (hoperated.effect result hresult).tryCatches_ne_nil (hown h)
  | .tryCatch body rest =>
      let opened := { state with tryCatches := .undefined :: state.tryCatches }
      have hclosed : (runNative true body opened).destroyTryCatch.Accounted False state :=
        (runNative_accounted true body opened (by simp [opened])).destroyTryCatch
      exact hclosed.andThen fun catched hcatched => runNative_accounted own (rest catched) _
        fun h => (hclosed.effect catched hcatched).tryCatches_ne_nil (hown h)
  | .contextScope context body jobs rest =>
      let entered := { state with currentContext := some context }
      have hinside : (runNative own body entered).Accounted False entered :=
        runNative_accounted own body entered hown
      have hdrained : ((runNative own body entered).andThen fun _ closing =>
          if some context ≠ state.currentContext then runJobs jobs closing
          else .idle () closing).Accounted False entered :=
        hinside.andThen fun _ _ => by
          split
          · exact runJobs_accounted jobs _
          · exact Ran.accounted_idle _ _ _
      have hclosed := hdrained.restoreContext
      exact hclosed.andThen fun _ hvalue => runNative_accounted own rest _
        fun h => (hclosed.effect _ hvalue).tryCatches_ne_nil (hown h)

theorem runScript_accounted (script : Script) (state : ExceptionState) :
    (runScript script state).Accounted False state := by
  match script with
  | .complete completion =>
      refine ⟨fun _ _ => ?_, fun _ _ => List.not_mem_nil, fun hnone => (nomatch hnone),
        fun _ hmem => (nomatch hmem), fun _ hmem => (nomatch hmem)⟩
      cases completion <;> exact ⟨rfl, rfl, rfl⟩
  | .invoke wrapper this body rest =>
      have hbody : (runNative false body state).Accounted False state :=
        runNative_accounted false body state fun h => absurd h Bool.false_ne_true
      exact (hbody.leaveWrapper wrapper this).andThen fun completion _ =>
        runScript_accounted (rest completion) _

theorem runJobs_accounted (jobs : Jobs) (state : ExceptionState) :
    (runJobs jobs state).Accounted False state := by
  match jobs with
  | .done => exact Ran.accounted_idle _ _ _
  | .execute job rest =>
      exact (runScript_accounted job state).andThen fun completion _ =>
        runJobs_accounted (rest completion) _

end

end QuickjsBackend
