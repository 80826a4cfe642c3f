import QuickjsBackend.Handle.Lifetime
import QuickjsBackend.Template.Stored

/-! # The data of templates

A template keeps the raw value of its data and takes no reference. What it reads
there later is live exactly as long as nobody else drops the last reference to
it. The data that a function has been made with are its own, and are live
whenever its callback runs.
-/

namespace QuickjsBackend

open Foundation

namespace Templates

variable (templates : Templates)

/-- The value whose reference the action releases. -/
def released : TemplateAction → Option JSValue
  | .template (.freeFuncData index) =>
      (templates.functions[index]?).bind fun function => function.funcData.head?
  | .template (.freeCached id) =>
      (templates.template id).bind fun template => template.contextToFunction.head?.map Prod.snd
  | .template _ => none
  | .isolate action => templates.isolate.released action

/-- The action drops the last reference to the cell, or collects it. -/
def Frees : TemplateAction → Ptr → Prop
  | .isolate action, ptr => templates.isolate.Frees action ptr
  | .template op, ptr =>
      ∃ value, templates.released (.template op) = some value ∧
        templates.isolate.runtime.LastReference value ptr

/-- The action frees nothing that a template keeps. -/
def KeepsStored (action : TemplateAction) : Prop :=
  ∀ kind ptr, templates.Stores (.ref kind ptr) → ¬ templates.Frees action ptr

variable {templates} {next : Templates} {action : TemplateAction} {ptr : Ptr} {fault : Fault}

variable (templates action next) in
/-- What a step leads to. -/
structure Effect : Prop where
  handled : next.Handled
  live : ∀ ptr, templates.isolate.runtime.cell ptr = .live →
    (next.isolate.runtime.cell ptr = .live ↔ ¬ templates.Frees action ptr)
  stored : ∀ value, next.Stores value →
    templates.Stores value ∨ next.isolate.runtime.Live value
  kept : (∃ ptr, templates.Frees action ptr) → ∀ value, templates.Stores value → next.Stores value

theorem Extends.effect (hextends : templates.Extends next)
    (hfrees : ∀ ptr, ¬ templates.Frees action ptr) : templates.Effect next action where
  handled := hextends.handled
  live ptr hlive := iff_of_true (hextends.live ptr hlive) (hfrees ptr)
  stored := hextends.stored
  kept := fun ⟨ptr, hptr⟩ => absurd hptr (hfrees ptr)

/-- A release of one value leaves the data of the templates in place. -/
theorem effect_release {value : JSValue} {op : TemplateOp} (hhandled : next.Handled)
    (hrt : next.isolate.runtime = templates.isolate.runtime.freeValueRT value)
    (hstores : ∀ other, next.Stores other ↔ templates.Stores other)
    (hreleased : templates.released (.template op) = some value) :
    templates.Effect next (.template op) where
  handled := hhandled
  live ptr hlive := by
    have hfrees : templates.Frees (.template op) ptr ↔
        templates.isolate.runtime.LastReference value ptr := by
      simp only [Frees, hreleased, Option.some.injEq, exists_eq_left']
    rw [hfrees, hrt]
    exact Runtime.freeValueRT_live_iff value hlive
  stored other hother := Or.inl ((hstores other).mp hother)
  kept _ other hother := (hstores other).mpr hother

theorem effect_freeFuncData (hhandled : templates.Handled) {index : Nat}
    (hstep : templates.freeFuncData index = .ok next) :
    templates.Effect next (.template (.freeFuncData index)) := by
  unfold freeFuncData at hstep
  split at hstep
  next => cases hstep
  next function hfunction =>
    split at hstep
    next =>
      split at hstep
      next => cases hstep
      next value rest hdata =>
        cases hstep
        have hreleased : templates.released (.template (.freeFuncData index)) = some value := by
          simp [released, hfunction, hdata]
        refine effect_release (hhandled.release rfl ?_) rfl (fun _ => Iff.rfl) hreleased
        obtain ⟨hlt, _⟩ := List.getElem?_eq_some_iff.mp hfunction
        have hset : span functionRefs ⟨0, []⟩ (templates.functions.set index
            { function with funcData := rest }) 0 templates.functions.length +
              functionRefs (templates.functions.getD index ⟨0, []⟩) = _ :=
          span_set (Nat.zero_le index) hlt hlt
        rw [List.getD_eq_getElem?_getD, hfunction, Option.getD_some] at hset
        simp only [functionRefs, hdata, totalRefs_cons] at hset
        intro ptr
        have hsetAt := congrFun hset ptr
        simp only [kept, release, List.length_set, Pi.add_apply] at hsetAt ⊢
        omega
    next => cases hstep

theorem effect_freeCached (hhandled : templates.Handled) {id : Nat}
    (hstep : templates.freeCached id = .ok next) :
    templates.Effect next (.template (.freeCached id)) := by
  unfold freeCached at hstep
  split at hstep
  next => cases hstep
  next template htemplate =>
    split at hstep
    next => cases hstep
    next context func rest hcache =>
      cases hstep
      have hreleased : templates.released (.template (.freeCached id)) = some func := by
        simp [released, htemplate, hcache]
      refine effect_release (hhandled.release rfl ?_) rfl (fun other => ?_) hreleased
      · have hset : ((templates.release func).setTemplate id
            (some { template with contextToFunction := rest })).kept +
              templateRefs (templates.template id) = templates.kept + cacheRefs rest :=
          kept_setTemplate _ (lt_length_of_template htemplate)
        rw [htemplate, templateRefs, hcache] at hset
        intro ptr
        have hsetAt := congrFun hset ptr
        simp only [cacheRefs, List.map_cons, List.sum_cons, Pi.add_apply] at hsetAt
        show _ + func.refs ptr ≤ templates.kept ptr
        omega
      · constructor
        · intro hother
          rcases stores_setTemplate hother with hsame | ⟨_, ⟨⟩, hmem⟩
          · exact hsame
          · exact ⟨id, template, htemplate, hmem⟩
        · rintro ⟨found, entry, hentry, hmem⟩
          by_cases heq : id = found
          · subst found
            rw [htemplate, Option.some.injEq] at hentry
            subst entry
            exact ⟨id, { template with contextToFunction := rest },
              getD_set_self (lt_length_of_template htemplate), hmem⟩
          · exact ⟨found, entry, (getD_set_of_ne heq).trans hentry, hmem⟩

/-- Every operation on templates but the two releases is sound. -/
theorem sound_or_release (hhandled : templates.Handled) (hstored : templates.StoredLive)
    (op : TemplateOp) : templates.Sound (templates.templateStep op) ∧
      templates.released (.template op) = none ∨
        (∃ index, op = .freeFuncData index) ∨ ∃ id, op = .freeCached id := by
  cases op with
  | newFunctionTemplate callback data =>
      exact Or.inl ⟨sound_newFunctionTemplate hhandled callback data, rfl⟩
  | declare id declaration => exact Or.inl ⟨sound_declare hhandled id declaration, rfl⟩
  | setAccessor id part name getter setter data attributes =>
      refine Or.inl ⟨?_, rfl⟩
      simp only [templateStep]
      cases htemplate : templates.template id with
      | none => exact sound_misuse
      | some template => exact sound_setAccessor hhandled htemplate _ _ _ _ _ _
  | getFunction id context ptr => exact Or.inl ⟨sound_getFunction hhandled hstored _ _ _, rfl⟩
  | resume name ptr setter => exact Or.inl ⟨sound_resume hhandled hstored _ _ _, rfl⟩
  | callbackData index => exact Or.inl ⟨sound_callbackData hhandled index, rfl⟩
  | freeFuncData index => exact Or.inr (Or.inl ⟨index, rfl⟩)
  | freeCached id => exact Or.inr (Or.inr ⟨id, rfl⟩)
  | destroy id => exact Or.inl ⟨sound_destroy hhandled id, rfl⟩

theorem effect_of_step (hhandled : templates.Handled) (hstored : templates.StoredLive)
    (hstep : templates.step action = .ok next) : templates.Effect next action := by
  cases action with
  | template op =>
      rcases sound_or_release hhandled hstored op with
        ⟨hsound, hreleased⟩ | ⟨index, rfl⟩ | ⟨id, rfl⟩
      · refine (hsound.extends_ok next hstep).effect fun ptr => ?_
        rintro ⟨value, hvalue, _⟩
        rw [hreleased] at hvalue
        cases hvalue
      · exact effect_freeFuncData hhandled hstep
      · exact effect_freeCached hhandled hstep
  | isolate action =>
      simp only [Templates.step] at hstep
      cases hisolate : templates.isolate.step action with
      | error fault => simp [hisolate, Except.map] at hstep
      | ok isolate =>
          simp only [hisolate, Except.map, Except.ok.injEq] at hstep
          subst next
          have hnext := Isolate.transition_of_step hisolate
          exact ⟨hhandled.isolateStep hnext, fun ptr hlive => Isolate.live_next_iff hnext hlive,
            fun value hvalue => Or.inl hvalue, fun _ value hvalue => hvalue⟩

theorem step_ne_useAfterFree (hhandled : templates.Handled) (hstored : templates.StoredLive)
    (action : TemplateAction) : templates.step action ≠ .error .useAfterFree := by
  intro hstep
  cases action with
  | template op =>
      rcases sound_or_release hhandled hstored op with
        ⟨hsound, _⟩ | ⟨index, rfl⟩ | ⟨id, rfl⟩
      · exact hsound.noUse hstep
      · simp only [Templates.step, templateStep, freeFuncData] at hstep
        repeat' split at hstep
        all_goals cases hstep
      · simp only [Templates.step, templateStep, freeCached] at hstep
        repeat' split at hstep
        all_goals cases hstep
  | isolate action =>
      simp only [Templates.step] at hstep
      cases hisolate : templates.isolate.step action with
      | ok isolate => simp [hisolate, Except.map] at hstep
      | error fault =>
          simp only [hisolate, Except.map, Except.error.injEq] at hstep
          subst fault
          rcases Isolate.fault_of_step hisolate with hcase | hcase <;> cases hcase

/-- A step that would free a cell is refused only where the rules were broken. -/
theorem misuse_of_frees (hfrees : templates.Frees action ptr)
    (hstep : templates.step action = .error fault) : fault = .misuse := by
  cases action with
  | template op =>
      obtain ⟨value, hreleased, _⟩ := hfrees
      cases op with
      | freeFuncData index =>
          simp only [Templates.step, templateStep, freeFuncData] at hstep
          repeat' split at hstep
          all_goals first | exact (Except.error.inj hstep).symm | cases hstep
      | freeCached id =>
          simp only [Templates.step, templateStep, freeCached] at hstep
          repeat' split at hstep
          all_goals first | exact (Except.error.inj hstep).symm | cases hstep
      | _ => cases hreleased
  | isolate action =>
      simp only [Templates.step] at hstep
      cases hisolate : templates.isolate.step action with
      | ok isolate => simp [hisolate, Except.map] at hstep
      | error other =>
          simp only [hisolate, Except.map, Except.error.injEq] at hstep
          subst other
          exact Isolate.misuse_of_frees hfrees hisolate

/-- Whatever the step reads of a template or a function is live. -/
def ReadsLive (_ : Templates) (_ : TemplateAction) (outcome : Except Fault Templates) : Prop :=
  outcome ≠ .error .useAfterFree

/-- What templates keep is live after the step, whoever comes to read it. -/
def StaysLive (_ : Templates) (_ : TemplateAction) (outcome : Except Fault Templates) : Prop :=
  ∀ next, outcome = .ok next → next.StoredLive

theorem keepsData_iff (hhandled : templates.Handled) (hstored : templates.StoredLive)
    (hmisuse : templates.step action ≠ .error .misuse) :
    templates.ReadsLive action (templates.step action) ∧
        templates.StaysLive action (templates.step action) ↔ templates.KeepsStored action := by
  constructor
  · rintro ⟨_, hnextStored⟩ kind ptr hvalue hfrees
    cases hstep : templates.step action with
    | error fault =>
        rw [misuse_of_frees hfrees hstep] at hstep
        exact hmisuse hstep
    | ok next =>
        have heffect := effect_of_step hhandled hstored hstep
        have hlive := hstored _ hvalue kind ptr rfl
        have hnext := hnextStored next hstep _ (heffect.kept ⟨ptr, hfrees⟩ _ hvalue) kind ptr rfl
        exact (heffect.live ptr hlive).mp hnext hfrees
  · intro hkeeps
    refine ⟨step_ne_useAfterFree hhandled hstored action, fun next hstep value hvalue => ?_⟩
    have heffect := effect_of_step hhandled hstored hstep
    rcases heffect.stored value hvalue with hold | hnew
    · rintro kind ptr rfl
      exact (heffect.live ptr (hstored _ hold kind ptr rfl)).mpr (hkeeps kind ptr hold)
    · exact hnew

/-- In every run that keeps to the rules, no reading of what templates keep meets a freed
cell as long as no step drops the last reference to such a value or collects it. A step
that does leaves dead data behind. -/
theorem keepsData_iff_keepsStored {actions : List TemplateAction}
    (hrules : Templates.step.Always (fun _ _ outcome => outcome ≠ .error .misuse)
      Templates.new actions) :
    Templates.step.Always ReadsLive Templates.new actions ∧
        Templates.step.Always StaysLive Templates.new actions ↔
      Templates.step.Always (fun templates action _ => templates.KeepsStored action)
        Templates.new actions := by
  rw [Templates.step.always_and_iff]
  refine Templates.step.always_iff_within
    (fun templates => templates.Handled ∧ templates.StoredLive) ?_ ?_ ⟨handled_new, ?_⟩ hrules
  · rintro templates action ⟨hhandled, hstored⟩ hmisuse
    exact keepsData_iff hhandled hstored hmisuse
  · rintro templates action next ⟨hhandled, hstored⟩ hkeeps hmisuse hstep
    have hdata := (keepsData_iff hhandled hstored (hstep ▸ hmisuse)).mpr hkeeps
    exact ⟨(effect_of_step hhandled hstored hstep).handled, hdata.2 next hstep⟩
  · rintro value ⟨id, template, htemplate, _⟩
    simp [Templates.new, Templates.template] at htemplate

/-- A template is made with an object as its data, and asked for its function in
the same scope, whose callback reads the data. -/
def openScopeRun : List TemplateAction :=
  [.isolate (.handle (.openScope false)), .isolate (.handle .alloc),
    .isolate (.handle (.store (.ref .object 0))),
    .template (.newFunctionTemplate 7 (some (.slot 0))), .template (.getFunction 0 0 1),
    .template (.resume 2 3 4), .template (.callbackData 0)]

theorem keepsData_iff_keepsStored_openScope :
    Templates.step.Always ReadsLive Templates.new openScopeRun ∧
        Templates.step.Always StaysLive Templates.new openScopeRun ↔
      Templates.step.Always (fun templates action _ => templates.KeepsStored action)
        Templates.new openScopeRun :=
  keepsData_iff_keepsStored (Templates.step.always_ne_error_of_run .misuse rfl)

/-- A template is made with an object as its data, and the scope of the handle
closes. -/
def closedScopeRun : List TemplateAction :=
  [.isolate (.handle (.openScope false)), .isolate (.handle .alloc),
    .isolate (.handle (.store (.ref .object 0))),
    .template (.newFunctionTemplate 7 (some (.slot 0))),
    .isolate (.handle .beginExit), .isolate (.handle .releaseSlot)]

/-- `GetFunction` then reads freed data. -/
theorem data_freed_with_scope :
    ¬ Templates.step.Always ReadsLive Templates.new
      (closedScopeRun ++ [.template (.getFunction 0 0 1)]) := by
  intro hdata
  have hlast := Templates.step.always_iff_forall_reached.mp hdata closedScopeRun
    (.template (.getFunction 0 0 1)) [] _ rfl rfl
  exact hlast rfl

end Templates

end QuickjsBackend
