import QuickjsBackend.Template.Contexts

/-! # The cache of a template

What a step does to the caches, and to the calls in progress that will add to
them. Only the return of a call adds an entry, and only the destructor of a
template takes one away.
-/

namespace QuickjsBackend

open Foundation

/-- What a call in progress was asked for, and the function it has made. -/
def Activation.core (activation : Activation) : Nat × Nat × JSValue :=
  (activation.template, activation.context, activation.func)

namespace Templates

variable (templates : Templates)

def inProgress : List (Nat × Nat × JSValue) := templates.activations.map Activation.core

/-- No cache has two entries for one address. -/
def UniqueKeys : Prop :=
  ∀ id template, templates.template id = some template →
    (template.contextToFunction.map Prod.fst).Nodup

variable {templates} {next : Templates} {action : TemplateAction} {id context : Nat}

theorem cached_congr {other : Templates} (htable : other.table = templates.table) :
    other.cached = templates.cached := by
  funext id context
  simp only [cached, template, htable]

theorem uniqueKeys_congr {other : Templates} (htable : other.table = templates.table)
    (hunique : templates.UniqueKeys) : other.UniqueKeys := by
  intro id template htemplate
  refine hunique id template ?_
  rw [Templates.template, ← htable]
  exact htemplate

theorem cached_setTemplate {entry : Option FunctionTemplate} {template : FunctionTemplate}
    (htemplate : templates.template id = some template) (other context : Nat) :
    (templates.setTemplate id entry).cached other context =
      if other = id then entry.bind fun template => template.contextToFunction.lookup context
      else templates.cached other context := by
  unfold cached setTemplate Templates.template
  by_cases heq : other = id
  · subst other
    rw [if_pos rfl, getD_set_self (lt_length_of_template htemplate)]
  · rw [if_neg heq, getD_set_of_ne (fun h => heq h.symm)]

/-- A template is exchanged for one with the same cache. -/
theorem cached_setTemplate_of_eq {template changed : FunctionTemplate}
    (htemplate : templates.template id = some template)
    (hcache : changed.contextToFunction = template.contextToFunction) :
    (templates.setTemplate id (some changed)).cached = templates.cached := by
  funext other context
  rw [cached_setTemplate htemplate]
  by_cases heq : other = id
  · rw [if_pos heq, Option.bind_some, hcache, heq, cached, htemplate, Option.bind_some]
  · rw [if_neg heq]

theorem cached_newTemplate {template : FunctionTemplate}
    (hempty : template.contextToFunction = []) :
    cached { templates with table := templates.table ++ [some template] } = templates.cached := by
  funext id context
  unfold cached Templates.template
  by_cases hlt : id < templates.table.length
  · simp only [List.getD_append _ _ _ _ hlt]
  · have hold : templates.table.getD id none = none :=
      List.getD_eq_default _ _ (Nat.le_of_not_lt hlt)
    rw [hold, Option.bind_none]
    cases hnew : (templates.table ++ [some template]).getD id none with
    | none => rfl
    | some found =>
        rcases getD_concat_cases hnew with ⟨_, heq⟩ | hbefore
        · rw [Option.bind_some, ← Option.some.inj heq, hempty, List.lookup_nil]
        · rw [hold] at hbefore
          cases hbefore

theorem uniqueKeys_setTemplate {entry : Option FunctionTemplate} (hunique : templates.UniqueKeys)
    (hentry : ∀ template, entry = some template → (template.contextToFunction.map Prod.fst).Nodup) :
    (templates.setTemplate id entry).UniqueKeys := by
  intro other template htemplate
  rcases getD_set_cases htemplate with ⟨_, hwritten⟩ | hbefore
  · exact hentry template hwritten
  · exact hunique other template hbefore

theorem newAccessorFunction_table {ptr : Ptr} {funcData : Option (List JSValue)}
    (hstep : templates.newAccessorFunction ptr funcData = .ok next) :
    next.table = templates.table ∧ next.activations = templates.activations := by
  cases funcData with
  | none =>
      cases hstep
      exact ⟨rfl, rfl⟩
  | some values =>
      obtain ⟨_, _, rfl⟩ := newCFunctionData_ok hstep
      exact ⟨rfl, rfl⟩

theorem Calls.inProgress_eq {base : Templates} {ptr : Ptr}
    (hcalls : templates.Calls action base id context ptr) :
    base.inProgress = templates.inProgress := by
  cases hcalls with
  | direct => rfl
  | nested name ptr setter activation id todo rest hactivations htodo =>
      simp only [inProgress, afterTask, hactivations, List.map_cons, Activation.core]

theorem Calls.destroys_eq {base : Templates} {ptr : Ptr}
    (hcalls : templates.Calls action base id context ptr) : action.destroys = none := by
  cases hcalls <;> rfl

variable (templates action next) in
/-- A step as the caches see it. -/
inductive CacheEffect : Prop
  | quiet (hcall : templates.call action = none) (hfinishing : templates.finishing action = none)
      (hdestroys : action.destroys = none) (hcached : next.cached = templates.cached)
      (hopen : next.inProgress = templates.inProgress)
  | hit (id context : Nat) (ptr : Ptr) (func : JSValue)
      (hcall : templates.call action = some (id, context, ptr))
      (hfinishing : templates.finishing action = none) (hdestroys : action.destroys = none)
      (hfound : templates.cached id context = some func) (hcached : next.cached = templates.cached)
      (hopen : next.inProgress = templates.inProgress)
  | begin (id context : Nat) (ptr : Ptr) (hcall : templates.call action = some (id, context, ptr))
      (hfinishing : templates.finishing action = none) (hdestroys : action.destroys = none)
      (hmissed : templates.cached id context = none)
      (hunused : templates.isolate.runtime.cell ptr = .unused)
      (hcached : next.cached = templates.cached)
      (hopen : next.inProgress = (id, context, .ref .object ptr) :: templates.inProgress)
  | finish (activation : Activation) (hcall : templates.call action = none)
      (hfinishing : templates.finishing action = some activation)
      (hdestroys : action.destroys = none)
      (hcached : ∀ id context, next.cached id context =
        if id = activation.template ∧ context = activation.context then some activation.func
        else templates.cached id context)
      (hopen : templates.inProgress = activation.core :: next.inProgress)
  | release (id context : Nat) (func : JSValue) (hcall : templates.call action = none)
      (hfinishing : templates.finishing action = none) (hdestroys : action.destroys = some id)
      (hfound : templates.cached id context = some func)
      (hcached : ∀ other address, next.cached other address =
        if other = id ∧ address = context then none else templates.cached other address)
      (hopen : next.inProgress = templates.inProgress)
  | destroy (id : Nat) (hcall : templates.call action = none)
      (hfinishing : templates.finishing action = none) (hdestroys : action.destroys = some id)
      (hcached : next.cached = templates.cached)
      (hopen : next.inProgress = templates.inProgress)

theorem cacheEffect_of_transition (hunique : templates.UniqueKeys)
    (hnext : templates.Transition action next) : templates.CacheEffect next action := by
  cases hnext with
  | newFunctionTemplate callback data value =>
      exact .quiet rfl rfl rfl (cached_newTemplate rfl) rfl
  | declare id declaration template htemplate =>
      exact .quiet rfl rfl rfl (cached_setTemplate_of_eq htemplate (template.declare_cache _)) rfl
  | setAccessor id part name getter setter data attributes template value htemplate =>
      exact .quiet rfl rfl rfl
        (cached_setTemplate_of_eq htemplate (template.onObject_cache _ _)) rfl
  | hit action base id context ptr func hcalls hcached hlive =>
      refine .hit id context ptr func hcalls.call_eq hcalls.finishing_eq hcalls.destroys_eq hcached
        (cached_congr ?_) hcalls.inProgress_eq
      rw [hcalls.base_eq]
  | begin action base id context ptr template hcalls htemplate hlookup hunused hlive =>
      have hmissed : templates.cached id context = none := by
        rw [cached, htemplate, Option.bind_some, hlookup]
      refine .begin id context ptr hcalls.call_eq hcalls.finishing_eq hcalls.destroys_eq hmissed
        hunused (cached_congr ?_) ?_
      · rw [hcalls.base_eq]
        rfl
      · rw [← hcalls.inProgress_eq]
        rfl
  | finish name ptr setter activation rest template hactivations htodo htemplate hlive =>
      refine .finish activation ?_ ?_ rfl (fun id context => ?_) ?_
      · simp only [call, hactivations, htodo]
      · simp only [finishing, hactivations, htodo, if_true]
      · refine (cached_setTemplate htemplate id context).trans ?_
        rw [Option.bind_some, lookup_assign]
        by_cases hid : id = activation.template
        · subst hid
          simp only [if_true, true_and, cached, htemplate, Option.bind_some]
        · simp only [hid, if_false, false_and]
      · simp only [inProgress, hactivations, List.map_cons]
  | initAccessor name ptr setter activation accessor todo rest info after next hactivations htodo
      hunused hgetter hsetter =>
      obtain ⟨hafterTable, hafterOpen⟩ := newAccessorFunction_table hgetter
      obtain ⟨hnextTable, hnextOpen⟩ := newAccessorFunction_table hsetter
      refine .quiet ?_ ?_ rfl (cached_congr (hnextTable.trans hafterTable)) ?_
      · simp only [call, hactivations, htodo]
      · simp [finishing, hactivations, htodo]
      · rw [inProgress, hnextOpen, hafterOpen]
        simp only [withName, afterTask, inProgress, hactivations, List.map_cons, Activation.core]
  | callbackData index => exact .quiet rfl rfl rfl rfl rfl
  | freeFuncData index function value rest hfunction hfreed hdata =>
      exact .quiet rfl rfl rfl rfl rfl
  | freeCached id template context func rest htemplate hcache =>
      have hnodup := hunique id template htemplate
      rw [hcache, List.map_cons, List.nodup_cons] at hnodup
      have hrest : rest.lookup context = none := by
        rw [List.lookup_eq_none_iff]
        intro entry hmem
        have hne : context ≠ entry.1 := by
          rintro rfl
          exact hnodup.1 (List.mem_map.mpr ⟨entry, hmem, rfl⟩)
        simpa using hne
      have hlookup : ∀ address, template.contextToFunction.lookup address =
          if address = context then some func else rest.lookup address := by
        intro address
        rw [hcache, lookup_cons_eq_ite]
      refine .release id context func rfl rfl rfl ?_ (fun other address => ?_) rfl
      · rw [cached, htemplate, Option.bind_some, hlookup, if_pos rfl]
      · refine (cached_setTemplate htemplate other address).trans ?_
        rw [Option.bind_some]
        by_cases hother : other = id
        · subst other
          simp only [if_true, true_and, cached, htemplate, Option.bind_some, hlookup]
          by_cases haddress : address = context
          · rw [if_pos haddress, haddress, hrest]
          · rw [if_neg haddress, if_neg haddress]
        · simp only [hother, if_false, false_and]
  | destroy id template htemplate hcache =>
      refine .destroy id rfl rfl rfl ?_ rfl
      funext other address
      rw [cached_setTemplate htemplate]
      by_cases hother : other = id
      · rw [if_pos hother, Option.bind_none, hother, cached, htemplate, Option.bind_some, hcache,
          List.lookup_nil]
      · rw [if_neg hother]
  | isolate action isolate hstep => exact .quiet rfl rfl rfl rfl rfl

/-- Entries are added under new keys only. -/
theorem UniqueKeys.transition (hunique : templates.UniqueKeys)
    (hnext : templates.Transition action next)
    (hfinish : ∀ activation, templates.finishing action = some activation →
      templates.cached activation.template activation.context = none) : next.UniqueKeys := by
  cases hnext with
  | newFunctionTemplate callback data value =>
      intro id template htemplate
      rcases getD_concat_cases htemplate with ⟨_, ⟨⟩⟩ | hbefore
      · exact List.nodup_nil
      · exact hunique id template hbefore
  | declare id declaration template htemplate =>
      refine uniqueKeys_setTemplate hunique ?_
      rintro _ ⟨⟩
      rw [template.declare_cache]
      exact hunique id template htemplate
  | setAccessor id part name getter setter data attributes template value htemplate =>
      refine uniqueKeys_setTemplate hunique ?_
      rintro _ ⟨⟩
      rw [template.onObject_cache]
      exact hunique id template htemplate
  | hit action base id context ptr func hcalls hcached hlive =>
      refine uniqueKeys_congr ?_ hunique
      rw [hcalls.base_eq]
  | begin action base id context ptr template hcalls htemplate hlookup hunused hlive =>
      refine uniqueKeys_congr ?_ hunique
      rw [hcalls.base_eq]
      rfl
  | finish name ptr setter activation rest template hactivations htodo htemplate hlive =>
      have hnone := hfinish activation (by simp only [finishing, hactivations, htodo, if_true])
      rw [cached, htemplate, Option.bind_some] at hnone
      have hset : (templates.setTemplate activation.template (some { template with
          contextToFunction :=
            assign activation.context activation.func
              template.contextToFunction })).UniqueKeys := by
        refine uniqueKeys_setTemplate hunique ?_
        rintro _ ⟨⟩
        exact nodup_keys_assign (hunique _ template htemplate) hnone
      exact uniqueKeys_congr rfl hset
  | initAccessor name ptr setter activation accessor todo rest info after next hactivations htodo
      hunused hgetter hsetter =>
      exact uniqueKeys_congr ((newAccessorFunction_table hsetter).1.trans
        (newAccessorFunction_table hgetter).1) hunique
  | callbackData index => exact hunique
  | freeFuncData index => exact hunique
  | freeCached id template context func rest htemplate hcache =>
      have hnodup := hunique id template htemplate
      rw [hcache, List.map_cons, List.nodup_cons] at hnodup
      have hset : (templates.setTemplate id
          (some { template with contextToFunction := rest })).UniqueKeys := by
        refine uniqueKeys_setTemplate hunique ?_
        rintro _ ⟨⟩
        exact hnodup.2
      exact uniqueKeys_congr rfl hset
  | destroy id =>
      refine uniqueKeys_setTemplate hunique ?_
      rintro _ ⟨⟩
  | isolate => exact hunique

theorem newAccessorFunction_spare {ptr : Ptr} {funcData : Option (List JSValue)}
    (hstep : templates.newAccessorFunction ptr funcData = .ok next) :
    next.spare = templates.spare := by
  cases funcData with
  | none =>
      cases hstep
      rfl
  | some values =>
      obtain ⟨_, _, rfl⟩ := newCFunctionData_ok hstep
      exact spare_withFunction ptr values

theorem cacheRefs_assign {func : JSValue} {cache : List (Nat × JSValue)}
    (hnone : cache.lookup context = none) :
    cacheRefs (assign context func cache) = func.refs + cacheRefs cache :=
  ((assign_perm_cons hnone).map _).sum_eq

/-- The return of a call hands the reference to its function over to the cache. -/
theorem kept_finish {activation : Activation} {rest : List Activation} {template : FunctionTemplate}
    (hactivations : templates.activations = activation :: rest)
    (htemplate : templates.template activation.template = some template)
    (hnone : template.contextToFunction.lookup activation.context = none) :
    kept { templates.setTemplate activation.template (some { template with
        contextToFunction :=
          assign activation.context activation.func template.contextToFunction }) with
      activations := rest } = templates.kept := by
  have hset := kept_setTemplate (some { template with
    contextToFunction :=
      assign activation.context activation.func template.contextToFunction })
    (lt_length_of_template htemplate)
  rw [htemplate] at hset
  simp only [templateRefs, cacheRefs_assign hnone] at hset
  funext ptr
  have hat := congrFun hset ptr
  simp only [kept, setTemplate, hactivations, List.map_cons, totalRefs_cons, Pi.add_apply] at hat ⊢
  omega

/-- Steps on templates take and give back what functions, caches and calls come to own or
own no longer, unless a function is cached over another. -/
theorem spare_transition (horder : templates.isolate.InOrder)
    (hnext : templates.Transition action next) (hop : ∀ op, action ≠ .isolate op)
    (hfinish : ∀ activation, templates.finishing action = some activation →
      templates.cached activation.template activation.context = none) :
    next.spare = templates.spare := by
  cases hnext with
  | newFunctionTemplate callback data value => exact spare_of_kept rfl (kept_newTemplate rfl)
  | declare id declaration template htemplate =>
      exact spare_setTemplate htemplate (template.declare_cache _)
  | setAccessor id part name getter setter data attributes template value htemplate =>
      exact spare_setTemplate htemplate (template.onObject_cache _ _)
  | hit action base id context ptr func hcalls =>
      have hcopy : spare { base with isolate := base.isolate.copyToSlot func } = base.spare :=
        spare_copyToSlot (hcalls.isolate_eq ▸ horder) func
      rw [← hcalls.isolate_eq, hcopy]
      exact spare_of_kept hcalls.isolate_eq hcalls.kept_eq
  | begin action base id context ptr template hcalls =>
      rw [spare_begin, spare_withFunction]
      exact spare_of_kept hcalls.isolate_eq hcalls.kept_eq
  | finish name ptr setter activation rest template hactivations htodo htemplate =>
      have hnone := hfinish activation (by simp only [finishing, hactivations, htodo, if_true])
      rw [cached, htemplate, Option.bind_some] at hnone
      rw [← spare_copyToSlot horder activation.func]
      exact spare_of_kept rfl (kept_finish hactivations htemplate hnone)
  | initAccessor name ptr setter activation accessor todo rest info after next hactivations htodo
      hunused hgetter hsetter =>
      rw [newAccessorFunction_spare hsetter, newAccessorFunction_spare hgetter,
        spare_withName
          (show (templates.afterTask activation todo rest).isolate.InOrder from horder)]
      exact spare_of_kept rfl (kept_afterTask hactivations)
  | callbackData => rfl
  | freeFuncData index function value rest hfunction hfreed hdata =>
      refine spare_release rfl ?_
      obtain ⟨hlt, _⟩ := List.getElem?_eq_some_iff.mp hfunction
      have hset : span functionRefs ⟨0, []⟩ (templates.functions.set index
          { function with funcData := rest }) 0 templates.functions.length +
            functionRefs (templates.functions.getD index ⟨0, []⟩) = _ :=
        span_set (Nat.zero_le index) hlt hlt
      rw [List.getD_eq_getElem?_getD, hfunction, Option.getD_some] at hset
      simp only [functionRefs, hdata, totalRefs_cons] at hset
      funext ptr
      have hat := congrFun hset ptr
      simp only [kept, release, List.length_set, Pi.add_apply] at hat ⊢
      omega
  | freeCached id template context func rest htemplate hcache =>
      refine spare_release rfl ?_
      have hset : ((templates.release func).setTemplate id
          (some { template with contextToFunction := rest })).kept +
            templateRefs (templates.template id) = templates.kept + cacheRefs rest :=
        kept_setTemplate _ (lt_length_of_template htemplate)
      rw [htemplate, templateRefs, hcache] at hset
      funext ptr
      have hat := congrFun hset ptr
      simp only [cacheRefs, List.map_cons, List.sum_cons, Pi.add_apply] at hat
      show _ + func.refs ptr = templates.kept ptr
      omega
  | destroy id template htemplate hcache =>
      refine spare_of_kept rfl ?_
      have hset := kept_setTemplate none (lt_length_of_template htemplate)
      have hempty : templateRefs (some template) = templateRefs none := by
        simp [templateRefs, cacheRefs, hcache]
      rw [htemplate, hempty] at hset
      exact add_right_cancel hset
  | isolate op => exact absurd rfl (hop op)

theorem Handled.open_live (hhandled : templates.Handled) {core : Nat × Nat × JSValue}
    (hcore : core ∈ templates.inProgress) : templates.isolate.runtime.Live core.2.2 := by
  obtain ⟨activation, hmem, rfl⟩ := List.mem_map.mp hcore
  exact hhandled.live_of_le ((refs_le_totalRefs (List.mem_map_of_mem hmem)).trans
    activations_le_kept)

/-- A cached function is live and counted. -/
theorem Handled.cached_counted (hhandled : templates.Handled) {kind : RefTag} {ptr : Ptr}
    (hcached : templates.cached id context = some (.ref kind ptr)) :
    templates.isolate.runtime.cell ptr = .live ∧ 1 ≤ templates.isolate.runtime.refCount ptr := by
  obtain ⟨template, htemplate, hlookup⟩ := Option.bind_eq_some_iff.mp hcached
  have hentry : templateRefs (templates.template id) ≤ _ :=
    le_span templateRefs_nonneg (Nat.zero_le id) (lt_length_of_template htemplate)
  rw [htemplate] at hentry
  have hkept := (refs_le_cacheRefs hlookup).trans (hentry.trans table_le_kept)
  have hheld : (JSValue.ref kind ptr).refs ≤ templates.isolate.held :=
    hkept.trans ((le_add_of_nonneg_left templates.isolate.owned_nonneg).trans hhandled.owned_le)
  have hcounted := (hhandled.counted.of_refs_le hheld).2 ptr
  rw [JSValue.refs_ref_self] at hcounted
  exact ⟨Runtime.live_ref.mp (hhandled.cached_live htemplate hlookup), hcounted⟩

end Templates

end QuickjsBackend
