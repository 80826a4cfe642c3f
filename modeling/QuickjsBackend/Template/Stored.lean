import QuickjsBackend.Template.Ownership

/-! # Operations on templates use nothing that is dead

As long as the values that templates keep are live, no operation on templates
uses a freed cell, and none but the releases at the end of a template or a
function frees one. A value that comes to be kept is live at that time.
-/

namespace QuickjsBackend

open Foundation

namespace FunctionTemplate

variable {template : FunctionTemplate} {value : JSValue}

theorem mem_stored_onObject {part : Part} {change : ObjectTemplate → ObjectTemplate}
    (hmem : value ∈ (template.onObject part change).stored) :
    value ∈ template.stored ∨ ∃ object : ObjectTemplate, value ∈ (change object).stored ∧
      ∀ other ∈ object.stored, other ∈ template.stored := by
  cases part with
  | function => exact Or.inl hmem
  | instanceTemplate =>
      simp only [onObject, stored, Option.map_some, Option.getD_some, List.mem_cons,
        List.mem_append] at hmem
      rcases hmem with hdata | hinstance | hprototype
      · exact Or.inl (by simp [stored, hdata])
      · refine Or.inr ⟨_, hinstance, fun other hother => ?_⟩
        cases htemplate : template.instanceTemplate with
        | none => simp [htemplate, ObjectTemplate.empty, ObjectTemplate.stored] at hother
        | some object =>
            rw [htemplate, Option.getD_some] at hother
            simp [stored, htemplate, hother]
      · exact Or.inl (by simp [stored, hprototype])
  | prototypeTemplate =>
      simp only [onObject, stored, Option.map_some, Option.getD_some, List.mem_cons,
        List.mem_append] at hmem
      rcases hmem with hdata | hinstance | hprototype
      · exact Or.inl (by simp [stored, hdata])
      · exact Or.inl (by simp [stored, hinstance])
      · refine Or.inr ⟨_, hprototype, fun other hother => ?_⟩
        cases htemplate : template.prototypeTemplate with
        | none => simp [htemplate, ObjectTemplate.empty, ObjectTemplate.stored] at hother
        | some object =>
            rw [htemplate, Option.getD_some] at hother
            simp [stored, htemplate, hother]

/-- Declarations without data store nothing. -/
theorem mem_stored_declare {declaration : Declaration}
    (hmem : value ∈ (template.declare declaration).stored) : value ∈ template.stored := by
  have hobject : ∀ (part : Part) (change : ObjectTemplate → ObjectTemplate),
      (∀ object, (change object).stored = object.stored) →
        value ∈ (template.onObject part change).stored → value ∈ template.stored := by
    intro part change hchange hvalue
    rcases mem_stored_onObject hvalue with hold | ⟨object, hnew, hall⟩
    · exact hold
    · exact hall value (hchange object ▸ hnew)
  have hbase : ∀ (part : Part) (change : Template → Template),
      value ∈ (template.onTemplate part change).stored → value ∈ template.stored := by
    intro part change hvalue
    cases part with
    | function => exact hvalue
    | instanceTemplate => exact hobject .instanceTemplate _ (fun _ => rfl) hvalue
    | prototypeTemplate => exact hobject .prototypeTemplate _ (fun _ => rfl) hvalue
  cases declaration with
  | set part name target => exact hbase part _ hmem
  | setAccessorProperty part name info => exact hbase part _ hmem
  | setInternalFieldCount part count =>
      exact hobject part (fun object => { object with internalFieldCount := count })
        (fun _ => rfl) hmem
  | inherit parent => exact hmem

theorem mem_stored_setAccessor {part : Part} {name : String} {info : AccessorInfo}
    (hmem : value ∈ (template.onObject part fun object => object.setAccessor name info).stored) :
    value = info.data ∨ value ∈ template.stored := by
  rcases mem_stored_onObject hmem with hold | ⟨object, hnew, hall⟩
  · exact Or.inr hold
  · obtain ⟨accessor, haccessor, rfl⟩ := List.mem_map.mp hnew
    rcases mem_assign haccessor with rfl | hold
    · exact Or.inl rfl
    · exact Or.inr (hall _ (List.mem_map_of_mem hold))

/-- An accessor of the prototype template keeps its data there. -/
theorem accessor_mem_stored {object : ObjectTemplate} {name : String} {info : AccessorInfo}
    (hobject : template.prototypeTemplate = some object)
    (hlookup : object.accessorInfos.lookup name = some info) : info.data ∈ template.stored := by
  obtain ⟨before, after, heq, _⟩ := List.lookup_eq_some_iff.mp hlookup
  simp [stored, hobject, ObjectTemplate.stored, heq]

end FunctionTemplate

namespace Templates

variable (templates : Templates)

/-- The value is kept raw in some template. -/
def Stores (value : JSValue) : Prop :=
  ∃ id template, templates.template id = some template ∧ value ∈ template.stored

def StoredLive : Prop :=
  ∀ value, templates.Stores value → templates.isolate.runtime.Live value

variable {templates} {next final : Templates} {value : JSValue} {ptr : Ptr}

variable (templates next) in
/-- What a step that frees nothing leads to. -/
structure Extends : Prop where
  handled : next.Handled
  live : ∀ ptr, templates.isolate.runtime.cell ptr = .live →
    next.isolate.runtime.cell ptr = .live
  stored : ∀ value, next.Stores value →
    templates.Stores value ∨ next.isolate.runtime.Live value

theorem Extends.value_live (hextends : templates.Extends next)
    (hlive : templates.isolate.runtime.Live value) : next.isolate.runtime.Live value :=
  fun kind ptr hvalue => hextends.live ptr (hlive kind ptr hvalue)

theorem Extends.storedLive (hextends : templates.Extends next) (hstored : templates.StoredLive) :
    next.StoredLive := by
  intro value hvalue
  rcases hextends.stored value hvalue with hold | hnew
  · exact hextends.value_live (hstored value hold)
  · exact hnew

theorem Extends.trans (hfirst : templates.Extends next) (hsecond : next.Extends final) :
    templates.Extends final where
  handled := hsecond.handled
  live ptr hlive := hsecond.live ptr (hfirst.live ptr hlive)
  stored value hvalue := by
    rcases hsecond.stored value hvalue with hold | hnew
    · exact (hfirst.stored value hold).imp_right hsecond.value_live
    · exact Or.inr hnew

theorem stores_congr {other : Templates} (htable : other.table = templates.table) :
    other.Stores value ↔ templates.Stores value := by
  simp only [Stores, Templates.template, htable]

/-- Where the table stays as it is. -/
theorem extends_of_table (hhandled : next.Handled) (htable : next.table = templates.table)
    (hlive : ∀ ptr, templates.isolate.runtime.cell ptr = .live →
      next.isolate.runtime.cell ptr = .live) : templates.Extends next where
  handled := hhandled
  live := hlive
  stored _ hvalue := Or.inl ((stores_congr htable).mp hvalue)

variable (templates) in
/-- The operation uses no freed cell and frees none. -/
structure Sound (outcome : Except Fault Templates) : Prop where
  noUse : outcome ≠ .error .useAfterFree
  extends_ok : ∀ next, outcome = .ok next → templates.Extends next

theorem sound_ok (hextends : templates.Extends next) : templates.Sound (.ok next) where
  noUse := by simp
  extends_ok _ heq := Except.ok.inj heq ▸ hextends

theorem sound_misuse : templates.Sound (.error .misuse) where
  noUse := by simp
  extends_ok _ heq := by cases heq

theorem Sound.trans {outcome : Except Fault Templates} (hextends : templates.Extends next)
    (hsound : next.Sound outcome) : templates.Sound outcome where
  noUse := hsound.noUse
  extends_ok final heq := hextends.trans (hsound.extends_ok final heq)

theorem stores_setTemplate {id : Nat} {entry : Option FunctionTemplate}
    (hvalue : (templates.setTemplate id entry).Stores value) :
    templates.Stores value ∨ ∃ template, entry = some template ∧ value ∈ template.stored := by
  obtain ⟨other, found, hfound, hmem⟩ := hvalue
  rcases getD_set_cases hfound with ⟨_, hwritten⟩ | hbefore
  · exact Or.inr ⟨found, hwritten, hmem⟩
  · exact Or.inl ⟨other, found, hbefore, hmem⟩

/-- A template is exchanged for one with the same cache, whose data are the old
ones or live. -/
theorem extends_setTemplate (hhandled : templates.Handled) {id : Nat}
    {old template : FunctionTemplate} (hold : templates.template id = some old)
    (hcache : template.contextToFunction = old.contextToFunction)
    (hstored : ∀ value ∈ template.stored, value ∈ old.stored ∨
      templates.isolate.runtime.Live value) :
    templates.Extends (templates.setTemplate id (some template)) where
  handled := hhandled.setTemplate hold (by rw [templateRefs, hcache])
  live _ hlive := hlive
  stored value hvalue := by
    rcases stores_setTemplate hvalue with hsame | ⟨_, ⟨⟩, hmem⟩
    · exact Or.inl hsame
    · exact (hstored value hmem).imp_left fun hmem => ⟨id, old, hold, hmem⟩

variable (templates) in
theorem dataValue_cases (data : Option Local) :
    templates.dataValue data = .error .misuse ∨
      ∃ value, templates.dataValue data = .ok value ∧ templates.isolate.runtime.Live value := by
  unfold dataValue
  split
  next => exact Or.inr ⟨_, rfl, Runtime.live_of_not_hasRefCount rfl⟩
  next handle =>
    split
    next => exact Or.inl rfl
    next value _ =>
      split
      next hlive => exact Or.inr ⟨value, rfl, hlive⟩
      next => exact Or.inl rfl

theorem sound_newFunctionTemplate (hhandled : templates.Handled) (callback : Nat)
    (data : Option Local) : templates.Sound (templates.newFunctionTemplate callback data) := by
  unfold newFunctionTemplate
  rcases templates.dataValue_cases data with hfault | ⟨value, hvalue, hlive⟩
  · rw [hfault]
    exact sound_misuse
  · rw [hvalue]
    refine sound_ok ⟨hhandled.newTemplate rfl, fun _ h => h, ?_⟩
    rintro other ⟨id, template, htemplate, hmem⟩
    rcases getD_concat_cases htemplate with ⟨_, ⟨⟩⟩ | hbefore
    · have hother : other = value := by
        simpa [FunctionTemplate.stored, FunctionTemplate.new] using hmem
      exact Or.inr (hother ▸ hlive)
    · exact Or.inl ⟨id, template, hbefore, hmem⟩

theorem sound_declare (hhandled : templates.Handled) (id : Nat) (declaration : Declaration) :
    templates.Sound (templates.declare id declaration) := by
  unfold declare
  cases htemplate : templates.template id with
  | none => exact sound_misuse
  | some template =>
      refine sound_ok (extends_setTemplate hhandled htemplate ?_ fun value hmem =>
        Or.inl (FunctionTemplate.mem_stored_declare hmem))
      cases declaration with
      | set part name target => cases part <;> rfl
      | setAccessorProperty part name info => cases part <;> rfl
      | setInternalFieldCount part count => cases part <;> rfl
      | inherit parent => rfl

theorem sound_setAccessor (hhandled : templates.Handled) {id : Nat} {template : FunctionTemplate}
    (htemplate : templates.template id = some template) (part : Part) (name : String)
    (getter setter : Option Nat) (data : Option Local) (attributes : PropertyAttribute) :
    templates.Sound
      (templates.setAccessor id template part name getter setter data attributes) := by
  unfold setAccessor
  rcases templates.dataValue_cases data with hfault | ⟨value, hvalue, hlive⟩
  · rw [hfault]
    exact sound_misuse
  · rw [hvalue]
    refine sound_ok (extends_setTemplate hhandled htemplate (by cases part <;> rfl) ?_)
    intro other hmem
    rcases FunctionTemplate.mem_stored_setAccessor hmem with rfl | hold
    · exact Or.inr hlive
    · exact Or.inl hold

theorem sound_newCFunctionData (hhandled : templates.Handled) {funcData : List JSValue}
    (hlive : ∀ value ∈ funcData, templates.isolate.runtime.Live value) (ptr : Ptr) :
    templates.Sound (templates.newCFunctionData ptr funcData) := by
  unfold newCFunctionData
  by_cases hunused : templates.isolate.runtime.cell ptr = .unused
  · rw [if_pos hunused, if_pos hlive]
    refine sound_ok (extends_of_table (hhandled.withFunction hunused hlive) rfl fun other h => ?_)
    simp only [withFunction, Runtime.foldl_dupValueRT_cell]
    exact Runtime.produce_cell_of_live _ h
  · rw [if_neg hunused]
    exact sound_misuse

/-- What a function template reads is live with its data. -/
theorem funcData_live {template : FunctionTemplate} {rt : Runtime} (hdata : rt.Live template.data) :
    ∀ value ∈ template.funcData, rt.Live value := by
  intro value hmem
  simp only [FunctionTemplate.funcData, List.mem_cons, List.not_mem_nil, or_false] at hmem
  rcases hmem with rfl | rfl | rfl | rfl
  · exact Runtime.live_of_not_hasRefCount rfl
  · exact Runtime.live_of_not_hasRefCount rfl
  · exact hdata
  · exact Runtime.live_of_not_hasRefCount rfl

theorem sound_getFunction (hhandled : templates.Handled) (hstored : templates.StoredLive)
    (id context : Nat) (ptr : Ptr) : templates.Sound (templates.getFunction id context ptr) := by
  unfold getFunction
  cases htemplate : templates.template id with
  | none => exact sound_misuse
  | some template =>
      cases hlookup : template.contextToFunction.lookup context with
      | some func =>
          have hlive := hhandled.cached_live htemplate hlookup
          simp only [hlookup, hlive, if_true]
          exact sound_ok (extends_of_table (hhandled.copyToSlot hlive) rfl fun _ h => h)
      | none =>
          have hlive := funcData_live (hstored template.data
            ⟨id, template, htemplate, List.mem_cons_self⟩)
          simp only [hlookup, newCFunctionData]
          by_cases hunused : templates.isolate.runtime.cell ptr = .unused
          · rw [if_pos hunused, if_pos hlive]
            refine sound_ok (extends_of_table (hhandled.begin hunused hlive id template context) rfl
              fun other h => ?_)
            simp only [Templates.begin, withFunction, Runtime.foldl_dupValueRT_cell]
            exact Runtime.produce_cell_of_live _ h
          · rw [if_neg hunused]
            exact sound_misuse

theorem sound_newAccessorFunction (hhandled : templates.Handled)
    {funcData : Option (List JSValue)}
    (hlive : ∀ values, funcData = some values →
      ∀ value ∈ values, templates.isolate.runtime.Live value) (ptr : Ptr) :
    templates.Sound (templates.newAccessorFunction ptr funcData) := by
  cases funcData with
  | none => exact sound_ok (extends_of_table hhandled rfl fun _ h => h)
  | some values => exact sound_newCFunctionData hhandled (hlive values rfl) ptr

/-- What the functions of an accessor are given. -/
theorem accessorData_live {info : AccessorInfo} {rt : Runtime} {name : JSValue}
    (hname : rt.Live name) (hdata : rt.Live info.data) {values : List JSValue}
    (hvalues : info.getterData name = some values ∨ info.setterData name = some values) :
    ∀ value ∈ values, rt.Live value := by
  have hall : ∃ callback : Nat, values = [.external callback, name, info.data] := by
    rcases hvalues with hgetter | hsetter
    · obtain ⟨callback, _, rfl⟩ := Option.map_eq_some_iff.mp hgetter
      exact ⟨callback, rfl⟩
    · simp only [AccessorInfo.setterData] at hsetter
      split at hsetter
      · cases hsetter
      · obtain ⟨callback, _, rfl⟩ := Option.map_eq_some_iff.mp hsetter
        exact ⟨callback, rfl⟩
  obtain ⟨callback, rfl⟩ := hall
  intro value hmem
  simp only [List.mem_cons, List.not_mem_nil, or_false] at hmem
  rcases hmem with rfl | rfl | rfl
  · exact Runtime.live_of_not_hasRefCount rfl
  · exact hname
  · exact hdata

theorem sound_initAccessor (hhandled : templates.Handled) {info : AccessorInfo}
    (hdata : templates.isolate.runtime.Live info.data) (name getter setter : Ptr) :
    templates.Sound (templates.initAccessor info name getter setter) := by
  unfold initAccessor
  by_cases hunused : templates.isolate.runtime.cell name = .unused
  · rw [if_pos hunused]
    have hnamed : templates.Extends (templates.withName name) :=
      extends_of_table (hhandled.withName hunused) rfl fun _ h =>
        Runtime.produce_cell_of_live (.ref .string name) h
    have hlive : (templates.withName name).isolate.runtime.Live (.ref .string name) :=
      Runtime.produce_live _
    have hgetter := sound_newAccessorFunction hnamed.handled
      (fun values hvalues => accessorData_live hlive (hnamed.value_live hdata) (Or.inl hvalues))
      getter
    cases hafter : (templates.withName name).newAccessorFunction getter
        (info.getterData (.ref .string name)) with
    | error fault => exact ⟨fun h => hgetter.noUse (hafter.trans h), fun _ h => by cases h⟩
    | ok after =>
        have hextends := hgetter.extends_ok after hafter
        exact Sound.trans (hnamed.trans hextends) (sound_newAccessorFunction hextends.handled
          (fun values hvalues => accessorData_live (hextends.value_live hlive)
            (hextends.value_live (hnamed.value_live hdata)) (Or.inr hvalues)) setter)
  · rw [if_neg hunused]
    exact sound_misuse

/-- The end of a call of `GetFunction`: the cache takes over the reference that
the call had. -/
theorem sound_finish (hhandled : templates.Handled) {activation : Activation}
    {rest : List Activation} (hactivations : templates.activations = activation :: rest) :
    templates.Sound (templates.finish activation rest) := by
  unfold finish
  cases htemplate : templates.template activation.template with
  | none => exact sound_misuse
  | some template =>
      have hcall : activation.func.refs ≤ totalRefs (templates.activations.map Activation.func) :=
        refs_le_totalRefs (by simp [hactivations])
      have hlive := hhandled.live_of_le (hcall.trans activations_le_kept)
      simp only [hlive, if_true]
      have hcopied := hhandled.copyToSlot hlive
      refine sound_ok ⟨hcopied.mono rfl ?_, fun _ h => h, ?_⟩
      · have hset : (templates.setTemplate activation.template (some { template with
            contextToFunction := assign activation.context activation.func
              template.contextToFunction })).kept + _ = _ :=
          kept_setTemplate _ (lt_length_of_template htemplate)
        have hassign : cacheRefs (assign activation.context activation.func
            template.contextToFunction) ≤ cacheRefs template.contextToFunction +
              activation.func.refs :=
          sum_assign_le fun entry => entry.2.refs_nonneg
        intro ptr
        have hsetAt := congrFun hset ptr
        have hassignAt := hassign ptr
        simp only [kept, setTemplate, List.length_set, hactivations, List.map_cons, totalRefs_cons,
          htemplate, templateRefs, Pi.add_apply] at hsetAt hassignAt ⊢
        omega
      · intro value hvalue
        rcases stores_setTemplate hvalue with hsame | ⟨_, ⟨⟩, hmem⟩
        · exact Or.inl hsame
        · exact Or.inl ⟨activation.template, template, htemplate, hmem⟩

theorem sound_resume (hhandled : templates.Handled) (hstored : templates.StoredLive)
    (name ptr setter : Ptr) : templates.Sound (templates.resume name ptr setter) := by
  unfold resume
  split
  next => exact sound_misuse
  next activation rest hactivations =>
    split
    next => exact sound_finish hhandled hactivations
    next task todo htodo =>
      have hextends : templates.Extends { templates with
          activations := { activation with todo } :: rest } := by
        refine extends_of_table (hhandled.mono rfl ?_) rfl fun _ h => h
        simp [kept, hactivations]
      refine Sound.trans hextends ?_
      cases task with
      | getFunction id =>
          exact sound_getFunction hextends.handled (hextends.storedLive hstored) _ _ _
      | initAccessor accessor =>
          dsimp only
          cases hinfo : ((templates.template activation.template).bind
              (·.prototypeTemplate)).bind (·.accessorInfos.lookup accessor) with
          | none => exact sound_misuse
          | some info =>
              obtain ⟨object, hobject, hlookup⟩ := Option.bind_eq_some_iff.mp hinfo
              obtain ⟨template, htemplate, hprototype⟩ := Option.bind_eq_some_iff.mp hobject
              have hstores : templates.Stores info.data := ⟨activation.template, template,
                htemplate, FunctionTemplate.accessor_mem_stored hprototype hlookup⟩
              exact sound_initAccessor hextends.handled (hstored info.data hstores) _ _ _

theorem sound_callbackData (hhandled : templates.Handled) (index : Nat) :
    templates.Sound (templates.callbackData index) := by
  unfold callbackData
  split
  next => exact sound_misuse
  next function hfunction =>
    split
    next =>
      split
      next => exact sound_misuse
      next data hdata =>
        have hlive := hhandled.funcData_live hfunction (List.mem_of_getElem? hdata)
        rw [if_pos hlive]
        exact sound_ok (extends_of_table hhandled rfl fun _ h => h)
    next => exact sound_misuse

theorem sound_destroy (hhandled : templates.Handled) (id : Nat) :
    templates.Sound (templates.destroy id) := by
  unfold destroy
  cases htemplate : templates.template id with
  | none => exact sound_misuse
  | some template =>
      by_cases hcache : template.contextToFunction = []
      · simp only [hcache, if_true]
        have hentry : templateRefs none = cacheRefs template.contextToFunction := by
          rw [hcache]
          rfl
        refine sound_ok ⟨hhandled.setTemplate htemplate hentry, fun _ h => h, ?_⟩
        intro value hvalue
        rcases stores_setTemplate hvalue with hsame | ⟨_, ⟨⟩, _⟩
        exact Or.inl hsame
      · simp only [hcache, if_false]
        exact sound_misuse

end Templates

end QuickjsBackend
