import QuickjsBackend.Foundation.Span
import QuickjsBackend.Handle.Invariant
import QuickjsBackend.Template.Instantiation

/-! # What templates and functions own

Functions own their data, templates the functions they have cached, and a call
of `GetFunction` in progress the function it has made. All of this is held in
every reachable state, so that none of it is ever dead where it is read. The
data of the templates themselves are not among it.
-/

namespace QuickjsBackend

open Foundation

/-- The references of a function object to its data. -/
def functionRefs (function : CFunction) : Ptr → Int := totalRefs function.funcData

/-- The references of the entries of a cache. -/
def cacheRefs (cache : List (Nat × JSValue)) : Ptr → Int :=
  (cache.map fun entry => entry.2.refs).sum

def templateRefs : Option FunctionTemplate → Ptr → Int
  | none => 0
  | some template => cacheRefs template.contextToFunction

theorem functionRefs_nonneg (function : CFunction) : 0 ≤ functionRefs function :=
  totalRefs_nonneg function.funcData

theorem cacheRefs_nonneg (cache : List (Nat × JSValue)) : 0 ≤ cacheRefs cache := by
  apply List.sum_nonneg
  intro refs hmem
  obtain ⟨entry, _, rfl⟩ := List.mem_map.mp hmem
  exact entry.2.refs_nonneg

theorem templateRefs_nonneg (entry : Option FunctionTemplate) : 0 ≤ templateRefs entry := by
  cases entry with
  | none => exact le_refl 0
  | some template => exact cacheRefs_nonneg template.contextToFunction

theorem refs_le_totalRefs {value : JSValue} {values : List JSValue} (hmem : value ∈ values) :
    value.refs ≤ totalRefs values := by
  apply List.single_le_sum
  · intro refs hrefs
    obtain ⟨other, _, rfl⟩ := List.mem_map.mp hrefs
    exact other.refs_nonneg
  · exact List.mem_map_of_mem hmem

theorem refs_le_cacheRefs {context : Nat} {func : JSValue} {cache : List (Nat × JSValue)}
    (hlookup : cache.lookup context = some func) : func.refs ≤ cacheRefs cache := by
  obtain ⟨before, after, heq, _⟩ := List.lookup_eq_some_iff.mp hlookup
  apply List.single_le_sum
  · intro refs hrefs
    obtain ⟨entry, _, rfl⟩ := List.mem_map.mp hrefs
    exact entry.2.refs_nonneg
  · rw [heq]
    simp

namespace Templates

variable (templates : Templates)

/-- References of functions, caches and calls in progress. -/
def kept : Ptr → Int :=
  span functionRefs ⟨0, []⟩ templates.functions 0 templates.functions.length +
    span templateRefs none templates.table 0 templates.table.length +
      totalRefs (templates.activations.map Activation.func)

/-- The handle layer below, with the references of functions, caches and calls
in addition to its own. -/
structure Handled : Prop where
  inOrder : templates.isolate.InOrder
  counted : templates.isolate.Counted
  owned_le : templates.isolate.owned + templates.kept ≤ templates.isolate.held

variable {templates} {next : Templates}

theorem handled_new : Templates.new.Handled where
  inOrder := Isolate.inOrder_new
  counted := Isolate.counted_new
  owned_le := by
    have hheld : Templates.new.isolate.held = 0 := Isolate.held_new
    rw [hheld]
    simp [Templates.new, kept, Isolate.owned, Isolate.new, liveRefs, parkedRefs]

theorem Handled.live_of_le (hhandled : templates.Handled) {value : JSValue}
    (hle : value.refs ≤ templates.kept) : templates.isolate.runtime.Live value := by
  apply (hhandled.counted.of_refs_le _).1
  calc value.refs ≤ templates.kept := hle
    _ ≤ templates.isolate.owned + templates.kept :=
        le_add_of_nonneg_left templates.isolate.owned_nonneg
    _ ≤ templates.isolate.held := hhandled.owned_le

theorem functions_le_kept : span functionRefs ⟨0, []⟩ templates.functions 0
    templates.functions.length ≤ templates.kept := by
  unfold kept
  rw [add_assoc]
  exact le_add_of_nonneg_right (add_nonneg (span_nonneg templateRefs_nonneg) (totalRefs_nonneg _))

theorem table_le_kept : span templateRefs none templates.table 0 templates.table.length ≤
    templates.kept := by
  unfold kept
  rw [add_right_comm]
  exact le_add_of_nonneg_left (add_nonneg (span_nonneg functionRefs_nonneg) (totalRefs_nonneg _))

theorem activations_le_kept :
    totalRefs (templates.activations.map Activation.func) ≤ templates.kept :=
  le_add_of_nonneg_left (add_nonneg (span_nonneg functionRefs_nonneg)
    (span_nonneg templateRefs_nonneg))

/-- The data of a function object are live as long as it has not given them up. -/
theorem Handled.funcData_live (hhandled : templates.Handled) {index : Nat} {function : CFunction}
    {value : JSValue} (hfunction : templates.functions[index]? = some function)
    (hvalue : value ∈ function.funcData) : templates.isolate.runtime.Live value := by
  obtain ⟨hlt, hget⟩ := List.getElem?_eq_some_iff.mp hfunction
  have hentry : functionRefs (templates.functions.getD index ⟨0, []⟩) ≤ _ :=
    le_span functionRefs_nonneg (Nat.zero_le index) hlt
  rw [List.getD_eq_getElem?_getD, hfunction, Option.getD_some] at hentry
  exact hhandled.live_of_le ((refs_le_totalRefs hvalue).trans (hentry.trans functions_le_kept))

theorem lt_length_of_template {id : Nat} {template : FunctionTemplate}
    (htemplate : templates.template id = some template) : id < templates.table.length :=
  lt_length_of_getD htemplate

/-- A cached function is live. -/
theorem Handled.cached_live (hhandled : templates.Handled) {id context : Nat}
    {template : FunctionTemplate} {func : JSValue}
    (htemplate : templates.template id = some template)
    (hlookup : template.contextToFunction.lookup context = some func) :
    templates.isolate.runtime.Live func := by
  have hentry : templateRefs (templates.template id) ≤ _ :=
    le_span templateRefs_nonneg (Nat.zero_le id) (lt_length_of_template htemplate)
  rw [htemplate] at hentry
  exact hhandled.live_of_le ((refs_le_cacheRefs hlookup).trans (hentry.trans table_le_kept))

theorem kept_setTemplate {id : Nat} (entry : Option FunctionTemplate)
    (hid : id < templates.table.length) :
    (templates.setTemplate id entry).kept + templateRefs (templates.template id) =
      templates.kept + templateRefs entry := by
  have hset : span templateRefs none (templates.table.set id entry) 0 templates.table.length +
      templateRefs (templates.table.getD id none) = _ := span_set (Nat.zero_le id) hid hid
  simp only [kept, setTemplate, Templates.template, List.length_set]
  rw [add_right_comm _ _ (templateRefs _), add_assoc _ _ (templateRefs _), hset]
  abel

/-- A change of a template that leaves its cache alone. -/
theorem Handled.setTemplate (hhandled : templates.Handled) {id : Nat} {template : FunctionTemplate}
    (htemplate : templates.template id = some template) {entry : Option FunctionTemplate}
    (hentry : templateRefs entry = cacheRefs template.contextToFunction) :
    (templates.setTemplate id entry).Handled where
  inOrder := hhandled.inOrder
  counted := hhandled.counted
  owned_le := by
    have hkept := kept_setTemplate entry (lt_length_of_template htemplate)
    rw [htemplate, hentry] at hkept
    rw [add_right_cancel hkept]
    exact hhandled.owned_le

theorem kept_newTemplate {template : FunctionTemplate} (hcache : template.contextToFunction = []) :
    kept { templates with table := templates.table ++ [some template] } = templates.kept := by
  have happend : span templateRefs none (templates.table ++ [some template]) 0
      (templates.table.length + 1) = _ := span_append (Nat.zero_le _)
  have hempty : templateRefs (some template) = 0 := by simp [templateRefs, cacheRefs, hcache]
  simp only [kept, List.length_append, List.length_singleton, happend, hempty, add_zero]

theorem Handled.newTemplate (hhandled : templates.Handled) {template : FunctionTemplate}
    (hcache : template.contextToFunction = []) :
    Handled { templates with table := templates.table ++ [some template] } where
  inOrder := hhandled.inOrder
  counted := hhandled.counted
  owned_le := by
    rw [kept_newTemplate hcache]
    exact hhandled.owned_le

/-- A handle to a live value. -/
theorem Handled.copyToSlot (hhandled : templates.Handled) {value : JSValue}
    (hlive : templates.isolate.runtime.Live value) :
    Handled { templates with isolate := templates.isolate.copyToSlot value } where
  inOrder := hhandled.inOrder.copyToSlot value
  counted := hhandled.counted.copyToSlot hlive
  owned_le := by
    show (templates.isolate.copyToSlot value).owned + templates.kept ≤
      (templates.isolate.copyToSlot value).held
    rw [Isolate.owned_copyToSlot hhandled.inOrder, Isolate.held_copyToSlot, add_right_comm]
    exact add_le_add_left hhandled.owned_le value.refs

theorem kept_withFunction (ptr : Ptr) (funcData : List JSValue) :
    (templates.withFunction ptr funcData).kept = templates.kept + totalRefs funcData := by
  have happend : span functionRefs ⟨0, []⟩ (templates.functions ++ [⟨ptr, funcData⟩]) 0
      (templates.functions.length + 1) = _ := span_append (Nat.zero_le _)
  simp only [kept, withFunction, List.length_append, List.length_singleton, happend, functionRefs]
  abel

/-- Handled states differ in what is kept; it may become less. -/
theorem Handled.mono (hhandled : templates.Handled) (hisolate : next.isolate = templates.isolate)
    (hkept : next.kept ≤ templates.kept) : next.Handled := by
  refine ⟨by rw [hisolate]; exact hhandled.inOrder, by rw [hisolate]; exact hhandled.counted, ?_⟩
  rw [hisolate]
  exact (add_le_add_right hkept _).trans hhandled.owned_le

/-- The cell of something that live values refer to. -/
theorem live_of_totalRefs_pos {rt : Runtime} {values : List JSValue}
    (hlive : ∀ value ∈ values, rt.Live value) {ptr : Ptr} (hpos : 0 < totalRefs values ptr) :
    rt.cell ptr = .live := by
  induction values with
  | nil => exact absurd hpos (lt_irrefl 0)
  | cons value rest ih =>
      rw [totalRefs_cons, Pi.add_apply] at hpos
      by_cases hfirst : 0 < value.refs ptr
      · exact (hlive value List.mem_cons_self).of_refs_pos hfirst
      · exact ih (fun other hmem => hlive other (List.mem_cons_of_mem _ hmem)) (by omega)

/-- The function object of a call of `JS_NewCFunctionData` that the engine keeps. -/
theorem counted_produce (hcounted : templates.isolate.Counted) {ptr : Ptr}
    (hunused : templates.isolate.runtime.cell ptr = .unused) :
    Isolate.Counted { templates.isolate with
      runtime := templates.isolate.runtime.produce (.ref .object ptr)
      others := templates.isolate.others + (JSValue.ref .object ptr).refs } := by
  refine hcounted.engine (.produce (.ref .object ptr) ?_)
  rintro _ _ ⟨⟩
  exact Or.inl hunused

theorem live_produce {ptr : Ptr} {value : JSValue}
    (hlive : templates.isolate.runtime.Live value) :
    (templates.isolate.runtime.produce (.ref .object ptr)).Live value := fun kind cell hvalue =>
  Runtime.produce_cell_of_live _ (hlive kind cell hvalue)

/-- The counts once a function is made. -/
theorem withFunction_refCount (ptr : Ptr) (funcData : List JSValue) :
    (templates.withFunction ptr funcData).isolate.runtime.refCount =
      templates.isolate.runtime.refCount + (JSValue.ref .object ptr).refs + totalRefs funcData := by
  rw [withFunction, Runtime.foldl_dupValueRT_refCount, Runtime.produce_refCount]

theorem withFunction_cell (ptr : Ptr) (funcData : List JSValue) :
    (templates.withFunction ptr funcData).isolate.runtime.cell =
      (templates.isolate.runtime.produce (.ref .object ptr)).cell := by
  rw [withFunction, Runtime.foldl_dupValueRT_cell]

theorem held_withFunction (ptr : Ptr) (funcData : List JSValue) :
    (templates.withFunction ptr funcData).isolate.held =
      templates.isolate.held + totalRefs funcData := by
  rw [Isolate.held, withFunction_refCount, Isolate.held]
  simp only [withFunction]
  abel

/-- The reference to the function is now that of the call. -/
theorem held_begin (id : Nat) (template : FunctionTemplate) (context : Nat) (func : JSValue) :
    (templates.begin id template context func).isolate.held =
      templates.isolate.held + func.refs := by
  simp only [Isolate.held, Templates.begin]
  abel

theorem kept_begin (id : Nat) (template : FunctionTemplate) (context : Nat) (func : JSValue) :
    (templates.begin id template context func).kept = templates.kept + func.refs := by
  simp only [kept, Templates.begin, List.map_cons, totalRefs_cons]
  abel

/-- A function with a reference on each of its data. -/
theorem Handled.withFunction (hhandled : templates.Handled) {ptr : Ptr} {funcData : List JSValue}
    (hunused : templates.isolate.runtime.cell ptr = .unused)
    (hlive : ∀ value ∈ funcData, templates.isolate.runtime.Live value) :
    (templates.withFunction ptr funcData).Handled where
  inOrder := ⟨hhandled.inOrder.bounded, hhandled.inOrder.inRange⟩
  counted := by
    have hproduced : ∀ value ∈ funcData,
        (templates.isolate.runtime.produce (.ref .object ptr)).Live value :=
      fun value hmem => live_produce (hlive value hmem)
    refine (counted_produce hhandled.counted hunused).take (fun cell hcell => ?_)
      (fun cell hpos => ?_) rfl (Isolate.held_take (withFunction_refCount ptr funcData) rfl)
    · rw [withFunction_cell]
      exact hcell
    · rw [withFunction_cell]
      exact live_of_totalRefs_pos hproduced hpos
  owned_le := by
    rw [kept_withFunction, held_withFunction, ← add_assoc]
    exact add_le_add_left hhandled.owned_le (totalRefs funcData)

/-- The same for a call of `GetFunction`, which keeps the function as well. -/
theorem Handled.begin (hhandled : templates.Handled) {ptr : Ptr} {funcData : List JSValue}
    (hunused : templates.isolate.runtime.cell ptr = .unused)
    (hlive : ∀ value ∈ funcData, templates.isolate.runtime.Live value) (id : Nat)
    (template : FunctionTemplate) (context : Nat) :
    ((templates.withFunction ptr funcData).begin id template context
      (.ref .object ptr)).Handled := by
  have hfunction := hhandled.withFunction hunused hlive
  have hlivePtr :
      (templates.withFunction ptr funcData).isolate.runtime.Live (.ref .object ptr) := by
    rw [Runtime.live_ref, withFunction_cell, Runtime.live_ref.mp (Runtime.produce_live _)]
  refine ⟨⟨hfunction.inOrder.bounded, hfunction.inOrder.inRange⟩, ?_, ?_⟩
  · refine ⟨?_, fun cell hpos => ?_⟩
    · have hothers : ((templates.withFunction ptr funcData).begin id template context
          (.ref .object ptr)).isolate.others = templates.isolate.others :=
        add_sub_cancel_right _ _
      rw [hothers]
      exact hhandled.counted.others_nonneg
    · rw [held_begin, Pi.add_apply] at hpos
      by_cases hbefore : 0 < (templates.withFunction ptr funcData).isolate.held cell
      · exact hfunction.counted.live cell hbefore
      · exact hlivePtr.of_refs_pos (by omega)
  · rw [kept_begin, held_begin, ← add_assoc]
    exact add_le_add_left hfunction.owned_le _

theorem owned_withName (horder : templates.isolate.InOrder) (name : Ptr) :
    (templates.withName name).isolate.owned =
      templates.isolate.owned + (JSValue.ref .string name).refs := by
  have hslot := Isolate.owned_store (.ref .string name) horder.alloc
    (show templates.isolate.alloc.frames = .slot templates.isolate.valueAllocPos ::
      templates.isolate.frames from rfl)
  rw [Isolate.owned_alloc] at hslot
  exact hslot

theorem held_withName (name : Ptr) :
    (templates.withName name).isolate.held =
      templates.isolate.held + (JSValue.ref .string name).refs := by
  have hstore : (templates.isolate.alloc.store templates.isolate.valueAllocPos
      templates.isolate.frames (.ref .string name)).held = _ := Isolate.held_store _ _ _
  exact hstore

theorem held_release (value : JSValue) :
    (templates.release value).isolate.held = templates.isolate.held - value.refs :=
  Isolate.held_give (Runtime.freeValueRT_refCount value) rfl

theorem Handled.withName (hhandled : templates.Handled) {name : Ptr}
    (hunused : templates.isolate.runtime.cell name = .unused) :
    (templates.withName name).Handled := by
  have halloc := hhandled.inOrder.alloc
  have hvalue : templates.isolate.alloc.runtime.Available (.ref .string name) := by
    rintro _ _ ⟨⟩
    exact Or.inl hunused
  have hstore := Isolate.Transition.store templates.isolate.alloc templates.isolate.valueAllocPos
    templates.isolate.frames (.ref .string name) rfl hvalue
  have hcounted := (hhandled.counted.transition (.alloc templates.isolate)).transition hstore
  refine ⟨halloc.transition hstore, hcounted, ?_⟩
  show (templates.withName name).isolate.owned + templates.kept ≤ _
  rw [owned_withName hhandled.inOrder, held_withName, add_right_comm]
  exact add_le_add_left hhandled.owned_le _

/-- A release of what was kept. -/
theorem Handled.release (hhandled : templates.Handled) {value : JSValue}
    (hisolate : next.isolate = (templates.release value).isolate)
    (hkept : next.kept + value.refs ≤ templates.kept) : next.Handled := by
  refine ⟨by rw [hisolate]; exact ⟨hhandled.inOrder.bounded, hhandled.inOrder.inRange⟩,
    by rw [hisolate]; exact hhandled.counted.releaseHeld value rfl rfl, ?_⟩
  rw [hisolate, held_release, le_sub_iff_add_le, add_assoc]
  exact (add_le_add_right hkept _).trans hhandled.owned_le

theorem Handled.isolateStep (hhandled : templates.Handled) {action : Action} {isolate : Isolate}
    (hnext : templates.isolate.Transition action isolate) :
    Handled { templates with isolate } where
  inOrder := hhandled.inOrder.transition hnext
  counted := hhandled.counted.transition hnext
  owned_le := hhandled.inOrder.owned_add_le hnext hhandled.owned_le

section Spare

variable (templates) in
/-- The counted references that are of no handle, no function, no cache, no call in
progress and no other owner. -/
def spare : Ptr → Int := templates.isolate.held - templates.isolate.owned - templates.kept

theorem spare_of_kept (hisolate : next.isolate = templates.isolate)
    (hkept : next.kept = templates.kept) : next.spare = templates.spare := by
  rw [spare, hisolate, hkept, spare]

theorem spare_setTemplate {id : Nat} {template changed : FunctionTemplate}
    (htemplate : templates.template id = some template)
    (hcache : changed.contextToFunction = template.contextToFunction) :
    (templates.setTemplate id (some changed)).spare = templates.spare := by
  have hkept := kept_setTemplate (some changed) (lt_length_of_template htemplate)
  rw [htemplate, templateRefs, templateRefs, hcache] at hkept
  exact spare_of_kept rfl (add_right_cancel hkept)

/-- A copy in a slot takes the reference that goes with it. -/
theorem spare_copyToSlot (horder : templates.isolate.InOrder) (value : JSValue) :
    spare { templates with isolate := templates.isolate.copyToSlot value } = templates.spare := by
  show (templates.isolate.copyToSlot value).held - (templates.isolate.copyToSlot value).owned -
    templates.kept = _
  rw [Isolate.owned_copyToSlot horder, Isolate.held_copyToSlot, add_sub_add_right_eq_sub, spare]

theorem spare_withFunction (ptr : Ptr) (funcData : List JSValue) :
    (templates.withFunction ptr funcData).spare = templates.spare := by
  rw [spare, kept_withFunction, held_withFunction, spare]
  simp only [withFunction, Isolate.owned]
  abel

theorem spare_begin (id : Nat) (template : FunctionTemplate) (context : Nat) (func : JSValue) :
    (templates.begin id template context func).spare = templates.spare := by
  rw [spare, kept_begin, held_begin, spare]
  simp only [Templates.begin, Isolate.owned]
  abel

theorem spare_withName (horder : templates.isolate.InOrder) (name : Ptr) :
    (templates.withName name).spare = templates.spare := by
  rw [spare, owned_withName horder, held_withName, add_sub_add_right_eq_sub, spare]
  rfl

/-- A release of what is kept no longer. -/
theorem spare_release {value : JSValue}
    (hisolate : next.isolate = (templates.release value).isolate)
    (hkept : next.kept + value.refs = templates.kept) : next.spare = templates.spare := by
  rw [spare, spare, hisolate, held_release, ← hkept]
  simp only [Templates.release, Isolate.owned]
  abel

end Spare

end Templates

end QuickjsBackend
