import QuickjsBackend.Template.Growth

/-! # What the initialisation leaves in an object

The loops of `InitPropertys` define one own property after the other, with the
functions that are cached for the templates in the end. They touch the object
they are asked to initialise and no other that was there.
-/

namespace QuickjsBackend

open Foundation Relation

/-- How an own property of a name is defined, given what is there. -/
abbrev Definition := String × (Option Property → Property)

/-- Own properties after the definitions, in their order. -/
def settle (definitions : List Definition) (own : String → Option Property) :
    String → Option Property :=
  definitions.foldl
    (fun own definition =>
      Function.update own definition.1 (some (definition.2 (own definition.1)))) own

section Settle

variable {definitions others : List Definition} {own : String → Option Property} {name : String}

@[simp] theorem settle_nil : settle [] own = own := rfl

@[simp] theorem settle_cons (definition : Definition) :
    settle (definition :: definitions) own = settle definitions
      (Function.update own definition.1 (some (definition.2 (own definition.1)))) := rfl

theorem settle_append : settle (definitions ++ others) own =
    settle others (settle definitions own) :=
  List.foldl_append

/-- A name that is not defined keeps its property. -/
theorem settle_of_not_mem (hname : name ∉ definitions.map Prod.fst) :
    settle definitions own name = own name := by
  induction definitions generalizing own with
  | nil => rfl
  | cons definition rest ih =>
      rw [List.map_cons, List.mem_cons, not_or] at hname
      rw [settle_cons, ih hname.2, Function.update_of_ne hname.1]

end Settle

namespace Template

variable (template : Template) (function : Nat → Option Ptr)

def fieldDefinition (field : String × Nat) : Definition :=
  (field.1, fun own =>
    .define own (((function field.2).map (.ref .object)).getD .undefined) none none
      (.ofValue true true true))

def accessorPropertyDefinition (property : String × AccessorPropertyInfo) : Definition :=
  (property.1, fun own =>
    .define own .undefined (property.2.getter.bind function)
      (property.2.effectiveSetter.bind function)
      (property.2.attributes.accessorFlags property.2.getter.isSome
        property.2.effectiveSetter.isSome))

/-- The definitions of `InitPropertys`. -/
def definitions : List Definition :=
  template.fields.map (fieldDefinition function) ++
    template.accessorPropertyInfos.map (accessorPropertyDefinition function)

end Template

namespace Heap

def IsFunction (heap : Heap) (ptr : Ptr) : Prop :=
  ∃ object, heap.objectAt ptr = some object ∧ object.isFunction = true

theorem IsFunction.functionPtr_eq {heap : Heap} {ptr : Ptr} (hfunction : heap.IsFunction ptr) :
    heap.functionPtr (.ref .object ptr) = some ptr := by
  obtain ⟨object, hobject, hisFunction⟩ := hfunction
  simp only [functionPtr, hobject, Option.bind_some, hisFunction, if_true]

end Heap

/-- A template but for its cache. -/
def FunctionTemplate.declared (template : FunctionTemplate) : FunctionTemplate :=
  { template with contextToFunction := [] }

namespace Build

variable (build : Build) (context : Nat)

/-- The function object that is cached for a template. -/
def functionOf (id : Nat) : Option Ptr :=
  match build.cached context id with
  | some (.ref .object ptr) => some ptr
  | _ => none

/-- The templates that are used are there, and what is cached are functions of their
templates. -/
structure Sound : Prop where
  closed : build.Closed
  functions : ∀ id func, build.cached context id = some func →
    ∃ ptr object template, func = .ref .object ptr ∧ build.heap.objectAt ptr = some object ∧
      build.table[id]? = some template ∧ object.classData = .cFunctionData template.funcData

/-- Objects other than some stay as they are, and all objects stay in their class;
the caches keep their functions. -/
structure Steady (mine : Ptr → Prop) (next : Build) : Prop where
  grows : build.heap.length ≤ next.heap.length
  frame : ∀ ptr, ptr < build.heap.length → ¬ mine ptr →
    next.heap.objectAt ptr = build.heap.objectAt ptr
  classes : ∀ ptr object, build.heap.objectAt ptr = some object →
    ∃ changed, next.heap.objectAt ptr = some changed ∧ changed.classData = object.classData
  strings : ∀ (ptr : Nat) (chars : String), build.heap[ptr]? = some (.string chars) →
    next.heap[ptr]? = some (.string chars)
  declared : ∀ id : Nat, (next.table[id]?).map FunctionTemplate.declared =
    (build.table[id]?).map FunctionTemplate.declared
  kept : ∀ id func, build.cached context id = some func → next.cached context id = some func

variable {build context} {middle next : Build} {mine : Ptr → Prop} {ptr : Ptr} {id : Nat}

theorem functionOf_eq_some_iff :
    build.functionOf context id = some ptr ↔ build.cached context id = some (.ref .object ptr) := by
  unfold functionOf
  split
  next found hfound => simp [hfound]
  next hnot =>
    constructor
    · intro h
      cases h
    · intro h
      exact absurd h (hnot ptr)

theorem Steady.refl (build : Build) : build.Steady context mine build :=
  ⟨le_refl _, fun _ _ _ => rfl, fun _ object hobject => ⟨object, hobject, rfl⟩, fun _ _ h => h,
    fun _ => rfl, fun _ _ h => h⟩

theorem Steady.trans (hfirst : build.Steady context mine middle)
    (hsecond : middle.Steady context mine next) : build.Steady context mine next where
  grows := hfirst.grows.trans hsecond.grows
  frame ptr hlt hnot := by
    rw [hsecond.frame ptr (Nat.lt_of_lt_of_le hlt hfirst.grows) hnot, hfirst.frame ptr hlt hnot]
  classes ptr object hobject := by
    obtain ⟨changed, hchanged, hclass⟩ := hfirst.classes ptr object hobject
    obtain ⟨last, hlast, hlastClass⟩ := hsecond.classes ptr changed hchanged
    exact ⟨last, hlast, hlastClass.trans hclass⟩
  strings ptr chars h := hsecond.strings ptr chars (hfirst.strings ptr chars h)
  declared id := (hsecond.declared id).trans (hfirst.declared id)
  kept id func h := hsecond.kept id func (hfirst.kept id func h)

theorem Steady.mono {wider : Ptr → Prop} (hsteady : build.Steady context mine next)
    (hmine : ∀ ptr, ptr < build.heap.length → mine ptr → wider ptr) :
    build.Steady context wider next :=
  { hsteady with frame := fun ptr hlt hnot =>
      hsteady.frame ptr hlt fun h => hnot (hmine ptr hlt h) }

theorem Steady.isFunction (hsteady : build.Steady context mine next)
    (hfunction : build.heap.IsFunction ptr) : next.heap.IsFunction ptr := by
  obtain ⟨object, hobject, hisFunction⟩ := hfunction
  obtain ⟨changed, hchanged, hclass⟩ := hsteady.classes ptr object hobject
  refine ⟨changed, hchanged, ?_⟩
  rw [← hisFunction, JSObject.isFunction, JSObject.isFunction, hclass]

theorem length_table_eq (huses : ∀ id : Nat, (next.table[id]?).map FunctionTemplate.uses =
    (build.table[id]?).map FunctionTemplate.uses) : next.table.length = build.table.length := by
  apply Nat.le_antisymm
  · by_contra hlt
    have hsame := huses build.table.length
    rw [List.getElem?_eq_none (le_refl _), List.getElem?_eq_getElem (by omega)] at hsame
    cases hsame
  · by_contra hlt
    have hsame := huses next.table.length
    rw [List.getElem?_eq_none (le_refl _), List.getElem?_eq_getElem (by omega)] at hsame
    cases hsame

theorem Closed.of_uses (hclosed : build.Closed)
    (huses : ∀ id : Nat, (next.table[id]?).map FunctionTemplate.uses =
      (build.table[id]?).map FunctionTemplate.uses) : next.Closed := by
  intro template hmem id huse
  rw [length_table_eq huses]
  obtain ⟨index, hindex⟩ := List.mem_iff_getElem?.mp hmem
  obtain ⟨before, hbefore, heq⟩ := exists_of_map_eq (huses index).symm hindex
  exact hclosed before (List.mem_of_getElem? hbefore) id (heq ▸ huse)

theorem uses_of_declared (hdeclared : ∀ id : Nat, (next.table[id]?).map FunctionTemplate.declared =
    (build.table[id]?).map FunctionTemplate.declared) (id : Nat) :
    (next.table[id]?).map FunctionTemplate.uses = (build.table[id]?).map FunctionTemplate.uses := by
  have huses : FunctionTemplate.uses = FunctionTemplate.uses ∘ FunctionTemplate.declared := by
    funext template
    rfl
  rw [huses, ← Option.map_map, ← Option.map_map, hdeclared id]

theorem Sound.isFunction (hsound : build.Sound context) {func : JSValue}
    (hcached : build.cached context id = some func) :
    ∃ ptr, func = .ref .object ptr ∧ build.heap.IsFunction ptr := by
  obtain ⟨ptr, object, template, hfunc, hobject, _, hclass⟩ := hsound.functions id func hcached
  exact ⟨ptr, hfunc, object, hobject, by rw [JSObject.isFunction, hclass]⟩

/-- A cached function stays the function of its template. -/
theorem Sound.functions_later (hsound : build.Sound context)
    (hsteady : build.Steady context mine next) {func : JSValue}
    (hcached : build.cached context id = some func) :
    ∃ ptr object template, func = .ref .object ptr ∧ next.heap.objectAt ptr = some object ∧
      next.table[id]? = some template ∧ object.classData = .cFunctionData template.funcData := by
  obtain ⟨ptr, object, template, hfunc, hobject, htemplate, hclass⟩ :=
    hsound.functions id func hcached
  obtain ⟨changed, hchanged, hsame⟩ := hsteady.classes ptr object hobject
  obtain ⟨now, hnow, heq⟩ := exists_of_map_eq (hsteady.declared id) htemplate
  refine ⟨ptr, changed, now, hfunc, hchanged, hnow, ?_⟩
  rw [hsame, hclass]
  exact congrArg (fun found => ObjectClass.cFunctionData found.funcData) heq.symm

/-- What changes the heap alone keeps the invariant. -/
theorem Sound.of_table (hsound : build.Sound context) (hsteady : build.Steady context mine next)
    (htable : next.table = build.table) : next.Sound context where
  closed := hsound.closed.of_uses (uses_of_declared hsteady.declared)
  functions id func hcached := by
    rw [cached_congr htable] at hcached
    exact hsound.functions_later hsteady hcached

/-- An object of the build's own is changed. -/
theorem steady_modifyObject {change : JSObject → JSObject} (hmine : mine ptr)
    (hclass : ∀ object, (change object).classData = object.classData) :
    build.Steady context mine { build with heap := build.heap.modifyObject ptr change } where
  grows := le_of_eq (Heap.length_modifyObject change).symm
  frame other _ hnot := by
    rw [Heap.objectAt_modifyObject, if_neg]
    rintro rfl
    exact hnot hmine
  classes other object hobject := by
    rw [Heap.objectAt_modifyObject]
    split
    next heq =>
      subst heq
      exact ⟨change object, by rw [hobject, Option.map_some], hclass object⟩
    next => exact ⟨object, hobject, rfl⟩
  strings other chars hstring := Heap.string_modifyObject change hstring
  declared _ := rfl
  kept _ _ h := h

theorem steady_append (cell : HeapCell) :
    build.Steady context mine { build with heap := build.heap ++ [cell] } where
  grows := by simp
  frame ptr hlt _ := Heap.objectAt_append cell hlt
  classes ptr object hobject := by
    refine ⟨object, ?_, rfl⟩
    rw [Heap.objectAt_append cell (Heap.lt_length_of_objectAt hobject)]
    exact hobject
  strings ptr chars hstring := by
    rw [List.getElem?_append_left (List.getElem?_eq_some_iff.mp hstring).1]
    exact hstring
  declared _ := rfl
  kept _ _ h := h

end Build

namespace Builder

variable {context : Nat} {get : Nat → Builder JSValue} {obj : Ptr}

/-- Every call that returns answers with the function that is then cached, and
leaves the objects that were there alone. -/
def Answers (context : Nat) (get : Nat → Builder JSValue) : Prop :=
  ∀ id build func next, build.Sound context → get id build = some (func, next) →
    next.Sound context ∧ build.Steady context (fun _ => False) next ∧
      next.cached context id = some func

/-- The program gives the object the own properties of the definitions, in terms of
the functions that are cached from then on. -/
def Defines (context : Nat) (obj : Ptr) (definitions : (Nat → Option Ptr) → List Definition)
    (program : Builder PUnit) : Prop :=
  ∀ build object result next, build.Sound context → build.heap.objectAt obj = some object →
    program build = some (result, next) →
      next.Sound context ∧ build.Steady context (· = obj) next ∧
        ∀ function : Nat → Option Ptr,
          (∀ id ptr, next.functionOf context id = some ptr → function id = some ptr) →
          next.heap.objectAt obj =
            some { object with property := settle (definitions function) object.property }

theorem Defines.bind {definitions others : (Nat → Option Ptr) → List Definition}
    {first : Builder PUnit} {rest : PUnit → Builder PUnit}
    (hfirst : Defines context obj definitions first)
    (hrest : ∀ result, Defines context obj others (rest result)) :
    Defines context obj (fun function => definitions function ++ others function)
      (first >>= rest) := by
  intro build object result next hsound hobject hreturns
  obtain ⟨value, middle, hvalue, hnext⟩ := Program.bind_eq_some.mp hreturns
  obtain ⟨hmiddleSound, hmiddleSteady, hmiddle⟩ := hfirst build object value middle hsound hobject
    hvalue
  have hnow := hmiddle (middle.functionOf context) fun _ _ h => h
  obtain ⟨hnextSound, hnextSteady, hlast⟩ :=
    hrest value middle _ result next hmiddleSound hnow hnext
  refine ⟨hnextSound, hmiddleSteady.trans hnextSteady, fun function hfunction => ?_⟩
  have hbefore := hmiddle function fun id ptr h => by
    apply hfunction
    rw [Build.functionOf_eq_some_iff] at h ⊢
    exact hnextSteady.kept id _ h
  obtain ⟨_, _, hlast⟩ := hrest value middle _ result next hmiddleSound hbefore hnext
  rw [hlast function hfunction, settle_append]

theorem defines_nil : Defines context obj (fun _ => []) (pure PUnit.unit) := by
  intro build object result next hsound hobject hreturns
  cases Option.some.inj hreturns
  exact ⟨hsound, Build.Steady.refl build, fun _ _ => hobject⟩

theorem Defines.forM {ι : Type} {program : ι → Builder PUnit}
    {definition : (Nat → Option Ptr) → ι → Definition}
    (hprogram : ∀ entry, Defines context obj (fun function => [definition function entry])
      (program entry)) (entries : List ι) :
    Defines context obj (fun function => entries.map (definition function))
      (entries.forM program) := by
  induction entries with
  | nil => exact defines_nil
  | cons entry rest ih => exact (hprogram entry).bind fun _ => ih

/-- A single property is defined. -/
theorem defineProperty_spec {build : Build} {object : JSObject} (hsound : build.Sound context)
    (hobject : build.heap.objectAt obj = some object) (name : String)
    (value getter setter : JSValue) (flags : DefineFlags) :
    let next : Build :=
      { build with heap := build.heap.defineProperty obj name value getter setter flags }
    next.Sound context ∧ build.Steady context (· = obj) next ∧
      next.heap.objectAt obj = some (object.define name value (build.heap.functionPtr getter)
        (build.heap.functionPtr setter) flags) := by
  intro next
  have hsteady : build.Steady context (· = obj) next :=
    Build.steady_modifyObject rfl fun _ => rfl
  refine ⟨hsound.of_table hsteady rfl, hsteady, ?_⟩
  refine (Heap.objectAt_modifyObject _).trans ?_
  rw [if_pos rfl, hobject, Option.map_some]

theorem defines_initField (hget : Answers context get) (field : String × Nat) :
    Defines context obj (fun function => [Template.fieldDefinition function field])
      (initField get obj field) := by
  intro build object result next hsound hobject hreturns
  obtain ⟨func, middle, hfunc, hnext⟩ := Program.bind_eq_some.mp hreturns
  cases Option.some.inj hnext
  obtain ⟨hmiddle, hsteady, hcached⟩ := hget field.2 build func middle hsound hfunc
  have hthere : middle.heap.objectAt obj = some object := by
    rw [hsteady.frame obj (Heap.lt_length_of_objectAt hobject) not_false, hobject]
  obtain ⟨hnextSound, hnextSteady, hnow⟩ := defineProperty_spec hmiddle hthere field.1 func
    .undefined .undefined (.ofValue true true true)
  refine ⟨hnextSound, (hsteady.mono fun _ _ h => h.elim).trans hnextSteady,
    fun function hfunction => ?_⟩
  obtain ⟨ptr, rfl, _⟩ := hmiddle.isFunction hcached
  have hptr : function field.2 = some ptr := by
    apply hfunction
    rw [Build.functionOf_eq_some_iff]
    exact hcached
  refine hnow.trans ?_
  rw [settle_cons, settle_nil, Template.fieldDefinition, hptr]
  rfl

/-- Asking for a function that is there only if it is declared. -/
theorem answers_mapM (hget : Answers context get) {item : Option Nat} {build next : Build}
    {func : Option JSValue} (hsound : build.Sound context)
    (hreturns : item.mapM get build = some (func, next)) :
    next.Sound context ∧ build.Steady context (fun _ => False) next ∧
      func.isSome = item.isSome ∧
      ∀ later, next.Steady context (fun _ => False) later → ∀ function : Nat → Option Ptr,
        (∀ id ptr, later.functionOf context id = some ptr → function id = some ptr) →
        later.heap.functionPtr (func.getD .undefined) = item.bind function := by
  cases item with
  | none =>
      cases Option.some.inj hreturns
      exact ⟨hsound, Build.Steady.refl build, rfl, fun _ _ _ _ => rfl⟩
  | some id =>
      obtain ⟨value, hvalue, rfl⟩ := Program.map_eq_some.mp hreturns
      obtain ⟨hnext, hsteady, hcached⟩ := hget id build value next hsound hvalue
      obtain ⟨ptr, rfl, hfunction⟩ := hnext.isFunction hcached
      refine ⟨hnext, hsteady, rfl, fun later hlater function hall => ?_⟩
      have hptr : later.functionOf context id = some ptr := by
        rw [Build.functionOf_eq_some_iff]
        exact hlater.kept id _ hcached
      rw [Option.getD_some, (hlater.isFunction hfunction).functionPtr_eq, Option.bind_some,
        hall id ptr hptr]

theorem defines_initAccessorProperty (hget : Answers context get)
    (property : String × AccessorPropertyInfo) :
    Defines context obj
      (fun function => [Template.accessorPropertyDefinition function property])
      (initAccessorProperty get obj property) := by
  intro build object result next hsound hobject hreturns
  obtain ⟨getter, first, hgetter, hrest⟩ := Program.bind_eq_some.mp hreturns
  obtain ⟨setter, second, hsetter, hnext⟩ := Program.bind_eq_some.mp hrest
  cases Option.some.inj hnext
  obtain ⟨hfirst, hfirstSteady, hgetterSome, hgetterPtr⟩ := answers_mapM hget hsound hgetter
  obtain ⟨hsecond, hsecondSteady, hsetterSome, hsetterPtr⟩ := answers_mapM hget hfirst hsetter
  have hsteady := hfirstSteady.trans hsecondSteady
  have hthere : second.heap.objectAt obj = some object := by
    rw [hsteady.frame obj (Heap.lt_length_of_objectAt hobject) not_false, hobject]
  obtain ⟨hnextSound, hnextSteady, hnow⟩ := defineProperty_spec hsecond hthere property.1
    .undefined (getter.getD .undefined) (setter.getD .undefined)
    (property.2.attributes.accessorFlags getter.isSome setter.isSome)
  refine ⟨hnextSound, (hsteady.mono fun _ _ h => h.elim).trans hnextSteady,
    fun function hfunction => ?_⟩
  refine hnow.trans ?_
  rw [hgetterPtr second hsecondSteady function hfunction,
    hsetterPtr second (Build.Steady.refl second) function hfunction, hgetterSome, hsetterSome]
  rfl

theorem defines_initPropertys (hget : Answers context get) (template : Template) :
    Defines context obj template.definitions (initPropertys get template obj) :=
  (Defines.forM (defines_initField hget) template.fields).bind fun _ =>
    Defines.forM (defines_initAccessorProperty hget) template.accessorPropertyInfos

end Builder

end QuickjsBackend
