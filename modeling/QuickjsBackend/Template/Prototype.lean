import QuickjsBackend.Template.Constructor

/-! # The property named prototype

`JS_SetConstructor` defines it last, and is refused where an accessor that cannot
be deleted has the name already. A template whose function has been given a
prototype object keeps it; prototype objects are linked like their templates, as
long as every template up the chain has one.
-/

namespace QuickjsBackend

open Foundation Relation

namespace Property

variable {own : Option Property} {property : Property} {value : JSValue}
    {getter setter : Option Ptr}

/-- Nothing is there that cannot be redefined. -/
def Open (own : Option Property) : Prop :=
  ∀ property, own = some property → property.configurable = true

/-- An accessor that can be neither deleted nor turned into data. -/
def Fixed (own : Option Property) : Prop :=
  ∃ property, own = some property ∧ property.configurable = false ∧
    ∀ value, property.slot = .value value → value = .undefined ∧ property.writable = false

theorem open_none : Open none := fun _ h => nomatch h

theorem checkDefinePropFlags_of_configurable (hconfigurable : property.configurable = true)
    (flags : DefineFlags) : property.checkDefinePropFlags flags = true := by
  rw [checkDefinePropFlags, if_pos hconfigurable]

/-- What can be redefined becomes the value. -/
theorem define_value_of_open (hopen : Open own) (configurable writable enumerable : Bool) :
    define own value getter setter (.ofValue configurable writable enumerable) =
      { slot := .value value, configurable, writable, enumerable } := by
  cases own with
  | none => rfl
  | some property =>
      have hconfigurable := hopen property rfl
      simp only [define, redefine, checkDefinePropFlags_of_configurable hconfigurable, if_true]
      cases hslot : property.slot with
      | value old =>
          simp [DefineFlags.ofValue, DefineFlags.hasAccessor, hconfigurable, withValue, mask]
      | getset => simp [DefineFlags.ofValue, DefineFlags.hasAccessor, withValue, mask]

theorem configurable_of_redefine {changed : Property} {flags : DefineFlags}
    (hflags : flags.hasConfigurable = false)
    (hchanged : property.redefine value getter setter flags = some changed) :
    changed.configurable = property.configurable := by
  unfold redefine at hchanged
  split at hchanged
  next =>
    split at hchanged
    next =>
      split at hchanged
      next =>
        cases hchanged
        simp [mask, withAccessor, hflags]
      next =>
        split at hchanged
        next => cases hchanged
        next =>
          cases hchanged
          simp [mask, withAccessor, hflags]
    next =>
      split at hchanged
      next =>
        split at hchanged
        next =>
          cases hchanged
          simp [mask, withValue, hflags]
        next =>
          split at hchanged
          next => cases hchanged
          next =>
            cases hchanged
            simp [mask, withValue, hflags]
      next =>
        cases hchanged
        simp [mask, hflags]
  next => cases hchanged

/-- An accessor leaves the attributes of what is there. -/
theorem configurable_define_accessor (attributes : PropertyAttribute) (hasGet hasSet : Bool) :
    (define (some property) .undefined getter setter
      (attributes.accessorFlags hasGet hasSet)).configurable = property.configurable := by
  rw [define]
  cases hchanged : property.redefine .undefined getter setter
      (attributes.accessorFlags hasGet hasSet) with
  | none => rfl
  | some changed => exact configurable_of_redefine rfl hchanged

theorem open_define_accessor (hopen : Open (some property)) (attributes : PropertyAttribute)
    (hasGet hasSet : Bool) :
    Open (some (define (some property) .undefined getter setter
      (attributes.accessorFlags hasGet hasSet))) := by
  intro changed hchanged
  cases hchanged
  rw [configurable_define_accessor]
  exact hopen property rfl

/-- A new accessor can be redefined unless it must not be deleted. -/
theorem define_accessor_none (getter setter : Option Ptr) (attributes : PropertyAttribute)
    (hasGet hasSet : Bool) :
    if attributes.dontDelete then
      Fixed (some (define none .undefined getter setter (attributes.accessorFlags hasGet hasSet)))
    else Open (some (define none .undefined getter setter
      (attributes.accessorFlags hasGet hasSet))) := by
  have hconfigurable : (define none .undefined getter setter
      (attributes.accessorFlags hasGet hasSet)).configurable = !attributes.dontDelete := by
    cases hasGet <;> cases hasSet <;> rfl
  split
  next hdontDelete =>
    refine ⟨_, rfl, by rw [hconfigurable, hdontDelete]; rfl, fun value hvalue => ?_⟩
    cases hasGet <;> cases hasSet <;> cases hvalue
    exact ⟨rfl, rfl⟩
  next hdelete =>
    intro property hproperty
    cases hproperty
    rw [hconfigurable]
    simpa using hdelete

/-- A fixed property does not give way to another accessor. -/
theorem fixed_define_accessor (hfixed : Fixed (some property)) (attributes : PropertyAttribute)
    (hasGet hasSet : Bool) :
    Fixed (some (define (some property) .undefined getter setter
      (attributes.accessorFlags hasGet hasSet))) := by
  obtain ⟨_, hfound, hconfigurable, hvalue⟩ := hfixed
  cases hfound
  refine ⟨_, rfl, by rw [configurable_define_accessor, hconfigurable], ?_⟩
  rw [define]
  cases hchanged : property.redefine .undefined getter setter
      (attributes.accessorFlags hasGet hasSet) with
  | none => exact hvalue
  | some changed =>
      cases hslot : property.slot with
      | value old =>
          -- no accessor is defined over data
          obtain ⟨_, hwritable⟩ := hvalue old hslot
          cases hasGet <;> cases hasSet <;>
            simp [redefine, checkDefinePropFlags, hconfigurable, PropertyAttribute.accessorFlags,
              isGetset, hslot, DefineFlags.hasAccessor] at hchanged
          rw [Option.getD_some, ← hchanged]
          exact hvalue
      | getset oldGetter oldSetter =>
          intro value h
          rw [Option.getD_some] at h ⊢
          cases hasGet <;> cases hasSet <;>
            simp [redefine, checkDefinePropFlags, hconfigurable, PropertyAttribute.accessorFlags,
              isGetset, hslot, DefineFlags.hasAccessor, withAccessor, mask] at hchanged <;>
            grind

/-- A fixed property does not give way to a value. -/
theorem define_value_of_fixed (value : JSValue) (hfixed : Fixed own) :
    some (define own value none none (.ofValue false false false)) = own := by
  obtain ⟨property, rfl, hconfigurable, hvalue⟩ := hfixed
  rw [define]
  cases hslot : property.slot with
  | value old =>
      obtain ⟨_, hwritable⟩ := hvalue old hslot
      simp [redefine, DefineFlags.ofValue, DefineFlags.hasAccessor, hconfigurable, hwritable, hslot]
  | getset =>
      simp [redefine, checkDefinePropFlags, hconfigurable, DefineFlags.ofValue, isGetset, hslot,
        DefineFlags.hasAccessor]

end Property

namespace Template

variable (template : Template) (function : Nat → Option Ptr) {name : String}

/-- An accessor of the name is defined that nothing can replace. -/
def keeps (name : String) : Bool :=
  (template.fields.lookup name).isNone &&
    (template.accessorPropertyInfos.lookup name).any fun info => info.attributes.dontDelete

/-- After the fields, what can be redefined still can. -/
theorem open_settle_fields (fields : List (String × Nat)) {own : String → Option Property}
    (hopen : Property.Open (own name)) :
    Property.Open (settle (fields.map (fieldDefinition function)) own name) ∧
      ((own name).isSome ∨ (fields.lookup name).isSome →
        (settle (fields.map (fieldDefinition function)) own name).isSome) := by
  induction fields generalizing own with
  | nil => exact ⟨hopen, fun h => h.elim id fun hnone => nomatch hnone⟩
  | cons field rest ih =>
      rw [List.map_cons, settle_cons]
      by_cases heq : name = field.1
      · subst heq
        have hnow : Property.Open (Function.update own field.1
            (some ((fieldDefinition function field).2 (own field.1))) field.1) := by
          rw [Function.update_self]
          intro property hproperty
          cases hproperty
          simp only [fieldDefinition]
          rw [Property.define_value_of_open hopen]
        refine ⟨(ih hnow).1, fun _ => (ih hnow).2 (.inl ?_)⟩
        rw [Function.update_self]
        rfl
      · have hsame : Function.update own field.1
            (some ((fieldDefinition function field).2 (own field.1))) name = own name :=
          Function.update_of_ne heq _ _
        have hlookup : (field :: rest).lookup name = rest.lookup name := by
          rw [List.lookup_cons, beq_false_of_ne heq]
        rw [hlookup, ← hsame]
        exact ih (hsame ▸ hopen)

/-- The first accessor of a name decides, if nothing is there. -/
theorem settle_accessors (infos : List (String × AccessorPropertyInfo))
    (own : String → Option Property) (name : String) :
    (Property.Fixed (own name) →
      Property.Fixed (settle (infos.map (accessorPropertyDefinition function)) own name)) ∧
    (Property.Open (own name) → (own name).isSome →
      Property.Open (settle (infos.map (accessorPropertyDefinition function)) own name)) ∧
    (own name = none →
      if (infos.lookup name).any fun info => info.attributes.dontDelete then
        Property.Fixed (settle (infos.map (accessorPropertyDefinition function)) own name)
      else Property.Open (settle (infos.map (accessorPropertyDefinition function)) own name)) := by
  induction infos generalizing own with
  | nil =>
      refine ⟨id, fun h _ => h, fun h => ?_⟩
      change Property.Open (own name)
      rw [h]
      exact Property.open_none
  | cons info rest ih =>
      rw [List.map_cons, settle_cons]
      generalize hnext : Function.update own _ _ = next
      obtain ⟨hfixed, hopen, hnone⟩ := ih next
      by_cases heq : name = info.1
      · have hnow : next name =
            some ((accessorPropertyDefinition function info).2 (own name)) := by
          rw [← hnext, heq]
          exact Function.update_self ..
        simp only [accessorPropertyDefinition] at hnow
        refine ⟨fun h => hfixed ?_, fun h hsome => ?_, fun h => ?_⟩
        · have hthere := h
          obtain ⟨property, hproperty, _⟩ := hthere
          rw [hnow, hproperty]
          exact Property.fixed_define_accessor (hproperty ▸ h) _ _ _
        · obtain ⟨property, hproperty⟩ := Option.isSome_iff_exists.mp hsome
          refine hopen ?_ (by rw [hnow]; rfl)
          rw [hnow, hproperty]
          exact Property.open_define_accessor (hproperty ▸ h) _ _ _
        · rw [List.lookup_cons, heq, beq_self_eq_true]
          have hfirst := Property.define_accessor_none (info.2.getter.bind function)
            (info.2.effectiveSetter.bind function) info.2.attributes
            info.2.getter.isSome info.2.effectiveSetter.isSome
          rw [h] at hnow
          rw [← hnow] at hfirst
          rw [← heq]
          cases hdontDelete : info.2.attributes.dontDelete with
          | true =>
              rw [hdontDelete, if_pos rfl] at hfirst
              rw [if_pos (by rw [Option.any_some, hdontDelete])]
              exact hfixed hfirst
          | false =>
              rw [hdontDelete, if_neg Bool.false_ne_true] at hfirst
              rw [if_neg (by rw [Option.any_some, hdontDelete]; exact Bool.false_ne_true)]
              exact hopen hfirst (by rw [hnow]; rfl)
      · have hsame : next name = own name := by
          rw [← hnext]
          exact Function.update_of_ne heq _ _
        rw [List.lookup_cons, beq_false_of_ne heq, ← hsame]
        exact ⟨hfixed, hopen, hnone⟩

/-- What stands under a name of which there was nothing. -/
theorem settle_definitions {own : String → Option Property} (hown : own name = none) :
    if template.keeps name then Property.Fixed (settle (template.definitions function) own name)
    else Property.Open (settle (template.definitions function) own name) := by
  rw [definitions, settle_append]
  have hopen : Property.Open (own name) := hown ▸ Property.open_none
  obtain ⟨hfields, hsome⟩ := open_settle_fields function template.fields hopen
  obtain ⟨_, hkeptOpen, hnone⟩ := settle_accessors function template.accessorPropertyInfos
    (settle (template.fields.map (fieldDefinition function)) own) name
  cases hlookup : template.fields.lookup name with
  | some value =>
      rw [keeps, hlookup, if_neg (by simp)]
      exact hkeptOpen hfields (hsome (.inr (by rw [hlookup]; rfl)))
  | none =>
      have hnot : name ∉ (template.fields.map (fieldDefinition function)).map Prod.fst := by
        rw [List.map_map]
        intro hmem
        obtain ⟨field, hfield, rfl⟩ := List.mem_map.mp hmem
        exact absurd rfl (bne_iff_ne.mp (List.lookup_eq_none_iff.mp hlookup field hfield))
      rw [keeps, hlookup, Option.isNone_none, Bool.true_and]
      exact hnone (by rw [settle_of_not_mem hnot, hown])

end Template

namespace Heap

variable (heap : Heap)

/-- The object that is an own property named prototype, as data. -/
def ownPrototype (func : Ptr) : Option Ptr := do
  let object ← heap.objectAt func
  let property ← object.property "prototype"
  match property.slot with
  | .value (.ref .object proto) => some proto
  | _ => none

variable {heap} {func : Ptr} {object : JSObject}

theorem ownPrototype_of_property (hobject : heap.objectAt func = some object) :
    heap.ownPrototype func = (object.property "prototype").bind fun property =>
      match property.slot with
      | .value (.ref .object proto) => some proto
      | _ => none := by
  rw [ownPrototype, hobject]
  rfl

/-- A new function has no prototype object. -/
theorem ownPrototype_functionObject {realm : Realm} {funcData : List JSValue}
    (hobject : heap.objectAt func = some (realm.functionObject funcData)) :
    heap.ownPrototype func = none := by
  rw [ownPrototype_of_property hobject]
  rfl

/-- A function with the definitions of its template gets the prototype object unless
the template keeps the name. -/
theorem ownPrototype_constructor {realm : Realm} {template : FunctionTemplate}
    {function : Nat → Option Ptr} {proto : Ptr}
    (hobject : heap.objectAt func = some (realm.constructorFunction template function proto)) :
    heap.ownPrototype func = if template.keeps "prototype" then none else some proto := by
  rw [ownPrototype_of_property hobject]
  have hsettled := template.settle_definitions function
    (show (realm.functionObject template.funcData).property "prototype" = none from rfl)
  simp only [Realm.constructorFunction, JSObject.define, Function.update_self, Option.bind_some]
  split at hsettled
  next hkeeps =>
    rw [if_pos hkeeps]
    have hsame := Property.define_value_of_fixed (.ref .object proto) hsettled
    obtain ⟨property, hproperty, _, hvalue⟩ := hsettled
    rw [hproperty] at hsame ⊢
    rw [Option.some.inj hsame]
    split
    next found hslot => cases (hvalue _ hslot).1
    next => rfl
  next hkeeps =>
    rw [if_neg hkeeps, Property.define_value_of_open hsettled]

end Heap

namespace FunctionTemplate

variable (template : FunctionTemplate)

/-- The function gets a prototype object. -/
def givesPrototype : Bool := template.isConstrutor && !template.toTemplate.keeps "prototype"

end FunctionTemplate

end QuickjsBackend
