import QuickjsBackend.Template.Prototype

/-! # Definitions on top of each other

A name that is declared in more than one way is defined more than once on the same
object. What a definition leaves depends on what is there: an accessor goes over
whatever can be redefined and takes the attributes from there.
-/

namespace QuickjsBackend

open Foundation

namespace Property

section Accessor

variable (property : Property)

def getter : Option Ptr :=
  match property.slot with
  | .value _ => none
  | .getset getter _ => getter

def setter : Option Ptr :=
  match property.slot with
  | .value _ => none
  | .getset _ setter => setter

end Accessor

variable {own : Option Property} {property : Property} {slot : PropertySlot}
  {getter setter wantedGetter wantedSetter : Option Ptr} {attributes wanted : PropertyAttribute}
  {hasGet hasSet : Bool} {value : JSValue}

/-- There is nothing, or data with the enumerability that can be redefined. -/
def Ground (own : Option Property) (there : Option Bool) : Prop :=
  match there with
  | none => own = none
  | some enumerable => ∃ property value, own = some property ∧ property.slot = .value value ∧
      property.configurable = true ∧ property.enumerable = enumerable

end Property

/-- The attributes are those of what is there, which are not replaced. -/
def PropertyAttribute.Agrees (attributes : PropertyAttribute) (there : Option Bool) : Prop :=
  ∀ enumerable ∈ there, attributes.dontDelete = false ∧ attributes.dontEnum = !enumerable

namespace Property

variable {own : Option Property} {property : Property} {there : Option Bool}
  {getter setter wantedGetter wantedSetter : Option Ptr} {attributes : PropertyAttribute}
  {value : JSValue}

theorem Ground.isOpen (hground : Ground own there) : Open own := by
  cases there with
  | none => exact hground ▸ open_none
  | some enumerable =>
      obtain ⟨_, _, rfl, _, hconfigurable, _⟩ := hground
      intro found hfound
      cases hfound
      exact hconfigurable

/-- A field goes over what is there. -/
theorem Ground.field (hground : Ground own there) (value : JSValue) :
    define own value none none (.ofValue true true true) =
      { slot := .value value, configurable := true, writable := true, enumerable := true } :=
  define_value_of_open hground.isOpen true true true

end Property

section Lookup

variable {α : Type} {definitions : List Definition} {own : String → Option Property}
  {name : String}

end Lookup

end QuickjsBackend
