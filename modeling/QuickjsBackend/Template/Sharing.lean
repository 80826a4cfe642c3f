import QuickjsBackend.Template.Separation

/-! # One function for each template

A call of `GetFunction` that returns has made a single function object for each
template that it came to and that had none, and this function stands in all places
where the template is declared.
-/

namespace QuickjsBackend

open Foundation Relation

namespace Build

variable {realms : Nat → Realm} {realm : Realm} {build next : Build} {floor context fuel id : Nat}
  {busy : Ptr → Prop} {func : JSValue}

/-- The templates below one with a function have functions. -/
theorem Derived.reached (hderived : next.Derived realm context floor busy)
    (huses : ∀ id : Nat, (next.table[id]?).map FunctionTemplate.uses =
      (build.table[id]?).map FunctionTemplate.uses)
    (hsome : (next.cached context id).isSome) {other : Nat}
    (hreach : ReflTransGen (build.Calls context) other id) :
    (next.cached context other).isSome := by
  induction hreach using ReflTransGen.head_induction_on with
  | refl => exact hsome
  | head hcall _ ih =>
      obtain ⟨_, template, htemplate, huse⟩ := hcall
      obtain ⟨found, hfound, heq⟩ := exists_of_map_eq (huses _) htemplate
      exact hderived.uses hfound ih (heq ▸ huse)

end Build

end QuickjsBackend
