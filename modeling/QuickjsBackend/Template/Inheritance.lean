import Mathlib.Data.List.Chain
import QuickjsBackend.Template.Sharing

/-! # Inheritance

In every run the objects of a template inherit from the prototype objects of all
templates up from it, as long as each of these gets one. `HasInstance` knows that
only while the context of the template's function is current: in any other context
the templates have other functions, with other prototype objects.
-/

namespace QuickjsBackend

open Foundation Relation

/-- A template and those it inherits from, to the one without a parent. -/
inductive Lineage (table : List FunctionTemplate) : Nat → List Nat → Prop
  | root {id : Nat} {template : FunctionTemplate} (hthere : table[id]? = some template)
      (hparent : template.parent = none) : Lineage table id [id]
  | child {id parent : Nat} {chain : List Nat} {template : FunctionTemplate}
      (hthere : table[id]? = some template) (hparent : template.parent = some parent)
      (habove : Lineage table parent chain) : Lineage table id (id :: chain)

/-- Each template of the chain gets a prototype object. -/
def AllGive (table : List FunctionTemplate) (chain : List Nat) : Prop :=
  ∀ other ∈ chain, ∀ template, table[other]? = some template → template.givesPrototype = true

theorem AllGive.of_declared {table after : List FunctionTemplate} {chain : List Nat}
    (hdeclared : ∀ id : Nat, (after[id]?).map FunctionTemplate.declared =
      (table[id]?).map FunctionTemplate.declared) (hgives : AllGive table chain) :
    AllGive after chain := by
  intro other hmem template htemplate
  obtain ⟨found, hfound, heq⟩ := exists_of_map_eq (hdeclared other).symm htemplate
  rw [← FunctionTemplate.eq_of_declared FunctionTemplate.givesPrototype (fun _ => rfl) heq]
  exact hgives other hmem found hfound

namespace Lineage

variable {table : List FunctionTemplate} {id other : Nat} {chain : List Nat}

theorem of_declared {after : List FunctionTemplate}
    (hdeclared : ∀ id : Nat, (after[id]?).map FunctionTemplate.declared =
      (table[id]?).map FunctionTemplate.declared) (hlineage : Lineage table id chain) :
    Lineage after id chain := by
  have hsame : ∀ (id : Nat) template, table[id]? = some template → ∃ found,
      after[id]? = some found ∧ found.parent = template.parent := by
    intro id template htemplate
    obtain ⟨found, hfound, heq⟩ := exists_of_map_eq (hdeclared id) htemplate
    exact ⟨found, hfound,
      FunctionTemplate.eq_of_declared FunctionTemplate.parent (fun _ => rfl) heq⟩
  induction hlineage with
  | root hthere hparent =>
      obtain ⟨found, hfound, heq⟩ := hsame _ _ hthere
      exact .root hfound (heq.trans hparent)
  | child hthere hparent _ ih =>
      obtain ⟨found, hfound, heq⟩ := hsame _ _ hthere
      exact .child hfound (heq.trans hparent) ih

/-- A template of the chain has the rest of the chain as its own. -/
theorem above (hlineage : Lineage table id chain) (hmem : other ∈ chain) :
    ∃ rest, Lineage table other rest ∧ ∀ known ∈ rest, known ∈ chain := by
  induction hlineage with
  | root hthere hparent =>
      cases List.mem_singleton.mp hmem
      exact ⟨_, .root hthere hparent, fun _ h => h⟩
  | child hthere hparent habove ih =>
      rcases List.mem_cons.mp hmem with rfl | hmem
      · exact ⟨_, .child hthere hparent habove, fun _ h => h⟩
      · obtain ⟨rest, hrest, hsub⟩ := ih hmem
        exact ⟨rest, hrest, fun known h => List.mem_cons_of_mem _ (hsub known h)⟩

end Lineage

namespace Build

variable {realms : Nat → Realm} {realm : Realm} {build next : Build} {floor context id : Nat}
  {busy : Ptr → Prop} {maker : Ptr → Nat}

section Chain

variable {chain : List Nat}

end Chain

theorem Steady.extended {mine : Ptr → Prop} (hsteady : build.Steady context mine next) :
    build.Extended context next where
  uses := uses_of_declared hsteady.declared
  kept id h := by
    obtain ⟨func, hfunc⟩ := Option.isSome_iff_exists.mp h
    rw [hsteady.kept id func hfunc]
    rfl

section Instance

variable {chain : List Nat} {protos : List Ptr} {obj first : Ptr}

end Instance

variable {chain : List Nat} {template : FunctionTemplate}

end Build

end QuickjsBackend
