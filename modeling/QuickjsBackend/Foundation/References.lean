import Mathlib.Algebra.BigOperators.Group.List.Basic
import Mathlib.Algebra.GroupWithZero.Nat
import Mathlib.Algebra.Order.BigOperators.Group.List
import Mathlib.Logic.Function.Basic
import Mathlib.Logic.Relation

/-! # Counted references

Nodes refer to others, some of them several times, and some nodes are referred to from
outside. References to a node are counted over a list of nodes that refer; what is
reached from outside is reached along the references.
-/

namespace Foundation

open Relation

universe u

variable {α : Type u}

section Arcs

variable [DecidableEq α] (children : α → List α)

/-- The references from some nodes to one. -/
def arcs (sources : List α) (target : α) : Nat :=
  (sources.map fun source => (children source).count target).sum

variable {children} {other : α → List α} {sources more : List α} {node target : α}

@[simp] theorem arcs_nil : arcs children [] target = 0 := rfl

@[simp] theorem arcs_cons : arcs children (node :: sources) target =
    (children node).count target + arcs children sources target := rfl

@[simp] theorem arcs_append : arcs children (sources ++ more) target =
    arcs children sources target + arcs children more target := by
  simp [arcs]

theorem arcs_perm (hperm : sources.Perm more) :
    arcs children sources target = arcs children more target :=
  (hperm.map _).sum_eq

theorem arcs_pos_iff :
    0 < arcs children sources target ↔ ∃ source ∈ sources, target ∈ children source := by
  induction sources with
  | nil => simp
  | cons node rest ih =>
      rw [arcs_cons, Nat.add_pos_iff_pos_or_pos, ih, List.count_pos_iff]
      simp

theorem arcs_eq_zero_iff :
    arcs children sources target = 0 ↔ ∀ source ∈ sources, target ∉ children source := by
  rw [← not_iff_not, ← ne_eq, ← Nat.pos_iff_ne_zero, arcs_pos_iff]
  simp

/-- The references of one node apart. -/
theorem arcs_erase (hmem : node ∈ sources) :
    arcs children (sources.erase node) target + (children node).count target =
      arcs children sources target := by
  rw [arcs_perm (List.perm_cons_erase hmem), arcs_cons, Nat.add_comm]

/-- A sum over nodes, one of which gets another weight. -/
theorem sum_update (weight : α → Nat) (hnodup : sources.Nodup) (hmem : node ∈ sources) (n : Nat) :
    (sources.map (Function.update weight node n)).sum + weight node =
      (sources.map weight).sum + n := by
  have hperm := List.perm_cons_erase hmem
  have hrest : (sources.erase node).map (Function.update weight node n) =
      (sources.erase node).map weight :=
    List.map_congr_left fun source hsource =>
      Function.update_of_ne (hnodup.mem_erase_iff.mp hsource).1 _ _
  rw [(hperm.map _).sum_eq, (hperm.map weight).sum_eq, List.map_cons, List.map_cons, hrest,
    List.sum_cons, List.sum_cons, Function.update_self]
  omega

/-- A node among others gets other references. -/
theorem arcs_update (hnodup : sources.Nodup) (hmem : node ∈ sources) (changed : List α) :
    arcs (Function.update children node changed) sources target + (children node).count target =
      arcs children sources target + changed.count target := by
  rw [arcs, arcs, ← sum_update (fun source => (children source).count target) hnodup hmem]
  congr 3
  funext source
  by_cases heq : source = node
  · subst source
    rw [Function.update_self, Function.update_self]
  · rw [Function.update_of_ne heq, Function.update_of_ne heq]

/-- Nodes that refer to nothing may be left out. -/
theorem arcs_of_subset (hnodup : sources.Nodup) (hmore : more.Nodup) (hsub : sources ⊆ more)
    (hrest : ∀ source ∈ more, source ∉ sources → children source = []) :
    arcs children sources target = arcs children more target := by
  induction sources generalizing more with
  | nil =>
      refine (arcs_eq_zero_iff.mpr fun source hsource => ?_).symm
      simp only [hrest source hsource (by simp), List.not_mem_nil, not_false_eq_true]
  | cons node rest ih =>
      obtain ⟨hnode, hnodupRest⟩ := List.nodup_cons.mp hnodup
      have hmem : node ∈ more := hsub (by simp)
      rw [← arcs_erase hmem, arcs_cons, Nat.add_comm]
      congr 1
      refine ih hnodupRest (hmore.erase node) (fun source hsource => ?_)
        fun source hsource hout => ?_
      · exact hmore.mem_erase_iff.mpr
          ⟨ne_of_mem_of_not_mem hsource hnode, hsub (List.mem_cons_of_mem _ hsource)⟩
      · obtain ⟨hne, hsource⟩ := hmore.mem_erase_iff.mp hsource
        exact hrest source hsource (by simp [hne, hout])

end Arcs

section Reached

variable (children : α → List α) (external : α → Nat)

/-- The node is referred to from outside, directly or along references. -/
def Reached (node : α) : Prop :=
  ∃ root, 0 < external root ∧ ReflTransGen (fun source target => target ∈ children source) root node

variable {children external} {other : α → List α} {outer : α → Nat} {node target : α}

theorem reached_of_external (hexternal : 0 < external node) : Reached children external node :=
  ⟨node, hexternal, .refl⟩

theorem Reached.child (hreached : Reached children external node)
    (hchild : target ∈ children node) : Reached children external target := by
  obtain ⟨root, hroot, hpath⟩ := hreached
  exact ⟨root, hroot, hpath.tail hchild⟩

/-- The induction rule: what holds of the roots and of the children of what it holds of. -/
theorem Reached.of_closed {p : α → Prop} (hroots : ∀ root, 0 < external root → p root)
    (hclosed : ∀ source target, p source → target ∈ children source → p target)
    (hreached : Reached children external node) : p node := by
  obtain ⟨root, hroot, hpath⟩ := hreached
  induction hpath with
  | refl => exact hroots root hroot
  | tail _ hchild ih => exact hclosed _ _ ih hchild

theorem Reached.cases (hreached : Reached children external node) :
    0 < external node ∨ ∃ source, Reached children external source ∧ node ∈ children source := by
  obtain ⟨root, hroot, hpath⟩ := hreached
  cases hpath with
  | refl => exact .inl hroot
  | tail hpath hchild => exact .inr ⟨_, ⟨root, hroot, hpath⟩, hchild⟩

/-- What is reached is counted. -/
theorem Reached.count_pos [DecidableEq α] {sources : List α}
    (hreached : Reached children external node)
    (hsources : ∀ source, Reached children external source → source ∈ sources) :
    0 < external node + arcs children sources node := by
  rcases hreached.cases with hroot | ⟨source, hsource, hchild⟩
  · omega
  · have hpos := arcs_pos_iff.mpr ⟨source, hsources source hsource, hchild⟩
    omega

theorem Reached.mono (hexternal : ∀ root, 0 < external root → 0 < outer root)
    (hsame : ∀ source, Reached children external source → other source = children source)
    (hreached : Reached children external node) : Reached other outer node := by
  obtain ⟨root, hroot, hpath⟩ := hreached
  refine ⟨root, hexternal root hroot, ?_⟩
  induction hpath with
  | refl => exact .refl
  | tail hpath hchild ih =>
      refine ih.tail ?_
      rwa [hsame _ ⟨root, hroot, hpath⟩]

/-- Changes out of reach are not seen. -/
theorem reached_congr (hsame : ∀ source, Reached children external source →
    other source = children source) :
    Reached other external node ↔ Reached children external node := by
  constructor
  · refine fun hreached => hreached.of_closed (fun root hroot => reached_of_external hroot) ?_
    intro source target hsource hchild
    rw [hsame source hsource] at hchild
    exact hsource.child hchild
  · exact fun hreached => hreached.mono (fun _ hroot => hroot) hsame

end Reached

end Foundation
