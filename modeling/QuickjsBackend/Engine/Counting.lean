import QuickjsBackend.Engine.Collector

/-! # What the counts of the engine count

The count of an object is the number of the references to it: from outside, from other
objects, and from tasks that will give one back.
-/

namespace QuickjsBackend

open Foundation

namespace Collector

/-- Every reference is counted, and leads to an object. -/
structure Accounted (rt : Collector) : Prop where
  bounded : ∀ {ptr o}, rt.heap ptr = some o → ptr < rt.created
  counted : ∀ {ptr o}, rt.heap ptr = some o → o.refCount =
    rt.external ptr + arcs rt.childrenOf rt.addresses ptr + rt.tasks.count (.release ptr)
  held : ∀ {ptr o}, rt.heap ptr = some o → ∀ child ∈ o.children,
    ∃ held, rt.heap child = some held ∧ o.gcObjType.holds held.gcObjType = true
  named : ∀ {ptr}, 0 < rt.external ptr → ∃ o, rt.heap ptr = some o

/-- Between two operations. -/
structure Settled (rt : Collector) : Prop extends Accounted rt where
  tasks_nil : rt.tasks = []
  gcPhase_none : rt.gcPhase = .none
  zeroRefCountList_nil : rt.zeroRefCountList = []
  tmpObjList_nil : rt.tmpObjList = []
  nodup : rt.gcObjList.Nodup
  members : ∀ ptr, ptr ∈ rt.gcObjList ↔ ∃ o, rt.heap ptr = some o
  fresh : ∀ {ptr o}, rt.heap ptr = some o → o.mark = false ∧ o.freeMark = false ∧ 0 < o.refCount
  finalized_nodup : rt.finalized.Nodup
  finalized_gone : ∀ ptr ∈ rt.finalized, ptr < rt.created ∧ rt.heap ptr = none

variable {rt next : Collector} {ptr child : Ptr} {o : GcObject}

theorem childrenOf_eq (hheap : rt.heap ptr = some o) : rt.childrenOf ptr = o.children := by
  rw [childrenOf, hheap]

theorem exists_of_mem_childrenOf (hchild : child ∈ rt.childrenOf ptr) :
    ∃ o, rt.heap ptr = some o ∧ child ∈ o.children := by
  rw [childrenOf] at hchild
  split at hchild
  · exact ⟨_, ‹_›, hchild⟩
  · cases hchild

theorem mem_addresses : ptr ∈ rt.addresses ↔ ptr < rt.created :=
  List.mem_range

theorem nodup_addresses : rt.addresses.Nodup :=
  List.nodup_range

theorem childrenOf_write (ptr : Ptr) (o : GcObject) :
    (rt.write ptr o).childrenOf = Function.update rt.childrenOf ptr o.children := by
  funext other
  by_cases heq : other = ptr
  · subst other
    simp [childrenOf, write]
  · simp [childrenOf, write, heq]

theorem eq_or_of_write {heap : Ptr → Option GcObject} {written found : GcObject} {other : Ptr}
    (hfound : Function.update heap ptr (some written) other = some found) :
    other = ptr ∧ found = written ∨ other ≠ ptr ∧ heap other = some found := by
  by_cases heq : other = ptr
  · subst other
    rw [Function.update_self, Option.some.injEq] at hfound
    exact .inl ⟨rfl, hfound.symm⟩
  · rw [Function.update_of_ne heq] at hfound
    exact .inr ⟨heq, hfound⟩

theorem ne_of_freed {heap : Ptr → Option GcObject} {found : GcObject} {other : Ptr}
    (hfound : Function.update heap ptr none other = some found) :
    other ≠ ptr ∧ heap other = some found := by
  by_cases heq : other = ptr
  · rw [heq, Function.update_self] at hfound
    cases hfound
  · rw [Function.update_of_ne heq] at hfound
    exact ⟨heq, hfound⟩

namespace Accounted

theorem held_childrenOf (hrt : rt.Accounted) (hchild : child ∈ rt.childrenOf ptr) :
    ∃ held, rt.heap child = some held := by
  obtain ⟨o, hheap, hmem⟩ := exists_of_mem_childrenOf hchild
  obtain ⟨held, hheld, _⟩ := hrt.held hheap child hmem
  exact ⟨held, hheld⟩

/-- What is reachable is in memory. -/
theorem live_of_reachable (hrt : rt.Accounted) (hreachable : rt.Reachable ptr) :
    ∃ o, rt.heap ptr = some o :=
  Reached.of_closed (p := fun node => ∃ o, rt.heap node = some o)
    (fun _ hroot => hrt.named hroot) (fun _ _ _ hchild => hrt.held_childrenOf hchild) hreachable

/-- The lists of the collector can be counted over instead of the addresses. -/
theorem arcs_members (hrt : rt.Accounted) {objects : List Ptr} (hnodup : objects.Nodup)
    (hmembers : ∀ ptr, ptr ∈ objects ↔ ∃ o, rt.heap ptr = some o) :
    arcs rt.childrenOf objects ptr = arcs rt.childrenOf rt.addresses ptr := by
  refine arcs_of_subset hnodup nodup_addresses (fun source hsource => ?_) fun source _ hout => ?_
  · obtain ⟨o, hheap⟩ := (hmembers source).mp hsource
    exact mem_addresses.mpr (hrt.bounded hheap)
  · rw [hmembers, not_exists] at hout
    rw [childrenOf]
    split
    · exact absurd ‹_› (hout _)
    · rfl

/-- What is reachable has a count. -/
theorem refCount_pos (hrt : rt.Accounted) (hheap : rt.heap ptr = some o)
    (hreachable : rt.Reachable ptr) : 0 < o.refCount := by
  have hlive : ∀ source, Reached rt.childrenOf rt.external source → source ∈ rt.addresses := by
    intro source hsource
    obtain ⟨other, hother⟩ := hrt.live_of_reachable hsource
    exact mem_addresses.mpr (hrt.bounded hother)
  have hpos := hreachable.count_pos hlive
  rw [hrt.counted hheap]
  omega

/-- An object is written, and references go between objects, tasks and the outside. -/
theorem rewrite (hrt : rt.Accounted) (hheap : rt.heap ptr = some o) {written : GcObject}
    {tasks : List FreeTask} {external : Ptr → Nat} (htype : written.gcObjType = o.gcObjType)
    (hheld : ∀ child ∈ written.children,
      ∃ held, rt.heap child = some held ∧ o.gcObjType.holds held.gcObjType = true)
    (hbalance : ∀ other, written.children.count other + tasks.count (.release other) +
        external other + (if other = ptr then o.refCount else 0) =
      o.children.count other + rt.tasks.count (.release other) +
        rt.external other + (if other = ptr then written.refCount else 0))
    (hnamed : ∀ {other}, 0 < external other → ∃ o, rt.heap other = some o) :
    Accounted { rt.write ptr written with tasks := tasks, external := external } := by
  have hfound : ∀ {other found}, rt.heap other = some found → ∃ now,
      Function.update rt.heap ptr (some written) other = some now ∧
        now.gcObjType = found.gcObjType := by
    intro other found hfound
    by_cases heq : other = ptr
    · subst other
      rw [hheap, Option.some.injEq] at hfound
      exact ⟨written, Function.update_self _ _ _, hfound ▸ htype⟩
    · exact ⟨found, (Function.update_of_ne heq _ _).trans hfound, rfl⟩
  constructor
  · intro other found hwritten
    rcases eq_or_of_write hwritten with ⟨rfl, -⟩ | ⟨-, hold⟩
    · exact hrt.bounded hheap
    · exact hrt.bounded hold
  · intro other found hwritten
    have harcs : arcs (Function.update rt.childrenOf ptr written.children) rt.addresses other +
        (rt.childrenOf ptr).count other =
        arcs rt.childrenOf rt.addresses other + written.children.count other :=
      arcs_update nodup_addresses (mem_addresses.mpr (hrt.bounded hheap)) written.children
    rw [← childrenOf_write ptr written, childrenOf_eq hheap] at harcs
    have hbal := hbalance other
    change found.refCount = external other +
      arcs (rt.write ptr written).childrenOf rt.addresses other + tasks.count (.release other)
    rcases eq_or_of_write hwritten with ⟨rfl, rfl⟩ | ⟨hne, hold⟩
    · have hcount := hrt.counted hheap
      rw [if_pos rfl, if_pos rfl] at hbal
      omega
    · have hcount := hrt.counted hold
      rw [if_neg hne, if_neg hne] at hbal
      omega
  · intro other found hwritten child hchild
    rcases eq_or_of_write hwritten with ⟨rfl, rfl⟩ | ⟨-, hold⟩
    · obtain ⟨held, hheldHeap, hholds⟩ := hheld child hchild
      obtain ⟨now, hnow, hnowType⟩ := hfound hheldHeap
      exact ⟨now, hnow, by rw [hnowType, htype]; exact hholds⟩
    · obtain ⟨held, hheldHeap, hholds⟩ := hrt.held hold child hchild
      obtain ⟨now, hnow, hnowType⟩ := hfound hheldHeap
      exact ⟨now, hnow, by rw [hnowType]; exact hholds⟩
  · intro other hexternal
    obtain ⟨found, hold⟩ := hnamed hexternal
    obtain ⟨now, hnow, _⟩ := hfound hold
    exact ⟨now, hnow⟩

end Accounted

end Collector

end QuickjsBackend
