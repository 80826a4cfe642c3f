import Mathlib.Data.List.Count
import QuickjsBackend.Engine.Counting

/-! # Objects on the way out

What holds of the objects while tasks are left, whatever the phase, and that it is kept
by the parts of the freeing functions: a count goes down, the references of an object
become tasks, an object leaves the memory or goes from one list to another.
-/

namespace QuickjsBackend

open Foundation

namespace Collector

/-- The lists of the collector, through whose links each object is in one. -/
def links (rt : Collector) : List Ptr :=
  rt.gcObjList ++ rt.zeroRefCountList ++ rt.tmpObjList

/-- Freeing is under way. -/
structure Freeing (rt : Collector) : Prop extends Accounted rt where
  linked : rt.links.Nodup
  members : ∀ ptr, ptr ∈ rt.links ↔ ∃ o, rt.heap ptr = some o
  unmarked : ∀ ptr ∈ rt.gcObjList, ∀ o, rt.heap ptr = some o → o.mark = false
  begun : ∀ {ptr o}, rt.heap ptr = some o → o.freeMark = true → o.children = []
  promised : ∀ {ptr}, .release ptr ∈ rt.tasks → ∃ o, rt.heap ptr = some o
  finishing : ∀ {ptr}, .finish ptr ∈ rt.tasks → ∃ o, rt.heap ptr = some o ∧ o.freeMark = true
  once : ∀ ptr, rt.tasks.count (.finish ptr) ≤ 1
  finalized_nodup : rt.finalized.Nodup
  finalized_gone : ∀ ptr ∈ rt.finalized, ptr < rt.created ∧
    ∀ o, rt.heap ptr = some o → o.freeMark = true ∧ .finish ptr ∉ rt.tasks

variable {rt : Collector} {ptr other : Ptr} {o : GcObject} {task : FreeTask}
  {rest : List FreeTask}

section Links

theorem erase_append_of_nodup {first second : List Ptr} (hnodup : (first ++ second).Nodup)
    (ptr : Ptr) : (first ++ second).erase ptr = first.erase ptr ++ second.erase ptr := by
  by_cases hmem : ptr ∈ first
  · have hout : ptr ∉ second := fun hsecond =>
      (List.nodup_append.mp hnodup).2.2 ptr hmem ptr hsecond rfl
    rw [List.erase_append_left _ hmem, List.erase_of_not_mem hout]
  · rw [List.erase_append_right _ hmem, List.erase_of_not_mem hmem]

theorem links_unlink (hlinked : rt.links.Nodup) (ptr : Ptr) :
    (rt.unlink ptr).links = rt.links.erase ptr := by
  rw [links, links, erase_append_of_nodup hlinked,
    erase_append_of_nodup (List.nodup_append.mp hlinked).1]
  rfl

theorem perm_cons_unlink (hlinked : rt.links.Nodup) (hmem : ptr ∈ rt.links) :
    (ptr :: (rt.unlink ptr).links).Perm rt.links := by
  rw [links_unlink hlinked]
  exact (List.perm_cons_erase hmem).symm

theorem links_queue (hlinked : rt.links.Nodup) (hmem : ptr ∈ rt.links) :
    (rt.queue ptr).links.Perm rt.links := by
  refine List.Perm.trans ?_ (perm_cons_unlink hlinked hmem)
  simp only [links, queue, List.append_assoc, List.cons_append]
  exact List.perm_middle

theorem links_keepZombie (hlinked : rt.links.Nodup) (hmem : ptr ∈ rt.links) :
    (rt.keepZombie ptr).links.Perm rt.links := by
  refine List.Perm.trans ?_ (perm_cons_unlink hlinked hmem)
  simp only [links, keepZombie, List.append_assoc, List.singleton_append]
  rw [← List.append_assoc, ← List.append_assoc]
  exact List.perm_middle

end Links

section Heap

theorem childrenOf_freeMemory (ptr : Ptr) :
    (rt.freeMemory ptr).childrenOf = Function.update rt.childrenOf ptr [] := by
  funext other
  by_cases heq : other = ptr
  · subst other
    simp [childrenOf, freeMemory]
  · simp [childrenOf, freeMemory, heq]

/-- An object that refers to nothing leaves the references as they are. -/
theorem childrenOf_freeMemory_of_begun (hheap : rt.heap ptr = some o) (hnone : o.children = []) :
    (rt.freeMemory ptr).childrenOf = rt.childrenOf := by
  rw [childrenOf_freeMemory, ← hnone, ← childrenOf_eq hheap, Function.update_eq_self]

/-- The work in the objects when one of them changes. -/
theorem heapWork_update {created : Ptr} (hlt : ptr < created) (heap : Ptr → Option GcObject)
    (written : Option GcObject) :
    heapWork (Function.update heap ptr written) created + (heap ptr).elim 0 GcObject.work =
      heapWork heap created + written.elim 0 GcObject.work := by
  rw [heapWork, heapWork,
    ← sum_update (fun ptr => (heap ptr).elim 0 GcObject.work) List.nodup_range
      (List.mem_range.mpr hlt)]
  congr 3
  funext other
  by_cases heq : other = ptr
  · subst other
    rw [Function.update_self, Function.update_self]
  · rw [Function.update_of_ne heq, Function.update_of_ne heq]

/-- The work when an object is written and the tasks and lists change. -/
theorem work_of_write (next : Collector) (hheap : rt.heap ptr = some o) (hlt : ptr < rt.created)
    {written : GcObject} (hnext : next.heap = Function.update rt.heap ptr (some written))
    (hcreated : next.created = rt.created) :
    next.work + o.work + (rt.tasks.map taskWork).sum + rt.tmpObjList.length =
      rt.work + written.work + (next.tasks.map taskWork).sum + next.tmpObjList.length := by
  have hheapWork := heapWork_update hlt rt.heap (some written)
  rw [hheap, ← hnext, Option.elim_some, Option.elim_some] at hheapWork
  rw [work, work, hcreated]
  omega

/-- The work when an object that was begun leaves the memory. -/
theorem work_of_freeMemory (next : Collector) (hheap : rt.heap ptr = some o)
    (hlt : ptr < rt.created) (hmark : o.freeMark = true)
    (hnext : next.heap = Function.update rt.heap ptr none) (hcreated : next.created = rt.created) :
    next.work + (rt.tasks.map taskWork).sum + rt.tmpObjList.length =
      rt.work + (next.tasks.map taskWork).sum + next.tmpObjList.length := by
  have hheapWork := heapWork_update hlt rt.heap none
  rw [hheap, ← hnext, Option.elim_some, Option.elim_none, GcObject.work, if_pos hmark] at hheapWork
  rw [work, work, hcreated]
  omega

theorem sum_taskWork_releases (children : List Ptr) :
    ((children.map FreeTask.release).map taskWork).sum = 2 * children.length := by
  induction children with
  | nil => rfl
  | cons child rest ih =>
      rw [List.map_cons, List.map_cons, List.sum_cons, ih, List.length_cons, taskWork]
      omega

theorem work_beginFree (hheap : rt.heap ptr = some o) (hlt : ptr < rt.created)
    (hmark : o.freeMark = false) : (rt.beginFree ptr o).work < rt.work := by
  have hwork := work_of_write (rt.beginFree ptr o) hheap hlt rfl rfl
  have htasks : ((rt.beginFree ptr o).tasks.map taskWork).sum =
      2 * o.children.length + (1 + (rt.tasks.map taskWork).sum) := by
    rw [Collector.beginFree, List.map_append, List.sum_append, sum_taskWork_releases,
      List.map_cons, List.sum_cons, taskWork]
  have htmp : (rt.beginFree ptr o).tmpObjList = rt.tmpObjList := rfl
  rw [htasks, htmp] at hwork
  simp only [GcObject.work, hmark, Bool.false_eq_true, if_false, if_true] at hwork
  omega

end Heap

namespace Freeing

/-- The objects go to other places of the lists. -/
theorem relink (hrt : rt.Freeing) {gc zero tmp : List Ptr}
    (hperm : (gc ++ zero ++ tmp).Perm rt.links) (hgc : gc ⊆ rt.gcObjList) (phase : GcPhase) :
    Freeing { rt with
      gcObjList := gc, zeroRefCountList := zero, tmpObjList := tmp, gcPhase := phase } where
  bounded := hrt.bounded
  counted := hrt.counted
  held := hrt.held
  named := hrt.named
  linked := hperm.nodup_iff.mpr hrt.linked
  members ptr := hperm.mem_iff.trans (hrt.members ptr)
  unmarked ptr hmem := hrt.unmarked ptr (hgc hmem)
  begun := hrt.begun
  promised := hrt.promised
  finishing := hrt.finishing
  once := hrt.once
  finalized_nodup := hrt.finalized_nodup
  finalized_gone := hrt.finalized_gone

/-- Tasks that speak of no object come and go. -/
theorem retask (hrt : rt.Freeing) {tasks : List FreeTask}
    (hrelease : ∀ ptr, tasks.count (.release ptr) = rt.tasks.count (.release ptr))
    (hfinish : ∀ ptr, tasks.count (.finish ptr) = rt.tasks.count (.finish ptr)) :
    Freeing { rt with tasks := tasks } where
  bounded := hrt.bounded
  counted hheap := (hrt.counted hheap).trans (by rw [← hrelease]; rfl)
  held := hrt.held
  named := hrt.named
  linked := hrt.linked
  members := hrt.members
  unmarked := hrt.unmarked
  begun := hrt.begun
  promised hmem := by
    rw [← List.count_pos_iff, hrelease, List.count_pos_iff] at hmem
    exact hrt.promised hmem
  finishing hmem := by
    rw [← List.count_pos_iff, hfinish, List.count_pos_iff] at hmem
    exact hrt.finishing hmem
  once ptr := (hfinish ptr).trans_le (hrt.once ptr)
  finalized_nodup := hrt.finalized_nodup
  finalized_gone ptr hmem := by
    refine ⟨(hrt.finalized_gone ptr hmem).1, fun o hheap => ?_⟩
    obtain ⟨hmark, hfinished⟩ := (hrt.finalized_gone ptr hmem).2 o hheap
    rw [← List.count_eq_zero, ← hfinish, List.count_eq_zero] at hfinished
    exact ⟨hmark, hfinished⟩

/-- An object is written and the tasks change, with every reference still counted. -/
theorem rewrite (hrt : rt.Freeing) (hheap : rt.heap ptr = some o) {written : GcObject}
    {tasks : List FreeTask} (htype : written.gcObjType = o.gcObjType)
    (hmark : written.mark = o.mark) (hchildren : written.children ⊆ o.children)
    (hbegun : written.freeMark = true → written.children = [])
    (hbalance : ∀ other, written.children.count other + tasks.count (.release other) +
        (if other = ptr then o.refCount else 0) =
      o.children.count other + rt.tasks.count (.release other) +
        (if other = ptr then written.refCount else 0))
    (hfinish : ∀ other ≠ ptr, tasks.count (.finish other) = rt.tasks.count (.finish other))
    (hself : tasks.count (.finish ptr) = rt.tasks.count (.finish ptr) ∧
        written.freeMark = o.freeMark ∨
      o.freeMark = false ∧ written.freeMark = true ∧ tasks.count (.finish ptr) = 1) :
    Freeing { rt.write ptr written with tasks := tasks } := by
  have haccounted : Accounted { rt.write ptr written with
      tasks := tasks, external := rt.external } :=
    hrt.toAccounted.rewrite hheap htype
      (fun child hchild => hrt.held hheap child (hchildren hchild))
      (fun other => by have := hbalance other; omega) fun hexternal => hrt.named hexternal
  have hlive : ∀ other, (∃ o, rt.heap other = some o) ↔
      ∃ o, Function.update rt.heap ptr (some written) other = some o := by
    intro other
    by_cases heq : other = ptr
    · subst other
      simp [hheap]
    · rw [Function.update_of_ne heq]
  refine { haccounted with
    linked := hrt.linked
    members := fun other => (hrt.members other).trans (hlive other)
    unmarked := fun other hmem found hfound => ?_
    begun := fun {other found} hfound hfoundMark => ?_
    promised := fun {other} hmem => (hlive other).mp ?_
    finishing := fun {other} hmem => ?_
    once := fun other => ?_
    finalized_nodup := hrt.finalized_nodup
    finalized_gone := fun other hmem =>
      ⟨(hrt.finalized_gone other hmem).1, fun found hfound => ?_⟩ }
  · rcases eq_or_of_write hfound with ⟨rfl, rfl⟩ | ⟨-, hfound⟩
    · rw [hmark]
      exact hrt.unmarked other hmem o hheap
    · exact hrt.unmarked other hmem found hfound
  · rcases eq_or_of_write hfound with ⟨rfl, rfl⟩ | ⟨-, hfound⟩
    · exact hbegun hfoundMark
    · exact hrt.begun hfound hfoundMark
  · by_cases heq : other = ptr
    · exact ⟨o, heq ▸ hheap⟩
    · have hcount := hbalance other
      rw [if_neg heq, if_neg heq] at hcount
      have hpos : 0 < tasks.count (.release other) := List.count_pos_iff.mpr hmem
      by_cases hold : .release other ∈ rt.tasks
      · exact hrt.promised hold
      · rw [List.count_eq_zero.mpr hold] at hcount
        obtain ⟨held, hheld, _⟩ :=
          hrt.held hheap other (List.count_pos_iff.mp (by omega : 0 < o.children.count other))
        exact ⟨held, hheld⟩
  · have hpos := List.count_pos_iff.mpr hmem
    by_cases heq : other = ptr
    · subst other
      refine ⟨written, Function.update_self _ _ _, ?_⟩
      rcases hself with ⟨hcount, hsame⟩ | ⟨-, hbegins, -⟩
      · rw [hcount, List.count_pos_iff] at hpos
        obtain ⟨found, hfound, hfoundMark⟩ := hrt.finishing hpos
        rw [hheap, Option.some.injEq] at hfound
        rw [hsame, hfound, hfoundMark]
      · exact hbegins
    · rw [hfinish other heq, List.count_pos_iff] at hpos
      obtain ⟨found, hfound, hfoundMark⟩ := hrt.finishing hpos
      exact ⟨found, (Function.update_of_ne heq _ _).trans hfound, hfoundMark⟩
  · by_cases heq : other = ptr
    · subst other
      rcases hself with ⟨hcount, -⟩ | ⟨-, -, hcount⟩
      · exact hcount.trans_le (hrt.once _)
      · exact hcount.le
    · exact (hfinish other heq).trans_le (hrt.once other)
  · rcases eq_or_of_write hfound with ⟨rfl, rfl⟩ | ⟨hne, hfound⟩
    · obtain ⟨hgone, hnone⟩ := (hrt.finalized_gone other hmem).2 o hheap
      rcases hself with ⟨hcount, hsame⟩ | ⟨hbegins, -, -⟩
      · rw [← List.count_eq_zero] at hnone
        exact ⟨hsame.trans hgone, List.count_eq_zero.mp (hcount.trans hnone)⟩
      · rw [hbegins] at hgone
        cases hgone
    · obtain ⟨hgone, hnone⟩ := (hrt.finalized_gone other hmem).2 found hfound
      rw [← List.count_eq_zero] at hnone
      exact ⟨hgone, List.count_eq_zero.mp ((hfinish other hne).trans hnone)⟩

/-- A reference that a task was to give back is not counted any more. -/
theorem drop (hrt : rt.Freeing) (htasks : rt.tasks = .release ptr :: rest)
    (hheap : rt.heap ptr = some o) :
    0 < o.refCount ∧ Freeing { rt.write ptr { o with refCount := o.refCount - 1 } with
      tasks := rest } := by
  have hpos : 0 < o.refCount := by
    have hcount := hrt.counted hheap
    rw [htasks, List.count_cons_self] at hcount
    omega
  refine ⟨hpos, hrt.rewrite hheap rfl rfl (fun _ hmem => hmem)
    (fun hmark => hrt.begun (o := o) hheap hmark) ?_ ?_ ?_⟩
  · intro other
    rw [htasks]
    by_cases heq : other = ptr
    · subst other
      rw [List.count_cons_self, if_pos rfl, if_pos rfl]
      dsimp only
      omega
    · rw [List.count_cons_of_ne (by simpa using Ne.symm heq), if_neg heq, if_neg heq]
  · intro other _
    rw [htasks, List.count_cons_of_ne (by simp)]
  · rw [htasks, List.count_cons_of_ne (by simp)]
    exact .inl ⟨rfl, rfl⟩

theorem count_release_map (children : List Ptr) (other : Ptr) :
    (children.map FreeTask.release).count (.release other) = children.count other :=
  List.count_map_of_injective children _ (fun _ _ heq => FreeTask.release.inj heq) other

theorem count_finish_map (children : List Ptr) (other : Ptr) :
    (children.map FreeTask.release).count (.finish other) = 0 :=
  List.count_eq_zero.mpr (by simp)

/-- What an object refers to becomes tasks. -/
theorem beginFree (hrt : rt.Freeing) (hheap : rt.heap ptr = some o) (hmark : o.freeMark = false) :
    (rt.beginFree ptr o).Freeing := by
  have hnone : rt.tasks.count (.finish ptr) = 0 := by
    refine List.count_eq_zero.mpr fun hmem => ?_
    obtain ⟨found, hfound, hfoundMark⟩ := hrt.finishing hmem
    rw [hheap, Option.some.injEq] at hfound
    rw [← hfound, hmark] at hfoundMark
    cases hfoundMark
  refine hrt.rewrite hheap rfl rfl (List.nil_subset _) (fun _ => rfl) ?_ ?_
    (.inr ⟨hmark, rfl, ?_⟩)
  · intro other
    rw [List.count_append, List.count_cons_of_ne (by simp), count_release_map, List.count_nil]
    dsimp only
    omega
  · intro other hne
    rw [List.count_append, List.count_cons_of_ne (by simpa using Ne.symm hne), count_finish_map,
      Nat.zero_add]
  · rw [List.count_append, List.count_cons_self, count_finish_map, hnone]

/-- What is finished was not finished before. -/
theorem finish_notMem (hrt : rt.Freeing) (htasks : rt.tasks = .finish ptr :: rest) :
    .finish ptr ∉ rest := by
  have honce := hrt.once ptr
  rw [htasks, List.count_cons_self] at honce
  exact List.count_eq_zero.mp (by omega)

theorem finish_mem_rest (hrt : rt.Freeing) (htasks : rt.tasks = .finish ptr :: rest) :
    .finish other ∈ rest ↔ other ≠ ptr ∧ .finish other ∈ rt.tasks := by
  rw [htasks]
  constructor
  · exact fun hother => ⟨fun heq => hrt.finish_notMem htasks (heq ▸ hother),
      List.mem_cons_of_mem _ hother⟩
  · rintro ⟨hne, hother⟩
    exact (List.mem_cons.mp hother).resolve_left (by simpa using hne)

theorem notMem_finalized (hrt : rt.Freeing) (htasks : rt.tasks = .finish ptr :: rest) :
    ptr ∉ rt.finalized := by
  intro hmem
  have hfinish : .finish ptr ∈ rt.tasks := by rw [htasks]; exact List.mem_cons_self
  obtain ⟨o, hheap, _⟩ := hrt.finishing hfinish
  exact ((hrt.finalized_gone ptr hmem).2 o hheap).2 hfinish

/-- An object to which nothing refers leaves the memory. -/
theorem vanish (hrt : rt.Freeing) (htasks : rt.tasks = .finish ptr :: rest)
    (hheap : rt.heap ptr = some o) (hzero : o.refCount = 0) :
    Freeing { (rt.unlink ptr).freeMemory ptr with tasks := rest } := by
  have hcount := hrt.counted hheap
  have hbegun : o.children = [] := by
    have hmem : .finish ptr ∈ rt.tasks := by rw [htasks]; exact List.mem_cons_self
    obtain ⟨found, hfound, hmark⟩ := hrt.finishing hmem
    rw [hheap, Option.some.injEq] at hfound
    exact hrt.begun hheap (hfound ▸ hmark)
  have hchildren : (rt.freeMemory ptr).childrenOf = rt.childrenOf :=
    childrenOf_freeMemory_of_begun hheap hbegun
  have hrefers : ∀ source found, rt.heap source = some found → ptr ∉ found.children := by
    intro source found hfound
    have harcs : arcs rt.childrenOf rt.addresses ptr = 0 := by omega
    rw [← childrenOf_eq hfound]
    exact arcs_eq_zero_iff.mp harcs source (mem_addresses.mpr (hrt.bounded hfound))
  have hother : ∀ {other found}, Function.update rt.heap ptr none other = some found →
      other ≠ ptr ∧ rt.heap other = some found := ne_of_freed
  have hrest : ∀ {other}, .finish other ∈ rest → other ≠ ptr := by
    rintro other hmem rfl
    exact hrt.finish_notMem htasks hmem
  have hrelease : ∀ other, rt.tasks.count (.release other) = rest.count (.release other) := by
    intro other
    rw [htasks, List.count_cons_of_ne (by simp)]
  have hsub : rest ⊆ rt.tasks := by
    rw [htasks]
    exact List.subset_cons_self _ _
  constructor
  · constructor
    · exact fun hfound => hrt.bounded (hother hfound).2
    · intro other found hfound
      have hold := hrt.counted (hother hfound).2
      rw [hrelease, ← hchildren] at hold
      exact hold
    · intro other found hfound child hchild
      obtain ⟨held, hheld, hholds⟩ := hrt.held (hother hfound).2 child hchild
      refine ⟨held, (Function.update_of_ne ?_ _ _).trans hheld, hholds⟩
      exact ne_of_mem_of_not_mem hchild (hrefers other found (hother hfound).2)
    · intro other hexternal
      obtain ⟨found, hfound⟩ := hrt.named hexternal
      refine ⟨found, (Function.update_of_ne ?_ _ _).trans hfound⟩
      rintro rfl
      change 0 < rt.external other at hexternal
      omega
  · exact (links_unlink hrt.linked ptr).symm ▸ hrt.linked.erase ptr
  · intro other
    change other ∈ (rt.unlink ptr).links ↔ _
    rw [links_unlink hrt.linked, hrt.linked.mem_erase_iff, hrt.members]
    constructor
    · rintro ⟨hne, found, hfound⟩
      exact ⟨found, (Function.update_of_ne hne _ _).trans hfound⟩
    · rintro ⟨found, hfound⟩
      exact ⟨(hother hfound).1, found, (hother hfound).2⟩
  · exact fun other hmem found hfound =>
      hrt.unmarked other (List.mem_of_mem_erase hmem) found (hother hfound).2
  · exact fun hfound => hrt.begun (hother hfound).2
  · intro other hmem
    obtain ⟨found, hfound⟩ := hrt.promised (hsub hmem)
    refine ⟨found, (Function.update_of_ne ?_ _ _).trans hfound⟩
    rintro rfl
    have hpos := List.count_pos_iff.mpr (hsub hmem)
    omega
  · intro other hmem
    obtain ⟨found, hfound, hmark⟩ := hrt.finishing (hsub hmem)
    exact ⟨found, (Function.update_of_ne (hrest hmem) _ _).trans hfound, hmark⟩
  · intro other
    have honce := hrt.once other
    rw [htasks] at honce
    exact (List.count_le_count_cons).trans honce
  · exact hrt.finalized_nodup
  · refine fun other hmem => ⟨(hrt.finalized_gone other hmem).1, fun found hfound => ?_⟩
    obtain ⟨hmark, hnone⟩ := (hrt.finalized_gone other hmem).2 found (hother hfound).2
    exact ⟨hmark, fun hfinish => hnone (hsub hfinish)⟩

/-- An object is finished without leaving the memory. -/
theorem pop_finish (hrt : rt.Freeing) (htasks : rt.tasks = .finish ptr :: rest) :
    Freeing { rt with tasks := rest } := by
  have hrelease : ∀ other, rt.tasks.count (.release other) = rest.count (.release other) := by
    intro other
    rw [htasks, List.count_cons_of_ne (by simp)]
  have hsub : rest ⊆ rt.tasks := by
    rw [htasks]
    exact List.subset_cons_self _ _
  refine { hrt with
    counted := fun hheap => (hrt.counted hheap).trans (by rw [hrelease]; rfl)
    promised := fun hmem => hrt.promised (hsub hmem)
    finishing := fun hmem => hrt.finishing (hsub hmem)
    once := fun other => ?_
    finalized_gone := fun other hmem =>
      ⟨(hrt.finalized_gone other hmem).1, fun found hfound => ?_⟩ }
  · have honce := hrt.once other
    rw [htasks] at honce
    exact (List.count_le_count_cons).trans honce
  · obtain ⟨hmark, hnone⟩ := (hrt.finalized_gone other hmem).2 found hfound
    exact ⟨hmark, fun hfinish => hnone (hsub hfinish)⟩

/-- A value that is finished is noted. -/
theorem finalize (hrt : rt.Freeing) (hout : ptr ∉ rt.finalized) (hcreated : ptr < rt.created)
    (hgone : ∀ o, rt.heap ptr = some o → o.freeMark = true ∧ .finish ptr ∉ rt.tasks) :
    Freeing { rt with finalized := ptr :: rt.finalized } :=
  { hrt with
    finalized_nodup := List.nodup_cons.mpr ⟨hout, hrt.finalized_nodup⟩
    finalized_gone := fun other hmem => by
      rcases List.mem_cons.mp hmem with rfl | hmem
      · exact ⟨hcreated, hgone⟩
      · exact hrt.finalized_gone other hmem }

end Freeing

end Collector

end QuickjsBackend
