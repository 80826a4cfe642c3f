import Mathlib.Algebra.Order.Group.Nat
import QuickjsBackend.Engine.Cascade
import QuickjsBackend.Engine.TrialDeletion

/-! # Freeing what only counts itself

`gc_free_cycles` frees the values that `gc_scan` has left in `tmp_obj_list`. One that
still has a count keeps its memory to the end, and what is no value is freed with the last
reference to it.
-/

namespace QuickjsBackend

open Foundation

namespace Collector

/-- `gc_free_cycles` is under way. Some that are no values have lost their last reference
just now. -/
structure Cycling (awaited : List Ptr) (rt : Collector) : Prop extends Freeing rt where
  phase : rt.gcPhase = .removeCycles
  stack : ∃ upper, rt.tasks = upper ++ [.freeCycles] ∧
    .freeZeroRefcount ∉ upper ∧ .freeCycles ∉ upper
  kept : ∀ ptr ∈ rt.gcObjList, rt.Reachable ptr
  doomed : ∀ {ptr}, ptr ∈ rt.zeroRefCountList ∨ ptr ∈ rt.tmpObjList → ¬rt.Reachable ptr
  -- a value that has been freed and is still referred to
  zombie : ∀ {ptr o}, ptr ∈ rt.zeroRefCountList → rt.heap ptr = some o →
    o.gcObjType.isValue = true → o.freeMark = true ∧ .finish ptr ∉ rt.tasks ∧ ptr ∈ rt.finalized
  marked : ∀ {ptr o}, rt.heap ptr = some o → o.freeMark = true →
    .finish ptr ∈ rt.tasks ∨ o.gcObjType.isValue = true ∧ ptr ∈ rt.zeroRefCountList
  zeroed : ∀ {ptr o}, rt.heap ptr = some o → o.gcObjType.isValue = false → o.refCount = 0 →
    ptr ∈ awaited ∨ .finish ptr ∈ rt.tasks
  finished : ∀ {ptr o}, .finish ptr ∈ rt.tasks → rt.heap ptr = some o →
    o.gcObjType.isValue = false → o.refCount = 0
  unmarked_of_reachable : ∀ {ptr o}, rt.Reachable ptr → rt.heap ptr = some o → o.freeMark = false

variable {rt next : Collector} {ptr other : Ptr} {o : GcObject} {task : FreeTask}
  {rest tasks : List FreeTask} {awaited : List Ptr}

namespace Cycling

theorem tmp_notMem_zero (hrt : Cycling awaited rt) (hmem : ptr ∈ rt.tmpObjList) :
    ptr ∉ rt.zeroRefCountList := fun hzero =>
  (List.nodup_append.mp hrt.linked).2.2 ptr (List.mem_append_right _ hzero) ptr hmem rfl

/-- An object is begun to be freed: a value that was found, or what has no count. -/
theorem beginFree (hrt : Cycling awaited rt) (hheap : rt.heap ptr = some o)
    (hout : ¬rt.Reachable ptr) (hmark : o.freeMark = false) (hawaited : awaited ⊆ [ptr])
    (hpart : o.gcObjType.isValue = false → o.refCount = 0) :
    Cycling [] (rt.beginFree ptr o) ∧ (rt.beginFree ptr o).work < rt.work ∧
      rt.Keeps (rt.beginFree ptr o) := by
  have hkeeps : rt.Keeps (rt.beginFree ptr o) :=
    .of_write { o with children := [], freeMark := true } hheap (.inr ⟨hout, rfl⟩) rfl rfl rfl
      List.suffix_rfl
  have hreachable : ∀ {other}, (rt.beginFree ptr o).Reachable other ↔ rt.Reachable other :=
    hkeeps.reachable hrt.toAccounted
  have hfinish : ∀ {other}, .finish other ∈ (rt.beginFree ptr o).tasks ↔
      other = ptr ∨ .finish other ∈ rt.tasks := by
    simp [Collector.beginFree]
  obtain ⟨upper, hsplit, hnoLoop, hnoCycles⟩ := hrt.stack
  refine ⟨{ hrt.toFreeing.beginFree hheap hmark with
    phase := hrt.phase
    stack := ⟨o.children.map .release ++ .finish ptr :: upper, ?_, ?_, ?_⟩
    kept := fun other hmem => hreachable.mpr (hrt.kept other hmem)
    doomed := fun hmem => hreachable.not.mpr (hrt.doomed hmem)
    zombie := fun {other found} hmem hfound hvalue => ?_
    marked := fun {other found} hfound hfoundMark => ?_
    zeroed := fun {other found} hfound hvalue hzero => ?_
    finished := fun {other found} hmem hfound hvalue => ?_
    unmarked_of_reachable := fun {other found} hother hfound => ?_ }, ?_, hkeeps⟩
  · change _ ++ _ :: rt.tasks = _
    rw [hsplit, List.append_assoc, List.cons_append]
  · simpa using hnoLoop
  · simpa using hnoCycles
  · rcases eq_or_of_write hfound with ⟨rfl, rfl⟩ | ⟨hne, hold⟩
    · have hzombie := (hrt.zombie hmem hheap hvalue).1
      rw [hmark] at hzombie
      cases hzombie
    · obtain ⟨hfoundMark, hnone, hfinalized⟩ := hrt.zombie hmem hold hvalue
      exact ⟨hfoundMark, fun hother => (hfinish.mp hother).elim hne hnone, hfinalized⟩
  · rcases eq_or_of_write hfound with ⟨rfl, -⟩ | ⟨-, hold⟩
    · exact .inl (hfinish.mpr (.inl rfl))
    · exact (hrt.marked hold hfoundMark).imp_left fun hmem => hfinish.mpr (.inr hmem)
  · rcases eq_or_of_write hfound with ⟨rfl, -⟩ | ⟨hne, hold⟩
    · exact .inr (hfinish.mpr (.inl rfl))
    · rcases hrt.zeroed hold hvalue hzero with hmem | hmem
      · exact absurd (List.mem_singleton.mp (hawaited hmem)) hne
      · exact .inr (hfinish.mpr (.inr hmem))
  · rcases eq_or_of_write hfound with ⟨-, rfl⟩ | ⟨hne, hold⟩
    · exact hpart hvalue
    · exact hrt.finished ((hfinish.mp hmem).resolve_left hne) hold hvalue
  · rcases eq_or_of_write hfound with ⟨rfl, -⟩ | ⟨-, hold⟩
    · exact absurd (hreachable.mp hother) hout
    · exact hrt.unmarked_of_reachable (hreachable.mp hother) hold
  · exact work_beginFree hheap (hrt.bounded hheap) hmark

/-- A count goes down. -/
theorem drop (awaited : List Ptr) (hrt : Cycling [] rt) (htasks : rt.tasks = .release ptr :: rest)
    (hheap : rt.heap ptr = some o) {dropped : Collector}
    (hdropped : dropped = { rt.write ptr { o with refCount := o.refCount - 1 } with tasks := rest })
    (hawaited : o.gcObjType.isValue = false → o.refCount - 1 = 0 → ptr ∈ awaited) :
    0 < o.refCount ∧ (o.gcObjType.isValue = false → o.freeMark = false) ∧
      Cycling awaited dropped ∧ dropped.work + 2 = rt.work ∧ rt.Keeps dropped := by
  obtain ⟨hpos, hfreeing⟩ := hrt.toFreeing.drop htasks hheap
  rw [← hdropped] at hfreeing
  have hfinish : ∀ {other}, .finish other ∈ rest ↔ .finish other ∈ rt.tasks := by
    simp [htasks]
  have hself : o.gcObjType.isValue = false → .finish ptr ∉ rt.tasks := fun hvalue hmem => by
    have hzero := hrt.finished hmem hheap hvalue
    omega
  have hmark : o.gcObjType.isValue = false → o.freeMark = false := by
    intro hvalue
    rw [← Bool.not_eq_true]
    intro hmarked
    rcases hrt.marked hheap hmarked with hmem | ⟨hother, -⟩
    · exact hself hvalue hmem
    · rw [hvalue] at hother
      cases hother
  have hnow : dropped.heap = Function.update rt.heap ptr
      (some { o with refCount := o.refCount - 1 }) := by rw [hdropped]; rfl
  have hrest : dropped.tasks = rest := by rw [hdropped]
  have hgc : dropped.gcObjList = rt.gcObjList := by rw [hdropped]; rfl
  have hzeroList : dropped.zeroRefCountList = rt.zeroRefCountList := by rw [hdropped]; rfl
  have htmp : dropped.tmpObjList = rt.tmpObjList := by rw [hdropped]; rfl
  have hfinalized : dropped.finalized = rt.finalized := by rw [hdropped]; rfl
  have hkeeps : rt.Keeps dropped := .of_write { o with refCount := o.refCount - 1 } hheap
    (.inl ⟨_, rfl⟩) hnow (by rw [hdropped]; rfl) (by rw [hdropped]; rfl)
    (hfinalized ▸ List.suffix_rfl)
  have hreachable : ∀ {other}, dropped.Reachable other ↔ rt.Reachable other :=
    hkeeps.reachable hrt.toAccounted
  -- but for one count the objects are as they were
  have hobjects : ∀ {other found}, dropped.heap other = some found →
      ∃ old, rt.heap other = some old ∧ found.gcObjType = old.gcObjType ∧
        found.freeMark = old.freeMark ∧
        (found.refCount = old.refCount ∨ other = ptr ∧ found.refCount = old.refCount - 1) := by
    intro other found hfound
    rw [hnow] at hfound
    rcases eq_or_of_write hfound with ⟨rfl, rfl⟩ | ⟨-, hold⟩
    · exact ⟨o, hheap, rfl, rfl, .inr ⟨rfl, rfl⟩⟩
    · exact ⟨found, hold, rfl, rfl, .inl rfl⟩
  have hwork := work_of_write dropped hheap (hrt.bounded hheap) hnow (by rw [hdropped]; rfl)
  rw [htmp, hrest, htasks, List.map_cons, List.sum_cons, taskWork] at hwork
  simp only [GcObject.work] at hwork
  obtain ⟨upper, hsplit, hnoLoop, hnoCycles⟩ := hrt.stack
  refine ⟨hpos, hmark, { hfreeing with
    phase := by rw [hdropped]; exact hrt.phase
    stack := ?_
    kept := fun other hmem => hreachable.mpr (hrt.kept other (hgc ▸ hmem))
    doomed := fun hmem => by
      rw [hzeroList, htmp] at hmem
      exact hreachable.not.mpr (hrt.doomed hmem)
    zombie := fun {other found} hmem hfound hvalue => ?_
    marked := fun {other found} hfound hfoundMark => ?_
    zeroed := fun {other found} hfound hvalue hzero => ?_
    finished := fun {other found} hmem hfound hvalue => ?_
    unmarked_of_reachable := fun {other found} hother hfound => ?_ }, by omega, hkeeps⟩
  · cases upper with
    | nil =>
        rw [htasks] at hsplit
        cases hsplit
    | cons first upper =>
        rw [htasks] at hsplit
        exact ⟨upper, hrest.trans (List.cons.inj hsplit).2,
          fun hmem => hnoLoop (List.mem_cons_of_mem _ hmem),
          fun hmem => hnoCycles (List.mem_cons_of_mem _ hmem)⟩
  · obtain ⟨old, hold, htype, hsame, -⟩ := hobjects hfound
    rw [hzeroList] at hmem
    rw [htype] at hvalue
    obtain ⟨hfoundMark, hnone, hgone⟩ := hrt.zombie hmem hold hvalue
    rw [hrest, hfinish, hfinalized, hsame]
    exact ⟨hfoundMark, hnone, hgone⟩
  · obtain ⟨old, hold, htype, hsame, -⟩ := hobjects hfound
    rw [hsame] at hfoundMark
    rw [hrest, hfinish, hzeroList, htype]
    exact hrt.marked hold hfoundMark
  · obtain ⟨old, hold, htype, -, hcount | ⟨rfl, hcount⟩⟩ := hobjects hfound
    · rw [htype] at hvalue
      rw [hcount] at hzero
      rw [hrest, hfinish]
      exact (hrt.zeroed hold hvalue hzero).imp_left fun hmem => absurd hmem List.not_mem_nil
    · rw [hheap, Option.some.injEq] at hold
      subst old
      exact .inl (hawaited (htype ▸ hvalue) (hcount ▸ hzero))
  · rw [hrest, hfinish] at hmem
    obtain ⟨old, hold, htype, -, hcount | ⟨rfl, hcount⟩⟩ := hobjects hfound
    · rw [hcount]
      exact hrt.finished hmem hold (htype ▸ hvalue)
    · rw [hcount, hrt.finished hmem hold (htype ▸ hvalue)]
  · obtain ⟨old, hold, -, hsame, -⟩ := hobjects hfound
    rw [hsame]
    exact hrt.unmarked_of_reachable (hreachable.mp hother) hold

/-- A reference is given back. -/
theorem release_step (hrt : Cycling [] rt) (htasks : rt.tasks = .release ptr :: rest) :
    ∃ next, rt.stepTask (.release ptr) rest = .ok next ∧ Cycling [] next ∧
      next.work < rt.work ∧ rt.Keeps next := by
  have hpromised : .release ptr ∈ rt.tasks := by rw [htasks]; exact List.mem_cons_self
  obtain ⟨o, hheap⟩ := hrt.promised hpromised
  obtain ⟨dropped, hdropped⟩ : ∃ dropped : Collector, dropped = { rt.write ptr
      { o with refCount := o.refCount - 1 } with tasks := rest } := ⟨_, rfl⟩
  have hobject : ({ rt with tasks := rest } : Collector).object ptr = .ok o := by
    simp only [object, hheap]
  have hwrite : ({ rt with tasks := rest } : Collector).write ptr
      { o with refCount := o.refCount - 1 } = dropped := hdropped.symm
  have hnow : dropped.heap ptr = some { o with refCount := o.refCount - 1 } := by
    rw [hdropped]
    exact Function.update_self _ _ _
  by_cases hlast : o.refCount - 1 = 0
  · cases hvalue : o.gcObjType.isValue
    · obtain ⟨hpos, hmark, hcycling, hwork, hkeeps⟩ :=
        hrt.drop [ptr] htasks hheap hdropped fun _ _ => List.mem_singleton_self ptr
      obtain ⟨hbegun, hless, hbegunKeeps⟩ := hcycling.beginFree hnow
        (Releasing.not_reachable hcycling.toFreeing hnow hlast) (hmark hvalue)
        (List.Subset.refl _) fun _ => hlast
      refine ⟨_, ?_, hbegun, by omega, hkeeps.trans hrt.toAccounted hbegunKeeps⟩
      simp only [stepTask, release, hobject, bind, Except.bind, Nat.pos_iff_ne_zero.mp hpos,
        if_false, ne_eq, hlast, not_true_eq_false, hvalue, Bool.false_eq_true, pure, Except.pure,
        ← hwrite]
    · obtain ⟨hpos, -, hcycling, hwork, hkeeps⟩ :=
        hrt.drop [] htasks hheap hdropped fun hpart => by rw [hvalue] at hpart; cases hpart
      refine ⟨dropped, ?_, hcycling, by omega, hkeeps⟩
      have hzero : ({ o with refCount := 0 } : GcObject) =
          { o with refCount := o.refCount - 1 } := by
        rw [hlast]
      simp only [stepTask, release, hobject, bind, Except.bind, Nat.pos_iff_ne_zero.mp hpos,
        if_false, ne_eq, hlast, not_true_eq_false, hvalue, if_true, pure, Except.pure]
      rw [hzero, hwrite]
      simp only [Collector.freeValueRT, hcycling.phase]
  · obtain ⟨hpos, -, hcycling, hwork, hkeeps⟩ :=
      hrt.drop [] htasks hheap hdropped fun _ hzero => absurd hzero hlast
    refine ⟨dropped, ?_, hcycling, by omega, hkeeps⟩
    simp only [stepTask, release, hobject, bind, Except.bind, Nat.pos_iff_ne_zero.mp hpos,
      if_false, ne_eq, hlast, not_false_eq_true, if_true, pure, Except.pure, hwrite]

theorem stack_tail (hrt : Cycling awaited rt) (htasks : rt.tasks = task :: rest)
    (htask : task ≠ .freeCycles) : ∃ upper, rest = upper ++ [.freeCycles] ∧
      .freeZeroRefcount ∉ upper ∧ .freeCycles ∉ upper := by
  obtain ⟨upper, hsplit, hnoLoop, hnoCycles⟩ := hrt.stack
  rw [htasks] at hsplit
  cases upper with
  | nil => exact absurd (List.cons.inj hsplit).1 htask
  | cons first upper =>
      exact ⟨upper, (List.cons.inj hsplit).2, fun hmem => hnoLoop (List.mem_cons_of_mem _ hmem),
        fun hmem => hnoCycles (List.mem_cons_of_mem _ hmem)⟩

/-- The end of a value to which there still are references. -/
theorem keepZombie (hrt : Cycling [] rt) (htasks : rt.tasks = .finish ptr :: rest)
    (hheap : rt.heap ptr = some o) (hmark : o.freeMark = true)
    (hvalue : o.gcObjType.isValue = true) :
    Cycling [] { rt.keepZombie ptr with tasks := rest, finalized := ptr :: rt.finalized } ∧
      work { rt.keepZombie ptr with tasks := rest, finalized := ptr :: rt.finalized } < rt.work ∧
      rt.Keeps { rt.keepZombie ptr with tasks := rest, finalized := ptr :: rt.finalized } := by
  have hnot := hrt.finish_notMem htasks
  have hfinish : ∀ {other}, .finish other ∈ rest ↔ other ≠ ptr ∧ .finish other ∈ rt.tasks :=
    hrt.finish_mem_rest htasks
  have hperm : (rt.gcObjList.erase ptr ++ (rt.zeroRefCountList.erase ptr ++ [ptr]) ++
      rt.tmpObjList.erase ptr).Perm rt.links :=
    links_keepZombie hrt.linked ((hrt.members ptr).mpr ⟨o, hheap⟩)
  have hout : ¬rt.Reachable ptr := fun hreachable => by
    rw [hrt.unmarked_of_reachable hreachable hheap] at hmark
    cases hmark
  have hfreeing : Freeing { rt.keepZombie ptr with
      tasks := rest, finalized := ptr :: rt.finalized } :=
    ((hrt.relink hperm List.erase_subset rt.gcPhase).pop_finish htasks).finalize
      (hrt.notMem_finalized htasks) (hrt.bounded hheap) fun found hfound => by
        change rt.heap ptr = some found at hfound
        rw [hheap, Option.some.injEq] at hfound
        exact ⟨hfound ▸ hmark, hnot⟩
  have hzeroList : ∀ {other}, other ∈ rt.zeroRefCountList.erase ptr ++ [ptr] →
      other = ptr ∨ other ∈ rt.zeroRefCountList := by
    intro other hmem
    rcases List.mem_append.mp hmem with hmem | hmem
    · exact .inr (List.mem_of_mem_erase hmem)
    · exact .inl (List.mem_singleton.mp hmem)
  refine ⟨{ hfreeing with
    phase := hrt.phase
    stack := hrt.stack_tail htasks (by simp)
    kept := fun other hmem => hrt.kept other (List.mem_of_mem_erase hmem)
    doomed := fun {other} hmem => ?_
    zombie := fun {other found} hmem hfound hfoundValue => ?_
    marked := fun {other found} hfound hfoundMark => ?_
    zeroed := fun {other found} hfound hfoundValue hzero => ?_
    finished := fun hmem hfound hfoundValue => hrt.finished (hfinish.mp hmem).2 hfound hfoundValue
    unmarked_of_reachable := hrt.unmarked_of_reachable }, ?_,
    .of_heap_eq rfl rfl rfl (List.suffix_cons _ _)⟩
  · rcases hmem with hmem | hmem
    · rcases hzeroList hmem with rfl | hmem
      · exact hout
      · exact hrt.doomed (.inl hmem)
    · exact hrt.doomed (.inr (List.mem_of_mem_erase hmem))
  · rcases hzeroList hmem with rfl | hmem
    · change rt.heap other = some found at hfound
      rw [hheap, Option.some.injEq] at hfound
      exact ⟨hfound ▸ hmark, hnot, List.mem_cons_self⟩
    · obtain ⟨hfoundMark, hnone, hgone⟩ := hrt.zombie hmem hfound hfoundValue
      exact ⟨hfoundMark, fun hother => hnone (hfinish.mp hother).2, List.mem_cons_of_mem _ hgone⟩
  · by_cases heq : other = ptr
    · subst other
      change rt.heap ptr = some found at hfound
      rw [hheap, Option.some.injEq] at hfound
      exact .inr ⟨hfound ▸ hvalue, List.mem_append_right _ (List.mem_singleton_self ptr)⟩
    · rcases hrt.marked hfound hfoundMark with hmem | ⟨hfoundValue, hmem⟩
      · exact .inl (hfinish.mpr ⟨heq, hmem⟩)
      · exact .inr ⟨hfoundValue, List.mem_append_left _ ((List.mem_erase_of_ne heq).mpr hmem)⟩
  · refine .inr (hfinish.mpr ⟨?_, (hrt.zeroed hfound hfoundValue hzero).resolve_left
      List.not_mem_nil⟩)
    rintro rfl
    change rt.heap other = some found at hfound
    rw [hheap, Option.some.injEq] at hfound
    rw [← hfound, hvalue] at hfoundValue
    cases hfoundValue
  · have htmp : (rt.tmpObjList.erase ptr).length ≤ rt.tmpObjList.length := List.length_erase_le
    rw [work, work, htasks, List.map_cons, List.sum_cons, taskWork]
    simp only [Collector.keepZombie, unlink]
    omega

/-- The end of an object to which there are no references. -/
theorem vanish (hrt : Cycling [] rt) (htasks : rt.tasks = .finish ptr :: rest)
    (hheap : rt.heap ptr = some o) (hmark : o.freeMark = true) (hzero : o.refCount = 0)
    {finalized : List Ptr} (hgrows : rt.finalized <:+ finalized)
    (hself : o.gcObjType.isValue = true → ptr ∈ finalized)
    (hfreeing : Freeing { (rt.unlink ptr).freeMemory ptr with
      tasks := rest, finalized := finalized }) :
    Cycling [] { (rt.unlink ptr).freeMemory ptr with tasks := rest, finalized := finalized } ∧
      work { (rt.unlink ptr).freeMemory ptr with tasks := rest, finalized := finalized } <
        rt.work ∧
      rt.Keeps { (rt.unlink ptr).freeMemory ptr with tasks := rest, finalized := finalized } := by
  have hfinish : ∀ {other}, .finish other ∈ rest ↔ other ≠ ptr ∧ .finish other ∈ rt.tasks :=
    hrt.finish_mem_rest htasks
  have hold : ∀ {other found}, Function.update rt.heap ptr none other = some found →
      other ≠ ptr ∧ rt.heap other = some found := ne_of_freed
  have hkeeps : rt.Keeps { (rt.unlink ptr).freeMemory ptr with
      tasks := rest, finalized := finalized } :=
    .of_freeMemory (Releasing.not_reachable hrt.toFreeing hheap hzero) hheap rfl rfl rfl hgrows
      hself
  have hreachable : ∀ {other}, Reachable { (rt.unlink ptr).freeMemory ptr with
      tasks := rest, finalized := finalized } other ↔ rt.Reachable other :=
    hkeeps.reachable hrt.toAccounted
  refine ⟨{ hfreeing with
    phase := hrt.phase
    stack := hrt.stack_tail htasks (by simp)
    kept := fun other hmem => hreachable.mpr (hrt.kept other (List.mem_of_mem_erase hmem))
    doomed := fun {other} hmem => hreachable.not.mpr (hrt.doomed
      (hmem.imp List.mem_of_mem_erase List.mem_of_mem_erase))
    zombie := fun {other found} hmem hfound hvalue => ?_
    marked := fun {other found} hfound hfoundMark => ?_
    zeroed := fun {other found} hfound hvalue hfoundZero => ?_
    finished := fun hmem hfound hvalue => hrt.finished (hfinish.mp hmem).2 (hold hfound).2 hvalue
    unmarked_of_reachable := fun hother hfound =>
      hrt.unmarked_of_reachable (hreachable.mp hother) (hold hfound).2 }, ?_, hkeeps⟩
  · obtain ⟨hfoundMark, hnone, hgone⟩ :=
      hrt.zombie (List.mem_of_mem_erase hmem) (hold hfound).2 hvalue
    exact ⟨hfoundMark, fun hother => hnone (hfinish.mp hother).2, hgrows.subset hgone⟩
  · obtain ⟨hne, hfound⟩ := hold hfound
    rcases hrt.marked hfound hfoundMark with hmem | ⟨hvalue, hmem⟩
    · exact .inl (hfinish.mpr ⟨hne, hmem⟩)
    · exact .inr ⟨hvalue, (List.mem_erase_of_ne hne).mpr hmem⟩
  · obtain ⟨hne, hfound⟩ := hold hfound
    exact .inr (hfinish.mpr ⟨hne, (hrt.zeroed hfound hvalue hfoundZero).resolve_left
      List.not_mem_nil⟩)
  · have hwork := work_of_freeMemory { (rt.unlink ptr).freeMemory ptr with
      tasks := rest, finalized := finalized } hheap (hrt.bounded hheap) hmark rfl rfl
    rw [htasks, List.map_cons, List.sum_cons, taskWork] at hwork
    have htmp : (rt.tmpObjList.erase ptr).length ≤ rt.tmpObjList.length := List.length_erase_le
    simp only [freeMemory, unlink] at hwork htmp ⊢
    omega

theorem finish_step (hrt : Cycling [] rt) (htasks : rt.tasks = .finish ptr :: rest) :
    ∃ next, rt.stepTask (.finish ptr) rest = .ok next ∧ Cycling [] next ∧
      next.work < rt.work ∧ rt.Keeps next := by
  have hmem : .finish ptr ∈ rt.tasks := by rw [htasks]; exact List.mem_cons_self
  obtain ⟨o, hheap, hmark⟩ := hrt.finishing hmem
  have hobject : ({ rt with tasks := rest } : Collector).object ptr = .ok o := by
    simp only [object, hheap]
  cases hvalue : o.gcObjType.isValue
  · have hzero := hrt.finished hmem hheap hvalue
    refine ⟨_, ?_, hrt.vanish htasks hheap hmark hzero List.suffix_rfl (by simp [hvalue])
      (hrt.toFreeing.vanish htasks hheap hzero)⟩
    simp only [stepTask, finish, hobject, bind, Except.bind, hvalue, Bool.false_eq_true, if_false,
      pure, Except.pure]
    rfl
  · by_cases hzero : o.refCount = 0
    · have hfinalize := (hrt.toFreeing.vanish htasks hheap hzero).finalize
        (hrt.notMem_finalized htasks) (hrt.bounded hheap) fun found hfound => by
          change Function.update rt.heap ptr none ptr = some found at hfound
          rw [Function.update_self] at hfound
          cases hfound
      refine ⟨_, ?_, hrt.vanish htasks hheap hmark hzero (List.suffix_cons ptr _)
        (fun _ => List.mem_cons_self) hfinalize⟩
      simp only [stepTask, finish, hobject, bind, Except.bind, hvalue, if_true, hzero, ne_eq,
        not_true_eq_false, and_false, if_false, pure, Except.pure]
      rfl
    · have hkept : rt.gcPhase = .removeCycles ∧ o.refCount ≠ 0 := ⟨hrt.phase, hzero⟩
      refine ⟨_, ?_, hrt.keepZombie htasks hheap hmark hvalue⟩
      simp only [stepTask, finish, hobject, bind, Except.bind, hvalue, if_true, if_pos hkept, pure,
        Except.pure]
      rfl

/-- What is no value waits for the values that refer to it. -/
theorem postpone (hrt : Cycling [] rt) (hmem : ptr ∈ rt.tmpObjList) (hheap : rt.heap ptr = some o)
    (hvalue : o.gcObjType.isValue = false) :
    Cycling [] (rt.keepZombie ptr) ∧ (rt.keepZombie ptr).work < rt.work ∧
      rt.Keeps (rt.keepZombie ptr) := by
  have hperm : (rt.gcObjList.erase ptr ++ (rt.zeroRefCountList.erase ptr ++ [ptr]) ++
      rt.tmpObjList.erase ptr).Perm rt.links :=
    links_keepZombie hrt.linked ((hrt.members ptr).mpr ⟨o, hheap⟩)
  have hfreeing : Freeing (rt.keepZombie ptr) := hrt.relink hperm List.erase_subset rt.gcPhase
  have hzeroList : ∀ {other}, other ∈ rt.zeroRefCountList.erase ptr ++ [ptr] →
      other = ptr ∨ other ∈ rt.zeroRefCountList := by
    intro other hother
    rcases List.mem_append.mp hother with hother | hother
    · exact .inr (List.mem_of_mem_erase hother)
    · exact .inl (List.mem_singleton.mp hother)
  refine ⟨{ hfreeing with
    phase := hrt.phase
    stack := hrt.stack
    kept := fun other hother => hrt.kept other (List.mem_of_mem_erase hother)
    doomed := fun {other} hother => ?_
    zombie := fun {other found} hother hfound hfoundValue => ?_
    marked := fun {other found} hfound hfoundMark => ?_
    zeroed := hrt.zeroed
    finished := hrt.finished
    unmarked_of_reachable := hrt.unmarked_of_reachable }, ?_,
    .of_heap_eq rfl rfl rfl List.suffix_rfl⟩
  · rcases hother with hother | hother
    · rcases hzeroList hother with rfl | hother
      · exact hrt.doomed (.inr hmem)
      · exact hrt.doomed (.inl hother)
    · exact hrt.doomed (.inr (List.mem_of_mem_erase hother))
  · rcases hzeroList hother with rfl | hother
    · change rt.heap other = some found at hfound
      rw [hheap, Option.some.injEq] at hfound
      rw [← hfound, hvalue] at hfoundValue
      cases hfoundValue
    · exact hrt.zombie hother hfound hfoundValue
  · rcases hrt.marked hfound hfoundMark with hother | ⟨hfoundValue, hother⟩
    · exact .inl hother
    · refine .inr ⟨hfoundValue, List.mem_append_left _ ((List.mem_erase_of_ne ?_).mpr hother)⟩
      exact fun heq => hrt.tmp_notMem_zero hmem (heq ▸ hother)
  · have hlength := List.length_erase_of_mem hmem
    have hpos := List.length_pos_of_mem hmem
    rw [work, work]
    simp only [Collector.keepZombie, unlink]
    omega

/-- When no value is left in `tmp_obj_list`, all that waits is values: the last reference
to anything else came from them. -/
theorem isValue_of_zero (hrt : Cycling [] rt) (htasks : rt.tasks = [.freeCycles])
    (htmp : rt.tmpObjList = []) (hmem : ptr ∈ rt.zeroRefCountList) (hheap : rt.heap ptr = some o) :
    o.gcObjType.isValue = true := by
  -- one that is no value and waits is referred to by another such
  have hsource : ∀ {node found}, node ∈ rt.zeroRefCountList → rt.heap node = some found →
      found.gcObjType.isValue = false → ∃ source other, source ∈ rt.zeroRefCountList ∧
        rt.heap source = some other ∧ other.gcObjType.isValue = false ∧
        other.gcObjType.holds found.gcObjType = true := by
    intro node found hnode hfound hvalue
    have hout := hrt.doomed (.inl hnode)
    have hcount := hrt.counted hfound
    have hnonzero : found.refCount ≠ 0 := fun hzero => by
      have hother := hrt.zeroed hfound hvalue hzero
      simp [htasks] at hother
    have hexternal : rt.external node = 0 :=
      Nat.eq_zero_of_not_pos fun hpos => hout (reached_of_external hpos)
    have hnone : rt.tasks.count (.release node) = 0 := by simp [htasks]
    obtain ⟨source, -, hchild⟩ := arcs_pos_iff.mp
      (show 0 < arcs rt.childrenOf rt.addresses node by omega)
    obtain ⟨other, hother, hchildren⟩ := exists_of_mem_childrenOf hchild
    have hwaits : source ∈ rt.zeroRefCountList := by
      have hlinks := (hrt.members source).mpr ⟨other, hother⟩
      rw [links, htmp, List.append_nil, List.mem_append] at hlinks
      exact hlinks.resolve_left fun hgc => hout ((hrt.kept source hgc).child hchild)
    obtain ⟨held, hheld, hholds⟩ := hrt.held hother node hchildren
    rw [hfound, Option.some.injEq] at hheld
    subst held
    refine ⟨source, other, hwaits, hother, ?_, hholds⟩
    rw [← Bool.not_eq_true]
    intro hotherValue
    rw [hrt.begun hother (hrt.zombie hwaits hother hotherValue).1] at hchildren
    cases hchildren
  rw [← Bool.not_eq_false]
  intro hvalue
  obtain ⟨source, other, hsourceMem, hother, hotherValue, hholds⟩ := hsource hmem hheap hvalue
  obtain ⟨_, last, -, -, hlastValue, hlastHolds⟩ := hsource hsourceMem hother hotherValue
  -- only contexts refer to shapes, and nothing that is no value to contexts
  revert hvalue hotherValue hholds hlastValue hlastHolds
  cases o.gcObjType <;> cases other.gcObjType <;> cases last.gcObjType <;> decide

end Cycling

/-- The loop at the end of `gc_free_cycles`. -/
theorem freeZombies_spec (rt : Collector) {zombies : List Ptr} (hnodup : zombies.Nodup)
    (hvalues : ∀ ptr ∈ zombies, ∃ o, rt.heap ptr = some o ∧ o.gcObjType.isValue = true) :
    zombies.foldlM freeZombie rt =
      .ok { rt with heap := fun ptr => if ptr ∈ zombies then none else rt.heap ptr } := by
  induction zombies generalizing rt with
  | nil => rfl
  | cons ptr rest ih =>
      obtain ⟨hnot, hnodup⟩ := List.nodup_cons.mp hnodup
      obtain ⟨o, hheap, hvalue⟩ := hvalues ptr List.mem_cons_self
      have hfirst : rt.freeZombie ptr = .ok (rt.freeMemory ptr) := by
        simp only [freeZombie, object, hheap, bind, Except.bind, hvalue, if_true, pure, Except.pure]
      rw [List.foldlM_cons, hfirst]
      change rest.foldlM freeZombie (rt.freeMemory ptr) = _
      rw [ih _ hnodup fun other hmem => ?_]
      · congr 2
        funext other
        by_cases heq : other = ptr
        · subst other
          simp [freeMemory]
        · simp [freeMemory, heq]
      · obtain ⟨found, hfound, hfoundValue⟩ := hvalues other (List.mem_cons_of_mem _ hmem)
        exact ⟨found, (Function.update_of_ne (ne_of_mem_of_not_mem hmem hnot) _ _).trans hfound,
          hfoundValue⟩

/-- Nothing but what is reachable is left. -/
def Clean (rt : Collector) : Prop :=
  ∀ ptr o, rt.heap ptr = some o → rt.Reachable ptr

namespace Cycling

theorem zero_notMem_of_reachable (hrt : Cycling awaited rt) (hreachable : rt.Reachable ptr) :
    ptr ∉ rt.zeroRefCountList := fun hmem => hrt.doomed (.inl hmem) hreachable

/-- The last step of `gc_free_cycles`. -/
theorem settle (hrt : Cycling [] rt) (htasks : rt.tasks = [.freeCycles])
    (htmp : rt.tmpObjList = []) {next : Collector}
    (hnext : next = { rt with
      heap := fun ptr => if ptr ∈ rt.zeroRefCountList then none else rt.heap ptr
      zeroRefCountList := [], gcPhase := .none, tasks := [] }) :
    next.Settled ∧ next.Clean ∧ next.work < rt.work ∧ rt.Keeps next := by
  have hold : ∀ {ptr o}, next.heap ptr = some o → ptr ∉ rt.zeroRefCountList ∧
      rt.heap ptr = some o := by
    intro ptr o hheap
    rw [hnext] at hheap
    dsimp only at hheap
    split at hheap
    · cases hheap
    · exact ⟨‹_›, hheap⟩
  have hnew : ∀ {ptr o}, rt.Reachable ptr → rt.heap ptr = some o → next.heap ptr = some o := by
    intro ptr o hreachable hheap
    rw [hnext]
    exact (if_neg (hrt.zero_notMem_of_reachable hreachable)).trans hheap
  have hlinks : ∀ ptr, ptr ∈ rt.gcObjList ∨ ptr ∈ rt.zeroRefCountList ↔
      ∃ o, rt.heap ptr = some o := by
    intro ptr
    rw [← hrt.members, links, htmp, List.append_nil, List.mem_append]
  have hchildren : next.childrenOf = rt.childrenOf := by
    funext ptr
    by_cases hmem : ptr ∈ rt.zeroRefCountList
    · obtain ⟨o, hheap⟩ := (hlinks ptr).mp (.inr hmem)
      have hvalue := hrt.isValue_of_zero htasks htmp hmem hheap
      rw [childrenOf_eq hheap, hrt.begun hheap (hrt.zombie hmem hheap hvalue).1, hnext]
      simp [childrenOf, hmem]
    · rw [hnext]
      simp [childrenOf, hmem]
  have hexternal : next.external = rt.external := by rw [hnext]
  have hcreated : next.created = rt.created := by rw [hnext]
  have hgc : next.gcObjList = rt.gcObjList := by rw [hnext]
  have hfinalized : next.finalized = rt.finalized := by rw [hnext]
  have hreachable : ∀ ptr, next.Reachable ptr ↔ rt.Reachable ptr := by
    intro ptr
    rw [Reachable, Reachable, hchildren, hexternal]
  have hclean : ∀ {ptr o}, next.heap ptr = some o → rt.Reachable ptr := by
    intro ptr o hheap
    obtain ⟨hnot, hheap⟩ := hold hheap
    exact hrt.kept ptr (((hlinks ptr).mpr ⟨o, hheap⟩).resolve_right hnot)
  have haccounted : next.Accounted := by
    constructor
    · exact fun hheap => hcreated ▸ hrt.bounded (hold hheap).2
    · intro ptr o hheap
      have hcount := hrt.counted (hold hheap).2
      have hnone : next.tasks = [] := by rw [hnext]
      rw [htasks] at hcount
      rw [hchildren, hexternal, addresses, hcreated, hnone]
      simpa [addresses] using hcount
    · intro ptr o hheap child hchild
      obtain ⟨held, hheld, hholds⟩ := hrt.held (hold hheap).2 child hchild
      refine ⟨held, hnew ((hclean hheap).child ?_) hheld, hholds⟩
      rwa [childrenOf_eq (hold hheap).2]
    · intro ptr hpos
      rw [hexternal] at hpos
      obtain ⟨o, hheap⟩ := hrt.named hpos
      exact ⟨o, hnew (reached_of_external hpos) hheap⟩
  have hzeroNodup := (List.nodup_append.mp hrt.linked).1
  refine ⟨{ haccounted with
    tasks_nil := by rw [hnext]
    gcPhase_none := by rw [hnext]
    zeroRefCountList_nil := by rw [hnext]
    tmpObjList_nil := by rw [hnext]; exact htmp
    nodup := hgc ▸ (List.nodup_append.mp hzeroNodup).1
    members := fun ptr => ?_
    fresh := fun {ptr o} hheap => ⟨?_, ?_, ?_⟩
    finalized_nodup := hfinalized ▸ hrt.finalized_nodup
    finalized_gone := fun ptr hmem => ?_ }, fun ptr o hheap => (hreachable ptr).mpr (hclean hheap),
    ?_, ?_⟩
  · rw [hgc]
    constructor
    · intro hmem
      obtain ⟨o, hheap⟩ := (hlinks ptr).mp (.inl hmem)
      exact ⟨o, hnew (hrt.kept ptr hmem) hheap⟩
    · rintro ⟨o, hheap⟩
      obtain ⟨hnot, hheap⟩ := hold hheap
      exact ((hlinks ptr).mpr ⟨o, hheap⟩).resolve_right hnot
  · obtain ⟨hnot, hheap⟩ := hold hheap
    exact hrt.unmarked ptr (((hlinks ptr).mpr ⟨o, hheap⟩).resolve_right hnot) o hheap
  · exact hrt.unmarked_of_reachable (hclean hheap) (hold hheap).2
  · exact hrt.refCount_pos (hold hheap).2 (hclean hheap)
  · rw [hfinalized] at hmem
    rw [hcreated]
    refine ⟨(hrt.finalized_gone ptr hmem).1, ?_⟩
    cases hheap : next.heap ptr with
    | none => rfl
    | some o =>
        obtain ⟨hmark, -⟩ := (hrt.finalized_gone ptr hmem).2 o (hold hheap).2
        rw [hrt.unmarked_of_reachable (hclean hheap) (hold hheap).2] at hmark
        cases hmark
  · have hwork : heapWork next.heap next.created ≤ heapWork rt.heap rt.created := by
      rw [hcreated]
      refine List.sum_le_sum fun ptr _ => ?_
      cases hheap : next.heap ptr with
      | none => exact Nat.zero_le _
      | some o => rw [(hold hheap).2]
    rw [work, work, htasks, htmp]
    have hnone : next.tasks = [] ∧ next.tmpObjList = [] := by rw [hnext]; exact ⟨rfl, htmp⟩
    rw [hnone.1, hnone.2, List.map_cons, List.sum_cons, taskWork]
    simp only [List.map_nil, List.sum_nil, List.length_nil]
    omega
  · refine ⟨hexternal, hcreated, fun hreachable hheap => ⟨_, hnew hreachable hheap⟩,
      fun hheap hnow => ?_, fun hnone => ?_, hfinalized ▸ List.suffix_rfl,
      fun {ptr o} hheap hvalue hnone => ?_⟩
    · rw [(hold hnow).2, Option.some.injEq] at hheap
      rw [hheap]
    · rw [hnext]
      simp [hnone]
    · by_cases hmem : ptr ∈ rt.zeroRefCountList
      · rw [hfinalized]
        exact (hrt.zombie hmem hheap hvalue).2.2
      · rw [hnext] at hnone
        simp [hmem, hheap] at hnone

/-- The loop of `gc_free_cycles`. -/
theorem freeCycles_step (hrt : Cycling [] rt) (htasks : rt.tasks = .freeCycles :: rest) :
    ∃ next, rt.stepTask .freeCycles rest = .ok next ∧
      (Cycling [] next ∨ next.Settled ∧ next.Clean) ∧ next.work < rt.work ∧ rt.Keeps next := by
  have hrest : rest = [] := by
    obtain ⟨upper, hsplit, -, hnoCycles⟩ := hrt.stack
    rw [htasks] at hsplit
    cases upper with
    | nil => exact (List.cons.inj hsplit).2
    | cons first upper =>
        obtain ⟨rfl, -⟩ := List.cons.inj hsplit
        exact absurd List.mem_cons_self hnoCycles
  subst rest
  cases hqueue : rt.tmpObjList with
  | nil =>
      have hmembers : ∀ ptr ∈ rt.zeroRefCountList, ∃ o, rt.heap ptr = some o := fun ptr hmem =>
        (hrt.members ptr).mp (List.mem_append_left _ (List.mem_append_right _ hmem))
      have hspec := freeZombies_spec { rt with gcPhase := .none, tasks := [] }
        (List.nodup_append.mp (List.nodup_append.mp hrt.linked).1).2.1 fun ptr hmem => by
          obtain ⟨o, hheap⟩ := hmembers ptr hmem
          exact ⟨o, hheap, hrt.isValue_of_zero htasks hqueue hmem hheap⟩
      have hstep : rt.stepTask .freeCycles [] = freeZombies { rt with
          gcPhase := .none, tasks := [] } := by
        simp only [stepTask, hqueue]
      obtain ⟨hsettled, hclean, hless, hkeeps⟩ := hrt.settle htasks hqueue rfl
      refine ⟨_, ?_, .inr ⟨hsettled, hclean⟩, hless, hkeeps⟩
      rw [hstep, freeZombies, hspec]
      rfl
  | cons ptr queue =>
      have hmem : ptr ∈ rt.tmpObjList := hqueue ▸ List.mem_cons_self
      obtain ⟨o, hheap⟩ := (hrt.members ptr).mp (List.mem_append_right _ hmem)
      have hmark : o.freeMark = false := by
        rw [← Bool.not_eq_true]
        intro hmarked
        rcases hrt.marked hheap hmarked with hfinish | ⟨-, hzero⟩
        · simp [htasks] at hfinish
        · exact hrt.tmp_notMem_zero hmem hzero
      cases hvalue : o.gcObjType.isValue
      · obtain ⟨hcycling, hless, hkeeps⟩ := hrt.postpone hmem hheap hvalue
        refine ⟨rt.keepZombie ptr, ?_, .inl hcycling, hless, hkeeps⟩
        simp only [stepTask, hqueue, object, hheap, bind, Except.bind, hvalue, Bool.false_eq_true,
          if_false, pure, Except.pure]
      · obtain ⟨hcycling, hless, hkeeps⟩ := hrt.beginFree hheap (hrt.doomed (.inr hmem)) hmark
          (List.nil_subset _) fun hpart => by rw [hvalue] at hpart; cases hpart
        refine ⟨rt.beginFree ptr o, ?_, .inl hcycling, hless, hkeeps⟩
        simp only [stepTask, hqueue, object, hheap, bind, Except.bind, hvalue, if_true, pure,
          Except.pure]

theorem step (hrt : Cycling [] rt) (htasks : rt.tasks = task :: rest) :
    ∃ next, rt.stepTask task rest = .ok next ∧
      (Cycling [] next ∨ next.Settled ∧ next.Clean) ∧ next.work < rt.work ∧ rt.Keeps next := by
  cases task with
  | release ptr =>
      obtain ⟨next, hnext, hcycling, hrest⟩ := hrt.release_step htasks
      exact ⟨next, hnext, .inl hcycling, hrest⟩
  | finish ptr =>
      obtain ⟨next, hnext, hcycling, hrest⟩ := hrt.finish_step htasks
      exact ⟨next, hnext, .inl hcycling, hrest⟩
  | freeZeroRefcount =>
      obtain ⟨upper, hsplit, hnoLoop, -⟩ := hrt.stack
      have hmem : .freeZeroRefcount ∈ upper ++ [.freeCycles] := by
        rw [← hsplit, htasks]
        exact List.mem_cons_self
      exact absurd hmem (by simpa using hnoLoop)
  | freeCycles => exact hrt.freeCycles_step htasks

end Cycling

/-- What `gc_scan` leaves to `gc_free_cycles`. -/
theorem Settled.cycling (hrt : rt.Settled) {mark : Ptr → Bool} {gc tmp : List Ptr}
    (hparted : rt.Parted gc tmp) (hgc : ∀ ptr ∈ gc, mark ptr = false ∧ rt.Reachable ptr)
    (htmp : ∀ ptr ∈ tmp, ¬rt.Reachable ptr) {start : Collector}
    (hstart : start = { rt.recount
        (fun ptr => rt.external ptr + arcs rt.childrenOf rt.addresses ptr) mark gc tmp with
      gcPhase := .removeCycles, tasks := [.freeCycles] }) :
    Cycling [] start ∧ rt.Keeps start := by
  have hheap : ∀ ptr, start.heap ptr = (rt.heap ptr).map fun o =>
      { o with refCount := o.refCount, mark := mark ptr } := by
    intro ptr
    rw [hstart]
    cases hheap : rt.heap ptr with
    | none => simp [recount, hheap]
    | some o =>
        have hcount := hrt.counted hheap
        rw [hrt.tasks_nil, List.count_nil, Nat.add_zero] at hcount
        simp [recount, hheap, hcount]
  have hold : ∀ {ptr now}, start.heap ptr = some now →
      ∃ o, rt.heap ptr = some o ∧ now = { o with mark := mark ptr } := by
    intro ptr now hnow
    rw [hheap, Option.map_eq_some_iff] at hnow
    obtain ⟨o, ho, rfl⟩ := hnow
    exact ⟨o, ho, rfl⟩
  have hnew : ∀ {ptr o}, rt.heap ptr = some o →
      start.heap ptr = some { o with mark := mark ptr } := by
    intro ptr o ho
    rw [hheap, ho]
    rfl
  have hchildren : start.childrenOf = rt.childrenOf := by
    funext ptr
    cases ho : rt.heap ptr with
    | none => simp [childrenOf, hheap, ho]
    | some o => simp [childrenOf, hheap, ho]
  have hexternal : start.external = rt.external := by rw [hstart]; rfl
  have hcreated : start.created = rt.created := by rw [hstart]; rfl
  have hgcList : start.gcObjList = gc := by rw [hstart]; rfl
  have hzeroList : start.zeroRefCountList = [] := by
    rw [hstart]
    exact hrt.zeroRefCountList_nil
  have htmpList : start.tmpObjList = tmp := by rw [hstart]; rfl
  have htasks : start.tasks = [.freeCycles] := by rw [hstart]
  have hfinalized : start.finalized = rt.finalized := by rw [hstart]; rfl
  have hreachable : ∀ ptr, start.Reachable ptr ↔ rt.Reachable ptr := by
    intro ptr
    rw [Reachable, Reachable, hchildren, hexternal]
  have hmark : ∀ {ptr now}, start.heap ptr = some now → now.freeMark = false := by
    intro ptr now hnow
    obtain ⟨o, ho, rfl⟩ := hold hnow
    exact (hrt.fresh ho).2.1
  have hlinks : start.links = gc ++ tmp := by
    rw [links, hgcList, hzeroList, htmpList, List.append_nil]
  have haccounted : start.Accounted := by
    constructor
    · intro ptr now hnow
      obtain ⟨o, ho, -⟩ := hold hnow
      exact hcreated ▸ hrt.bounded ho
    · intro ptr now hnow
      obtain ⟨o, ho, rfl⟩ := hold hnow
      have hcount := hrt.counted ho
      rw [hrt.tasks_nil] at hcount
      rw [hchildren, hexternal, addresses, hcreated, htasks]
      simpa [addresses] using hcount
    · intro ptr now hnow child hchild
      obtain ⟨o, ho, rfl⟩ := hold hnow
      obtain ⟨held, hheld, hholds⟩ := hrt.held ho child hchild
      exact ⟨_, hnew hheld, hholds⟩
    · intro ptr hpos
      rw [hexternal] at hpos
      obtain ⟨o, ho⟩ := hrt.named hpos
      exact ⟨_, hnew ho⟩
  have hmembers : ∀ ptr, ptr ∈ start.links ↔ ∃ o, start.heap ptr = some o := by
    intro ptr
    rw [hlinks, hparted.members]
    constructor
    · rintro ⟨o, ho⟩
      exact ⟨_, hnew ho⟩
    · rintro ⟨now, hnow⟩
      obtain ⟨o, ho, -⟩ := hold hnow
      exact ⟨o, ho⟩
  have hfreeing : start.Freeing := { haccounted with
    linked := hlinks ▸ hparted.nodup
    members := hmembers
    unmarked := fun ptr hmem now hnow => by
      obtain ⟨o, -, rfl⟩ := hold hnow
      exact (hgc ptr (hgcList ▸ hmem)).1
    begun := fun hnow hnowMark => by
      rw [hmark hnow] at hnowMark
      cases hnowMark
    promised := fun hmem => by simp [htasks] at hmem
    finishing := fun hmem => by simp [htasks] at hmem
    once := fun ptr => by simp [htasks]
    finalized_nodup := hfinalized ▸ hrt.finalized_nodup
    finalized_gone := fun ptr hmem => by
      rw [hfinalized] at hmem
      obtain ⟨hlt, hnone⟩ := hrt.finalized_gone ptr hmem
      refine ⟨hcreated ▸ hlt, fun now hnow => ?_⟩
      obtain ⟨o, ho, -⟩ := hold hnow
      rw [hnone] at ho
      cases ho }
  constructor
  · exact { hfreeing with
      phase := by rw [hstart]
      stack := ⟨[], htasks, List.not_mem_nil, List.not_mem_nil⟩
      kept := fun ptr hmem => (hreachable ptr).mpr (hgc ptr (hgcList ▸ hmem)).2
      doomed := fun {ptr} hmem => by
        rw [hzeroList, htmpList] at hmem
        exact (hreachable ptr).not.mpr (htmp ptr (hmem.resolve_left List.not_mem_nil))
      zombie := fun hmem => by
        rw [hzeroList] at hmem
        cases hmem
      marked := fun hnow hnowMark => by
        rw [hmark hnow] at hnowMark
        cases hnowMark
      zeroed := fun hnow _ hzero => by
        obtain ⟨o, ho, rfl⟩ := hold hnow
        have hpos := (hrt.fresh ho).2.2
        dsimp only at hzero
        omega
      finished := fun hmem => by simp [htasks] at hmem
      unmarked_of_reachable := fun _ hnow => hmark hnow }
  · constructor
    · exact hexternal
    · exact hcreated
    · intro ptr o hreached ho
      have hmem : ptr ∈ gc := hparted.mem_gc_of_not_tmp ho fun hmem => htmp ptr hmem hreached
      refine ⟨o.refCount, (hnew ho).trans ?_⟩
      rw [(hgc ptr hmem).1, ← (hrt.fresh ho).1]
    · intro ptr o now ho hnow
      rw [hnew ho, Option.some.injEq] at hnow
      rw [← hnow]
    · intro ptr hnone
      rw [hheap, hnone]
      rfl
    · exact hfinalized ▸ List.suffix_rfl
    · intro ptr o ho _ hnone
      rw [hnew ho] at hnone
      cases hnone

/-- `JS_RunGC` completes. What is reachable stays as it was but for the references from
what was not, and that is gone. -/
theorem Settled.jsRunGC_spec (hrt : rt.Settled) :
    ∃ next, rt.jsRunGC = .ok next ∧ next.Settled ∧ next.Clean ∧ rt.Keeps next := by
  obtain ⟨passed, mark, gc, tmp, hdecref, hscan, hparted, hgc, htmp⟩ := hrt.gcScan_spec
  obtain ⟨hcycling, hkeeps⟩ := hrt.cycling hparted hgc htmp rfl
  obtain ⟨next, hnext, hdone, htasks, hnextKeeps⟩ :=
    finishTasks_spec (I := fun rt => Cycling [] rt ∨ rt.Settled ∧ rt.Clean)
      (fun hrt => hrt.elim (fun hcycling => hcycling.toAccounted) fun hdone => hdone.1.toAccounted)
      (fun {rt task rest} hrt htasks => by
        rcases hrt with hcycling | ⟨hsettled, -⟩
        · exact hcycling.step htasks
        · rw [hsettled.tasks_nil] at htasks
          cases htasks)
      (.inl hcycling) (Nat.lt_succ_self _)
  have hdone : next.Settled ∧ next.Clean := by
    refine hdone.resolve_left fun hcycling => ?_
    obtain ⟨upper, hsplit, -⟩ := hcycling.stack
    rw [htasks] at hsplit
    simp at hsplit
  refine ⟨next, ?_, hdone.1, hdone.2, hkeeps.trans hrt.toAccounted hnextKeeps⟩
  rw [jsRunGC, hdecref]
  change (passed.gcScan >>= _) = _
  rw [hscan]
  exact hnext

end Collector

end QuickjsBackend
