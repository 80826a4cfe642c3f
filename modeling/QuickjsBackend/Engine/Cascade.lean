import QuickjsBackend.Engine.Freeing

/-! # Freeing what has no count left

A reference that is given back may be the last one: the object is queued and freed, and
with it the references that it has. The calls end, and nothing that is reachable goes.
-/

namespace QuickjsBackend

open Foundation

namespace Collector

/-- What freeing leaves as it was: all that is reachable, but for the counts. -/
structure Keeps (start rt : Collector) : Prop where
  external : rt.external = start.external
  created : rt.created = start.created
  kept : ∀ {ptr o}, start.Reachable ptr → start.heap ptr = some o →
    ∃ n, rt.heap ptr = some { o with refCount := n }
  typed : ∀ {ptr o now}, start.heap ptr = some o → rt.heap ptr = some now →
    now.gcObjType = o.gcObjType
  gone : ∀ {ptr}, start.heap ptr = none → rt.heap ptr = none
  grows : start.finalized <:+ rt.finalized
  freed : ∀ {ptr o}, start.heap ptr = some o → o.gcObjType.isValue = true →
    rt.heap ptr = none → ptr ∈ rt.finalized

variable {start rt next : Collector} {ptr other : Ptr} {o : GcObject} {task : FreeTask}
  {rest tasks : List FreeTask}

namespace Keeps

theorem refl (rt : Collector) : rt.Keeps rt where
  external := rfl
  created := rfl
  kept _ hheap := ⟨_, hheap⟩
  typed hheap hnow := by
    rw [hheap, Option.some.injEq] at hnow
    rw [hnow]
  gone hnone := hnone
  grows := List.suffix_rfl
  freed hheap _ hnone := by
    rw [hheap] at hnone
    cases hnone

theorem reachable (hkeeps : start.Keeps rt) (hstart : start.Accounted) :
    rt.Reachable ptr ↔ start.Reachable ptr := by
  rw [Reachable, hkeeps.external]
  refine reached_congr fun source hsource => ?_
  obtain ⟨o, hheap⟩ := hstart.live_of_reachable hsource
  obtain ⟨n, hkept⟩ := hkeeps.kept hsource hheap
  rw [childrenOf_eq hheap, childrenOf_eq hkept]

theorem trans (hfirst : start.Keeps rt) (hstart : start.Accounted) (hsecond : rt.Keeps next) :
    start.Keeps next where
  external := hsecond.external.trans hfirst.external
  created := hsecond.created.trans hfirst.created
  kept hreachable hheap := by
    obtain ⟨n, hmiddle⟩ := hfirst.kept hreachable hheap
    obtain ⟨m, hlast⟩ := hsecond.kept ((hfirst.reachable hstart).mpr hreachable) hmiddle
    exact ⟨m, hlast⟩
  typed {ptr o now} hheap hnow := by
    cases hmiddle : rt.heap ptr with
    | none =>
        rw [hsecond.gone hmiddle] at hnow
        cases hnow
    | some middle => rw [hsecond.typed hmiddle hnow, hfirst.typed hheap hmiddle]
  gone hnone := hsecond.gone (hfirst.gone hnone)
  grows := hfirst.grows.trans hsecond.grows
  freed {ptr o} hheap hvalue hnone := by
    cases hmiddle : rt.heap ptr with
    | none => exact hsecond.grows.subset (hfirst.freed hheap hvalue hmiddle)
    | some middle =>
        exact hsecond.freed hmiddle (by rw [hfirst.typed hheap hmiddle, hvalue]) hnone

theorem before {now : GcObject} (hkeeps : start.Keeps rt) (hnow : rt.heap ptr = some now) :
    ∃ o, start.heap ptr = some o ∧ now.gcObjType = o.gcObjType := by
  cases hheap : start.heap ptr with
  | none =>
      rw [hkeeps.gone hheap] at hnow
      cases hnow
  | some o => exact ⟨o, rfl, hkeeps.typed hheap hnow⟩

/-- An object is written that keeps all but its count, or that is out of reach. -/
theorem of_write (written : GcObject) (hheap : rt.heap ptr = some o)
    (hwritten : (∃ n, written = { o with refCount := n }) ∨
      ¬rt.Reachable ptr ∧ written.gcObjType = o.gcObjType)
    (hnext : next.heap = Function.update rt.heap ptr (some written))
    (hexternal : next.external = rt.external) (hcreated : next.created = rt.created)
    (hfinalized : rt.finalized <:+ next.finalized) : rt.Keeps next where
  external := hexternal
  created := hcreated
  kept {other found} hreachable hfound := by
    rw [hnext]
    by_cases heq : other = ptr
    · subst other
      rw [hheap, Option.some.injEq] at hfound
      subst found
      rw [Function.update_self]
      rcases hwritten with ⟨n, rfl⟩ | ⟨hout, _⟩
      · exact ⟨n, rfl⟩
      · exact absurd hreachable hout
    · exact ⟨_, (Function.update_of_ne heq _ _).trans hfound⟩
  typed {other found now} hfound hnow := by
    rw [hnext] at hnow
    rcases eq_or_of_write hnow with ⟨rfl, rfl⟩ | ⟨-, hold⟩
    · rw [hheap, Option.some.injEq] at hfound
      subst found
      rcases hwritten with ⟨n, rfl⟩ | ⟨_, htype⟩
      · rfl
      · exact htype
    · rw [hfound, Option.some.injEq] at hold
      rw [hold]
  gone {other} hnone := by
    rw [hnext, Function.update_of_ne, hnone]
    rintro rfl
    rw [hheap] at hnone
    cases hnone
  grows := hfinalized
  freed {other found} hfound _ hnone := by
    rw [hnext] at hnone
    by_cases heq : other = ptr
    · rw [heq, Function.update_self] at hnone
      cases hnone
    · rw [Function.update_of_ne heq, hfound] at hnone
      cases hnone

/-- An object out of reach leaves the memory. -/
theorem of_freeMemory (hout : ¬rt.Reachable ptr) (hheap : rt.heap ptr = some o)
    (hnext : next.heap = Function.update rt.heap ptr none)
    (hexternal : next.external = rt.external) (hcreated : next.created = rt.created)
    (hfinalized : rt.finalized <:+ next.finalized)
    (hself : o.gcObjType.isValue = true → ptr ∈ next.finalized) : rt.Keeps next where
  external := hexternal
  created := hcreated
  kept {other found} hreachable hfound := by
    have hne : other ≠ ptr := fun heq => hout (by rwa [heq] at hreachable)
    exact ⟨found.refCount, by rw [hnext, Function.update_of_ne hne, hfound]⟩
  typed {other found now} hfound hnow := by
    rw [hnext] at hnow
    by_cases heq : other = ptr
    · rw [heq, Function.update_self] at hnow
      cases hnow
    · rw [Function.update_of_ne heq, hfound, Option.some.injEq] at hnow
      rw [hnow]
  gone {other} hnone := by
    rw [hnext]
    by_cases heq : other = ptr
    · rw [heq, Function.update_self]
    · rw [Function.update_of_ne heq, hnone]
  grows := hfinalized
  freed {other found} hfound hvalue hnone := by
    rw [hnext] at hnone
    by_cases heq : other = ptr
    · subst other
      rw [hheap, Option.some.injEq] at hfound
      exact hself (hfound ▸ hvalue)
    · rw [Function.update_of_ne heq, hfound] at hnone
      cases hnone

/-- Only lists, tasks and the phase change. -/
theorem of_heap_eq (hnext : next.heap = rt.heap) (hexternal : next.external = rt.external)
    (hcreated : next.created = rt.created) (hfinalized : rt.finalized <:+ next.finalized) :
    rt.Keeps next where
  external := hexternal
  created := hcreated
  kept _ hfound := ⟨_, hnext ▸ hfound⟩
  typed hfound hnow := by
    rw [hnext, hfound, Option.some.injEq] at hnow
    rw [hnow]
  gone hnone := hnext ▸ hnone
  grows := hfinalized
  freed hfound _ hnone := by
    rw [hnext, hfound] at hnone
    cases hnone

end Keeps

/-- Tasks come to an end when each of them makes the work less. -/
theorem finishTasks_spec {I : Collector → Prop} (haccounted : ∀ {rt}, I rt → rt.Accounted)
    (hstep : ∀ {rt task rest}, I rt → rt.tasks = task :: rest →
      ∃ next, rt.stepTask task rest = .ok next ∧ I next ∧ next.work < rt.work ∧ rt.Keeps next)
    {fuel : Nat} (hrt : I rt) (hfuel : rt.work < fuel) :
    ∃ next, rt.finishTasks fuel = .ok next ∧ I next ∧ next.tasks = [] ∧ rt.Keeps next := by
  induction fuel generalizing rt with
  | zero => omega
  | succ fuel ih =>
      cases htasks : rt.tasks with
      | nil => exact ⟨rt, by simp only [finishTasks, htasks], hrt, htasks, Keeps.refl rt⟩
      | cons task rest =>
          obtain ⟨middle, hmiddle, hinv, hless, hkeeps⟩ := hstep hrt htasks
          obtain ⟨next, hnext, hnextInv, hdone, hrest⟩ := ih hinv (by omega)
          refine ⟨next, ?_, hnextInv, hdone, hkeeps.trans (haccounted hrt) hrest⟩
          simp only [finishTasks, htasks, hmiddle, bind, Except.bind, hnext]

/-- The objects that tasks are to finish are no values. -/
def PartsOnly (rt : Collector) (tasks : List FreeTask) : Prop :=
  ∀ ptr o, .finish ptr ∈ tasks → rt.heap ptr = some o → o.gcObjType.isValue = false

/-- Where the loop of `free_zero_refcount` stands: below the values that it has begun. -/
def Looping (rt : Collector) : Prop :=
  rt.gcPhase = .none ∧ rt.zeroRefCountList = [] ∧ .freeZeroRefcount ∉ rt.tasks ∧
      rt.PartsOnly rt.tasks ∨
    rt.gcPhase = .decref ∧ ∃ upper lower, rt.tasks = upper ++ .freeZeroRefcount :: lower ∧
      .freeZeroRefcount ∉ upper ∧ .freeZeroRefcount ∉ lower ∧ rt.PartsOnly lower

theorem PartsOnly.mono (hrt : rt.PartsOnly tasks) (hkeeps : rt.Keeps next)
    (hsub : rest ⊆ tasks) : next.PartsOnly rest := by
  intro ptr now hmem hnow
  obtain ⟨o, hheap, htype⟩ := hkeeps.before hnow
  rw [htype]
  exact hrt ptr o (hsub hmem) hheap

/-- A task is done, other than the loop. -/
theorem Looping.pop (hrt : rt.Looping) (hkeeps : rt.Keeps next) (htasks : rt.tasks = task :: rest)
    (htask : task ≠ .freeZeroRefcount) (hnext : next.tasks = rest)
    (hphase : next.gcPhase = rt.gcPhase)
    (hzero : rt.zeroRefCountList = [] → next.zeroRefCountList = []) : next.Looping := by
  rw [Looping, htasks] at hrt
  rw [Looping, hphase, hnext]
  rcases hrt with ⟨hnone, hempty, hnot, hparts⟩ |
    ⟨hdecref, upper, lower, hsplit, hupper, hlower, hparts⟩
  · exact .inl ⟨hnone, hzero hempty, fun hmem => hnot (List.mem_cons_of_mem _ hmem),
      hparts.mono hkeeps (List.subset_cons_self _ _)⟩
  · cases upper with
    | nil => exact absurd (List.cons.inj hsplit).1 htask
    | cons first upper =>
        obtain ⟨-, rfl⟩ := List.cons.inj hsplit
        exact .inr ⟨hdecref, upper, lower, rfl,
          fun hmem => hupper (List.mem_cons_of_mem _ hmem), hlower,
          hparts.mono hkeeps (List.Subset.refl _)⟩

/-- Tasks are begun. -/
theorem Looping.push (hrt : rt.Looping) (hkeeps : rt.Keeps next)
    (hnext : next.tasks = tasks ++ rt.tasks) (hmore : .freeZeroRefcount ∉ tasks)
    (hphase : next.gcPhase = rt.gcPhase)
    (hzero : rt.zeroRefCountList = [] → next.zeroRefCountList = [])
    (hbegun : rt.gcPhase = .none → next.PartsOnly tasks) : next.Looping := by
  rw [Looping, hphase, hnext]
  rcases hrt with ⟨hnone, hempty, hnot, hparts⟩ |
    ⟨hdecref, upper, lower, hsplit, hupper, hlower, hparts⟩
  · refine .inl ⟨hnone, hzero hempty, fun hmem => (List.mem_append.mp hmem).elim hmore hnot, ?_⟩
    intro ptr now hmem
    rcases List.mem_append.mp hmem with hmem | hmem
    · exact hbegun hnone ptr now hmem
    · exact hparts.mono hkeeps (List.Subset.refl _) ptr now hmem
  · exact .inr ⟨hdecref, tasks ++ upper, lower, by rw [hsplit, List.append_assoc],
      fun hmem => (List.mem_append.mp hmem).elim hmore hupper, hlower,
      hparts.mono hkeeps (List.Subset.refl _)⟩

/-- Objects are freed that have no count left, at once or one after the other by
`free_zero_refcount`. Some have lost their last reference just now. -/
structure Releasing (awaited : List Ptr) (rt : Collector) : Prop extends Freeing rt where
  tmp_nil : rt.tmpObjList = []
  queued : ∀ ptr ∈ rt.zeroRefCountList,
    ∃ o, rt.heap ptr = some o ∧ o.gcObjType.isValue = true ∧ o.refCount = 0
  zeroed : ∀ {ptr o}, rt.heap ptr = some o → o.refCount = 0 →
    ptr ∈ awaited ∨ ptr ∈ rt.zeroRefCountList ∨ .finish ptr ∈ rt.tasks
  marked : ∀ {ptr o}, rt.heap ptr = some o → o.freeMark = true → .finish ptr ∈ rt.tasks
  finished : ∀ {ptr o}, .finish ptr ∈ rt.tasks → rt.heap ptr = some o → o.refCount = 0
  noCycles : .freeCycles ∉ rt.tasks
  looping : rt.Looping

namespace Releasing

variable {awaited : List Ptr}

theorem not_reachable (hrt : rt.Freeing) (hheap : rt.heap ptr = some o)
    (hzero : o.refCount = 0) : ¬rt.Reachable ptr := fun hreachable => by
  have hpos := hrt.refCount_pos hheap hreachable
  omega

/-- An object without a count is begun to be freed. -/
theorem beginFree (hrt : Releasing awaited rt) (hheap : rt.heap ptr = some o)
    (hzero : o.refCount = 0) (hmark : o.freeMark = false) (hawaited : awaited ⊆ [ptr])
    (hpart : rt.gcPhase = .none → o.gcObjType.isValue = false) :
    Releasing [] (rt.beginFree ptr o) ∧ (rt.beginFree ptr o).work < rt.work ∧
      rt.Keeps (rt.beginFree ptr o) := by
  have hkeeps : rt.Keeps (rt.beginFree ptr o) :=
    .of_write { o with children := [], freeMark := true } hheap
      (.inr ⟨not_reachable hrt.toFreeing hheap hzero, rfl⟩) rfl rfl rfl List.suffix_rfl
  have hfinish : ∀ {other}, .finish other ∈ (rt.beginFree ptr o).tasks ↔
      other = ptr ∨ .finish other ∈ rt.tasks := by
    simp [Collector.beginFree]
  refine ⟨{ hrt.toFreeing.beginFree hheap hmark with
    tmp_nil := hrt.tmp_nil
    queued := fun other hmem => ?_
    zeroed := fun {other found} hfound hfoundZero => ?_
    marked := fun {other found} hfound hfoundMark => ?_
    finished := fun {other found} hmem hfound => ?_
    noCycles := ?_
    looping := hrt.looping.push hkeeps (List.append_cons _ _ _) ?_ rfl id ?_ }, ?_, hkeeps⟩
  · obtain ⟨found, hfound, hvalue, hfoundZero⟩ := hrt.queued other hmem
    by_cases heq : other = ptr
    · subst other
      rw [hheap, Option.some.injEq] at hfound
      subst found
      exact ⟨_, Function.update_self _ _ _, hvalue, hzero⟩
    · exact ⟨found, (Function.update_of_ne heq _ _).trans hfound, hvalue, hfoundZero⟩
  · rcases eq_or_of_write hfound with ⟨rfl, -⟩ | ⟨hne, hold⟩
    · exact .inr (.inr (hfinish.mpr (.inl rfl)))
    · rcases hrt.zeroed hold hfoundZero with hmem | hmem | hmem
      · exact absurd (List.mem_singleton.mp (hawaited hmem)) hne
      · exact .inr (.inl hmem)
      · exact .inr (.inr (hfinish.mpr (.inr hmem)))
  · rcases eq_or_of_write hfound with ⟨rfl, -⟩ | ⟨-, hold⟩
    · exact hfinish.mpr (.inl rfl)
    · exact hfinish.mpr (.inr (hrt.marked hold hfoundMark))
  · rcases eq_or_of_write hfound with ⟨-, rfl⟩ | ⟨hne, hold⟩
    · exact hzero
    · exact hrt.finished ((hfinish.mp hmem).resolve_left hne) hold
  · simpa [Collector.beginFree] using hrt.noCycles
  · simp
  · intro hnone other found hmem hfound
    have heq : other = ptr := by simpa using hmem
    subst other
    rcases eq_or_of_write hfound with ⟨-, rfl⟩ | ⟨hne, -⟩
    · exact hpart hnone
    · exact absurd rfl hne
  · exact work_beginFree hheap (hrt.bounded hheap) hmark

/-- A value without a count is queued, and the loop over the queue begins unless it runs. -/
theorem freeValueRT (hrt : Releasing [ptr] rt) (hheap : rt.heap ptr = some o)
    (hzero : o.refCount = 0) (hvalue : o.gcObjType.isValue = true) :
    Releasing [] (rt.freeValueRT ptr) ∧ (rt.freeValueRT ptr).work ≤ rt.work + 1 ∧
      rt.Keeps (rt.freeValueRT ptr) := by
  have hmem : ptr ∈ rt.links := (hrt.members ptr).mpr ⟨o, hheap⟩
  have hperm : (rt.gcObjList.erase ptr ++ (ptr :: rt.zeroRefCountList.erase ptr) ++
      rt.tmpObjList.erase ptr).Perm rt.links := links_queue hrt.linked hmem
  have hrelink := hrt.relink hperm List.erase_subset .decref
  have htmp : rt.tmpObjList.erase ptr = [] := by rw [hrt.tmp_nil]; rfl
  have hqueued : ∀ other ∈ ptr :: rt.zeroRefCountList.erase ptr,
      ∃ o, rt.heap other = some o ∧ o.gcObjType.isValue = true ∧ o.refCount = 0 := by
    intro other hother
    rcases List.mem_cons.mp hother with rfl | hother
    · exact ⟨o, hheap, hvalue, hzero⟩
    · exact hrt.queued other (List.mem_of_mem_erase hother)
  have hzeroed : ∀ {other found}, rt.heap other = some found → found.refCount = 0 →
      other ∈ ptr :: rt.zeroRefCountList.erase ptr ∨ .finish other ∈ rt.tasks := by
    intro other found hfound hfoundZero
    by_cases heq : other = ptr
    · exact .inl (heq ▸ List.mem_cons_self)
    · rcases hrt.zeroed hfound hfoundZero with hother | hother | hother
      · exact absurd (List.mem_singleton.mp hother) heq
      · exact .inl (List.mem_cons_of_mem _ ((List.mem_erase_of_ne heq).mpr hother))
      · exact .inr hother
  have hkeeps : ∀ tasks, rt.Keeps { rt.queue ptr with gcPhase := .decref, tasks := tasks } :=
    fun tasks => .of_heap_eq rfl rfl rfl List.suffix_rfl
  have hwork : ∀ tasks, work { rt.queue ptr with gcPhase := .decref, tasks := tasks } =
      heapWork rt.heap rt.created + (tasks.map taskWork).sum := by
    intro tasks
    change _ + _ + (rt.tmpObjList.erase ptr).length = _
    rw [htmp]
    rfl
  rcases hrt.looping with ⟨hphase, hempty, hnot, hparts⟩ | ⟨hphase, hloop⟩
  · have heq : rt.freeValueRT ptr = { rt.queue ptr with
        gcPhase := .decref, tasks := .freeZeroRefcount :: rt.tasks } := by
      simp only [Collector.freeValueRT, hphase]
    have hretask : Freeing { rt.queue ptr with
        gcPhase := .decref, tasks := .freeZeroRefcount :: rt.tasks } :=
      hrelink.retask (fun other => List.count_cons_of_ne (by simp))
        (fun other => List.count_cons_of_ne (by simp))
    rw [heq]
    refine ⟨{ hretask with
        tmp_nil := htmp
        queued := hqueued
        zeroed := fun hfound hfoundZero => .inr ((hzeroed hfound hfoundZero).imp_right
          (List.mem_cons_of_mem _))
        marked := fun hfound hfoundMark => List.mem_cons_of_mem _ (hrt.marked hfound hfoundMark)
        finished := fun hother hfound => hrt.finished (by simpa using hother) hfound
        noCycles := by simpa using hrt.noCycles
        looping := .inr ⟨rfl, [], rt.tasks, rfl, List.not_mem_nil, hnot, hparts⟩ }, ?_, hkeeps _⟩
    rw [hwork, work, hrt.tmp_nil, List.map_cons, List.sum_cons, taskWork, List.length_nil]
    omega
  · have heq : rt.freeValueRT ptr =
        { rt.queue ptr with gcPhase := .decref, tasks := rt.tasks } := by
      simp only [Collector.freeValueRT, hphase, queue, unlink]
    rw [heq]
    refine ⟨{ hrelink with
        tmp_nil := htmp
        queued := hqueued
        zeroed := fun hfound hfoundZero => .inr (hzeroed hfound hfoundZero)
        marked := hrt.marked
        finished := hrt.finished
        noCycles := hrt.noCycles
        looping := .inr ⟨rfl, hloop⟩ }, ?_, hkeeps _⟩
    rw [hwork, work, hrt.tmp_nil, List.length_nil]
    omega

/-- A count goes down. -/
theorem drop (awaited : List Ptr) (hrt : Releasing [] rt) (htasks : rt.tasks = .release ptr :: rest)
    (hheap : rt.heap ptr = some o) {dropped : Collector}
    (hdropped : dropped = { rt.write ptr { o with refCount := o.refCount - 1 } with tasks := rest })
    (hawaited : o.refCount - 1 = 0 → ptr ∈ awaited) :
    0 < o.refCount ∧ o.freeMark = false ∧ Releasing awaited dropped ∧
      dropped.work + 2 = rt.work ∧ rt.Keeps dropped := by
  obtain ⟨hpos, hfreeing⟩ := hrt.toFreeing.drop htasks hheap
  rw [← hdropped] at hfreeing
  have hfinish : ∀ {other}, .finish other ∈ rest ↔ .finish other ∈ rt.tasks := by
    simp [htasks]
  have hself : .finish ptr ∉ rt.tasks := fun hmem => by
    have hzero := hrt.finished hmem hheap
    omega
  have hout : ptr ∉ rt.zeroRefCountList := fun hmem => by
    obtain ⟨found, hfound, -, hzero⟩ := hrt.queued ptr hmem
    rw [hheap, Option.some.injEq] at hfound
    subst found
    omega
  have hmark : o.freeMark = false := by
    rw [← Bool.not_eq_true]
    exact fun hmarked => hself (hrt.marked hheap hmarked)
  have hnow : dropped.heap = Function.update rt.heap ptr
      (some { o with refCount := o.refCount - 1 }) := by rw [hdropped]; rfl
  have hrest : dropped.tasks = rest := by rw [hdropped]
  have hzeroList : dropped.zeroRefCountList = rt.zeroRefCountList := by rw [hdropped]; rfl
  have htmp : dropped.tmpObjList = rt.tmpObjList := by rw [hdropped]; rfl
  have hkeeps : rt.Keeps dropped := .of_write { o with refCount := o.refCount - 1 } hheap
    (.inl ⟨_, rfl⟩) hnow (by rw [hdropped]; rfl) (by rw [hdropped]; rfl)
    (by rw [hdropped]; exact List.suffix_rfl)
  have hwork := work_of_write dropped hheap (hrt.bounded hheap) hnow (by rw [hdropped]; rfl)
  rw [htmp, hrest, htasks, List.map_cons, List.sum_cons, taskWork] at hwork
  simp only [GcObject.work] at hwork
  refine ⟨hpos, hmark, { hfreeing with
    tmp_nil := htmp.trans hrt.tmp_nil
    queued := fun other hmem => ?_
    zeroed := fun {other found} hfound hfoundZero => ?_
    marked := fun {other found} hfound hfoundMark => ?_
    finished := fun {other found} hmem hfound => ?_
    noCycles := ?_
    looping := hrt.looping.pop hkeeps htasks (by simp) hrest (by rw [hdropped]; rfl)
      hzeroList.trans }, by omega, hkeeps⟩
  · rw [hzeroList] at hmem
    obtain ⟨found, hfound, hvalue, hzero⟩ := hrt.queued other hmem
    refine ⟨found, ?_, hvalue, hzero⟩
    rw [hnow, Function.update_of_ne (ne_of_mem_of_not_mem hmem hout), hfound]
  · rw [hnow] at hfound
    rw [hrest, hzeroList, hfinish]
    rcases eq_or_of_write hfound with ⟨rfl, rfl⟩ | ⟨-, hold⟩
    · exact .inl (hawaited hfoundZero)
    · exact (hrt.zeroed hold hfoundZero).imp_left fun hmem => absurd hmem List.not_mem_nil
  · rw [hnow] at hfound
    rw [hrest, hfinish]
    rcases eq_or_of_write hfound with ⟨-, rfl⟩ | ⟨-, hold⟩
    · rw [hmark] at hfoundMark
      cases hfoundMark
    · exact hrt.marked hold hfoundMark
  · rw [hrest, hfinish] at hmem
    rw [hnow] at hfound
    rcases eq_or_of_write hfound with ⟨rfl, -⟩ | ⟨-, hold⟩
    · exact absurd hmem hself
    · exact hrt.finished hmem hold
  · have hnone := hrt.noCycles
    rw [htasks] at hnone
    rw [hrest]
    exact fun hmem => hnone (List.mem_cons_of_mem _ hmem)

theorem gcPhase_ne (hrt : rt.Looping) : rt.gcPhase ≠ .removeCycles := by
  rcases hrt with ⟨hphase, -⟩ | ⟨hphase, -⟩ <;> simp [hphase]

/-- A reference is given back. -/
theorem release_step (hrt : Releasing [] rt) (htasks : rt.tasks = .release ptr :: rest) :
    ∃ next, rt.stepTask (.release ptr) rest = .ok next ∧ Releasing [] next ∧
      next.work < rt.work ∧ rt.Keeps next := by
  have hpromised : .release ptr ∈ rt.tasks := by rw [htasks]; exact List.mem_cons_self
  obtain ⟨o, hheap⟩ := hrt.promised hpromised
  obtain ⟨dropped, hdropped⟩ : ∃ dropped : Collector, dropped = { rt.write ptr
      { o with refCount := o.refCount - 1 } with tasks := rest } := ⟨_, rfl⟩
  have hobject : ({ rt with tasks := rest } : Collector).object ptr = .ok o := by
    simp only [object, hheap]
  have hwrite : ({ rt with tasks := rest } : Collector).write ptr
      { o with refCount := o.refCount - 1 } = dropped := hdropped.symm
  have hnow : dropped.heap ptr = some { o with refCount := o.refCount - 1 } := by
    rw [hdropped]
    exact Function.update_self _ _ _
  by_cases hlast : o.refCount - 1 = 0
  · obtain ⟨hpos, hmark, hreleasing, hwork, hkeeps⟩ :=
      hrt.drop [ptr] htasks hheap hdropped fun _ => List.mem_singleton_self ptr
    cases hvalue : o.gcObjType.isValue
    · obtain ⟨hbegun, hless, hbegunKeeps⟩ := hreleasing.beginFree hnow hlast hmark
        (List.Subset.refl _) fun _ => hvalue
      refine ⟨_, ?_, hbegun, by omega, hkeeps.trans hrt.toAccounted hbegunKeeps⟩
      simp only [stepTask, release, hobject, bind, Except.bind, Nat.pos_iff_ne_zero.mp hpos,
        if_false, ne_eq, hlast, not_true_eq_false, hvalue, Bool.false_eq_true, pure, Except.pure,
        ← hwrite]
    · obtain ⟨hqueued, hless, hqueuedKeeps⟩ := hreleasing.freeValueRT hnow hlast hvalue
      refine ⟨_, ?_, hqueued, by omega, hkeeps.trans hrt.toAccounted hqueuedKeeps⟩
      simp only [stepTask, release, hobject, bind, Except.bind, Nat.pos_iff_ne_zero.mp hpos,
        if_false, ne_eq, hlast, not_true_eq_false, hvalue, if_true, pure, Except.pure, ← hwrite]
  · obtain ⟨hpos, -, hreleasing, hwork, hkeeps⟩ :=
      hrt.drop [] htasks hheap hdropped fun hzero => absurd hzero hlast
    refine ⟨dropped, ?_, hreleasing, by omega, hkeeps⟩
    simp only [stepTask, release, hobject, bind, Except.bind, Nat.pos_iff_ne_zero.mp hpos,
      if_false, ne_eq, hlast, not_false_eq_true, if_true, pure, Except.pure, hwrite]

/-- The end of an object that is freed. -/
theorem finish_step (hrt : Releasing [] rt) (htasks : rt.tasks = .finish ptr :: rest) :
    ∃ next, rt.stepTask (.finish ptr) rest = .ok next ∧ Releasing [] next ∧
      next.work < rt.work ∧ rt.Keeps next := by
  have hmem : .finish ptr ∈ rt.tasks := by rw [htasks]; exact List.mem_cons_self
  obtain ⟨o, hheap, hmark⟩ := hrt.finishing hmem
  have hzero := hrt.finished hmem hheap
  have hout := not_reachable hrt.toFreeing hheap hzero
  have hobject : ({ rt with tasks := rest } : Collector).object ptr = .ok o := by
    simp only [object, hheap]
  have hfinish : ∀ {other}, .finish other ∈ rest ↔ other ≠ ptr ∧ .finish other ∈ rt.tasks :=
    hrt.finish_mem_rest htasks
  have hvanished := hrt.vanish htasks hheap hzero
  have hnodup : rt.zeroRefCountList.Nodup :=
    (List.nodup_append.mp (List.nodup_append.mp hrt.linked).1).2.1
  have hold : ∀ {other found}, Function.update rt.heap ptr none other = some found →
      other ≠ ptr ∧ rt.heap other = some found := ne_of_freed
  have hresult : ∀ finalized, rt.finalized <:+ finalized →
      (o.gcObjType.isValue = true → ptr ∈ finalized) →
      Freeing { (rt.unlink ptr).freeMemory ptr with tasks := rest, finalized := finalized } →
      Releasing [] { (rt.unlink ptr).freeMemory ptr with tasks := rest, finalized := finalized } ∧
        work { (rt.unlink ptr).freeMemory ptr with tasks := rest, finalized := finalized } <
          rt.work ∧
        rt.Keeps { (rt.unlink ptr).freeMemory ptr with tasks := rest, finalized := finalized } := by
    intro finalized hgrows hself hfreeing
    have hkeeps : rt.Keeps { (rt.unlink ptr).freeMemory ptr with
        tasks := rest, finalized := finalized } :=
      .of_freeMemory hout hheap rfl rfl rfl hgrows hself
    refine ⟨{ hfreeing with
      tmp_nil := ?_
      queued := fun other hother => ?_
      zeroed := fun {other found} hfound hfoundZero => ?_
      marked := fun {other found} hfound hfoundMark => ?_
      finished := fun {other found} hother hfound =>
        hrt.finished (hfinish.mp hother).2 (hold hfound).2
      noCycles := ?_
      looping := hrt.looping.pop hkeeps htasks (by simp) rfl rfl fun hnil => ?_ }, ?_, hkeeps⟩
    · change rt.tmpObjList.erase ptr = []
      rw [hrt.tmp_nil]
      rfl
    · obtain ⟨hne, hother⟩ := hnodup.mem_erase_iff.mp hother
      obtain ⟨found, hfound, hqueued⟩ := hrt.queued other hother
      exact ⟨found, (Function.update_of_ne hne _ _).trans hfound, hqueued⟩
    · obtain ⟨hne, hfound⟩ := hold hfound
      rcases hrt.zeroed hfound hfoundZero with hother | hother | hother
      · exact absurd hother List.not_mem_nil
      · exact .inr (.inl ((List.mem_erase_of_ne hne).mpr hother))
      · exact .inr (.inr (hfinish.mpr ⟨hne, hother⟩))
    · obtain ⟨hne, hfound⟩ := hold hfound
      exact hfinish.mpr ⟨hne, hrt.marked hfound hfoundMark⟩
    · have hnone := hrt.noCycles
      rw [htasks] at hnone
      exact fun hother => hnone (List.mem_cons_of_mem _ hother)
    · change rt.zeroRefCountList.erase ptr = []
      rw [hnil]
      rfl
    · have hwork := work_of_freeMemory { (rt.unlink ptr).freeMemory ptr with
        tasks := rest, finalized := finalized } hheap (hrt.bounded hheap) hmark rfl rfl
      rw [htasks, List.map_cons, List.sum_cons, taskWork] at hwork
      have htmp : (rt.tmpObjList.erase ptr).length ≤ rt.tmpObjList.length := List.length_erase_le
      simp only [freeMemory, unlink] at hwork htmp ⊢
      omega
  have hphase := gcPhase_ne hrt.looping
  cases hvalue : o.gcObjType.isValue
  · refine ⟨_, ?_, hresult rt.finalized List.suffix_rfl (by simp [hvalue]) hvanished⟩
    simp only [stepTask, finish, hobject, bind, Except.bind, hvalue, Bool.false_eq_true, if_false,
      pure, Except.pure]
    rfl
  · have hfinalize := hvanished.finalize (hrt.notMem_finalized htasks) (hrt.bounded hheap)
      fun found hfound => absurd rfl (hold hfound).1
    refine ⟨_, ?_, hresult (ptr :: rt.finalized) (List.suffix_cons _ _)
      (fun _ => List.mem_cons_self) hfinalize⟩
    simp only [stepTask, finish, hobject, bind, Except.bind, hvalue, if_true, hphase, false_and,
      if_false, pure, Except.pure]
    rfl

/-- The loop of `free_zero_refcount`. -/
theorem freeZeroRefcount_step (hrt : Releasing [] rt)
    (htasks : rt.tasks = .freeZeroRefcount :: rest) :
    ∃ next, rt.stepTask .freeZeroRefcount rest = .ok next ∧ Releasing [] next ∧
      next.work < rt.work ∧ rt.Keeps next := by
  obtain ⟨hphase, hnot, hparts⟩ : rt.gcPhase = .decref ∧ .freeZeroRefcount ∉ rest ∧
      rt.PartsOnly rest := by
    rcases hrt.looping with ⟨-, -, hnone, -⟩ |
      ⟨hphase, upper, lower, hsplit, hupper, hlower, hparts⟩
    · exact absurd (htasks ▸ List.mem_cons_self) hnone
    · rw [htasks] at hsplit
      cases upper with
      | nil =>
          obtain ⟨-, rfl⟩ := List.cons.inj hsplit
          exact ⟨hphase, hlower, hparts⟩
      | cons first upper =>
          obtain ⟨rfl, -⟩ := List.cons.inj hsplit
          exact absurd List.mem_cons_self hupper
  cases hqueue : rt.zeroRefCountList with
  | nil =>
      have hfreeing : Freeing { rt with gcPhase := .none, tasks := rest } :=
        (hrt.relink (List.Perm.refl _) (List.Subset.refl _) .none).retask
          (fun other => by rw [htasks, List.count_cons_of_ne (by simp)])
          (fun other => by rw [htasks, List.count_cons_of_ne (by simp)])
      have hfinish : ∀ {other}, .finish other ∈ rest ↔ .finish other ∈ rt.tasks := by
        simp [htasks]
      refine ⟨{ rt with gcPhase := .none, tasks := rest }, by simp only [stepTask, hqueue],
        { hfreeing with
          tmp_nil := hrt.tmp_nil
          queued := hrt.queued
          zeroed := fun hfound hzero => by rw [hfinish]; exact hrt.zeroed hfound hzero
          marked := fun hfound hmark => hfinish.mpr (hrt.marked hfound hmark)
          finished := fun hmem hfound => hrt.finished (hfinish.mp hmem) hfound
          noCycles := fun hmem => hrt.noCycles (htasks ▸ List.mem_cons_of_mem _ hmem)
          looping := .inl ⟨rfl, hqueue, hnot, hparts⟩ }, ?_,
        .of_heap_eq rfl rfl rfl List.suffix_rfl⟩
      rw [work, work, htasks, List.map_cons, List.sum_cons, taskWork]
      dsimp only
      omega
  | cons ptr queue =>
      obtain ⟨o, hheap, hvalue, hzero⟩ := hrt.queued ptr (hqueue ▸ List.mem_cons_self)
      have hmark : o.freeMark = false := by
        rw [← Bool.not_eq_true]
        intro hmarked
        have hmem := hrt.marked hheap hmarked
        rw [htasks] at hmem
        have hpart := hparts ptr o (by simpa using hmem) hheap
        rw [hvalue] at hpart
        cases hpart
      obtain ⟨hbegun, hless, hkeeps⟩ := hrt.beginFree hheap hzero hmark (List.nil_subset _)
        fun hnone => by rw [hphase] at hnone; cases hnone
      refine ⟨rt.beginFree ptr o, ?_, hbegun, hless, hkeeps⟩
      simp only [stepTask, hqueue, object, hheap, bind, Except.bind, hzero, ne_eq,
        not_true_eq_false, if_false, hvalue, if_true, pure, Except.pure]

theorem step (hrt : Releasing [] rt) (htasks : rt.tasks = task :: rest) :
    ∃ next, rt.stepTask task rest = .ok next ∧ Releasing [] next ∧ next.work < rt.work ∧
      rt.Keeps next := by
  cases task with
  | release ptr => exact hrt.release_step htasks
  | finish ptr => exact hrt.finish_step htasks
  | freeZeroRefcount => exact hrt.freeZeroRefcount_step htasks
  | freeCycles => exact absurd (htasks ▸ List.mem_cons_self) hrt.noCycles

/-- When nothing is left to do. -/
theorem settled (hrt : Releasing [] rt) (htasks : rt.tasks = []) : rt.Settled := by
  obtain ⟨hphase, hempty⟩ : rt.gcPhase = .none ∧ rt.zeroRefCountList = [] := by
    rcases hrt.looping with ⟨hphase, hempty, -⟩ | ⟨-, upper, lower, hsplit, -⟩
    · exact ⟨hphase, hempty⟩
    · rw [htasks] at hsplit
      simp at hsplit
  have hlinks : rt.links = rt.gcObjList := by
    rw [links, hempty, hrt.tmp_nil, List.append_nil, List.append_nil]
  refine { hrt.toAccounted with
    tasks_nil := htasks
    gcPhase_none := hphase
    zeroRefCountList_nil := hempty
    tmpObjList_nil := hrt.tmp_nil
    nodup := hlinks ▸ hrt.linked
    members := fun ptr => hlinks ▸ hrt.members ptr
    fresh := fun {ptr o} hheap => ⟨?_, ?_, ?_⟩
    finalized_nodup := hrt.finalized_nodup
    finalized_gone := fun ptr hmem => ⟨(hrt.finalized_gone ptr hmem).1, ?_⟩ }
  · exact hrt.unmarked ptr (hlinks ▸ (hrt.members ptr).mpr ⟨o, hheap⟩) o hheap
  · rw [← Bool.not_eq_true]
    intro hmark
    have hmem := hrt.marked hheap hmark
    rw [htasks] at hmem
    cases hmem
  · refine Nat.pos_of_ne_zero fun hzero => ?_
    have hmem := hrt.zeroed hheap hzero
    rw [htasks, hempty] at hmem
    simp at hmem
  · cases hheap : rt.heap ptr with
    | none => rfl
    | some o =>
        have hmark := ((hrt.finalized_gone ptr hmem).2 o hheap).1
        have hmem := hrt.marked hheap hmark
        rw [htasks] at hmem
        cases hmem

end Releasing

/-- A reference is on its way back. -/
theorem Settled.releasing (hrt : rt.Settled) (hexternal : 0 < rt.external ptr) :
    Releasing [] { rt with
      external := Function.update rt.external ptr (rt.external ptr - 1)
      tasks := [.release ptr] } := by
  obtain ⟨o, hheap⟩ := hrt.named hexternal
  have hlinks : rt.links = rt.gcObjList := by
    rw [links, hrt.zeroRefCountList_nil, hrt.tmpObjList_nil, List.append_nil, List.append_nil]
  have hnamed : ∀ {other}, 0 < Function.update rt.external ptr (rt.external ptr - 1) other →
      ∃ o, rt.heap other = some o := by
    intro other hpos
    by_cases heq : other = ptr
    · exact ⟨o, heq ▸ hheap⟩
    · rw [Function.update_of_ne heq] at hpos
      exact hrt.named hpos
  constructor
  · constructor
    · refine ⟨hrt.bounded, fun {other found} hfound => ?_, hrt.held, hnamed⟩
      have hcount := hrt.counted hfound
      rw [hrt.tasks_nil, List.count_nil, Nat.add_zero] at hcount
      change found.refCount = Function.update rt.external ptr (rt.external ptr - 1) other +
        arcs rt.childrenOf rt.addresses other + [FreeTask.release ptr].count (.release other)
      by_cases heq : other = ptr
      · subst other
        rw [Function.update_self, List.count_singleton_self]
        omega
      · rw [Function.update_of_ne heq, List.count_eq_zero.mpr (by simpa using heq)]
        omega
    · change rt.links.Nodup
      rw [hlinks]
      exact hrt.nodup
    · intro other
      change other ∈ rt.links ↔ _
      rw [hlinks]
      exact hrt.members other
    · exact fun other _ found hfound => (hrt.fresh hfound).1
    · intro other found hfound hmark
      rw [(hrt.fresh hfound).2.1] at hmark
      cases hmark
    · intro other hmem
      have heq : other = ptr := by simpa using hmem
      exact ⟨o, heq ▸ hheap⟩
    · simp
    · simp
    · exact hrt.finalized_nodup
    · refine fun other hmem => ⟨(hrt.finalized_gone other hmem).1, fun found hfound => ?_⟩
      rw [(hrt.finalized_gone other hmem).2] at hfound
      cases hfound
  · exact hrt.tmpObjList_nil
  · intro other hmem
    change other ∈ rt.zeroRefCountList at hmem
    rw [hrt.zeroRefCountList_nil] at hmem
    cases hmem
  · intro other found hfound hzero
    have hpos := (hrt.fresh hfound).2.2
    omega
  · intro other found hfound hmark
    rw [(hrt.fresh hfound).2.1] at hmark
    cases hmark
  · simp
  · simp
  · exact .inl ⟨hrt.gcPhase_none, hrt.zeroRefCountList_nil, by simp, fun other found hmem => by
      simp at hmem⟩

/-- A reference is given back: the calls end, with all that is still reachable as it was. -/
theorem Settled.free_spec (hrt : rt.Settled) (hexternal : 0 < rt.external ptr) :
    ∃ next, rt.free ptr = .ok next ∧ next.Settled ∧
      Keeps { rt with
        external := Function.update rt.external ptr (rt.external ptr - 1)
        tasks := [.release ptr] } next := by
  obtain ⟨next, hnext, hreleasing, htasks, hkeeps⟩ :=
    finishTasks_spec (I := Releasing []) (fun hrt => hrt.toAccounted)
      (fun hrt htasks => hrt.step htasks) (hrt.releasing hexternal) (Nat.lt_succ_self _)
  exact ⟨next, hnext, hreleasing.settled htasks, hkeeps⟩

end Collector

end QuickjsBackend
