import QuickjsBackend.Engine.Cycles
import QuickjsBackend.Foundation.Acyclic

/-! # Memory over whole runs

The embedder and scripts make objects, hand references on, store them and give them back,
and the collector runs whenever memory is short. In every run no call of the engine comes
upon an object that is gone or a count that is wrong.
-/

namespace QuickjsBackend

open Foundation Relation

namespace Collector

variable {rt next : Collector} {ptr child : Ptr} {o : GcObject} {actions : List CollectorAction}

theorem new_settled : new.Settled where
  bounded hheap := by cases hheap
  counted hheap := by cases hheap
  held hheap := by cases hheap
  named hpos := absurd hpos (Nat.lt_irrefl 0)
  tasks_nil := rfl
  gcPhase_none := rfl
  zeroRefCountList_nil := rfl
  tmpObjList_nil := rfl
  nodup := List.nodup_nil
  members ptr := by simp [new]
  fresh hheap := by cases hheap
  finalized_nodup := List.nodup_nil
  finalized_gone _ hmem := by cases hmem

namespace Settled

theorem allocate (hrt : rt.Settled) (gcObjType : GcObjType) :
    (rt.allocate gcObjType).Settled := by
  have hfresh : rt.heap rt.created = none := by
    cases hheap : rt.heap rt.created with
    | none => rfl
    | some o => exact absurd (hrt.bounded hheap) (Nat.lt_irrefl _)
  have hchildren : (rt.allocate gcObjType).childrenOf = rt.childrenOf := by
    funext ptr
    by_cases heq : ptr = rt.created
    · subst ptr
      simp [childrenOf, Collector.allocate, hfresh]
    · simp [childrenOf, Collector.allocate, heq]
  have harcs : ∀ ptr, arcs (rt.allocate gcObjType).childrenOf
      (rt.allocate gcObjType).addresses ptr = arcs rt.childrenOf rt.addresses ptr := by
    intro ptr
    have haddresses : (rt.allocate gcObjType).addresses = rt.addresses ++ [rt.created] :=
      List.range_succ
    rw [hchildren, haddresses, arcs_append, arcs_cons, arcs_nil, childrenOf, hfresh]
    rfl
  have hunused : arcs rt.childrenOf rt.addresses rt.created = 0 := by
    refine arcs_eq_zero_iff.mpr fun source _ hchild => ?_
    obtain ⟨held, hheld⟩ := hrt.held_childrenOf hchild
    rw [hfresh] at hheld
    cases hheld
  have hlive : ∀ ptr, (∃ o, (rt.allocate gcObjType).heap ptr = some o) ↔
      (∃ o, rt.heap ptr = some o) ∨ ptr = rt.created := by
    intro ptr
    by_cases heq : ptr = rt.created
    · subst ptr
      simp [Collector.allocate]
    · simp [Collector.allocate, heq]
  have hkept : ∀ {ptr o}, rt.heap ptr = some o → (rt.allocate gcObjType).heap ptr = some o := by
    intro ptr o hheap
    refine (Function.update_of_ne ?_ _ _).trans hheap
    rintro rfl
    rw [hfresh] at hheap
    cases hheap
  constructor
  · constructor
    · intro ptr o hheap
      rcases eq_or_of_write hheap with ⟨rfl, -⟩ | ⟨-, hold⟩
      · exact Nat.lt_succ_self _
      · exact Nat.lt_succ_of_lt (hrt.bounded hold)
    · intro ptr o hheap
      rw [harcs]
      rcases eq_or_of_write hheap with ⟨rfl, rfl⟩ | ⟨hne, hold⟩
      · simp [Collector.allocate, hunused, hrt.tasks_nil]
      · have hcount := hrt.counted hold
        simpa [Collector.allocate, hne] using hcount
    · intro ptr o hheap child hchild
      rcases eq_or_of_write hheap with ⟨-, rfl⟩ | ⟨-, hold⟩
      · cases hchild
      · obtain ⟨held, hheld, hholds⟩ := hrt.held hold child hchild
        exact ⟨held, hkept hheld, hholds⟩
    · intro ptr hpos
      rw [hlive]
      by_cases heq : ptr = rt.created
      · exact .inr heq
      · exact .inl (hrt.named (by simpa [Collector.allocate, heq] using hpos))
  · exact hrt.tasks_nil
  · exact hrt.gcPhase_none
  · exact hrt.zeroRefCountList_nil
  · exact hrt.tmpObjList_nil
  · refine List.nodup_append.mpr ⟨hrt.nodup, List.nodup_singleton _, ?_⟩
    intro ptr hmem other hother
    rw [List.mem_singleton.mp hother]
    rintro rfl
    obtain ⟨o, hheap⟩ := (hrt.members _).mp hmem
    rw [hfresh] at hheap
    cases hheap
  · intro ptr
    rw [hlive, ← hrt.members]
    simp [Collector.allocate]
  · intro ptr o hheap
    rcases eq_or_of_write hheap with ⟨-, rfl⟩ | ⟨-, hold⟩
    · exact ⟨rfl, rfl, Nat.one_pos⟩
    · exact hrt.fresh hold
  · exact hrt.finalized_nodup
  · intro ptr hmem
    obtain ⟨hlt, hnone⟩ := hrt.finalized_gone ptr hmem
    exact ⟨Nat.lt_succ_of_lt hlt, (Function.update_of_ne (Nat.ne_of_lt hlt) _ _).trans hnone⟩

/-- An object is written between two operations, and references go between objects and the
outside. -/
theorem write (hrt : rt.Settled) (hheap : rt.heap ptr = some o) (written : GcObject)
    (external : Ptr → Nat) (hpos : 0 < written.refCount)
    (hsame : written.gcObjType = o.gcObjType ∧ written.mark = o.mark ∧
      written.freeMark = o.freeMark)
    (hheld : ∀ child ∈ written.children,
      ∃ held, rt.heap child = some held ∧ o.gcObjType.holds held.gcObjType = true)
    (hbalance : ∀ other, written.children.count other + external other +
        (if other = ptr then o.refCount else 0) =
      o.children.count other + rt.external other + (if other = ptr then written.refCount else 0))
    (hnamed : ∀ {other}, 0 < external other → ∃ o, rt.heap other = some o) :
    Settled { rt.write ptr written with external := external } := by
  have haccounted : Accounted { rt.write ptr written with
      tasks := rt.tasks, external := external } :=
    hrt.toAccounted.rewrite hheap hsame.1 hheld
      (fun other => by have := hbalance other; omega) hnamed
  exact { haccounted with
    tasks_nil := hrt.tasks_nil
    gcPhase_none := hrt.gcPhase_none
    zeroRefCountList_nil := hrt.zeroRefCountList_nil
    tmpObjList_nil := hrt.tmpObjList_nil
    nodup := hrt.nodup
    members := fun other => by
      refine (hrt.members other).trans ?_
      by_cases heq : other = ptr
      · subst other
        simp [Collector.write, hheap]
      · simp [Collector.write, heq]
    fresh := fun {other found} hfound => by
      rcases eq_or_of_write hfound with ⟨-, rfl⟩ | ⟨-, hold⟩
      · rw [hsame.2.1, hsame.2.2]
        exact ⟨(hrt.fresh hheap).1, (hrt.fresh hheap).2.1, hpos⟩
      · exact hrt.fresh hold
    finalized_nodup := hrt.finalized_nodup
    finalized_gone := fun other hmem => by
      obtain ⟨hlt, hnone⟩ := hrt.finalized_gone other hmem
      refine ⟨hlt, (Function.update_of_ne ?_ _ _).trans hnone⟩
      rintro rfl
      rw [hheap] at hnone
      cases hnone }

theorem dup (hrt : rt.Settled) (hreachable : rt.Reachable ptr) :
    ∃ next, rt.dup ptr = .ok next ∧ next.Settled := by
  obtain ⟨o, hheap⟩ := hrt.live_of_reachable hreachable
  refine ⟨_, ?_, hrt.write hheap { o with refCount := o.refCount + 1 }
      (Function.update rt.external ptr (rt.external ptr + 1)) (Nat.succ_pos _) ⟨rfl, rfl, rfl⟩
      (fun child hchild => hrt.held hheap child hchild) (fun other => ?_) fun {other} hpos => ?_⟩
  · simp only [Collector.dup, object, hheap, bind, Except.bind, pure, Except.pure]
  · by_cases heq : other = ptr
    · subst other
      simp only [Function.update_self, if_true]
      omega
    · simp only [Function.update_of_ne heq, if_neg heq]
  · by_cases heq : other = ptr
    · exact ⟨o, heq ▸ hheap⟩
    · rw [Function.update_of_ne heq] at hpos
      exact hrt.named hpos

theorem store {parent : Ptr} (hrt : rt.Settled) (hparent : rt.Reachable parent)
    (hexternal : 0 < rt.external child)
    (hholds : ∀ o held, rt.heap parent = some o → rt.heap child = some held →
      o.gcObjType.holds held.gcObjType = true) :
    ∃ next, rt.store parent child = .ok next ∧ next.Settled := by
  obtain ⟨o, hheap⟩ := hrt.live_of_reachable hparent
  obtain ⟨held, hheld⟩ := hrt.named hexternal
  refine ⟨_, ?_, hrt.write hheap { o with children := child :: o.children }
      (Function.update rt.external child (rt.external child - 1)) (hrt.fresh hheap).2.2
      ⟨rfl, rfl, rfl⟩ (fun other hmem => ?_) (fun other => ?_) fun {other} hpos => ?_⟩
  · simp only [Collector.store, object, hheap, bind, Except.bind, pure, Except.pure]
  · rcases List.mem_cons.mp hmem with rfl | hmem
    · exact ⟨held, hheld, hholds o held hheap hheld⟩
    · exact hrt.held hheap other hmem
  · by_cases heq : other = child
    · subst other
      simp only [List.count_cons_self, Function.update_self]
      omega
    · simp only [List.count_cons_of_ne (Ne.symm heq), Function.update_of_ne heq]
  · by_cases heq : other = child
    · exact ⟨held, heq ▸ hheld⟩
    · rw [Function.update_of_ne heq] at hpos
      exact hrt.named hpos

theorem take {parent : Ptr} (hrt : rt.Settled) (hchild : child ∈ rt.childrenOf parent) :
    ∃ next, rt.take parent child = .ok next ∧ next.Settled := by
  obtain ⟨o, hheap, hmem⟩ := exists_of_mem_childrenOf hchild
  refine ⟨_, ?_, hrt.write hheap { o with children := o.children.erase child }
      (Function.update rt.external child (rt.external child + 1)) (hrt.fresh hheap).2.2
      ⟨rfl, rfl, rfl⟩ (fun other hother => hrt.held hheap other (List.mem_of_mem_erase hother))
      (fun other => ?_) fun {other} hpos => ?_⟩
  · simp only [Collector.take, object, hheap, bind, Except.bind, pure, Except.pure]
  · by_cases heq : other = child
    · subst other
      have hpos := List.count_pos_iff.mpr hmem
      simp only [List.count_erase_self, Function.update_self]
      omega
    · simp only [List.count_erase_of_ne heq, Function.update_of_ne heq]
  · by_cases heq : other = child
    · exact hrt.held_childrenOf (heq ▸ hchild)
    · rw [Function.update_of_ne heq] at hpos
      exact hrt.named hpos

/-- Whatever is allowed happens without a fault. -/
theorem step (hrt : rt.Settled) {action : CollectorAction} (hallowed : rt.Allowed action) :
    ∃ next, Collector.step rt action = .ok next ∧ next.Settled := by
  cases action with
  | allocate gcObjType => exact ⟨_, rfl, hrt.allocate gcObjType⟩
  | dup ptr => exact hrt.dup hallowed
  | store parent child => exact hrt.store hallowed.1 hallowed.2.1 hallowed.2.2
  | take parent child => exact hrt.take hallowed.2
  | free ptr =>
      obtain ⟨next, hnext, hsettled, -⟩ := hrt.free_spec hallowed
      exact ⟨next, hnext, hsettled⟩
  | runGC =>
      obtain ⟨next, hnext, hsettled, -⟩ := hrt.jsRunGC_spec
      exact ⟨next, hnext, hsettled⟩

/-- What is kept in memory without being reachable has something like it on a cycle
behind it. -/
theorem exists_cycle (hrt : rt.Settled) (hheap : rt.heap ptr = some o)
    (hout : ¬rt.Reachable ptr) :
    ∃ node, ReflTransGen (fun source target => target ∈ rt.childrenOf source) node ptr ∧
      TransGen (fun source target => target ∈ rt.childrenOf source) node node := by
  by_contra hnone
  have hfinite : {node | ReflTransGen (fun source target => target ∈ rt.childrenOf source)
      node ptr}.Finite := by
    refine (Set.finite_le_nat (max rt.created ptr)).subset fun node hreach => ?_
    rcases ReflTransGen.cases_head hreach with rfl | ⟨_, hchild, -⟩
    · exact Nat.le_max_right _ _
    · obtain ⟨source, hsource, -⟩ := exists_of_mem_childrenOf hchild
      exact (Nat.le_of_lt (hrt.bounded hsource)).trans (Nat.le_max_left _ _)
  have hacc := acc_of_no_cycle hfinite fun node hreach hcycle => hnone ⟨node, hreach, hcycle⟩
  clear hnone hfinite
  induction hacc generalizing o with
  | intro ptr _ ih =>
      -- a count without a reference from outside comes from an object
      have hcount := hrt.counted hheap
      have hpos := (hrt.fresh hheap).2.2
      have hexternal : rt.external ptr = 0 :=
        Nat.eq_zero_of_not_pos fun hpos => hout (reached_of_external hpos)
      rw [hrt.tasks_nil, List.count_nil] at hcount
      obtain ⟨source, -, hchild⟩ := arcs_pos_iff.mp
        (show 0 < arcs rt.childrenOf rt.addresses ptr by omega)
      obtain ⟨found, hfound, -⟩ := exists_of_mem_childrenOf hchild
      exact ih source hchild hfound fun hreached => hout (hreached.child hchild)

end Settled

section Runs

/-- In every run of what is allowed nothing is used after it was freed, no count falls
below zero and no assertion of the collector fails; all that is reachable is in memory,
counted by the references to it, and no value is freed twice. -/
theorem run_safe (hallowed : Collector.step.Always (fun rt action _ => rt.Allowed action)
    new actions) :
    ∃ rt, Collector.step.run new actions = .ok rt ∧
      (∀ ptr, rt.Reachable ptr → ∃ o, rt.heap ptr = some o) ∧
      (∀ ptr o, rt.heap ptr = some o →
        o.refCount = rt.external ptr + arcs rt.childrenOf rt.addresses ptr) ∧
      rt.finalized.Nodup ∧ ∀ ptr ∈ rt.finalized, rt.heap ptr = none := by
  obtain ⟨rt, hrun, hrt⟩ := StepFn.exists_run Collector.step Settled
    (fun _ _ hsettled hallowed => hsettled.step hallowed) new_settled hallowed
  refine ⟨rt, hrun, fun ptr hreachable => hrt.live_of_reachable hreachable,
    fun ptr o hheap => ?_, hrt.finalized_nodup, fun ptr hmem => (hrt.finalized_gone ptr hmem).2⟩
  have hcount := hrt.counted hheap
  rwa [hrt.tasks_nil, List.count_nil, Nat.add_zero] at hcount

theorem settled_of_run (hallowed : Collector.step.Always (fun rt action _ => rt.Allowed action)
    new actions) (hrun : Collector.step.run new actions = .ok rt) : rt.Settled :=
  Collector.step.run_invariant (fun rt action => rt.Allowed action) Settled
    (fun state action next hsettled hallowed hstep => by
      obtain ⟨other, hother, hnext⟩ := hsettled.step hallowed
      rw [hstep, Except.ok.injEq] at hother
      exact hother ▸ hnext) new_settled hallowed hrun

/-- After any run `JS_RunGC` leaves in memory exactly what was reachable, with its references,
and each value that was not has been freed once. -/
theorem jsRunGC_exact (hallowed : Collector.step.Always (fun rt action _ => rt.Allowed action)
    new actions) (hrun : Collector.step.run new actions = .ok rt) :
    ∃ next, rt.jsRunGC = .ok next ∧
      (∀ ptr, (∃ o, next.heap ptr = some o) ↔ rt.Reachable ptr) ∧
      (∀ ptr o, rt.Reachable ptr → rt.heap ptr = some o → next.heap ptr = some { o with
        refCount := next.external ptr + arcs next.childrenOf next.addresses ptr }) ∧
      ∀ ptr o, rt.heap ptr = some o → o.gcObjType.isValue = true → ¬rt.Reachable ptr →
        ptr ∉ rt.finalized ∧ next.finalized.count ptr = 1 := by
  have hrt := settled_of_run hallowed hrun
  obtain ⟨next, hnext, hsettled, hclean, hkeeps⟩ := hrt.jsRunGC_spec
  have hlive : ∀ ptr, (∃ o, next.heap ptr = some o) ↔ rt.Reachable ptr := by
    intro ptr
    constructor
    · rintro ⟨o, hheap⟩
      exact (hkeeps.reachable hrt.toAccounted).mp (hclean ptr o hheap)
    · intro hreachable
      obtain ⟨o, hheap⟩ := hrt.live_of_reachable hreachable
      obtain ⟨n, hkept⟩ := hkeeps.kept hreachable hheap
      exact ⟨_, hkept⟩
  refine ⟨next, hnext, hlive, fun ptr o hreachable hheap => ?_,
    fun ptr o hheap hvalue hout => ⟨fun hmem => ?_, ?_⟩⟩
  · obtain ⟨n, hkept⟩ := hkeeps.kept hreachable hheap
    have hcount := hsettled.counted hkept
    rw [hsettled.tasks_nil, List.count_nil, Nat.add_zero] at hcount
    rw [hkept, ← hcount]
  · rw [(hrt.finalized_gone ptr hmem).2] at hheap
    cases hheap
  · have hnone : next.heap ptr = none := by
      cases hnow : next.heap ptr with
      | none => rfl
      | some now => exact absurd ((hlive ptr).mp ⟨now, hnow⟩) hout
    exact List.count_eq_one_of_mem hsettled.finalized_nodup (hkeeps.freed hheap hvalue hnone)

/-- After any run, a reference is given back: what is reachable then is as it was, and what
stays in memory without being reachable is there because of a cycle. -/
theorem free_exact (hallowed : Collector.step.Always (fun rt action _ => rt.Allowed action)
    new actions) (hrun : Collector.step.run new actions = .ok rt)
    (hexternal : 0 < rt.external ptr) :
    ∃ next, rt.free ptr = .ok next ∧
      next.external = Function.update rt.external ptr (rt.external ptr - 1) ∧
      (∀ other o, next.Reachable other → rt.heap other = some o →
        ∃ n, next.heap other = some { o with refCount := n }) ∧
      ∀ other o, next.heap other = some o → ¬next.Reachable other →
        ∃ node, ReflTransGen (fun source target => target ∈ next.childrenOf source) node other ∧
          TransGen (fun source target => target ∈ next.childrenOf source) node node := by
  have hrt := settled_of_run hallowed hrun
  obtain ⟨next, hnext, hsettled, hkeeps⟩ := hrt.free_spec hexternal
  refine ⟨next, hnext, hkeeps.external, fun other o hreachable hheap => ?_,
    fun other o hheap hout => hsettled.exists_cycle hheap hout⟩
  exact hkeeps.kept ((hkeeps.reachable (hrt.releasing hexternal).toAccounted).mp hreachable) hheap

/-- Two objects that refer to each other. -/
def cycleActions : List CollectorAction :=
  [.allocate .jsObject, .allocate .jsObject, .dup 0, .dup 1, .store 0 1, .store 1 0, .free 0]

theorem cycleActions_allowed : Collector.step.Always (fun rt action _ => rt.Allowed action)
    new cycleActions := by
  refine ⟨trivial, fun next hnext => ?_⟩
  cases hnext
  refine ⟨trivial, fun next hnext => ?_⟩
  cases hnext
  refine ⟨reached_of_external (by decide), fun next hnext => ?_⟩
  cases hnext
  refine ⟨reached_of_external (by decide), fun next hnext => ?_⟩
  cases hnext
  refine ⟨⟨reached_of_external (by decide), by decide, fun o held hheap hheld => ?_⟩,
    fun next hnext => ?_⟩
  · cases hheap
    rfl
  cases hnext
  refine ⟨⟨reached_of_external (by decide), by decide, fun o held hheap hheld => ?_⟩,
    fun next hnext => ?_⟩
  · cases hheap
    rfl
  cases hnext
  exact ⟨Nat.one_pos, fun next hnext => trivial⟩

theorem run_safe_cycle : ∃ rt, Collector.step.run new cycleActions = .ok rt ∧
    (∀ ptr, rt.Reachable ptr → ∃ o, rt.heap ptr = some o) ∧
    (∀ ptr o, rt.heap ptr = some o →
      o.refCount = rt.external ptr + arcs rt.childrenOf rt.addresses ptr) ∧
    rt.finalized.Nodup ∧ ∀ ptr ∈ rt.finalized, rt.heap ptr = none :=
  run_safe cycleActions_allowed

/-- The state with both objects, to one of which the embedder still refers. -/
def cycleState : Collector :=
  match Collector.step.run new cycleActions with
  | .ok rt => rt
  | .error _ => new

theorem run_cycleActions : Collector.step.run new cycleActions = .ok cycleState := rfl

/-- The state after the last reference from outside has gone. -/
def garbageState : Collector :=
  match Collector.step.run new (cycleActions ++ [.free 1]) with
  | .ok rt => rt
  | .error _ => new

theorem run_garbage : Collector.step.run new (cycleActions ++ [.free 1]) = .ok garbageState := rfl

theorem garbage_allowed : Collector.step.Always (fun rt action _ => rt.Allowed action) new
    (cycleActions ++ [.free 1]) :=
  Collector.step.always_append run_cycleActions cycleActions_allowed
    ⟨Nat.one_pos, fun _ _ => trivial⟩

theorem jsRunGC_exact_cycle : ∃ next, garbageState.jsRunGC = .ok next ∧
    (∀ ptr, (∃ o, next.heap ptr = some o) ↔ garbageState.Reachable ptr) ∧
    (∀ ptr o, garbageState.Reachable ptr → garbageState.heap ptr = some o →
      next.heap ptr = some { o with
        refCount := next.external ptr + arcs next.childrenOf next.addresses ptr }) ∧
    ∀ ptr o, garbageState.heap ptr = some o → o.gcObjType.isValue = true →
      ¬garbageState.Reachable ptr → ptr ∉ garbageState.finalized ∧
        next.finalized.count ptr = 1 :=
  jsRunGC_exact garbage_allowed run_garbage

theorem free_exact_cycle : ∃ next, cycleState.free 1 = .ok next ∧
    next.external = Function.update cycleState.external 1 (cycleState.external 1 - 1) ∧
    (∀ other o, next.Reachable other → cycleState.heap other = some o →
      ∃ n, next.heap other = some { o with refCount := n }) ∧
    ∀ other o, next.heap other = some o → ¬next.Reachable other →
      ∃ node, ReflTransGen (fun source target => target ∈ next.childrenOf source) node other ∧
        TransGen (fun source target => target ∈ next.childrenOf source) node node :=
  free_exact cycleActions_allowed run_cycleActions (by decide)

-- the collector frees both
example : (garbageState.jsRunGC.map fun rt =>
    (rt.heap 0, rt.heap 1, rt.finalized)) = .ok (none, none, [1, 0]) := by decide

end Runs

end Collector

end QuickjsBackend
