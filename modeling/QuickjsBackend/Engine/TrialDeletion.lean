import QuickjsBackend.Engine.Counting

/-! # The two passes that find the objects to free

`gc_decref` takes the references among the objects off the counts, `gc_scan` puts them
back from what still has a count. Both change counts, marks and lists only, so that the
states between are told by those.
-/

namespace QuickjsBackend

open Foundation

namespace Collector

/-- Other counts and marks in the objects, and other lists. -/
def recount (rt : Collector) (count : Ptr → Nat) (mark : Ptr → Bool) (gc tmp : List Ptr) :
    Collector :=
  { rt with
    heap := fun ptr => (rt.heap ptr).map fun o => { o with refCount := count ptr, mark := mark ptr }
    gcObjList := gc
    tmpObjList := tmp }

/-- Each object is in one of two lists. -/
structure Parted (rt : Collector) (gc tmp : List Ptr) : Prop where
  nodup : (gc ++ tmp).Nodup
  members : ∀ ptr, ptr ∈ gc ++ tmp ↔ ∃ o, rt.heap ptr = some o

variable {rt : Collector} {count : Ptr → Nat} {mark : Ptr → Bool} {gc tmp : List Ptr}
  {ptr other : Ptr} {o : GcObject}

namespace Parted

variable (hparted : rt.Parted gc tmp)
include hparted

theorem disjoint (hgc : ptr ∈ gc) (htmp : ptr ∈ tmp) : False :=
  (List.nodup_append.mp hparted.nodup).2.2 ptr hgc ptr htmp rfl

theorem moveToTmp (hmem : ptr ∈ gc) : rt.Parted (gc.erase ptr) (tmp.erase ptr ++ [ptr]) := by
  have hnot : ptr ∉ tmp := fun htmp => hparted.disjoint hmem htmp
  have hperm : (gc.erase ptr ++ (tmp.erase ptr ++ [ptr])).Perm (gc ++ tmp) := by
    rw [List.erase_of_not_mem hnot, ← List.append_assoc]
    refine List.perm_append_comm.trans ?_
    exact (List.perm_cons_erase hmem).symm.append_right tmp
  exact ⟨hperm.nodup_iff.mpr hparted.nodup,
    fun other => hperm.mem_iff.trans (hparted.members other)⟩

theorem moveToGc (hmem : ptr ∈ tmp) : rt.Parted (gc.erase ptr ++ [ptr]) (tmp.erase ptr) := by
  have hnot : ptr ∉ gc := fun hgc => hparted.disjoint hgc hmem
  have hperm : (gc.erase ptr ++ [ptr] ++ tmp.erase ptr).Perm (gc ++ tmp) := by
    rw [List.erase_of_not_mem hnot, List.append_assoc]
    exact (List.perm_cons_erase hmem).symm.append_left gc
  exact ⟨hperm.nodup_iff.mpr hparted.nodup,
    fun other => hperm.mem_iff.trans (hparted.members other)⟩

theorem length_eq {gc' tmp' : List Ptr} (hother : rt.Parted gc' tmp') :
    gc.length + tmp.length = gc'.length + tmp'.length := by
  rw [← List.length_append, ← List.length_append]
  exact ((List.perm_ext_iff_of_nodup hparted.nodup hother.nodup).mpr fun ptr =>
    (hparted.members ptr).trans (hother.members ptr).symm).length_eq

theorem live_of_gc (hmem : ptr ∈ gc) : ∃ o, rt.heap ptr = some o :=
  (hparted.members ptr).mp (List.mem_append_left _ hmem)

theorem live_of_tmp (hmem : ptr ∈ tmp) : ∃ o, rt.heap ptr = some o :=
  (hparted.members ptr).mp (List.mem_append_right _ hmem)

theorem mem_gc_of_not_tmp (hheap : rt.heap ptr = some o) (hout : ptr ∉ tmp) : ptr ∈ gc :=
  (List.mem_append.mp ((hparted.members ptr).mpr ⟨o, hheap⟩)).resolve_right hout

end Parted

section Recount

theorem object_recount (hheap : rt.heap ptr = some o) :
    (rt.recount count mark gc tmp).object ptr =
      .ok { o with refCount := count ptr, mark := mark ptr } := by
  simp [object, recount, hheap]

theorem write_recount (hheap : rt.heap ptr = some o) (n : Nat) (marked : Bool) :
    (rt.recount count mark gc tmp).write ptr { o with refCount := n, mark := marked } =
      rt.recount (Function.update count ptr n) (Function.update mark ptr marked) gc tmp := by
  simp only [write, recount, Collector.mk.injEq, and_self, and_true]
  funext other
  by_cases heq : other = ptr
  · subst other
    simp [hheap]
  · simp [heq]

theorem write_recount_count (hheap : rt.heap ptr = some o) (n : Nat) :
    (rt.recount count mark gc tmp).write ptr { o with refCount := n, mark := mark ptr } =
      rt.recount (Function.update count ptr n) mark gc tmp := by
  rw [write_recount hheap, Function.update_eq_self]

theorem moveToTmp_recount (hzero : rt.zeroRefCountList = []) :
    (rt.recount count mark gc tmp).moveToTmp ptr =
      rt.recount count mark (gc.erase ptr) (tmp.erase ptr ++ [ptr]) := by
  simp [moveToTmp, unlink, recount, hzero]

theorem moveToGc_recount (hzero : rt.zeroRefCountList = []) :
    (rt.recount count mark gc tmp).moveToGc ptr =
      rt.recount count mark (gc.erase ptr ++ [ptr]) (tmp.erase ptr) := by
  simp [moveToGc, unlink, recount, hzero]

end Recount

section Decref

/-- During `gc_decref`: what was passed and has no count left was moved. -/
structure Decreasing (rt : Collector) (count : Ptr → Nat) (mark : Ptr → Bool)
    (gc tmp : List Ptr) : Prop extends Parted rt gc tmp where
  moved : ∀ ptr, ptr ∈ tmp ↔ (∃ o, rt.heap ptr = some o) ∧ count ptr = 0 ∧ mark ptr = true

variable (hzero : rt.zeroRefCountList = [])
include hzero

theorem gcDecrefChild_spec (hdec : rt.Decreasing count mark gc tmp)
    (hheap : rt.heap ptr = some o) (hpos : 0 < count ptr) :
    ∃ gc' tmp', (rt.recount count mark gc tmp).gcDecrefChild ptr =
        .ok (rt.recount (Function.update count ptr (count ptr - 1)) mark gc' tmp') ∧
      rt.Decreasing (Function.update count ptr (count ptr - 1)) mark gc' tmp' := by
  have hout : ptr ∉ tmp := fun hmem => by
    have := ((hdec.moved ptr).mp hmem).2.1
    omega
  have hmem := hdec.mem_gc_of_not_tmp hheap hout
  by_cases hlast : count ptr - 1 = 0 ∧ mark ptr = true
  · refine ⟨_, _, ?_, hdec.moveToTmp hmem, fun other => ?_⟩
    · simp only [gcDecrefChild, object_recount hheap, bind, Except.bind,
        Nat.pos_iff_ne_zero.mp hpos, if_false, pure, Except.pure, if_pos hlast,
        write_recount_count hheap, moveToTmp_recount hzero]
    · rw [List.erase_of_not_mem hout, List.mem_append, List.mem_singleton, hdec.moved]
      by_cases heq : other = ptr
      · subst other
        simp [hlast, hheap]
      · simp [heq]
  · refine ⟨gc, tmp, ?_, hdec.toParted, fun other => ?_⟩
    · simp only [gcDecrefChild, object_recount hheap, bind, Except.bind,
        Nat.pos_iff_ne_zero.mp hpos, if_false, pure, Except.pure, if_neg hlast,
        write_recount_count hheap]
    · rw [hdec.moved]
      by_cases heq : other = ptr
      · subst other
        simp only [Function.update_self]
        constructor
        · rintro ⟨-, hcount, -⟩
          omega
        · exact fun h => absurd h.2 hlast
      · simp [heq]

/-- `gc_decref_child` of each of some references. -/
theorem gcDecrefChildren_spec {children : List Ptr} (hdec : rt.Decreasing count mark gc tmp)
    (hlive : ∀ child ∈ children, ∃ o, rt.heap child = some o)
    (hcount : ∀ ptr, children.count ptr ≤ count ptr) :
    ∃ gc' tmp', children.foldlM gcDecrefChild (rt.recount count mark gc tmp) =
        .ok (rt.recount (fun ptr => count ptr - children.count ptr) mark gc' tmp') ∧
      rt.Decreasing (fun ptr => count ptr - children.count ptr) mark gc' tmp' := by
  induction children generalizing count gc tmp with
  | nil => exact ⟨gc, tmp, rfl, hdec⟩
  | cons child rest ih =>
      obtain ⟨o, hheap⟩ := hlive child (by simp)
      have hone : 0 < count child := by
        have := hcount child
        rw [List.count_cons_self] at this
        omega
      obtain ⟨gc₁, tmp₁, hfirst, hdec₁⟩ := gcDecrefChild_spec hzero hdec hheap hone
      have hcount₁ : ∀ ptr, rest.count ptr ≤
          Function.update count child (count child - 1) ptr := by
        intro ptr
        have := hcount ptr
        by_cases heq : ptr = child
        · subst ptr
          rw [List.count_cons_self] at this
          rw [Function.update_self]
          omega
        · rw [List.count_cons_of_ne (Ne.symm heq)] at this
          rwa [Function.update_of_ne heq]
      obtain ⟨gc₂, tmp₂, hrest, hdec₂⟩ := ih hdec₁
        (fun other hother => hlive other (List.mem_cons_of_mem _ hother)) hcount₁
      have hsum : (fun ptr => Function.update count child (count child - 1) ptr - rest.count ptr) =
          fun ptr => count ptr - (child :: rest).count ptr := by
        funext ptr
        by_cases heq : ptr = child
        · subst ptr
          rw [Function.update_self, List.count_cons_self]
          omega
        · rw [Function.update_of_ne heq, List.count_cons_of_ne (Ne.symm heq)]
      rw [hsum] at hrest hdec₂
      refine ⟨gc₂, tmp₂, ?_, hdec₂⟩
      rw [List.foldlM_cons, hfirst]
      exact hrest

theorem gcDecrefObject_spec (hdec : rt.Decreasing count mark gc tmp) (hheap : rt.heap ptr = some o)
    (hmark : mark ptr = false) (hlive : ∀ child ∈ o.children, ∃ o, rt.heap child = some o)
    (hcount : ∀ ptr, o.children.count ptr ≤ count ptr) :
    ∃ gc' tmp', (rt.recount count mark gc tmp).gcDecrefObject ptr =
        .ok (rt.recount (fun ptr => count ptr - o.children.count ptr)
          (Function.update mark ptr true) gc' tmp') ∧
      rt.Decreasing (fun ptr => count ptr - o.children.count ptr)
        (Function.update mark ptr true) gc' tmp' := by
  obtain ⟨gc₁, tmp₁, hchildren, hdec₁⟩ := gcDecrefChildren_spec hzero hdec hlive hcount
  have hout : ptr ∉ tmp₁ := fun hmem => by
    have := ((hdec₁.moved ptr).mp hmem).2.2
    rw [hmark] at this
    cases this
  have hmem := hdec₁.mem_gc_of_not_tmp hheap hout
  have hwrite : (rt.recount (fun ptr => count ptr - o.children.count ptr) mark gc₁ tmp₁).write ptr
      { o with refCount := count ptr - o.children.count ptr, mark := true } =
      rt.recount (fun ptr => count ptr - o.children.count ptr) (Function.update mark ptr true)
        gc₁ tmp₁ := by
    rw [write_recount hheap, Function.update_eq_self_iff.mpr rfl]
  by_cases hlast : count ptr - o.children.count ptr = 0
  · refine ⟨_, _, ?_, hdec₁.moveToTmp hmem, fun other => ?_⟩
    · simp only [gcDecrefObject, object_recount hheap, markChildren, hchildren, bind, Except.bind,
        hmark, Bool.false_eq_true, if_false, hwrite, if_pos hlast, moveToTmp_recount hzero, pure,
        Except.pure]
    · rw [List.erase_of_not_mem hout, List.mem_append, List.mem_singleton, hdec₁.moved]
      by_cases heq : other = ptr
      · subst other
        simp [hlast, hheap]
      · simp [heq]
  · refine ⟨gc₁, tmp₁, ?_, hdec₁.toParted, fun other => ?_⟩
    · simp only [gcDecrefObject, object_recount hheap, markChildren, hchildren, bind, Except.bind,
        hmark, Bool.false_eq_true, if_false, hwrite, if_neg hlast, pure, Except.pure]
    · rw [hdec₁.moved]
      by_cases heq : other = ptr
      · subst other
        simp [hlast]
      · simp [heq]

/-- The loop of `gc_decref` from an object on. -/
theorem gcDecrefObjects_spec {todo : List Ptr} (hdec : rt.Decreasing count mark gc tmp)
    (hnodup : todo.Nodup) (hlive : ∀ ptr ∈ todo, ∃ o, rt.heap ptr = some o ∧ mark ptr = false)
    (hheld : ∀ ptr, ∀ child ∈ rt.childrenOf ptr, ∃ o, rt.heap child = some o)
    (hcount : ∀ ptr, arcs rt.childrenOf todo ptr ≤ count ptr) :
    ∃ gc' tmp', todo.foldlM gcDecrefObject (rt.recount count mark gc tmp) =
        .ok (rt.recount (fun ptr => count ptr - arcs rt.childrenOf todo ptr)
          (fun ptr => mark ptr || decide (ptr ∈ todo)) gc' tmp') ∧
      rt.Decreasing (fun ptr => count ptr - arcs rt.childrenOf todo ptr)
        (fun ptr => mark ptr || decide (ptr ∈ todo)) gc' tmp' := by
  induction todo generalizing count mark gc tmp with
  | nil =>
      refine ⟨gc, tmp, ?_, ?_⟩ <;> simp only [arcs_nil, Nat.sub_zero, List.not_mem_nil,
        decide_false, Bool.or_false]
      · rfl
      · exact hdec
  | cons ptr rest ih =>
      obtain ⟨o, hheap, hmark⟩ := hlive ptr (by simp)
      obtain ⟨hnot, hnodup⟩ := List.nodup_cons.mp hnodup
      have hchildren : rt.childrenOf ptr = o.children := childrenOf_eq hheap
      obtain ⟨gc₁, tmp₁, hfirst, hdec₁⟩ := gcDecrefObject_spec hzero hdec hheap hmark
        (fun child hchild => hheld ptr child (by rwa [hchildren])) fun other => by
          have := hcount other
          rw [arcs_cons, hchildren] at this
          omega
      obtain ⟨gc₂, tmp₂, hrest, hdec₂⟩ := ih hdec₁ hnodup
        (fun other hother => by
          obtain ⟨old, hold, hmarkOld⟩ := hlive other (List.mem_cons_of_mem _ hother)
          refine ⟨old, hold, ?_⟩
          rwa [Function.update_of_ne (ne_of_mem_of_not_mem hother hnot)])
        (fun other => by
          have := hcount other
          rw [arcs_cons, hchildren] at this
          omega)
      have hsum : (fun other => count other - o.children.count other -
          arcs rt.childrenOf rest other) =
          fun other => count other - arcs rt.childrenOf (ptr :: rest) other := by
        funext other
        rw [arcs_cons, hchildren, Nat.sub_sub]
      have hmarks : (fun other => Function.update mark ptr true other || decide (other ∈ rest)) =
          fun other => mark other || decide (other ∈ ptr :: rest) := by
        funext other
        by_cases heq : other = ptr
        · subst other
          simp
        · simp [heq]
      rw [hsum, hmarks] at hrest hdec₂
      refine ⟨gc₂, tmp₂, ?_, hdec₂⟩
      rw [List.foldlM_cons, hfirst]
      exact hrest

end Decref

section Scan

/-- During the first loop of `gc_scan`, that has passed some objects. -/
structure Scanning (rt : Collector) (passed : List Ptr) (count : Ptr → Nat) (mark : Ptr → Bool)
    (gc tmp : List Ptr) : Prop extends Parted rt gc tmp where
  waiting : ∀ ptr, ptr ∈ tmp ↔ (∃ o, rt.heap ptr = some o) ∧ count ptr = 0
  prefixed : passed <+: gc
  unmarked : ∀ ptr ∈ passed, mark ptr = false
  reachable : ∀ ptr ∈ gc, rt.Reachable ptr

theorem update_add_count (child : Ptr) (rest : List Ptr) :
    (fun ptr => Function.update count child (count child + 1) ptr + rest.count ptr) =
      fun ptr => count ptr + (child :: rest).count ptr := by
  funext ptr
  by_cases heq : ptr = child
  · subst ptr
    rw [Function.update_self, List.count_cons_self]
    omega
  · rw [Function.update_of_ne heq, List.count_cons_of_ne (Ne.symm heq)]

variable {passed : List Ptr} (hzero : rt.zeroRefCountList = [])
include hzero

theorem gcScanIncrefChild_spec (hscan : rt.Scanning passed count mark gc tmp)
    (hheap : rt.heap ptr = some o) (hreachable : rt.Reachable ptr) :
    ∃ mark' gc' tmp', (rt.recount count mark gc tmp).gcScanIncrefChild ptr =
        .ok (rt.recount (Function.update count ptr (count ptr + 1)) mark' gc' tmp') ∧
      rt.Scanning passed (Function.update count ptr (count ptr + 1)) mark' gc' tmp' := by
  by_cases hfirst : count ptr + 1 = 1
  · have hmem : ptr ∈ tmp := (hscan.waiting ptr).mpr ⟨⟨o, hheap⟩, by omega⟩
    have hnot : ptr ∉ gc := fun hgc => hscan.disjoint hgc hmem
    have hnodup : tmp.Nodup := (List.nodup_append.mp hscan.nodup).2.1
    refine ⟨Function.update mark ptr false, _, _, ?_, hscan.moveToGc hmem, fun other => ?_, ?_,
      fun other hother => ?_, fun other hother => ?_⟩
    · simp only [gcScanIncrefChild, object_recount hheap, bind, Except.bind, if_pos hfirst,
        write_recount hheap, moveToGc_recount hzero, pure, Except.pure]
    · rw [hnodup.mem_erase_iff, hscan.waiting]
      by_cases heq : other = ptr
      · subst other
        simp
      · simp [heq]
    · rw [List.erase_of_not_mem hnot]
      exact hscan.prefixed.trans (List.prefix_append gc [ptr])
    · have hne : other ≠ ptr := ne_of_mem_of_not_mem (hscan.prefixed.subset hother) hnot
      rw [Function.update_of_ne hne]
      exact hscan.unmarked other hother
    · rw [List.erase_of_not_mem hnot, List.mem_append, List.mem_singleton] at hother
      rcases hother with hother | rfl
      · exact hscan.reachable other hother
      · exact hreachable
  · refine ⟨mark, gc, tmp, ?_, hscan.toParted, fun other => ?_, hscan.prefixed, hscan.unmarked,
      hscan.reachable⟩
    · simp only [gcScanIncrefChild, object_recount hheap, bind, Except.bind, if_neg hfirst,
        write_recount_count hheap, pure, Except.pure]
    · rw [hscan.waiting]
      by_cases heq : other = ptr
      · subst other
        rw [Function.update_self]
        omega
      · rw [Function.update_of_ne heq]

theorem gcScanIncrefChildren_spec {children : List Ptr}
    (hscan : rt.Scanning passed count mark gc tmp)
    (hlive : ∀ child ∈ children, (∃ o, rt.heap child = some o) ∧ rt.Reachable child) :
    ∃ mark' gc' tmp', children.foldlM gcScanIncrefChild (rt.recount count mark gc tmp) =
        .ok (rt.recount (fun ptr => count ptr + children.count ptr) mark' gc' tmp') ∧
      rt.Scanning passed (fun ptr => count ptr + children.count ptr) mark' gc' tmp' := by
  induction children generalizing count mark gc tmp with
  | nil => exact ⟨mark, gc, tmp, rfl, hscan⟩
  | cons child rest ih =>
      obtain ⟨⟨o, hheap⟩, hreachable⟩ := hlive child (by simp)
      obtain ⟨mark₁, gc₁, tmp₁, hfirst, hscan₁⟩ :=
        gcScanIncrefChild_spec hzero hscan hheap hreachable
      obtain ⟨mark₂, gc₂, tmp₂, hrest, hscan₂⟩ := ih hscan₁
        fun other hother => hlive other (List.mem_cons_of_mem _ hother)
      rw [update_add_count] at hrest hscan₂
      refine ⟨mark₂, gc₂, tmp₂, ?_, hscan₂⟩
      rw [List.foldlM_cons, hfirst]
      exact hrest

/-- The first loop of `gc_scan`: what is in `gc_obj_list` at its end is counted from outside
and from what is there. -/
theorem gcScanFrom_spec {external : Ptr → Nat} {fuel : Nat}
    (hscan : rt.Scanning passed (fun ptr => external ptr + arcs rt.childrenOf passed ptr) mark
      gc tmp)
    (hheld : ∀ ptr, ∀ child ∈ rt.childrenOf ptr, ∃ o, rt.heap child = some o)
    (hfuel : gc.length + tmp.length < fuel + passed.length) :
    ∃ mark' gc' tmp',
      gcScanFrom (rt.recount (fun ptr => external ptr + arcs rt.childrenOf passed ptr) mark gc tmp)
        fuel passed.length =
        .ok (rt.recount (fun ptr => external ptr + arcs rt.childrenOf gc' ptr) mark' gc' tmp') ∧
      rt.Scanning gc' (fun ptr => external ptr + arcs rt.childrenOf gc' ptr) mark' gc' tmp' := by
  induction fuel generalizing passed mark gc tmp with
  | zero =>
      have := hscan.prefixed.length_le
      omega
  | succ fuel ih =>
      obtain ⟨todo, rfl⟩ := hscan.prefixed
      cases todo with
      | nil =>
          rw [List.append_nil] at hscan ⊢
          refine ⟨mark, passed, tmp, ?_, hscan⟩
          simp [gcScanFrom, recount]
      | cons ptr todo =>
          have hmem : ptr ∈ passed ++ ptr :: todo := by simp
          obtain ⟨o, hheap⟩ := hscan.live_of_gc hmem
          have hchildren : rt.childrenOf ptr = o.children := childrenOf_eq hheap
          have hpos : external ptr + arcs rt.childrenOf passed ptr ≠ 0 := fun hnone =>
            hscan.disjoint hmem ((hscan.waiting ptr).mpr ⟨⟨o, hheap⟩, hnone⟩)
          have hmarked : rt.Scanning (passed ++ [ptr])
              (fun ptr => external ptr + arcs rt.childrenOf passed ptr)
              (Function.update mark ptr false) (passed ++ ptr :: todo) tmp :=
            { hscan with
              prefixed := ⟨todo, by rw [List.append_assoc, List.singleton_append]⟩
              unmarked := fun other hother => by
                by_cases heq : other = ptr
                · rw [heq, Function.update_self]
                · rw [Function.update_of_ne heq]
                  exact hscan.unmarked other
                    ((List.mem_append.mp hother).resolve_right (by simpa using heq)) }
          have hlive : ∀ child ∈ o.children,
              (∃ o, rt.heap child = some o) ∧ rt.Reachable child := by
            intro child hchild
            rw [← hchildren] at hchild
            exact ⟨hheld ptr child hchild, (hscan.reachable ptr hmem).child hchild⟩
          obtain ⟨mark₁, gc₁, tmp₁, hstep, hscan₁⟩ :=
            gcScanIncrefChildren_spec hzero hmarked hlive
          have hcounts : (fun other => external other + arcs rt.childrenOf passed other +
              o.children.count other) =
              fun other => external other + arcs rt.childrenOf (passed ++ [ptr]) other := by
            funext other
            rw [arcs_append, arcs_cons, arcs_nil, hchildren, Nat.add_zero, Nat.add_assoc]
          rw [hcounts] at hstep hscan₁
          have hlength := hscan₁.length_eq hscan.toParted
          have hlonger : (passed ++ [ptr]).length = passed.length + 1 := by simp
          obtain ⟨mark₂, gc₂, tmp₂, hrest, hscan₂⟩ := ih hscan₁ (by omega)
          refine ⟨mark₂, gc₂, tmp₂, ?_, hscan₂⟩
          have hread : (rt.recount (fun ptr => external ptr + arcs rt.childrenOf passed ptr) mark
              (passed ++ ptr :: todo) tmp).gcObjList[passed.length]? = some ptr := by
            simp [recount]
          rw [← hrest, hlonger]
          simp only [gcScanFrom, hread, object_recount hheap, bind, Except.bind, if_neg hpos,
            write_recount hheap, Function.update_eq_self, markChildren, hstep]

end Scan

section Restore

/-- At the end of the first loop what waits is out of reach. -/
theorem Scanning.not_reachable (hscan : rt.Scanning gc
    (fun ptr => rt.external ptr + arcs rt.childrenOf gc ptr) mark gc tmp) (hrt : rt.Accounted)
    (hmem : ptr ∈ tmp) : ¬rt.Reachable ptr := by
  have hkept : ∀ other, (∃ o, rt.heap other = some o) →
      rt.external other + arcs rt.childrenOf gc other ≠ 0 → other ∈ gc := by
    rintro other ⟨o, hheap⟩ hcount
    exact hscan.mem_gc_of_not_tmp hheap fun htmp => hcount ((hscan.waiting other).mp htmp).2
  intro hreachable
  refine hscan.disjoint (Reached.of_closed (p := fun node => node ∈ gc) ?_ ?_ hreachable) hmem
  · intro root hroot
    exact hkept root (hrt.named hroot) (by omega)
  · intro source target hsource hchild
    have hpos := arcs_pos_iff.mpr ⟨source, hsource, hchild⟩
    exact hkept target (hrt.held_childrenOf hchild) (by omega)

theorem gcScanIncrefChildren2_spec {children : List Ptr}
    (hlive : ∀ child ∈ children, ∃ o, rt.heap child = some o) :
    children.foldlM gcScanIncrefChild2 (rt.recount count mark gc tmp) =
      .ok (rt.recount (fun ptr => count ptr + children.count ptr) mark gc tmp) := by
  induction children generalizing count with
  | nil => rfl
  | cons child rest ih =>
      obtain ⟨o, hheap⟩ := hlive child (by simp)
      rw [List.foldlM_cons, ← update_add_count,
        ← ih fun other hother => hlive other (List.mem_cons_of_mem _ hother)]
      simp only [gcScanIncrefChild2, object_recount hheap, bind, Except.bind,
        write_recount_count hheap, pure, Except.pure]

/-- The second loop of `gc_scan`. -/
theorem gcRestoreObjects_spec {todo : List Ptr} (hlive : ∀ ptr ∈ todo, ∃ o, rt.heap ptr = some o)
    (hheld : ∀ ptr, ∀ child ∈ rt.childrenOf ptr, ∃ o, rt.heap child = some o) :
    todo.foldlM gcRestoreObject (rt.recount count mark gc tmp) =
      .ok (rt.recount (fun ptr => count ptr + arcs rt.childrenOf todo ptr) mark gc tmp) := by
  induction todo generalizing count with
  | nil => rfl
  | cons ptr rest ih =>
      obtain ⟨o, hheap⟩ := hlive ptr (by simp)
      have hchildren : rt.childrenOf ptr = o.children := childrenOf_eq hheap
      have hsum : (fun other => count other + arcs rt.childrenOf (ptr :: rest) other) =
          fun other => count other + o.children.count other + arcs rt.childrenOf rest other := by
        funext other
        rw [arcs_cons, hchildren, Nat.add_assoc]
      rw [List.foldlM_cons, hsum,
        ← ih fun other hother => hlive other (List.mem_cons_of_mem _ hother)]
      simp only [gcRestoreObject, object_recount hheap, bind, Except.bind, markChildren,
        gcScanIncrefChildren2_spec fun child hchild => hheld ptr child (by rwa [hchildren])]

end Restore

/-- Between operations the counts and marks are known. -/
theorem Settled.recount_self (hrt : rt.Settled) (gc tmp : List Ptr) :
    rt.recount (fun ptr => rt.external ptr + arcs rt.childrenOf rt.addresses ptr)
      (fun _ => false) gc tmp = { rt with gcObjList := gc, tmpObjList := tmp } := by
  simp only [recount, Collector.mk.injEq, and_self, and_true]
  funext ptr
  cases hheap : rt.heap ptr with
  | none => rfl
  | some o =>
      have hcount := hrt.counted hheap
      rw [hrt.tasks_nil, List.count_nil, Nat.add_zero] at hcount
      rw [Option.map_some, ← hcount, ← (hrt.fresh hheap).1]

/-- The two passes end with the counts as they were, and with what is out of reach, and
nothing else, in `tmp_obj_list`. -/
theorem Settled.gcScan_spec (hrt : rt.Settled) :
    ∃ passed mark gc tmp, rt.gcDecref = .ok passed ∧
      passed.gcScan = .ok (rt.recount
        (fun ptr => rt.external ptr + arcs rt.childrenOf rt.addresses ptr) mark gc tmp) ∧
      rt.Parted gc tmp ∧ (∀ ptr ∈ gc, mark ptr = false ∧ rt.Reachable ptr) ∧
      ∀ ptr ∈ tmp, ¬rt.Reachable ptr := by
  have hheld : ∀ ptr, ∀ child ∈ rt.childrenOf ptr, ∃ o, rt.heap child = some o :=
    fun ptr child hchild => hrt.held_childrenOf hchild
  have hstart : rt.Decreasing (fun ptr => rt.external ptr + arcs rt.childrenOf rt.addresses ptr)
      (fun _ => false) rt.gcObjList [] :=
    { nodup := by rw [List.append_nil]; exact hrt.nodup
      members := by rw [List.append_nil]; exact hrt.members
      moved := fun ptr => by simp }
  have harcs : ∀ ptr, arcs rt.childrenOf rt.gcObjList ptr = arcs rt.childrenOf rt.addresses ptr :=
    fun ptr => hrt.arcs_members hrt.nodup hrt.members
  obtain ⟨gc₁, tmp₁, hdecref, hdec⟩ := gcDecrefObjects_spec hrt.zeroRefCountList_nil hstart
    hrt.nodup (fun ptr hmem => by
      obtain ⟨o, hheap⟩ := (hrt.members ptr).mp hmem
      exact ⟨o, hheap, rfl⟩) hheld (fun ptr => by rw [harcs]; exact Nat.le_add_left _ _)
  have hcounts : (fun ptr => rt.external ptr + arcs rt.childrenOf rt.addresses ptr -
      arcs rt.childrenOf rt.gcObjList ptr) =
      fun ptr => rt.external ptr + arcs rt.childrenOf [] ptr := by
    funext ptr
    rw [harcs, Nat.add_sub_cancel, arcs_nil, Nat.add_zero]
  rw [hcounts] at hdecref hdec
  have hscanning : rt.Scanning [] (fun ptr => rt.external ptr + arcs rt.childrenOf [] ptr)
      (fun ptr => false || decide (ptr ∈ rt.gcObjList)) gc₁ tmp₁ :=
    { hdec.toParted with
      waiting := fun ptr => by
        rw [hdec.moved]
        constructor
        · exact fun h => ⟨h.1, h.2.1⟩
        · exact fun h => ⟨h.1, h.2, by simpa using (hrt.members ptr).mpr h.1⟩
      prefixed := List.nil_prefix
      unmarked := fun _ hmem => by cases hmem
      reachable := fun ptr hmem => by
        obtain ⟨o, hheap⟩ := hdec.live_of_gc hmem
        refine reached_of_external (Nat.pos_of_ne_zero fun hnone => hdec.disjoint hmem ?_)
        exact (hdec.moved ptr).mpr
          ⟨⟨o, hheap⟩, by simpa using hnone, by simpa using (hrt.members ptr).mpr ⟨o, hheap⟩⟩ }
  have hfuel : gc₁.length + tmp₁.length <
      gc₁.length + tmp₁.length + 1 + ([] : List Ptr).length := by simp
  obtain ⟨mark, gc, tmp, hscan, hscanned⟩ :=
    gcScanFrom_spec hrt.zeroRefCountList_nil hscanning hheld hfuel
  have hboth : (fun ptr => rt.external ptr + arcs rt.childrenOf gc ptr +
      arcs rt.childrenOf tmp ptr) =
      fun ptr => rt.external ptr + arcs rt.childrenOf rt.addresses ptr := by
    funext ptr
    rw [Nat.add_assoc, ← arcs_append, hrt.arcs_members hscanned.nodup hscanned.members]
  refine ⟨rt.recount (fun ptr => rt.external ptr + arcs rt.childrenOf [] ptr)
      (fun ptr => false || decide (ptr ∈ rt.gcObjList)) gc₁ tmp₁,
    mark, gc, tmp, ?_, ?_, hscanned.toParted,
    fun ptr hmem => ⟨hscanned.unmarked ptr hmem, hscanned.reachable ptr hmem⟩,
    fun ptr hmem => hscanned.not_reachable hrt.toAccounted hmem⟩
  · rw [gcDecref, ← hdecref, hrt.recount_self rt.gcObjList []]
  · rw [gcScan, ← hboth, ← gcRestoreObjects_spec (fun ptr hmem => hscanned.live_of_tmp hmem) hheld]
    change (gcScanFrom _ (gc₁.length + tmp₁.length + 1) ([] : List Ptr).length >>= _) = _
    rw [hscan]
    rfl

end Collector

end QuickjsBackend
