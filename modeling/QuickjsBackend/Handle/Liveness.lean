import QuickjsBackend.Handle.Invariant

/-! # Slots in use

A slot belongs to the innermost scope that took in handles when it was allocated.
It stays in use, with the value stored in it, until `HandleScope::Exit` of that
scope is over: scopes opened later lie above it, scopes opened before are below
the position of its own, and an API call writes to the slot it has reserved
itself. The handles in use own the references of their slots one by one.
-/

namespace QuickjsBackend

open Foundation

/-- The innermost scope that takes in handles; one whose `Exit` is over does not. -/
def ownScope : List Frame → Option Nat
  | [] => none
  | .slot _ :: below => ownScope below
  | .scope handleScope :: below =>
      if handleScope.phase = .closing then ownScope below else some below.length

/-- The slot is above the position of its own scope and below those of the scopes
inside. -/
def Belongs (slot : Nat) (owner : Option Nat) : List Frame → Prop
  | [] => owner = none
  | .slot _ :: below => Belongs slot owner below
  | .scope handleScope :: below =>
      if owner = some below.length then
        handleScope.prevPos ≤ slot ∧ handleScope.phase ≠ .closing
      else (handleScope.phase ≠ .closing → slot < handleScope.prevPos) ∧ Belongs slot owner below

/-- The destructor has released the slot and not reset the position yet. -/
def Frame.Released (slot : Nat) : Frame → Prop
  | .slot _ => False
  | .scope handleScope =>
      match handleScope.phase with
      | .exiting i stop => i ≤ slot ∧ slot < stop
      | _ => False

instance (slot : Nat) (frame : Frame) : Decidable (frame.Released slot) := by
  unfold Frame.Released
  split
  · infer_instance
  · split <;> infer_instance

/-- An API call has allocated the slot and not stored its result yet. -/
abbrev Reserved (slot : Nat) (frames : List Frame) : Prop := Frame.slot slot ∈ frames

abbrev Released (slot : Nat) (frames : List Frame) : Prop := ∃ frame ∈ frames, frame.Released slot

/-- No handle owns what is in the slot. -/
abbrev Withheld (slot : Nat) (frames : List Frame) : Prop :=
  Reserved slot frames ∨ Released slot frames

section Frames

variable {slot address target hi : Nat} {owner : Option Nat} {frame : Frame}
variable {frames below : List Frame} {handleScope : HandleScope} {value : JSValue}

theorem Frame.released_scope : (Frame.scope handleScope).Released slot ↔
    ∃ i stop, handleScope.phase = .exiting i stop ∧ i ≤ slot ∧ slot < stop := by
  simp only [Frame.Released]
  split
  next i stop hphase => simp only [hphase, ScopePhase.exiting.injEq, exists_and_left,
    exists_eq_left', and_assoc]
  next hphase =>
    refine iff_of_false (fun hfalse => hfalse) ?_
    rintro ⟨i, stop, heq, _⟩
    exact hphase i stop heq

theorem Belongs.lt_length (hbelongs : Belongs slot (some address) frames) :
    address < frames.length := by
  induction frames with
  | nil => cases hbelongs
  | cons frame below ih =>
      cases frame with
      | slot reserved => exact Nat.lt_succ_of_lt (ih hbelongs)
      | scope handleScope =>
          simp only [Belongs] at hbelongs
          split at hbelongs
          next heq =>
            rw [Option.some.inj heq]
            exact Nat.lt_succ_self _
          next => exact Nat.lt_succ_of_lt (ih hbelongs.2)

/-- Above all recorded positions a slot belongs to the innermost scope. -/
theorem belongs_ownScope (hbounded : Bounded frames slot) :
    Belongs slot (ownScope frames) frames := by
  induction frames with
  | nil => rfl
  | cons frame below ih =>
      have hbelow := hbounded.below
      cases frame with
      | slot reserved => exact ih hbelow
      | scope handleScope =>
          by_cases hclosing : handleScope.phase = .closing
          · simp only [ownScope, hclosing, if_true, Belongs]
            split
            next heq =>
              have hlt := (heq ▸ ih hbelow : Belongs slot (some below.length) below).lt_length
              exact absurd hlt (lt_irrefl _)
            next => exact ⟨fun hopen => absurd rfl hopen, ih hbelow⟩
          · simp only [ownScope, hclosing, if_false, Belongs, if_true]
            exact ⟨hbounded.1.prevPos_le, hclosing⟩

theorem belongs_setScopeValue :
    Belongs slot owner (setScopeValue target value frames) ↔ Belongs slot owner frames := by
  induction frames with
  | nil => rfl
  | cons frame below ih =>
      simp only [setScopeValue]
      split
      · cases frame <;> rfl
      · cases frame with
        | slot reserved => exact ih
        | scope handleScope => simp only [Belongs, setScopeValue_length, ih]

theorem reserved_setScopeValue :
    Reserved slot (setScopeValue target value frames) ↔ Reserved slot frames := by
  induction frames with
  | nil => rfl
  | cons frame below ih =>
      simp only [setScopeValue]
      split
      · cases frame <;> simp [Reserved]
      · simp only [Reserved, List.mem_cons] at ih ⊢
        rw [ih]

theorem released_setScopeValue :
    Released slot (setScopeValue target value frames) ↔ Released slot frames := by
  induction frames with
  | nil => rfl
  | cons frame below ih =>
      simp only [setScopeValue]
      split
      · cases frame <;> simp [Released, Frame.Released]
      · simp only [Released, List.exists_mem_cons_iff] at ih ⊢
        rw [ih]

theorem Bounded.lt_of_reserved (hbounded : Bounded frames hi) (hreserved : Reserved slot frames) :
    slot < hi := by
  induction frames generalizing hi with
  | nil => simp [Reserved] at hreserved
  | cons frame below ih =>
      rcases List.mem_cons.mp hreserved with rfl | hmem
      · exact hbounded.1
      · exact ih hbounded.below hmem

theorem Bounded.lt_of_released (hbounded : Bounded frames hi) (hreleased : Released slot frames) :
    slot < hi := by
  induction frames generalizing hi with
  | nil => simp [Released] at hreleased
  | cons frame below ih =>
      rcases (List.exists_mem_cons_iff _ _ _).mp hreleased with htop | hmem
      · cases frame with
        | slot reserved => exact htop.elim
        | scope handleScope =>
            have hscope := hbounded.1
            simp only [Frame.Released] at htop
            split at htop
            next i stop hphase =>
              simp only [HandleScope.Bounded, hphase] at hscope
              omega
            next => exact htop.elim
      · exact ih hbounded.below hmem

theorem Bounded.prevPos_le (hbounded : Bounded frames hi)
    (hscope : scopeAt address frames = some handleScope) : handleScope.prevPos ≤ hi := by
  induction frames generalizing hi with
  | nil => simp [scopeAt] at hscope
  | cons frame below ih =>
      rcases scopeAt_cons_cases hscope with ⟨_, rfl⟩ | hbelow
      · exact hbounded.1.prevPos_le
      · exact ih hbounded.below hbelow

theorem withheld_cons : Withheld slot (frame :: below) ↔
    (frame = .slot slot ∨ frame.Released slot) ∨ Withheld slot below := by
  rw [Withheld, Released, List.exists_mem_cons_iff, Reserved, List.mem_cons,
    @eq_comm _ (Frame.slot slot)]
  tauto

theorem Bounded.lt_of_withheld (hbounded : Bounded frames hi) (hwithheld : Withheld slot frames) :
    slot < hi := by
  rcases hwithheld with hreserved | hreleased
  · exact hbounded.lt_of_reserved hreserved
  · exact hbounded.lt_of_released hreleased

/-- References in the slots of `[lo, hi)` whose handles own them. -/
def liveSum (values : List JSValue) (frames : List Frame) (lo hi : Nat) : Ptr → Int :=
  ∑ slot ∈ Finset.Ico lo hi,
    if Withheld slot frames then 0 else (values.getD slot .undefined).refs

variable {values : List JSValue} {lo mid : Nat}

theorem liveSum_add (hlo : lo ≤ mid) (hhi : mid ≤ hi) :
    liveSum values frames lo mid + liveSum values frames mid hi = liveSum values frames lo hi :=
  Finset.sum_Ico_consecutive _ hlo hhi

theorem liveSum_of_live (hlive : ∀ slot, lo ≤ slot → slot < hi → ¬ Withheld slot frames) :
    liveSum values frames lo hi = slotRefs values lo hi := by
  apply Finset.sum_congr rfl
  intro slot hslot
  have hbounds := Finset.mem_Ico.mp hslot
  rw [if_neg (hlive slot hbounds.1 hbounds.2)]

theorem liveSum_of_withheld (hdead : ∀ slot, lo ≤ slot → slot < hi → Withheld slot frames) :
    liveSum values frames lo hi = 0 := by
  apply Finset.sum_eq_zero
  intro slot hslot
  have hbounds := Finset.mem_Ico.mp hslot
  rw [if_pos (hdead slot hbounds.1 hbounds.2)]

/-- The entry on top withholds no slot of the interval. -/
theorem liveSum_cons (htop : ∀ slot, lo ≤ slot → slot < hi →
    frame ≠ .slot slot ∧ ¬ frame.Released slot) :
    liveSum values (frame :: below) lo hi = liveSum values below lo hi := by
  apply Finset.sum_congr rfl
  intro slot hslot
  have hbounds := Finset.mem_Ico.mp hslot
  obtain ⟨hslotFrame, hreleased⟩ := htop slot hbounds.1 hbounds.2
  simp only [withheld_cons, hslotFrame, hreleased, or_self, false_or]

/-- Above the recorded positions no slot is withheld. -/
theorem liveSum_above (hbounded : Bounded frames lo) :
    liveSum values frames lo hi = slotRefs values lo hi :=
  liveSum_of_live fun _ hlo _ hwithheld =>
    absurd (hbounded.lt_of_withheld hwithheld) (Nat.not_lt.mpr hlo)

/-- The references counted along the stack are those of the slots one by one. -/
theorem liveRefs_eq_liveSum (hbounded : Bounded frames hi) :
    liveRefs values frames hi = liveSum values frames 0 hi := by
  induction frames generalizing hi with
  | nil => exact (liveSum_above (show Bounded [] 0 from trivial)).symm
  | cons frame below ih =>
      cases frame with
      | slot reserved =>
          have hlt : reserved < hi := hbounded.1
          have hbelow : Bounded below reserved := hbounded.2
          have hown : liveSum values (.slot reserved :: below) reserved (reserved + 1) = 0 := by
            apply liveSum_of_withheld
            intro slot hlo hhi
            have heq : slot = reserved := by omega
            exact withheld_cons.mpr (Or.inl (Or.inl (by rw [heq])))
          have hrest : ∀ lo hi, (∀ slot, lo ≤ slot → slot < hi → slot ≠ reserved) →
              liveSum values (.slot reserved :: below) lo hi = liveSum values below lo hi := by
            intro lo hi hne
            apply liveSum_cons
            intro slot hlo hhi
            exact ⟨fun heq => hne slot hlo hhi (Frame.slot.inj heq).symm, fun hfalse => hfalse⟩
          rw [← liveSum_add (Nat.zero_le reserved) (Nat.le_of_lt hlt),
            ← liveSum_add (Nat.le_succ reserved) hlt, hown, zero_add,
            hrest 0 reserved (fun _ _ h => Nat.ne_of_lt h),
            hrest (reserved + 1) hi (fun _ h _ => Nat.ne_of_gt h), ← ih hbelow,
            liveSum_above (hbelow.mono (Nat.le_succ reserved)), liveRefs]
          abel
      | scope handleScope =>
          have hscope := hbounded.1
          have hbelow : Bounded below handleScope.prevPos := hbounded.2
          have hle := hscope.prevPos_le
          rw [← liveSum_add (Nat.zero_le handleScope.prevPos) hle, liveRefs,
            HandleScope.slotRefs, ih hbelow]
          split
          next i stop hphase =>
            simp only [HandleScope.Bounded, hphase] at hscope
            have hrest : ∀ lo hi, (∀ slot, lo ≤ slot → slot < hi → slot < i ∨ stop ≤ slot) →
                liveSum values (.scope handleScope :: below) lo hi =
                  liveSum values below lo hi := by
              intro lo hi houtside
              apply liveSum_cons
              intro slot hlo hhi
              have hcase := houtside slot hlo hhi
              simp only [ne_eq, reduceCtorEq, not_false_eq_true, Frame.Released, hphase, true_and]
              omega
            have hgone : liveSum values (.scope handleScope :: below) i stop = 0 := by
              apply liveSum_of_withheld
              intro slot hlo hhi
              refine withheld_cons.mpr (Or.inl (Or.inr ?_))
              simp only [Frame.Released, hphase]
              exact ⟨hlo, hhi⟩
            rw [← liveSum_add hscope.1 (hscope.2.1.trans hscope.2.2),
              ← liveSum_add hscope.2.1 hscope.2.2, hgone, zero_add,
              hrest 0 _ (fun _ _ _ => by omega), hrest _ i (fun _ _ _ => by omega),
              hrest stop hi (fun _ _ _ => by omega), liveSum_above hbelow,
              liveSum_above (hbelow.mono (hscope.1.trans hscope.2.1))]
            abel
          next hphase =>
            have hnone : ∀ slot, ¬ (Frame.scope handleScope).Released slot := by
              intro slot hreleased
              obtain ⟨i, stop, heq, _⟩ := Frame.released_scope.mp hreleased
              exact hphase i stop heq
            rw [liveSum_cons (fun slot _ _ => ⟨by simp, hnone slot⟩),
              liveSum_cons (fun slot _ _ => ⟨by simp, hnone slot⟩), liveSum_above hbelow]
            abel

/-- A scope withholds no slot below its position. -/
theorem withheld_scope_cons (hbounded : handleScope.Bounded hi)
    (hslot : slot < handleScope.prevPos) :
    Withheld slot (.scope handleScope :: below) ↔ Withheld slot below := by
  have hnone : ¬ (Frame.scope handleScope).Released slot := by
    intro hreleased
    obtain ⟨i, stop, hphase, hi, _⟩ := Frame.released_scope.mp hreleased
    simp only [HandleScope.Bounded, hphase] at hbounded
    omega
  simp only [withheld_cons, reduceCtorEq, hnone, or_self, false_or]

theorem withheld_slot_cons {index : Nat} (hne : slot ≠ index) :
    Withheld slot (.slot index :: below) ↔ Withheld slot below := by
  have hframe : Frame.slot index ≠ .slot slot := fun heq => hne (Frame.slot.inj heq).symm
  simp only [withheld_cons, hframe, Frame.Released, or_self, false_or]

/-- The scope on top has the highest position. -/
theorem Bounded.prevPos_le_top {top : HandleScope} (hbounded : Bounded (.scope top :: below) hi)
    (hscope : scopeAt address (.scope top :: below) = some handleScope) :
    handleScope.prevPos ≤ top.prevPos := by
  rcases scopeAt_cons_cases hscope with ⟨_, htop⟩ | hbelow
  · rw [Frame.scope.inj htop]
  · exact hbounded.2.prevPos_le hbelow

end Frames

namespace Isolate

variable (isolate : Isolate)

/-- The action is the end of `HandleScope::Exit` for the scope at the address. -/
def EndsScope (owner : Option Nat) : Action → Prop
  | .handle .finishExit =>
      match isolate.frames with
      | [] => False
      | _ :: below => owner = some below.length
  | _ => False

/-- The action is the iteration of that `Exit` which releases the slot. -/
def ReleasesSlot (owner : Option Nat) (slot : Nat) : Action → Prop
  | .handle .releaseSlot =>
      match isolate.frames with
      | .scope handleScope :: below =>
          owner = some below.length ∧ ∃ stop, handleScope.phase = .exiting (slot + 1) stop
      | _ => False
  | _ => False

/-- The action takes the scope at the address off the stack. -/
def PopsScope (address : Nat) : Action → Prop
  | .handle .closeScope =>
      match isolate.frames with
      | [] => False
      | _ :: below => below.length = address
  | _ => False

/-- The slots whose handles own the reference that is in them. -/
def liveSlots : Finset Nat :=
  (Finset.Ico 0 isolate.valueAllocPos).filter fun slot => ¬ Withheld slot isolate.frames

variable {isolate} {next origin : Isolate} {action : Action} {slot : Nat} {owner : Option Nat}

theorem mem_liveSlots : slot ∈ isolate.liveSlots ↔
    slot < isolate.valueAllocPos ∧ ¬ Withheld slot isolate.frames := by
  simp [liveSlots]

theorem Belongs.transition (hbelongs : Belongs slot owner isolate.frames)
    (hinUse : slot < isolate.valueAllocPos) (hopen : ¬ isolate.EndsScope owner action)
    (hnext : Transition isolate action next) :
    Belongs slot owner next.frames ∧ slot < next.valueAllocPos := by
  cases hnext with
  | openScope escapable =>
      refine ⟨?_, hinUse⟩
      simp only [Isolate.openScope, Belongs]
      split
      next heq => exact absurd (heq ▸ hbelongs : Belongs _ _ _).lt_length (lt_irrefl _)
      next => exact ⟨fun _ => hinUse, hbelongs⟩
  | alloc => exact ⟨hbelongs, Nat.lt_succ_of_lt hinUse⟩
  | store index below value hframes =>
      rw [hframes] at hbelongs
      exact ⟨hbelongs, hinUse⟩
  | escape address handle handleScope parent value =>
      exact ⟨belongs_setScopeValue.mpr hbelongs, hinUse⟩
  | enterLoop handleScope below hframes hphase hlt =>
      rw [hframes] at hbelongs
      refine ⟨?_, hinUse⟩
      simpa only [Belongs, hphase, ne_eq, reduceCtorEq, not_false_eq_true] using hbelongs
  | skipLoop handleScope below hframes hphase hle =>
      rw [hframes] at hbelongs
      refine ⟨?_, hinUse⟩
      simp only [Belongs, hphase, ne_eq, reduceCtorEq, not_false_eq_true, and_true] at hbelongs
      simp only [releaseScopeValue, Belongs, ne_eq, not_true_eq_false, and_false]
      split at hbelongs
      next => omega
      next howner =>
        rw [if_neg howner]
        exact ⟨fun hfalse => hfalse.elim, hbelongs.2⟩
  | releaseSlot handleScope index stop below hframes hphase =>
      rw [hframes] at hbelongs
      refine ⟨?_, hinUse⟩
      simpa only [Isolate.releaseSlot, Belongs, hphase, ne_eq, reduceCtorEq, not_false_eq_true]
        using hbelongs
  | finishExit handleScope i stop below hframes hphase hle =>
      rw [hframes] at hbelongs
      simp only [EndsScope, hframes] at hopen
      simp only [Belongs, hphase, ne_eq, reduceCtorEq, not_false_eq_true, if_neg hopen,
        forall_const] at hbelongs
      refine ⟨?_, hbelongs.1⟩
      simp only [Isolate.finishExit, releaseScopeValue, Belongs, if_neg hopen]
      exact ⟨fun hother => absurd rfl hother, hbelongs.2⟩
  | closeScope handleScope below hframes hphase =>
      rw [hframes] at hbelongs
      refine ⟨?_, hinUse⟩
      simp only [Belongs, hphase, ne_eq, not_true_eq_false, and_false] at hbelongs
      split at hbelongs
      next => exact hbelongs.elim
      next => exact hbelongs.2
  | engine op rt others => exact ⟨hbelongs, hinUse⟩

/-- Only the store of the API call that has the slot reserved writes to it. -/
theorem value_transition (horder : isolate.InOrder) (hinUse : slot < isolate.valueAllocPos)
    (hnext : Transition isolate action next)
    (hother : isolate.frames ≠ .slot slot :: next.frames) :
    next.values[slot]? = isolate.values[slot]? := by
  have hlt := lt_of_lt_of_le hinUse horder.inRange
  cases hnext with
  | alloc =>
      simp only [Isolate.alloc]
      split
      · exact List.getElem?_append_left hlt
      · rfl
  | store index below value hframes =>
      have hne : index ≠ slot := by
        rintro rfl
        exact hother hframes
      exact List.getElem?_set_ne hne
  | _ => rfl

theorem reserved_transition (hinUse : slot < isolate.valueAllocPos)
    (hnext : Transition isolate action next) (hreserved : Reserved slot next.frames) :
    Reserved slot isolate.frames := by
  cases hnext with
  | openScope escapable => simpa [Isolate.openScope, Reserved] using hreserved
  | alloc =>
      rcases List.mem_cons.mp hreserved with heq | hmem
      · have hslot : slot = isolate.valueAllocPos := Frame.slot.inj heq
        omega
      · exact hmem
  | store index below value hframes =>
      rw [hframes]
      exact List.mem_cons_of_mem _ hreserved
  | escape address handle handleScope parent value => exact reserved_setScopeValue.mp hreserved
  | enterLoop handleScope below hframes => simpa [hframes, Reserved] using hreserved
  | skipLoop handleScope below hframes =>
      simpa [hframes, Reserved, releaseScopeValue] using hreserved
  | releaseSlot handleScope index stop below hframes =>
      simpa [hframes, Reserved, Isolate.releaseSlot] using hreserved
  | finishExit handleScope i stop below hframes =>
      simpa [hframes, Reserved, Isolate.finishExit, releaseScopeValue] using hreserved
  | closeScope handleScope below hframes =>
      rw [hframes]
      exact List.mem_cons_of_mem _ hreserved
  | engine op rt others => exact hreserved

/-- No destructor but that of its own scope releases a slot. -/
theorem released_transition (hbelongs : Belongs slot owner isolate.frames)
    (hinUse : slot < isolate.valueAllocPos)
    (hkept : ¬ isolate.ReleasesSlot owner slot action) (hnext : Transition isolate action next)
    (hreleased : Released slot next.frames) : Released slot isolate.frames := by
  -- the entry on top is replaced by one that has released no other slot
  have hreplace : ∀ top replaced below, isolate.frames = top :: below →
      (Frame.Released slot replaced → Frame.Released slot top) →
        Released slot (replaced :: below) → Released slot isolate.frames := by
    intro top replaced below hframes htop hnow
    rw [hframes]
    rcases (List.exists_mem_cons_iff _ _ _).mp hnow with hcase | hcase
    · exact (List.exists_mem_cons_iff _ _ _).mpr (Or.inl (htop hcase))
    · exact (List.exists_mem_cons_iff _ _ _).mpr (Or.inr hcase)
  have hpush : ∀ frame, ¬ Frame.Released slot frame → Released slot (frame :: isolate.frames) →
      Released slot isolate.frames := by
    intro frame htop hnow
    rcases (List.exists_mem_cons_iff _ _ _).mp hnow with hcase | hcase
    · exact absurd hcase htop
    · exact hcase
  have hpop : ∀ frame below, isolate.frames = frame :: below → Released slot below →
      Released slot isolate.frames := by
    intro frame below hframes hnow
    rw [hframes]
    exact (List.exists_mem_cons_iff _ _ _).mpr (Or.inr hnow)
  cases hnext with
  | openScope escapable =>
      refine hpush _ ?_ hreleased
      simp only [Frame.Released, not_false_eq_true]
  | alloc =>
      refine hpush _ ?_ hreleased
      simp only [Frame.Released, not_false_eq_true]
  | store index below value hframes => exact hpop _ below hframes hreleased
  | escape address handle handleScope parent value => exact released_setScopeValue.mp hreleased
  | enterLoop handleScope below hframes hphase hlt =>
      refine hreplace _ _ below hframes (fun htop => ?_) hreleased
      simp only [Frame.Released] at htop
      omega
  | skipLoop handleScope below hframes =>
      refine hreplace _ _ below hframes (fun htop => ?_) hreleased
      simp only [Frame.Released] at htop
  | releaseSlot handleScope index stop below hframes hphase hle =>
      refine hreplace _ _ below hframes (fun htop => ?_) hreleased
      have hne : index ≠ slot := by
        rintro rfl
        by_cases howner : owner = some below.length
        · apply hkept
          simp only [ReleasesSlot, hframes]
          exact ⟨howner, stop, hphase⟩
        · rw [hframes] at hbelongs
          simp only [Belongs, if_neg howner, hphase, ne_eq, reduceCtorEq, not_false_eq_true,
            forall_const] at hbelongs
          omega
      simp only [Frame.Released] at htop
      simp only [Frame.Released, hphase]
      omega
  | finishExit handleScope i stop below hframes =>
      refine hreplace _ _ below hframes (fun htop => ?_) hreleased
      simp only [Frame.Released] at htop
  | closeScope handleScope below hframes => exact hpop _ below hframes hreleased
  | engine op rt others => exact hreleased

variable (origin slot owner) in
/-- The invariant of a slot that belongs to a scope, since the state `origin`. -/
structure Tracked (isolate : Isolate) : Prop where
  inOrder : isolate.InOrder
  belongs : Belongs slot owner isolate.frames
  inUse : slot < isolate.valueAllocPos
  reserved : Reserved slot isolate.frames → Reserved slot origin.frames
  value : (Reserved slot origin.frames → Reserved slot isolate.frames) →
    isolate.values[slot]? = origin.values[slot]?

theorem Tracked.start (horder : isolate.InOrder) (hbelongs : Belongs slot owner isolate.frames)
    (hinUse : slot < isolate.valueAllocPos) : Tracked isolate slot owner isolate where
  inOrder := horder
  belongs := hbelongs
  inUse := hinUse
  reserved hreserved := hreserved
  value _ := rfl

theorem Tracked.transition (htracked : Tracked origin slot owner isolate)
    (hopen : ¬ isolate.EndsScope owner action) (hnext : Transition isolate action next) :
    Tracked origin slot owner next := by
  obtain ⟨hbelongs, hinUse⟩ := Belongs.transition htracked.belongs htracked.inUse hopen hnext
  have hback := reserved_transition htracked.inUse hnext
  refine ⟨htracked.inOrder.transition hnext, hbelongs, hinUse, fun hreserved =>
    htracked.reserved (hback hreserved), fun hkept => ?_⟩
  rw [← htracked.value fun horigin => hback (hkept horigin)]
  apply value_transition htracked.inOrder htracked.inUse hnext
  -- a store would have used the reservation up
  intro hframes
  have hbounded := htracked.inOrder.bounded
  rw [hframes] at hbounded
  have hreserved : Reserved slot isolate.frames := by
    rw [hframes]
    exact List.mem_cons_self
  have hstill := hkept (htracked.reserved hreserved)
  exact absurd (hbounded.2.lt_of_reserved hstill) (lt_irrefl _)

/-- A copy goes into a slot that was not in use. -/
theorem InOrder.value_copyToSlot (horder : isolate.InOrder) (hinUse : slot < isolate.valueAllocPos)
    (value : JSValue) : (isolate.copyToSlot value).values[slot]? = isolate.values[slot]? := by
  have hne : isolate.valueAllocPos ≠ slot := Nat.ne_of_gt hinUse
  rw [Isolate.copyToSlot, List.getElem?_set_ne hne]
  apply value_transition horder hinUse (.alloc isolate)
  intro hframes
  have hlength := congrArg List.length hframes
  simp only [Isolate.alloc, List.length_cons] at hlength
  omega

/-- The invariant looks at the slots and the stack only. -/
theorem Tracked.congr (htracked : Tracked origin slot owner isolate)
    (hvalues : next.values = isolate.values) (hpos : next.valueAllocPos = isolate.valueAllocPos)
    (hframes : next.frames = isolate.frames) : Tracked origin slot owner next where
  inOrder := htracked.inOrder.congr hvalues hpos hframes
  belongs := by rw [hframes]; exact htracked.belongs
  inUse := by rw [hpos]; exact htracked.inUse
  reserved := by rw [hframes]; exact htracked.reserved
  value := by rw [hframes, hvalues]; exact htracked.value

theorem Tracked.copyToSlot (htracked : Tracked origin slot owner isolate) (value : JSValue) :
    Tracked origin slot owner (isolate.copyToSlot value) where
  inOrder := htracked.inOrder.copyToSlot value
  belongs := htracked.belongs
  inUse := Nat.lt_succ_of_lt htracked.inUse
  reserved := htracked.reserved
  value hkept := by
    rw [← htracked.value hkept]
    exact htracked.inOrder.value_copyToSlot htracked.inUse value

/-- An allocated slot belongs to the innermost scope. -/
theorem InOrder.tracked_alloc (horder : isolate.InOrder) :
    Tracked isolate.alloc isolate.valueAllocPos (ownScope isolate.frames) isolate.alloc :=
  .start horder.alloc (belongs_ownScope horder.bounded) (Nat.lt_succ_self _)

theorem InOrder.tracked_copyToSlot (horder : isolate.InOrder) (value : JSValue) :
    Tracked (isolate.copyToSlot value) isolate.valueAllocPos (ownScope isolate.frames)
      (isolate.copyToSlot value) :=
  .start (horder.copyToSlot value) (belongs_ownScope horder.bounded) (Nat.lt_succ_self _)

theorem InOrder.sum_liveSlots_le (horder : isolate.InOrder) :
    ∑ slot ∈ isolate.liveSlots, (isolate.values.getD slot .undefined).refs ≤ isolate.owned := by
  have hsum : ∑ slot ∈ isolate.liveSlots, (isolate.values.getD slot .undefined).refs =
      liveRefs isolate.values isolate.frames isolate.valueAllocPos := by
    rw [liveRefs_eq_liveSum horder.bounded, liveSlots, Finset.sum_filter]
    apply Finset.sum_congr rfl
    intro slot _
    rw [ite_not]
  rw [hsum]
  exact le_add_of_nonneg_right (parkedRefs_nonneg _)

section Outside

variable {address : Nat} {was : HandleScope}

theorem scopeAt_transition (hscope : scopeAt address isolate.frames = some was)
    (hkept : ¬ isolate.PopsScope address action) (hnext : Transition isolate action next) :
    ∃ now, scopeAt address next.frames = some now ∧ now.prevPos = was.prevPos := by
  -- the entry on top is replaced by one with the same position
  have hreplace : ∀ top replaced below, isolate.frames = .scope top :: below →
      replaced.prevPos = top.prevPos → ∃ now,
        scopeAt address (.scope replaced :: below) = some now ∧ now.prevPos = was.prevPos := by
    intro top replaced below hframes hsame
    rw [hframes] at hscope
    rcases scopeAt_cons_cases hscope with ⟨rfl, htop⟩ | hbelow
    · exact ⟨replaced, scopeAt_top replaced, by rw [hsame, Frame.scope.inj htop]⟩
    · exact ⟨was, scopeAt_cons hbelow, rfl⟩
  cases hnext with
  | openScope escapable => exact ⟨was, scopeAt_cons hscope, rfl⟩
  | alloc => exact ⟨was, scopeAt_cons hscope, rfl⟩
  | store index below value hframes =>
      rw [hframes] at hscope
      rcases scopeAt_cons_cases hscope with ⟨_, htop⟩ | hbelow
      · cases htop
      · exact ⟨was, hbelow, rfl⟩
  | escape _ handle handleScope target value =>
      refine ⟨if address = target then { was with scopeValue := value } else was, ?_, ?_⟩
      · simp only [escapeValue, scopeAt_setScopeValue, hscope, Option.map_some]
      · split <;> rfl
  | enterLoop handleScope below hframes => exact hreplace _ _ below hframes rfl
  | skipLoop handleScope below hframes => exact hreplace _ _ below hframes rfl
  | releaseSlot handleScope index stop below hframes => exact hreplace _ _ below hframes rfl
  | finishExit handleScope i stop below hframes => exact hreplace _ _ below hframes rfl
  | closeScope handleScope below hframes =>
      simp only [PopsScope, hframes] at hkept
      rw [hframes] at hscope
      rcases scopeAt_cons_cases hscope with ⟨heq, _⟩ | hbelow
      · exact absurd heq.symm hkept
      · exact ⟨was, hbelow, rfl⟩
  | engine op rt others => exact ⟨was, hscope, rfl⟩

/-- Inside a scope no API call reserves or fills a slot below its position, and no
destructor releases one. -/
theorem withheld_transition (horder : isolate.InOrder)
    (hscope : scopeAt address isolate.frames = some was) (hslot : slot < was.prevPos)
    (hnext : Transition isolate action next) :
    Withheld slot next.frames ↔ Withheld slot isolate.frames := by
  have hafter := (horder.transition hnext).bounded
  have hbefore := horder.bounded
  have hpos := hbefore.prevPos_le hscope
  have hreplace : ∀ top replaced below, isolate.frames = .scope top :: below →
      replaced.prevPos = top.prevPos → replaced.Bounded next.valueAllocPos →
        (Withheld slot (.scope replaced :: below) ↔ Withheld slot isolate.frames) := by
    intro top replaced below hframes hsame hbounded
    rw [hframes] at hscope hbefore ⊢
    have hle := hbefore.prevPos_le_top hscope
    rw [withheld_scope_cons hbounded (by omega), withheld_scope_cons hbefore.1 (by omega)]
  cases hnext with
  | openScope escapable => exact withheld_scope_cons hafter.1 (lt_of_lt_of_le hslot hpos)
  | alloc => exact withheld_slot_cons (by omega)
  | store index below value hframes =>
      rw [hframes] at hscope hbefore ⊢
      rcases scopeAt_cons_cases hscope with ⟨_, htop⟩ | hbelow
      · cases htop
      · have hle := hbefore.2.prevPos_le hbelow
        exact (withheld_slot_cons (by omega)).symm
  | escape address handle handleScope parent value =>
      exact or_congr reserved_setScopeValue released_setScopeValue
  | enterLoop handleScope below hframes => exact hreplace _ _ below hframes rfl hafter.1
  | skipLoop handleScope below hframes => exact hreplace _ _ below hframes rfl hafter.1
  | releaseSlot handleScope index stop below hframes =>
      exact hreplace _ _ below hframes rfl hafter.1
  | finishExit handleScope i stop below hframes => exact hreplace _ _ below hframes rfl hafter.1
  | closeScope handleScope below hframes =>
      rw [hframes] at hscope hbefore ⊢
      have hle := hbefore.prevPos_le_top hscope
      exact (withheld_scope_cons hbefore.1 (by omega)).symm
  | engine op rt others => exact Iff.rfl

variable (origin slot address) in
/-- The invariant of a slot below the position of a scope that is on the stack. -/
structure Sheltered (isolate : Isolate) : Prop where
  inOrder : isolate.InOrder
  scope : ∃ handleScope, scopeAt address isolate.frames = some handleScope ∧
    slot < handleScope.prevPos
  value : isolate.values[slot]? = origin.values[slot]?
  withheld : Withheld slot isolate.frames ↔ Withheld slot origin.frames

theorem Sheltered.inUse (hsheltered : Sheltered origin slot address isolate) :
    slot < isolate.valueAllocPos := by
  obtain ⟨handleScope, hscope, hslot⟩ := hsheltered.scope
  exact lt_of_lt_of_le hslot (hsheltered.inOrder.bounded.prevPos_le hscope)

theorem Sheltered.transition (hsheltered : Sheltered origin slot address isolate)
    (hkept : ¬ isolate.PopsScope address action) (hnext : Transition isolate action next) :
    Sheltered origin slot address next := by
  obtain ⟨was, hscope, hslot⟩ := hsheltered.scope
  obtain ⟨now, hnow, hsame⟩ := scopeAt_transition hscope hkept hnext
  refine ⟨hsheltered.inOrder.transition hnext, ⟨now, hnow, by omega⟩, ?_,
    (withheld_transition hsheltered.inOrder hscope hslot hnext).trans hsheltered.withheld⟩
  rw [← hsheltered.value]
  apply value_transition hsheltered.inOrder hsheltered.inUse hnext
  -- an API call inside the scope has reserved a slot above its position
  intro hframes
  have hbounded := hsheltered.inOrder.bounded
  rw [hframes] at hbounded hscope
  rcases scopeAt_cons_cases hscope with ⟨_, htop⟩ | hbelow
  · cases htop
  · have hle := hbounded.2.prevPos_le hbelow
    omega

theorem Sheltered.congr (hsheltered : Sheltered origin slot address isolate)
    (hvalues : next.values = isolate.values) (hpos : next.valueAllocPos = isolate.valueAllocPos)
    (hframes : next.frames = isolate.frames) : Sheltered origin slot address next where
  inOrder := hsheltered.inOrder.congr hvalues hpos hframes
  scope := by rw [hframes]; exact hsheltered.scope
  value := by rw [hvalues]; exact hsheltered.value
  withheld := by rw [hframes]; exact hsheltered.withheld

theorem Sheltered.copyToSlot (hsheltered : Sheltered origin slot address isolate)
    (value : JSValue) : Sheltered origin slot address (isolate.copyToSlot value) where
  inOrder := hsheltered.inOrder.copyToSlot value
  scope := hsheltered.scope
  value := by
    rw [← hsheltered.value]
    exact hsheltered.inOrder.value_copyToSlot hsheltered.inUse value
  withheld := hsheltered.withheld

end Outside

end Isolate

end QuickjsBackend
