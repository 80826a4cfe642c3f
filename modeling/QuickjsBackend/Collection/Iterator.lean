import QuickjsBackend.Collection.Insertion

/-! # Iterators of maps

An iterator counts the record it stands at. A deleted record that is counted stays in
the list as an empty one, so that the iterator finds its way on.
-/

namespace QuickjsBackend

open Foundation

namespace MapState

section Definitions

variable (s : MapState)

/-- The walk over empty records. -/
def firstFull : List Nat → Except MapFault (Option Nat)
  | [] => .ok none
  | id :: rest => do
      let mr ← s.record id
      if mr.empty then firstFull rest else return some id

/-- The walk to the next record that is not empty, which is locked. -/
def lockFirst (ids : List Nat) : Except MapFault (Option Nat × MapState) := do
  match ← s.firstFull ids with
  | none => return (none, s)
  | some id =>
      let s ← s.lockRecord id
      return (some id, s)

/-- `js_map_iterator_next` of an iterator that has not ended, with the record at which
it stands before and after. -/
def jsMapIteratorNext (current : Option Nat) : Except MapFault (Option Nat × MapState) :=
  match current with
  | none => s.lockFirst s.records
  | some mr => do
      let next := s.following mr
      let s ← s.mapDecrefRecord mr
      s.lockFirst next

/-- How many references keep a record. -/
def countOf (id : Nat) : Nat :=
  match s.peek id with
  | some mr => mr.refCount
  | none => 0

end Definitions

variable {store : KeyStore} {s next : MapState} {id other : Nat} {mr : MapRecord}
  {locks locks' : Nat → Nat} {deleting valueless : List Nat}

theorem firstFull_spec (ids : List Nat) (hids : ∀ id ∈ ids, ∃ mr, s.peek id = some mr) :
    ∃ found, s.firstFull ids = .ok found ∧
      ∀ id, found = some id → id ∈ ids ∧ ∃ mr, s.peek id = some mr ∧ mr.empty = false := by
  induction ids with
  | nil => exact ⟨none, rfl, nofun⟩
  | cons head rest ih =>
      obtain ⟨mr, hpeek⟩ := hids head List.mem_cons_self
      cases hempty : mr.empty with
      | true =>
          obtain ⟨found, hfound, hspec⟩ := ih fun id hid => hids id (List.mem_cons_of_mem _ hid)
          refine ⟨found, ?_, fun id hid =>
            ⟨List.mem_cons_of_mem _ (hspec id hid).1, (hspec id hid).2⟩⟩
          simpa only [firstFull, record_eq hpeek, hempty, if_true, bind, Except.bind] using hfound
      | false =>
          refine ⟨some head, ?_, ?_⟩
          · simp only [firstFull, record_eq hpeek, hempty, Bool.false_eq_true, if_false, bind,
              Except.bind, pure, Except.pure]
          · rintro id ⟨⟩
            exact ⟨List.mem_cons_self, mr, hpeek, hempty⟩

/-- Counting a record once more or once less leaves what the map holds. -/
theorem Rep.recount (hrep : s.Rep store locks deleting valueless) (hpeek : s.peek id = some mr)
    {count : Nat} (hpos : 0 < count) (hcount : count = (if mr.empty then 0 else 1) + locks' id)
    (hlocks : ∀ other, other ≠ id → locks' other = locks other) :
    (s.write id { mr with refCount := count }).Rep store locks' deleting valueless := by
  have hself : (s.write id { mr with refCount := count }).peek id =
      some { mr with refCount := count } := peek_write_self (lt_of_peek hpeek)
  have hother : ∀ other, other ≠ id →
      (s.write id { mr with refCount := count }).peek other = s.peek other :=
    fun other hne => peek_write_of_ne hne
  have hplace : ∀ other, ((s.write id { mr with refCount := count }).peek other).map place =
      (s.peek other).map place := by
    have hsame : place { mr with refCount := count } = place mr := rfl
    exact fun other => place_write hpeek hsame other
  refine ⟨hrep.toLinked.of_place rfl rfl rfl hplace, ?_, ?_, ?_, ?_⟩
  · intro other new hnew
    by_cases heq : other = id
    · subst other
      rw [hself, Option.some.injEq] at hnew
      rw [← hnew]
      exact ⟨hcount, hpos⟩
    · rw [hother other heq] at hnew
      rw [hlocks other heq]
      exact hrep.refCount other new hnew
  · intro other hlocked
    by_cases heq : other = id
    · subst other
      exact ⟨_, hself⟩
    · rw [hlocks other heq] at hlocked
      rw [hother other heq]
      exact hrep.locked other hlocked
  · intro other hpending
    rw [live_of_place hplace]
    exact hrep.pending other hpending
  · have howned : ∀ other ∈ Finset.range s.memory.length,
        (s.write id { mr with refCount := count }).owned deleting valueless other =
          s.owned deleting valueless other := by
      intro other _
      by_cases heq : other = id
      · subst other
        simp only [owned, hself, hpeek]
      · exact owned_congr (hother other heq) Iff.rfl Iff.rfl
    change s.held = ∑ other ∈ Finset.range (s.memory.set id _).length, _
    rw [List.length_set, Finset.sum_congr rfl howned, hrep.held]

theorem Rep.lockRecord_spec (hrep : s.Rep store locks deleting valueless)
    (hpeek : s.peek id = some mr) (hself : locks' id = locks id + 1)
    (hlocks : ∀ other, other ≠ id → locks' other = locks other) :
    ∃ next, s.lockRecord id = .ok next ∧ next.Rep store locks' deleting valueless ∧
      ∀ other, (∃ mr, s.peek other = some mr) → ∃ mr, next.peek other = some mr := by
  refine ⟨s.write id { mr with refCount := mr.refCount + 1 }, ?_,
    hrep.recount hpeek (Nat.succ_pos _) ?_ hlocks, fun other hother => ?_⟩
  · simp only [lockRecord, record_eq hpeek, bind, Except.bind, pure, Except.pure]
  · rw [(hrep.refCount id mr hpeek).1, hself, Nat.add_assoc]
  · by_cases heq : other = id
    · subst other
      exact ⟨_, peek_write_self (lt_of_peek hpeek)⟩
    · rwa [peek_write_of_ne heq]

/-- A record that no iterator counts any more is freed when it is empty. -/
theorem Rep.mapDecrefRecord_spec (hrep : s.Rep store locks deleting valueless)
    (hself : locks id = locks' id + 1) (hlocks : ∀ other, other ≠ id → locks' other = locks other) :
    ∃ next, s.mapDecrefRecord id = .ok next ∧ next.Rep store locks' deleting valueless ∧
      (∀ other, other ≠ id → next.peek other = s.peek other) ∧
      (1 < s.countOf id → ∃ mr, next.peek id = some mr) := by
  obtain ⟨mr, hpeek⟩ := hrep.locked id (by omega)
  obtain ⟨hcount, hpos⟩ := hrep.refCount id mr hpeek
  have hcountOf : s.countOf id = mr.refCount := by rw [countOf, hpeek]
  have hlt := lt_of_peek hpeek
  by_cases hlast : mr.refCount - 1 = 0
  · have hempty : mr.empty = true := by
      cases hempty : mr.empty with
      | true => rfl
      | false =>
          rw [hempty, if_neg Bool.false_ne_true] at hcount
          omega
    rw [hempty, if_pos rfl] at hcount
    have hmem : id ∈ s.records := (hrep.mem_records id).mpr ⟨mr, hpeek⟩
    have hdead : s.live id = false := by
      rw [live, hpeek]
      simp [hempty]
    have hnone := peek_without_self hlt
    have hother : ∀ other, other ≠ id → (s.without id).peek other = s.peek other :=
      fun other hne => peek_without_of_ne hne
    have hcountNext : s.recordCount = (s.liveRecords.erase id).length := by
      rw [List.erase_of_not_mem, hrep.count]
      intro hlive
      rw [(List.mem_filter.mp hlive).2] at hdead
      cases hdead
    have hdrop : (s.without id).Linked store deleting ∧
        (s.without id).liveRecords = s.liveRecords.erase id :=
      hrep.toLinked.drop hpeek
        (fun hlive => absurd (hdead.symm.trans hlive) Bool.false_ne_true) rfl hother
        (live_without_self hlt) (Or.inr ⟨rfl, hnone⟩) hcountNext (fun _ _ => Iff.rfl)
    refine ⟨s.without id, ?_, ⟨hdrop.1, ?_, ?_, ?_, ?_⟩, hother, fun hmany => ?_⟩
    · simp only [mapDecrefRecord, record_eq hpeek, hlast, if_true, hempty, freeRecord, if_pos hmem,
        bind, Except.bind]
    · intro other new hnew
      by_cases heq : other = id
      · subst other
        have hcontra := hnone.symm.trans hnew
        cases hcontra
      · rw [hother other heq] at hnew
        rw [hlocks other heq]
        exact hrep.refCount other new hnew
    · intro other hlocked
      by_cases heq : other = id
      · subst other
        omega
      · rw [hlocks other heq] at hlocked
        rw [hother other heq]
        exact hrep.locked other hlocked
    · intro other hpending
      have hlive := hrep.pending other hpending
      have hne : other ≠ id := by
        rintro rfl
        exact absurd (hdead.symm.trans hlive) Bool.false_ne_true
      rwa [live, hother other hne]
    · have howned : ∀ other ∈ Finset.range s.memory.length,
          (s.without id).owned deleting valueless other = s.owned deleting valueless other := by
        intro other _
        by_cases heq : other = id
        · subst other
          rw [owned_of_not_live (live_without_self hlt), owned_of_not_live hdead]
        · exact owned_congr (hother other heq) Iff.rfl Iff.rfl
      change s.held = ∑ other ∈ Finset.range (s.memory.set id none).length, _
      rw [List.length_set, Finset.sum_congr rfl howned, hrep.held]
    · omega
  · refine ⟨s.write id { mr with refCount := mr.refCount - 1 }, ?_,
      hrep.recount hpeek (Nat.pos_of_ne_zero hlast) (by omega) hlocks,
      fun other hne => peek_write_of_ne hne, fun _ => ⟨_, peek_write_self hlt⟩⟩
    simp only [mapDecrefRecord, record_eq hpeek, hlast, if_false, bind, Except.bind, pure,
      Except.pure]

theorem following_of_split {before after : List Nat} (hsplit : s.records = before ++ id :: after)
    (hbefore : id ∉ before) : s.following id = after := by
  have hdrop : ∀ other ∈ before, decide (other ≠ id) = true :=
    fun other hother => decide_eq_true fun heq => hbefore (heq ▸ hother)
  rw [following, hsplit, List.dropWhile_append_of_pos hdrop, List.dropWhile_cons_of_neg (by simp),
    List.tail_cons]

theorem Linked.mem_following (hlinked : s.Linked store deleting) (hid : id ∈ s.records)
    (hother : other ∈ s.following id) : other ∈ s.records ∧ other ≠ id := by
  obtain ⟨before, after, hsplit⟩ := List.append_of_mem hid
  have hnodup := hlinked.nodup
  rw [hsplit, List.nodup_middle, List.nodup_cons, List.mem_append, not_or] at hnodup
  rw [following_of_split hsplit hnodup.1.1] at hother
  refine ⟨hsplit ▸ List.mem_append_right _ (List.mem_cons_of_mem _ hother), ?_⟩
  rintro rfl
  exact hnodup.1.2 hother

/-- The records that iterators stand at after one has moved. -/
def moved (cursors : List Nat) (current found : Option Nat) : List Nat :=
  found.toList ++ cursors.diff current.toList

theorem Rep.lockFirst_spec {cursors : List Nat}
    (hrep : s.Rep store cursors.count deleting valueless) (ids : List Nat)
    (hids : ∀ id ∈ ids, ∃ mr, s.peek id = some mr) :
    ∃ found next, s.lockFirst ids = .ok (found, next) ∧
      next.Rep store (found.toList ++ cursors).count deleting valueless ∧
      ∀ other, (∃ mr, s.peek other = some mr) → ∃ mr, next.peek other = some mr := by
  obtain ⟨found, hfound, hspec⟩ := firstFull_spec ids hids
  cases found with
  | none =>
      refine ⟨none, s, ?_, hrep, fun _ hother => hother⟩
      simp only [lockFirst, hfound, bind, Except.bind, pure, Except.pure]
  | some id =>
      obtain ⟨_, mr, hpeek, _⟩ := hspec id rfl
      have hself : (id :: cursors).count id = cursors.count id + 1 := List.count_cons_self
      obtain ⟨next, hnext, hnextRep, hkept⟩ := hrep.lockRecord_spec hpeek hself
        fun other hne => List.count_cons_of_ne hne.symm
      refine ⟨some id, next, ?_, hnextRep, hkept⟩
      simp only [lockFirst, hfound, hnext, bind, Except.bind, pure, Except.pure]

theorem Rep.leave_spec {cursors : List Nat} (hrep : s.Rep store cursors.count deleting valueless)
    (hid : id ∈ cursors) :
    ∃ next, s.mapDecrefRecord id = .ok next ∧
      next.Rep store (cursors.erase id).count deleting valueless ∧
      (∀ other, other ≠ id → next.peek other = s.peek other) ∧
      (1 < s.countOf id → ∃ mr, next.peek id = some mr) := by
  have hself : cursors.count id = (cursors.erase id).count id + 1 := by
    have hpos : 0 < cursors.count id := List.count_pos_iff.mpr hid
    rw [List.count_erase_self]
    omega
  exact hrep.mapDecrefRecord_spec hself fun other hne => List.count_erase_of_ne hne

theorem Rep.jsMapIteratorNext_spec {cursors : List Nat} {current : Option Nat}
    (hrep : s.Rep store cursors.count deleting valueless)
    (hcurrent : ∀ id, current = some id → id ∈ cursors) :
    ∃ found next, s.jsMapIteratorNext current = .ok (found, next) ∧
      next.Rep store (moved cursors current found).count deleting valueless ∧
      ∀ other, (current = some other → 1 < s.countOf other) →
        (∃ mr, s.peek other = some mr) → ∃ mr, next.peek other = some mr := by
  cases current with
  | none =>
      obtain ⟨found, next, hnext, hnextRep, hkept⟩ :=
        hrep.lockFirst_spec s.records fun id hid => (hrep.mem_records id).mp hid
      exact ⟨found, next, hnext, hnextRep, fun other _ => hkept other⟩
  | some id =>
      have hid := hcurrent id rfl
      obtain ⟨middle, hleave, hmiddleRep, hother, hself⟩ := hrep.leave_spec hid
      have hmem : id ∈ s.records :=
        (hrep.mem_records id).mpr (hrep.locked id (List.count_pos_iff.mpr hid))
      obtain ⟨found, next, hnext, hnextRep, hkept⟩ :=
        hmiddleRep.lockFirst_spec (s.following id) fun other hfollowing => by
          obtain ⟨hrecords, hne⟩ := hrep.toLinked.mem_following hmem hfollowing
          rw [hother other hne]
          exact (hrep.mem_records other).mp hrecords
      have hmoved : moved cursors (some id) found = found.toList ++ cursors.erase id := by
        rw [moved, Option.toList_some, List.diff_cons, List.diff_nil]
      refine ⟨found, next, ?_, hmoved ▸ hnextRep, fun other hmany hpeek => hkept other ?_⟩
      · simp only [jsMapIteratorNext, hleave, bind, Except.bind]
        exact hnext
      · by_cases heq : other = id
        · subst other
          exact hself (hmany rfl)
        · rwa [hother other heq]

end MapState

end QuickjsBackend
