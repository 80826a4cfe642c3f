import QuickjsBackend.Collection.Table

/-! # Insertion and deletion of whole records

A new record goes to the end of the list and of its bucket, and a table that became
too small is linked anew from the list. Here no callback runs, so that a deletion is
its three parts one after the other.
-/

namespace QuickjsBackend

open Foundation

namespace MapState

variable {store : KeyStore} {s next : MapState} {id other : Nat} {mr : MapRecord}
  {key value : JSValue} {locks : Nat → Nat} {deleting valueless : List Nat}

section Linking

variable (store) (s)

/-- Whether a record belongs into a bucket of a table of the given size. -/
def placed (size h id : Nat) : Bool :=
  match s.peek id with
  | some mr => !mr.empty && store.bucket size mr.key = h
  | none => false

end Linking

theorem placed_iff {size h : Nat} : s.placed store size h id = true ↔
    ∃ mr, s.peek id = some mr ∧ mr.empty = false ∧ store.bucket size mr.key = h := by
  unfold placed
  cases hpeek : s.peek id with
  | none => simp
  | some mr => simp

theorem getD_linkTail (table : List (List Nat)) {h : Nat} (hlt : h < table.length)
    (id other : Nat) :
    (linkTail table h id).getD other [] =
      table.getD other [] ++ if h = other then [id] else [] := by
  by_cases heq : h = other
  · subst other
    rw [linkTail, getD_set_self hlt, if_pos rfl]
  · rw [linkTail, getD_set_of_ne heq, if_neg heq, List.append_nil]

theorem length_linkTail (table : List (List Nat)) (h id : Nat) :
    (linkTail table h id).length = table.length := List.length_set

variable (store) in
/-- The walk of `map_hash_resize` puts each record that is not empty into its bucket, in
the order of the list. -/
theorem relink_spec {size : Nat} (hsize : 0 < size) (ids : List Nat)
    (hids : ∀ id ∈ ids, ∃ mr, s.peek id = some mr) (table : List (List Nat))
    (hlength : table.length = size) :
    ∃ linked, s.relink store size table ids = .ok linked ∧ linked.length = size ∧
      ∀ h, linked.getD h [] = table.getD h [] ++ ids.filter (s.placed store size h) := by
  induction ids generalizing table with
  | nil => exact ⟨table, rfl, hlength, fun h => (List.append_nil _).symm⟩
  | cons id rest ih =>
      obtain ⟨mr, hpeek⟩ := hids id List.mem_cons_self
      have hrest := fun other hother => hids other (List.mem_cons_of_mem id hother)
      cases hempty : mr.empty with
      | true =>
          obtain ⟨linked, hlinked, hlen, hget⟩ := ih hrest table hlength
          refine ⟨linked, ?_, hlen, fun h => ?_⟩
          · simpa only [relink, record_eq hpeek, hempty, if_true, bind, Except.bind] using hlinked
          · have hplaced : ¬ s.placed store size h id = true := by
              rw [placed, hpeek]
              simp [hempty]
            rw [hget, List.filter_cons_of_neg hplaced]
      | false =>
          have hlt : store.bucket size mr.key < table.length :=
            hlength ▸ store.bucket_lt hsize mr.key
          obtain ⟨linked, hlinked, hlen, hget⟩ := ih hrest
            (linkTail table (store.bucket size mr.key) id) ((length_linkTail ..).trans hlength)
          refine ⟨linked, ?_, hlen, fun h => ?_⟩
          · simpa only [relink, record_eq hpeek, hempty, Bool.false_eq_true, if_false, bind,
              Except.bind] using hlinked
          · have hplaced : s.placed store size h id = decide (store.bucket size mr.key = h) := by
              rw [placed, hpeek]
              simp [hempty]
            rw [hget, getD_linkTail table hlt, List.filter_cons, hplaced, List.append_assoc]
            by_cases heq : store.bucket size mr.key = h
            · simp [heq]
            · simp [heq]

/-- A list and a table of which nothing is being deleted, linked anew. -/
theorem Linked.relinked (hlinked : s.Linked store []) {size threshold : Nat} (hsize : 0 < size)
    {table : List (List Nat)} (hlength : table.length = size)
    (hget : ∀ h, table.getD h [] = s.records.filter (s.placed store size h)) :
    ({ s with hashTable := table, recordCountThreshold := threshold } : MapState).Linked
      store [] where
  nodup := hlinked.nodup
  mem_records := hlinked.mem_records
  linked h id := by
    have hbucket : id ∈ table.getD h [] ↔ ∃ mr, s.peek id = some mr ∧ mr.empty = false ∧
        id ∉ [] ∧ store.bucket table.length mr.key = h := by
      rw [hget, List.mem_filter, placed_iff, hlinked.mem_records, hlength]
      constructor
      · rintro ⟨_, mr, hpeek, hempty, hplace⟩
        exact ⟨mr, hpeek, hempty, List.not_mem_nil, hplace⟩
      · rintro ⟨mr, hpeek, hempty, _, hplace⟩
        exact ⟨⟨mr, hpeek⟩, mr, hpeek, hempty, hplace⟩
    exact hbucket
  nodup_bucket h := by
    change (table.getD h []).Nodup
    rw [hget]
    exact hlinked.nodup.filter _
  hashSize_pos := Nat.lt_of_lt_of_eq hsize hlength.symm
  count := hlinked.count

theorem Rep.mapHashResize_spec (hrep : s.Rep store locks [] valueless) (slack : Option Nat) :
    ∃ next, s.mapHashResize store slack = .ok next ∧ next.Rep store locks [] valueless ∧
      next.memory = s.memory ∧ next.records = s.records := by
  cases slack with
  | none => exact ⟨s, rfl, hrep, rfl, rfl⟩
  | some extra =>
      generalize hsize : (if s.hashSize = 1 then 4 else s.hashSize * 2) + extra = size
      have hpos : 0 < size := by
        have hold := hrep.hashSize_pos
        split at hsize <;> omega
      obtain ⟨table, htable, hlength, hget⟩ := relink_spec store hpos s.records
        (fun id hid => (hrep.mem_records id).mp hid) (List.replicate size []) List.length_replicate
      have hget' : ∀ h, table.getD h [] = s.records.filter (s.placed store size h) := by
        intro h
        have hnil : (List.replicate size ([] : List Nat)).getD h [] = [] := by
          rw [List.getD_eq_getElem?_getD, List.getElem?_replicate]
          split <;> rfl
        rw [hget, hnil, List.nil_append]
      refine ⟨{ s with hashTable := table, recordCountThreshold := size * 2 }, ?_,
        ⟨hrep.toLinked.relinked hpos hlength hget', hrep.refCount, hrep.locked, hrep.pending,
          hrep.held⟩, rfl, rfl⟩
      simp only [mapHashResize, hsize, htable, bind, Except.bind, pure, Except.pure]

theorem peek_linkRecord_self :
    (s.linkRecord store key).peek s.memory.length = some ⟨1, false, key, .uninitialized⟩ := by
  rw [peek, linkRecord, List.getD_append_right _ _ _ _ (Nat.le_refl _), Nat.sub_self]
  rfl

theorem peek_length : s.peek s.memory.length = none := List.getD_eq_default _ _ (Nat.le_refl _)

theorem peek_linkRecord_of_ne (hne : other ≠ s.memory.length) :
    (s.linkRecord store key).peek other = s.peek other := by
  rcases Nat.lt_or_gt_of_ne hne with hlt | hgt
  · exact List.getD_append _ _ _ _ hlt
  · rw [peek, peek, List.getD_eq_default _ _ (Nat.le_of_lt hgt), List.getD_eq_default]
    rw [linkRecord, List.length_append]
    exact hgt

theorem live_linkRecord : (s.linkRecord store key).live s.memory.length = true :=
  live_iff.mpr ⟨_, peek_linkRecord_self, rfl⟩

theorem Linked.length_not_mem (hlinked : s.Linked store deleting) :
    s.memory.length ∉ s.records := by
  intro hmem
  obtain ⟨mr, hpeek⟩ := (hlinked.mem_records _).mp hmem
  rw [peek_length] at hpeek
  cases hpeek

theorem Linked.liveRecords_linkRecord (hlinked : s.Linked store deleting) :
    (s.linkRecord store key).liveRecords = s.liveRecords ++ [s.memory.length] := by
  have hold : s.records.filter (s.linkRecord store key).live = s.records.filter s.live := by
    apply List.filter_congr
    intro other hother
    have hne : other ≠ s.memory.length := fun heq => hlinked.length_not_mem (heq ▸ hother)
    rw [live, live, peek_linkRecord_of_ne hne]
  change (s.records ++ [s.memory.length]).filter (s.linkRecord store key).live = _
  rw [List.filter_append, hold, List.filter_cons_of_pos live_linkRecord, List.filter_nil]
  rfl

theorem Linked.linkRecord (hlinked : s.Linked store deleting) (hfresh : s.memory.length ∉ deleting)
    (key : JSValue) : (s.linkRecord store key).Linked store deleting where
  nodup := List.nodup_append.mpr ⟨hlinked.nodup, List.nodup_singleton _, by
    rintro other hother _ hnew rfl
    exact hlinked.length_not_mem (List.mem_singleton.mp hnew ▸ hother)⟩
  mem_records other := by
    change other ∈ s.records ++ [s.memory.length] ↔ _
    rw [List.mem_append, List.mem_singleton]
    by_cases heq : other = s.memory.length
    · subst other
      exact iff_of_true (Or.inr rfl) ⟨_, peek_linkRecord_self⟩
    · rw [peek_linkRecord_of_ne heq, ← hlinked.mem_records, or_iff_left heq]
  linked h other := by
    have hlt : store.bucket s.hashSize key < s.hashTable.length :=
      store.bucket_lt hlinked.hashSize_pos key
    have hsize : (s.linkRecord store key).hashSize = s.hashSize := length_linkTail ..
    change other ∈ (linkTail s.hashTable (store.bucket s.hashSize key) s.memory.length).getD h []
      ↔ _
    rw [getD_linkTail _ hlt, List.mem_append, hlinked.linked, hsize]
    by_cases heq : other = s.memory.length
    · subst other
      rw [peek_linkRecord_self, peek_length]
      by_cases hbucket : store.bucket s.hashSize key = h
      · simp [hbucket, hfresh]
      · simp [hbucket]
    · rw [peek_linkRecord_of_ne heq, or_iff_left]
      intro hmem
      split at hmem
      · exact heq (List.mem_singleton.mp hmem)
      · cases hmem
  nodup_bucket h := by
    have hlt : store.bucket s.hashSize key < s.hashTable.length :=
      store.bucket_lt hlinked.hashSize_pos key
    change ((linkTail s.hashTable (store.bucket s.hashSize key) s.memory.length).getD h []).Nodup
    rw [getD_linkTail _ hlt]
    split
    · refine List.nodup_append.mpr ⟨hlinked.nodup_bucket h, List.nodup_singleton _, ?_⟩
      rintro other hother _ hnew rfl
      obtain ⟨mr, hpeek, _⟩ := (hlinked.linked h other).mp hother
      rw [List.mem_singleton.mp hnew, peek_length] at hpeek
      cases hpeek
    · rw [List.append_nil]
      exact hlinked.nodup_bucket h
  hashSize_pos := Nat.lt_of_lt_of_eq hlinked.hashSize_pos (length_linkTail ..).symm
  count := by
    rw [hlinked.liveRecords_linkRecord, List.length_append, ← hlinked.count]
    rfl

theorem Rep.not_pending (hrep : s.Rep store locks deleting valueless) :
    s.memory.length ∉ deleting ∧ s.memory.length ∉ valueless := by
  rw [← not_or]
  intro hmem
  obtain ⟨mr, hpeek, _⟩ := live_iff.mp (hrep.pending _ hmem)
  rw [peek_length] at hpeek
  cases hpeek

theorem Rep.linkRecord (hrep : s.Rep store locks deleting valueless) (key : JSValue) :
    (s.linkRecord store key).Rep store locks deleting (s.memory.length :: valueless) := by
  obtain ⟨hdeleting, hvalueless⟩ := hrep.not_pending
  refine ⟨hrep.toLinked.linkRecord hdeleting key, ?_, ?_, ?_, ?_⟩
  · intro other mr hpeek
    by_cases heq : other = s.memory.length
    · subst other
      rw [peek_linkRecord_self, Option.some.injEq] at hpeek
      have hunlocked : locks s.memory.length = 0 := by
        by_contra hlocks
        obtain ⟨old, hold⟩ := hrep.locked _ (Nat.pos_of_ne_zero hlocks)
        rw [peek_length] at hold
        cases hold
      rw [← hpeek, hunlocked]
      exact ⟨rfl, Nat.one_pos⟩
    · rw [peek_linkRecord_of_ne heq] at hpeek
      exact hrep.refCount other mr hpeek
  · intro other hlocks
    obtain ⟨mr, hpeek⟩ := hrep.locked other hlocks
    exact ⟨mr, (peek_linkRecord_of_ne (Nat.ne_of_lt (lt_of_peek hpeek))).trans hpeek⟩
  · have hold : ∀ other, other ∈ deleting ∨ other ∈ valueless →
        (s.linkRecord store key).live other = true := by
      intro other hother
      have hne : other ≠ s.memory.length := by
        rintro rfl
        exact hother.elim hdeleting hvalueless
      rw [live, peek_linkRecord_of_ne hne]
      exact hrep.pending other hother
    rintro other (hother | hother)
    · exact hold other (Or.inl hother)
    · rcases List.mem_cons.mp hother with rfl | hother
      · exact live_linkRecord
      · exact hold other (Or.inr hother)
  · have hold : ∀ other ∈ Finset.range s.memory.length,
        (s.linkRecord store key).owned deleting (s.memory.length :: valueless) other =
          s.owned deleting valueless other := by
      intro other hother
      have hne := Nat.ne_of_lt (Finset.mem_range.mp hother)
      exact owned_congr (peek_linkRecord_of_ne hne) Iff.rfl (mem_cons_iff_of_ne hne valueless)
    change s.held + key.refs = ∑ other ∈ Finset.range (s.memory ++ [_]).length, _
    rw [List.length_append, List.length_singleton, Finset.sum_range_succ, Finset.sum_congr rfl hold,
      ← hrep.held, owned_of_ne peek_linkRecord_self rfl, if_neg hdeleting,
      if_pos List.mem_cons_self, add_zero]

/-- A new record is there, the last of the list, and waits for its value. Growing would
give the records that are being deleted a place in the table again. -/
theorem Rep.mapAddRecord_spec (hrep : s.Rep store locks deleting valueless) (key : JSValue)
    {slack : Option Nat}
    (hgrow : deleting = [] ∨ slack = none ∨ s.recordCount + 1 < s.recordCountThreshold) :
    ∃ next, s.mapAddRecord store key slack = .ok (s.memory.length, next) ∧
      next.Rep store locks deleting (s.memory.length :: valueless) ∧
      next.memory = (s.linkRecord store key).memory ∧
      next.records = (s.linkRecord store key).records := by
  have hlinked := hrep.linkRecord key
  by_cases hfull : (s.linkRecord store key).recordCountThreshold ≤
      (s.linkRecord store key).recordCount
  · have hresize : ∃ next, (s.linkRecord store key).mapHashResize store slack = .ok next ∧
        next.Rep store locks deleting (s.memory.length :: valueless) ∧
        next.memory = (s.linkRecord store key).memory ∧
        next.records = (s.linkRecord store key).records := by
      rcases hgrow with rfl | rfl | hroom
      · exact hlinked.mapHashResize_spec slack
      · exact ⟨s.linkRecord store key, rfl, hlinked, rfl, rfl⟩
      · exact absurd hfull (Nat.not_le.mpr hroom)
    obtain ⟨next, hnext, hnextRep, hmemory, hrecords⟩ := hresize
    refine ⟨next, ?_, hnextRep, hmemory, hrecords⟩
    simp only [mapAddRecord, if_pos hfull, hnext, bind, Except.bind, pure, Except.pure]
  · refine ⟨s.linkRecord store key, ?_, hlinked, rfl, rfl⟩
    simp only [mapAddRecord, if_neg hfull, pure, Except.pure]

theorem Rep.mapDeleteRecord_spec (hrep : s.Rep store locks deleting valueless)
    (hpeek : s.peek id = some mr) (hlive : mr.empty = false) (hdeleting : id ∉ deleting)
    (hvalueless : id ∉ valueless) :
    ∃ next, s.mapDeleteRecord id = .ok next ∧ next.Rep store locks deleting valueless ∧
      next.liveRecords = s.liveRecords.erase id ∧
      (∀ other, other ≠ id → next.peek other = s.peek other) ∧
      (0 < locks id → ∃ mr, next.peek id = some mr) := by
  obtain ⟨begun, hbegin, hbegunRep, hbegunMemory, hbegunRecords, _⟩ :=
    hrep.beginDelete_spec hpeek hlive hdeleting
  have hbegunPeek : begun.peek = s.peek := by
    funext other
    rw [peek, hbegunMemory, peek]
  obtain ⟨freed, hfree, hfreedRep, hfreedMemory, hfreedRecords, _⟩ :=
    hbegunRep.releaseValue_spec ((congrFun hbegunPeek id).trans hpeek) hlive hvalueless
  have hfreedPeek : freed.peek = s.peek := by
    funext other
    rw [← hbegunPeek, peek, hfreedMemory, peek]
  obtain ⟨next, hfinish, hnextRep, hnextLive, _, hnextPeek, hkept⟩ :=
    hfreedRep.finishDelete_spec hdeleting hvalueless
  refine ⟨next, ?_, hnextRep, ?_, fun other hne => ?_, hkept⟩
  · simp only [mapDeleteRecord, record_eq hpeek, hlive, Bool.false_eq_true, if_false, hbegin, hfree,
      hfinish, bind, Except.bind]
  · have hsame : freed.live = s.live := by
      funext other
      rw [live, hfreedPeek, live]
    rw [hnextLive, liveRecords, liveRecords, hfreedRecords, hbegunRecords, hsame]
  · rw [hnextPeek other hne, hfreedPeek]

/-- What a value stored into a record changes. -/
theorem stored_spec (hpeek : s.peek id = some mr)
    (hmemory : next.memory = s.memory.set id (some { mr with value }))
    (hrecords : next.records = s.records) :
    next.liveRecords = s.liveRecords ∧ next.peek id = some { mr with value } ∧
      ∀ other, other ≠ id → next.peek other = s.peek other := by
  have hwrite : next.peek = (s.write id { mr with value }).peek := by
    funext other
    rw [peek, hmemory]
    rfl
  have hlive : next.live = s.live := live_of_place fun other => by
    rw [hwrite]
    have hplace : place { mr with value } = place mr := rfl
    exact place_write hpeek hplace other
  refine ⟨by rw [liveRecords, hlive, hrecords, liveRecords], ?_, fun other hne => ?_⟩
  · rw [hwrite, peek_write_self (lt_of_peek hpeek)]
  · rw [hwrite, peek_write_of_ne hne]

/-- A record takes another value. -/
theorem Rep.replace_spec (hrep : s.Rep store locks deleting valueless)
    (hpeek : s.peek id = some mr) (hlive : mr.empty = false) (hvalueless : id ∉ valueless)
    (value : JSValue) :
    ∃ freed next, s.releaseValue id = .ok freed ∧ freed.storeValue id value = .ok next ∧
      next.Rep store locks deleting valueless ∧ next.liveRecords = s.liveRecords ∧
      next.peek id = some { mr with value } ∧
      ∀ other, other ≠ id → next.peek other = s.peek other := by
  obtain ⟨freed, hfree, hfreedRep, hfreedMemory, hfreedRecords, _⟩ :=
    hrep.releaseValue_spec hpeek hlive hvalueless
  obtain ⟨old, next, hold, _, hstore, hnextRep, hmemory, hnextRecords, _⟩ :=
    hfreedRep.storeValue_spec hvalueless value
  have hfreedPeek : freed.peek id = s.peek id := by rw [peek, hfreedMemory, peek]
  rw [hfreedPeek, hpeek, Option.some.injEq] at hold
  subst old
  exact ⟨freed, next, hfree, hstore, hnextRep,
    stored_spec hpeek (hfreedMemory ▸ hmemory) (hnextRecords.trans hfreedRecords)⟩

/-- A new record gets its value, the last of those that are not empty. -/
theorem Rep.insert_spec (hrep : s.Rep store locks deleting valueless) (key value : JSValue)
    (slack : Option Nat)
    (hgrow : deleting = [] ∨ slack = none ∨ s.recordCount + 1 < s.recordCountThreshold) :
    ∃ added next, s.mapAddRecord store key slack = .ok (s.memory.length, added) ∧
      added.storeValue s.memory.length value = .ok next ∧
      next.Rep store locks deleting valueless ∧
      next.liveRecords = s.liveRecords ++ [s.memory.length] ∧
      next.peek s.memory.length = some ⟨1, false, key, value⟩ ∧
      ∀ other, other ≠ s.memory.length → next.peek other = s.peek other := by
  obtain ⟨added, hadd, haddedRep, haddedMemory, haddedRecords⟩ := hrep.mapAddRecord_spec key hgrow
  obtain ⟨mr, next, hpeek, _, hstore, hnextRep, hmemory, hnextRecords, _⟩ :=
    haddedRep.storeValue_spec hrep.not_pending.2 value
  have haddedPeek : added.peek s.memory.length =
      (s.linkRecord store key).peek s.memory.length := by rw [peek, haddedMemory, peek]
  rw [haddedPeek, peek_linkRecord_self, Option.some.injEq] at hpeek
  subst mr
  obtain ⟨hnextLive, hself, hother⟩ := stored_spec peek_linkRecord_self (haddedMemory ▸ hmemory)
    (hnextRecords.trans haddedRecords)
  refine ⟨added, next, hadd, hstore, hnextRep, ?_, hself, fun other hne => ?_⟩
  · rw [hnextLive, hrep.toLinked.liveRecords_linkRecord]
  · rw [hother other hne, peek_linkRecord_of_ne hne]

theorem mapDeleteRecord_of_empty (hpeek : s.peek id = some mr) (hempty : mr.empty = true) :
    s.mapDeleteRecord id = .ok s := by
  simp only [mapDeleteRecord, record_eq hpeek, hempty, if_true, bind, Except.bind, pure,
    Except.pure]

/-- Deleting records one after the other leaves none of them. -/
theorem Rep.foldlM_mapDeleteRecord {ids : List Nat} (hrep : s.Rep store locks [] [])
    (hnodup : ids.Nodup) (hids : ∀ id ∈ ids, ∃ mr, s.peek id = some mr) :
    ∃ next, ids.foldlM mapDeleteRecord s = .ok next ∧ next.Rep store locks [] [] ∧
      ∀ id ∈ next.liveRecords, id ∈ s.liveRecords ∧ id ∉ ids := by
  induction ids generalizing s with
  | nil => exact ⟨s, rfl, hrep, fun id hid => ⟨hid, List.not_mem_nil⟩⟩
  | cons id rest ih =>
      obtain ⟨hid, hrest⟩ := List.nodup_cons.mp hnodup
      obtain ⟨mr, hpeek⟩ := hids id List.mem_cons_self
      cases hempty : mr.empty with
      | true =>
          obtain ⟨next, hnext, hnextRep, hlive⟩ :=
            ih hrep hrest fun other hother => hids other (List.mem_cons_of_mem id hother)
          refine ⟨next, ?_, hnextRep, fun other hother => ⟨(hlive other hother).1, ?_⟩⟩
          · simpa only [List.foldlM_cons, mapDeleteRecord_of_empty hpeek hempty, bind, Except.bind]
              using hnext
          · -- an empty record is not live
            have hne : other ≠ id := by
              rintro rfl
              obtain ⟨old, hold, hfull⟩ :=
                live_iff.mp (List.mem_filter.mp (hlive other hother).1).2
              rw [hpeek, Option.some.injEq] at hold
              rw [← hold, hempty] at hfull
              cases hfull
            exact fun hmem => (List.mem_cons.mp hmem).elim hne (hlive other hother).2
      | false =>
          obtain ⟨middle, hmiddle, hmiddleRep, hmiddleLive, hother, _⟩ :=
            hrep.mapDeleteRecord_spec hpeek hempty List.not_mem_nil List.not_mem_nil
          obtain ⟨next, hnext, hnextRep, hlive⟩ := ih hmiddleRep hrest fun other hmem => by
            rw [hother other fun heq => hid (heq ▸ hmem)]
            exact hids other (List.mem_cons_of_mem id hmem)
          refine ⟨next, ?_, hnextRep, fun other hmem => ?_⟩
          · simpa only [List.foldlM_cons, hmiddle, bind, Except.bind] using hnext
          · obtain ⟨hold, habsent⟩ := hlive other hmem
            rw [hmiddleLive] at hold
            have hne := ((hrep.nodup.filter _).mem_erase_iff.mp hold).1
            exact ⟨List.mem_of_mem_erase hold, fun hmem => (List.mem_cons.mp hmem).elim hne habsent⟩

end MapState

end QuickjsBackend
