import QuickjsBackend.Foundation.Span
import QuickjsBackend.Collection.Map

/-! # The representation of a map

Operations release keys and values one by one, and callbacks may run at each release.
The invariant is stated for a map of which some records are being deleted, their key
given back already, and some have no value at the moment.
-/

namespace QuickjsBackend

open Foundation

namespace MapState

variable (s : MapState)

def live (id : Nat) : Bool :=
  match s.peek id with
  | some mr => !mr.empty
  | none => false

def liveRecords : List Nat := s.records.filter s.live

/-- The references of a record that the map has not given back. -/
def owned (deleting valueless : List Nat) (id : Nat) : Ptr → Int :=
  match s.peek id with
  | some mr =>
      if mr.empty then 0
      else (if id ∈ deleting then 0 else mr.key.refs) +
        (if id ∈ valueless then 0 else mr.value.refs)
  | none => 0

variable {s} {id other : Nat} {mr : MapRecord} {deleting valueless : List Nat}

theorem record_eq (hpeek : s.peek id = some mr) : s.record id = .ok mr := by
  simp only [record, hpeek]

theorem lt_of_peek (hpeek : s.peek id = some mr) : id < s.memory.length := lt_length_of_getD hpeek

theorem live_iff : s.live id = true ↔ ∃ mr, s.peek id = some mr ∧ mr.empty = false := by
  unfold live
  cases hpeek : s.peek id with
  | none => simp
  | some mr => simp

theorem owned_of_ne (hmemory : s.peek id = some mr) (hlive : mr.empty = false) :
    s.owned deleting valueless id =
      (if id ∈ deleting then 0 else mr.key.refs) +
        (if id ∈ valueless then 0 else mr.value.refs) := by
  simp only [owned, hmemory, hlive, Bool.false_eq_true, if_false]

end MapState

/-- The list of the map and its table while the records `deleting` have lost their place
in the table. -/
structure MapState.Linked (store : KeyStore) (deleting : List Nat) (s : MapState) : Prop where
  nodup : s.records.Nodup
  mem_records : ∀ id, id ∈ s.records ↔ ∃ mr, s.peek id = some mr
  linked : ∀ h id, id ∈ s.hashTable.getD h [] ↔ ∃ mr, s.peek id = some mr ∧ mr.empty = false ∧
    id ∉ deleting ∧ store.bucket s.hashSize mr.key = h
  nodup_bucket : ∀ h, (s.hashTable.getD h []).Nodup
  hashSize_pos : 0 < s.hashSize
  count : s.recordCount = s.liveRecords.length

/-- The representation while the records `deleting` have lost their place in the table
and their key, and the records `valueless` their value; `locks` says how many iterators
count a record. -/
structure MapState.Rep (store : KeyStore) (locks : Nat → Nat) (deleting valueless : List Nat)
    (s : MapState) : Prop extends s.Linked store deleting where
  refCount : ∀ id mr, s.peek id = some mr →
    mr.refCount = (if mr.empty then 0 else 1) + locks id ∧ 0 < mr.refCount
  locked : ∀ id, 0 < locks id → ∃ mr, s.peek id = some mr
  pending : ∀ id, id ∈ deleting ∨ id ∈ valueless → s.live id = true
  held : s.held = ∑ id ∈ Finset.range s.memory.length, s.owned deleting valueless id

namespace MapState

variable {store : KeyStore} {s next : MapState} {id other : Nat} {mr : MapRecord}
  {key value : JSValue} {locks : Nat → Nat} {deleting valueless : List Nat}

theorem rep_new : new.Rep store (fun _ => 0) [] [] where
  nodup := List.nodup_nil
  mem_records id := by simp [new, peek]
  linked h id := by cases h with
    | zero => simp [new, peek]
    | succ h => simp [new, peek]
  nodup_bucket h := by cases h with
    | zero => exact List.nodup_nil
    | succ h => exact List.nodup_nil
  hashSize_pos := Nat.zero_lt_one
  count := rfl
  refCount id mr hpeek := by simp [new, peek] at hpeek
  locked id hlocks := absurd hlocks (Nat.lt_irrefl 0)
  pending id hmem := by simp at hmem
  held := rfl

variable (store) (key) in
/-- The walk over a bucket reads only records of the table. -/
theorem findIn_spec (ids : List Nat) (hids : ∀ id ∈ ids, ∃ mr, s.peek id = some mr) :
    ∃ found, s.findIn store key ids = .ok found ∧
      (∀ id, found = some id →
        id ∈ ids ∧ ∀ mr, s.peek id = some mr → store.jsSameValueZero mr.key key = true) ∧
      (found = none → ∀ id ∈ ids, ∀ mr, s.peek id = some mr →
        store.jsSameValueZero mr.key key = false) := by
  induction ids with
  | nil => exact ⟨none, rfl, nofun, nofun⟩
  | cons head rest ih =>
      obtain ⟨mr, hpeek⟩ := hids head List.mem_cons_self
      obtain ⟨found, hfound, hsome, hnone⟩ := ih fun id hid => hids id (List.mem_cons_of_mem _ hid)
      have hstep : s.findIn store key (head :: rest) =
          if store.jsSameValueZero mr.key key then .ok (some head)
          else s.findIn store key rest := by
        simp only [findIn, record_eq hpeek, bind, Except.bind, pure, Except.pure]
      cases hsame : store.jsSameValueZero mr.key key with
      | true =>
          refine ⟨some head, by rw [hstep, hsame]; rfl, ?_, nofun⟩
          rintro id ⟨⟩
          refine ⟨List.mem_cons_self, fun other hother => ?_⟩
          rw [hpeek, Option.some.injEq] at hother
          rwa [← hother]
      | false =>
          refine ⟨found, by rw [hstep, hsame]; exact hfound, ?_, ?_⟩
          · intro id hid
            exact ⟨List.mem_cons_of_mem _ (hsome id hid).1, (hsome id hid).2⟩
          · intro h id hid other hother
            rcases List.mem_cons.mp hid with rfl | hid
            · rw [hpeek, Option.some.injEq] at hother
              rwa [← hother]
            · exact hnone h id hid other hother

/-- What is found has a place in the table and is recognised; when nothing is found,
no record with a place in the table is. -/
theorem Rep.mapFindRecord_spec (hrep : s.Rep store locks deleting valueless) (key : JSValue) :
    ∃ found, s.mapFindRecord store key = .ok found ∧
      (∀ id, found = some id → ∃ mr, s.peek id = some mr ∧ mr.empty = false ∧ id ∉ deleting ∧
        store.Recognised s.hashSize mr.key key) ∧
      (found = none → ∀ id mr, s.peek id = some mr → mr.empty = false → id ∉ deleting →
        ¬ store.Recognised s.hashSize mr.key key) := by
  have hids : ∀ id ∈ s.hashTable.getD (store.bucket s.hashSize key) [],
      ∃ mr, s.peek id = some mr := fun id hid => by
    obtain ⟨mr, hpeek, _⟩ := (hrep.linked _ id).mp hid
    exact ⟨mr, hpeek⟩
  obtain ⟨found, hfound, hsome, hnone⟩ := findIn_spec store key _ hids
  refine ⟨found, hfound, ?_, ?_⟩
  · intro id hid
    obtain ⟨hmem, hsame⟩ := hsome id hid
    obtain ⟨mr, hpeek, hlive, hdeleting, hbucket⟩ := (hrep.linked _ id).mp hmem
    exact ⟨mr, hpeek, hlive, hdeleting, hbucket, hsame mr hpeek⟩
  · rintro h id mr hpeek hlive hdeleting ⟨hbucket, hsame⟩
    have hmem := (hrep.linked _ id).mpr ⟨mr, hpeek, hlive, hdeleting, hbucket⟩
    rw [hnone h id hmem mr hpeek] at hsame
    cases hsame

/-- What the list and the table depend on in a record. -/
def place (mr : MapRecord) : Bool × JSValue := (mr.empty, mr.key)

theorem exists_peek_iff (hplace : ∀ id, (next.peek id).map place = (s.peek id).map place)
    (holds : Bool → JSValue → Prop) (id : Nat) :
    (∃ mr, next.peek id = some mr ∧ holds mr.empty mr.key) ↔
      ∃ mr, s.peek id = some mr ∧ holds mr.empty mr.key := by
  have hsame := hplace id
  cases hnext : next.peek id with
  | none =>
      rw [hnext, Option.map_none, eq_comm, Option.map_eq_none_iff] at hsame
      simp [hsame]
  | some new =>
      rw [hnext, Option.map_some, eq_comm, Option.map_eq_some_iff] at hsame
      obtain ⟨old, hold, heq⟩ := hsame
      simp only [place, Prod.mk.injEq] at heq
      simp [hold, heq]

theorem live_of_place (hplace : ∀ id, (next.peek id).map place = (s.peek id).map place) :
    next.live = s.live := by
  funext id
  rw [Bool.eq_iff_iff, live_iff, live_iff]
  exact exists_peek_iff hplace (fun empty _ => empty = false) id

/-- Values and counts may change without the list or the table noticing. -/
theorem Linked.of_place (hlinked : s.Linked store deleting) (hrecords : next.records = s.records)
    (htable : next.hashTable = s.hashTable) (hcount : next.recordCount = s.recordCount)
    (hplace : ∀ id, (next.peek id).map place = (s.peek id).map place) :
    next.Linked store deleting where
  nodup := hrecords ▸ hlinked.nodup
  mem_records id := by
    rw [hrecords, hlinked.mem_records]
    simpa using (exists_peek_iff hplace (fun _ _ => True) id).symm
  linked h id := by
    have hsize : next.hashSize = s.hashSize := by rw [hashSize, htable, hashSize]
    rw [htable, hlinked.linked, hsize]
    exact (exists_peek_iff hplace (fun empty key => empty = false ∧ id ∉ deleting ∧
      store.bucket s.hashSize key = h) id).symm
  nodup_bucket h := htable ▸ hlinked.nodup_bucket h
  hashSize_pos := by
    have hpos := hlinked.hashSize_pos
    rwa [hashSize, ← htable] at hpos
  count := by rw [hcount, hlinked.count, liveRecords, liveRecords, hrecords, live_of_place hplace]

theorem peek_write_self (hlt : id < s.memory.length) : (s.write id mr).peek id = some mr :=
  getD_set_self hlt

theorem peek_write_of_ne (hne : other ≠ id) : (s.write id mr).peek other = s.peek other :=
  getD_set_of_ne hne.symm

theorem place_write {old : MapRecord} (hpeek : s.peek id = some old) (hplace : place mr = place old)
    (other : Nat) : ((s.write id mr).peek other).map place = (s.peek other).map place := by
  by_cases heq : other = id
  · subst other
    rw [peek_write_self (lt_of_peek hpeek), hpeek, Option.map_some, Option.map_some, hplace]
  · rw [peek_write_of_ne heq]

theorem owned_congr {deleting' valueless' : List Nat} (hpeek : next.peek id = s.peek id)
    (hdeleting : id ∈ deleting' ↔ id ∈ deleting) (hvalueless : id ∈ valueless' ↔ id ∈ valueless) :
    next.owned deleting' valueless' id = s.owned deleting valueless id := by
  simp only [owned, hpeek, hdeleting, hvalueless]

theorem mem_cons_iff_of_ne (hne : other ≠ id) (ids : List Nat) :
    other ∈ id :: ids ↔ other ∈ ids := by
  rw [List.mem_cons, or_iff_right hne]

/-- A record with a place in the table loses it with its key. -/
theorem Rep.beginDelete_spec (hrep : s.Rep store locks deleting valueless)
    (hpeek : s.peek id = some mr) (hlive : mr.empty = false) (hdeleting : id ∉ deleting) :
    ∃ next, s.beginDelete id = .ok next ∧ next.Rep store locks (id :: deleting) valueless ∧
      next.memory = s.memory ∧ next.records = s.records ∧ next.hashSize = s.hashSize := by
  have hmem := (hrep.linked _ id).mpr ⟨mr, hpeek, hlive, hdeleting, rfl⟩
  have hbucket : ∃ bucket ∈ s.hashTable, id ∈ bucket := by
    have hlt := store.bucket_lt hrep.hashSize_pos mr.key
    rw [List.getD_eq_getElem _ _ hlt] at hmem
    exact ⟨_, List.getElem_mem hlt, hmem⟩
  have hget : ∀ h, (s.hashTable.map (·.erase id)).getD h [] = (s.hashTable.getD h []).erase id :=
    fun h => List.getD_map s.hashTable [] (·.erase id)
  have hsize : (s.hashTable.map (·.erase id)).length = s.hashTable.length := List.length_map _
  refine ⟨{ s with hashTable := s.hashTable.map (·.erase id), held := s.held - mr.key.refs },
    ?_, ?_, rfl, rfl, hsize⟩
  · simp only [beginDelete, record_eq hpeek, unlinkHash, if_pos hbucket, bind, Except.bind, pure,
      Except.pure]
  · refine ⟨⟨hrep.nodup, hrep.mem_records, ?_, ?_, ?_, hrep.count⟩, hrep.refCount, hrep.locked,
      ?_, ?_⟩
    · intro h other
      change other ∈ (s.hashTable.map (·.erase id)).getD h [] ↔ ∃ mr, s.peek other = some mr ∧
        mr.empty = false ∧ other ∉ id :: deleting ∧
        store.bucket (s.hashTable.map (·.erase id)).length mr.key = h
      rw [hget, (hrep.nodup_bucket h).mem_erase_iff, hrep.linked, hsize, List.mem_cons, not_or]
      constructor
      · rintro ⟨hne, mr, hother, hempty, hdel, hh⟩
        exact ⟨mr, hother, hempty, ⟨hne, hdel⟩, hh⟩
      · rintro ⟨mr, hother, hempty, ⟨hne, hdel⟩, hh⟩
        exact ⟨hne, mr, hother, hempty, hdel, hh⟩
    · intro h
      change ((s.hashTable.map (·.erase id)).getD h []).Nodup
      rw [hget]
      exact (hrep.nodup_bucket h).erase id
    · exact Nat.lt_of_lt_of_eq hrep.hashSize_pos hsize.symm
    · rintro other (hother | hother)
      · rcases List.mem_cons.mp hother with rfl | hother
        · exact live_iff.mpr ⟨mr, hpeek, hlive⟩
        · exact hrep.pending other (Or.inl hother)
      · exact hrep.pending other (Or.inr hother)
    · have hchange := sum_range_change (f := s.owned deleting valueless)
        (g := s.owned (id :: deleting) valueless) (lt_of_peek hpeek)
        (fun other hne => owned_congr rfl (mem_cons_iff_of_ne hne deleting) Iff.rfl)
      change s.held - mr.key.refs = ∑ other ∈ Finset.range s.memory.length,
        s.owned (id :: deleting) valueless other
      rw [hchange, hrep.held, owned_of_ne hpeek hlive, owned_of_ne hpeek hlive, if_neg hdeleting,
        if_pos List.mem_cons_self]
      abel

theorem Rep.releaseValue_spec (hrep : s.Rep store locks deleting valueless)
    (hpeek : s.peek id = some mr) (hlive : mr.empty = false) (hvalueless : id ∉ valueless) :
    ∃ next, s.releaseValue id = .ok next ∧ next.Rep store locks deleting (id :: valueless) ∧
      next.memory = s.memory ∧ next.records = s.records ∧ next.hashTable = s.hashTable := by
  refine ⟨{ s with held := s.held - mr.value.refs }, ?_, ?_, rfl, rfl, rfl⟩
  · simp only [releaseValue, record_eq hpeek, bind, Except.bind, pure, Except.pure]
  · refine ⟨⟨hrep.nodup, hrep.mem_records, hrep.linked, hrep.nodup_bucket, hrep.hashSize_pos,
      hrep.count⟩, hrep.refCount, hrep.locked, ?_, ?_⟩
    · rintro other (hother | hother)
      · exact hrep.pending other (Or.inl hother)
      · rcases List.mem_cons.mp hother with rfl | hother
        · exact live_iff.mpr ⟨mr, hpeek, hlive⟩
        · exact hrep.pending other (Or.inr hother)
    · have hchange := sum_range_change (f := s.owned deleting valueless)
        (g := s.owned deleting (id :: valueless)) (lt_of_peek hpeek)
        (fun other hne => owned_congr rfl Iff.rfl (mem_cons_iff_of_ne hne valueless))
      change s.held - mr.value.refs = ∑ other ∈ Finset.range s.memory.length,
        s.owned deleting (id :: valueless) other
      rw [hchange, hrep.held, owned_of_ne hpeek hlive, owned_of_ne hpeek hlive, if_neg hvalueless,
        if_pos List.mem_cons_self]
      abel

/-- A record without a value gets one. -/
theorem Rep.storeValue_spec (hrep : s.Rep store locks deleting (id :: valueless))
    (hvalueless : id ∉ valueless) (value : JSValue) :
    ∃ mr next, s.peek id = some mr ∧ mr.empty = false ∧ s.storeValue id value = .ok next ∧
      next.Rep store locks deleting valueless ∧
      next.memory = s.memory.set id (some { mr with value }) ∧
      next.records = s.records ∧ next.hashTable = s.hashTable := by
  obtain ⟨mr, hpeek, hlive⟩ := live_iff.mp (hrep.pending id (Or.inr List.mem_cons_self))
  have hplace : ∀ other, ((s.write id { mr with value }).peek other).map place =
      (s.peek other).map place := place_write hpeek rfl
  have hother : ∀ other, other ≠ id → (s.write id { mr with value }).peek other = s.peek other :=
    fun other hne => peek_write_of_ne hne
  have hself : (s.write id { mr with value }).peek id = some { mr with value } :=
    peek_write_self (lt_of_peek hpeek)
  have hpeeks : ∀ other new, (s.write id { mr with value }).peek other = some new →
      ∃ old, s.peek other = some old ∧ new.refCount = old.refCount ∧ new.empty = old.empty := by
    intro other new hnew
    by_cases heq : other = id
    · subst other
      rw [hself, Option.some.injEq] at hnew
      subst new
      exact ⟨mr, hpeek, rfl, rfl⟩
    · rw [hother other heq] at hnew
      exact ⟨new, hnew, rfl, rfl⟩
  refine ⟨mr, { s.write id { mr with value } with held := s.held + value.refs }, hpeek, hlive,
    ?_, ?_,
    rfl, rfl, rfl⟩
  · simp only [storeValue, record_eq hpeek, bind, Except.bind, pure, Except.pure]
  · refine ⟨hrep.toLinked.of_place rfl rfl rfl hplace, ?_, ?_, ?_, ?_⟩
    · intro other new hnew
      obtain ⟨old, hold, hcount, hempty⟩ := hpeeks other new hnew
      rw [hcount, hempty]
      exact hrep.refCount other old hold
    · intro other hlocks
      have hold := hrep.locked other hlocks
      have hiff := exists_peek_iff hplace (fun _ _ => True) other
      simp only [and_true] at hiff
      exact hiff.mpr hold
    · intro other hpending
      change (s.write id { mr with value }).live other = true
      rw [live_of_place hplace]
      exact hrep.pending other (hpending.imp_right (List.mem_cons_of_mem id))
    · have hchange := sum_range_change (f := s.owned deleting (id :: valueless))
        (g := (s.write id { mr with value }).owned deleting valueless) (lt_of_peek hpeek)
        (fun other hne => owned_congr (hother other hne) Iff.rfl
          (mem_cons_iff_of_ne hne valueless).symm)
      change s.held + value.refs = ∑ other ∈ Finset.range (s.memory.set id _).length,
        (s.write id { mr with value }).owned deleting valueless other
      rw [List.length_set, hchange, hrep.held, owned_of_ne hpeek hlive, owned_of_ne hself hlive,
        if_neg hvalueless, if_pos List.mem_cons_self]
      abel

theorem peek_without_self (hlt : id < s.memory.length) : (s.without id).peek id = none :=
  getD_set_self hlt

theorem peek_without_of_ne (hne : other ≠ id) : (s.without id).peek other = s.peek other :=
  getD_set_of_ne hne.symm

theorem live_without_self (hlt : id < s.memory.length) : (s.without id).live id = false := by
  rw [live, peek_without_self hlt]

theorem filter_erase_of_ne {ids : List Nat} {before after : Nat → Bool} (hnodup : ids.Nodup)
    (hother : ∀ other, other ≠ id → after other = before other) (hid : after id = false) :
    ids.filter after = (ids.filter before).erase id ∧
      (ids.erase id).filter after = (ids.filter before).erase id := by
  have hafter : ∀ other, after other = (other != id && before other) := by
    intro other
    by_cases heq : other = id
    · simp [heq, hid]
    · simp [hother other heq, heq]
  rw [(hnodup.filter before).erase_eq_filter, hnodup.erase_eq_filter, List.filter_filter,
    List.filter_filter]
  constructor
  · exact List.filter_congr fun other _ => hafter other
  · apply List.filter_congr
    intro other _
    rw [hafter other]
    cases other != id <;> simp

/-- A record that has no place in the table stops being live, freed or kept empty. -/
theorem Linked.drop {deleting' : List Nat} (hlinked : s.Linked store deleting)
    (hpeek : s.peek id = some mr) (hid : s.live id = true → id ∈ deleting)
    (htable : next.hashTable = s.hashTable)
    (hother : ∀ other, other ≠ id → next.peek other = s.peek other) (hlive : next.live id = false)
    (hrecords : next.records = s.records ∧ (∃ mr, next.peek id = some mr) ∨
      next.records = s.records.erase id ∧ next.peek id = none)
    (hcount : next.recordCount = (s.liveRecords.erase id).length)
    (hdeleting : ∀ other, other ≠ id → (other ∈ deleting' ↔ other ∈ deleting)) :
    next.Linked store deleting' ∧ next.liveRecords = s.liveRecords.erase id := by
  have hliveOther : ∀ other, other ≠ id → next.live other = s.live other := by
    intro other hne
    simp only [live, hother other hne]
  have hfilter := filter_erase_of_ne hlinked.nodup hliveOther hlive
  have hrecordsLive : next.liveRecords = s.liveRecords.erase id := by
    rcases hrecords with ⟨heq, _⟩ | ⟨heq, _⟩
    · rw [liveRecords, heq]
      exact hfilter.1
    · rw [liveRecords, heq]
      exact hfilter.2
  have hsize : next.hashSize = s.hashSize := by rw [hashSize, htable, hashSize]
  refine ⟨⟨?_, ?_, ?_, fun h => htable ▸ hlinked.nodup_bucket h, ?_, by rw [hcount, hrecordsLive]⟩,
    hrecordsLive⟩
  · rcases hrecords with ⟨heq, _⟩ | ⟨heq, _⟩
    · exact heq ▸ hlinked.nodup
    · exact heq ▸ hlinked.nodup.erase id
  · intro other
    by_cases heq : other = id
    · subst other
      rcases hrecords with ⟨hsame, hsome⟩ | ⟨herase, hnone⟩
      · rw [hsame, hlinked.mem_records]
        exact iff_of_true ⟨mr, hpeek⟩ hsome
      · rw [herase, hnone, hlinked.nodup.mem_erase_iff]
        simp
    · rw [hother other heq, ← hlinked.mem_records other]
      rcases hrecords with ⟨hsame, _⟩ | ⟨herase, _⟩
      · rw [hsame]
      · rw [herase, hlinked.nodup.mem_erase_iff, and_iff_right heq]
  · intro h other
    rw [htable, hlinked.linked, hsize]
    by_cases heq : other = id
    · subst other
      constructor
      · rintro ⟨mr, hold, hempty, habsent, _⟩
        exact absurd (hid (live_iff.mpr ⟨mr, hold, hempty⟩)) habsent
      · rintro ⟨mr, hnew, hempty, _, _⟩
        rw [live_iff.mpr ⟨mr, hnew, hempty⟩] at hlive
        cases hlive
    · rw [hother other heq, hdeleting other heq]
  · exact Nat.lt_of_lt_of_eq hlinked.hashSize_pos hsize.symm

theorem owned_of_not_live (hlive : s.live id = false) : s.owned deleting valueless id = 0 := by
  unfold live at hlive
  unfold owned
  split
  next mr hpeek =>
    simp only [hpeek, Bool.not_eq_false'] at hlive
    rw [if_pos hlive]
  next => rfl

/-- What the two ways of ending a deletion have in common: the record is gone, or it is
empty and counted by iterators alone. -/
theorem Rep.deleted (hrep : s.Rep store locks (id :: deleting) (id :: valueless))
    (next : MapState) (hdeleting : id ∉ deleting) (hvalueless : id ∉ valueless)
    (hpeek : s.peek id = some mr)
    (htable : next.hashTable = s.hashTable) (hcount : next.recordCount = s.recordCount - 1)
    (hheld : next.held = s.held) (hlength : next.memory.length = s.memory.length)
    (hother : ∀ other, other ≠ id → next.peek other = s.peek other) (hlive : next.live id = false)
    (hrecords : next.records = s.records ∧ (∃ mr, next.peek id = some mr) ∨
      next.records = s.records.erase id ∧ next.peek id = none)
    (hself : ∀ mr, next.peek id = some mr →
      mr.empty = true ∧ mr.refCount = locks id ∧ 0 < locks id)
    (hkept : 0 < locks id → ∃ mr, next.peek id = some mr) :
    next.Rep store locks deleting valueless ∧ next.liveRecords = s.liveRecords.erase id := by
  have hliveId := hrep.pending id (Or.inl List.mem_cons_self)
  have hempty : mr.empty = false := by
    obtain ⟨found, hfound, hfoundEmpty⟩ := live_iff.mp hliveId
    cases hpeek.symm.trans hfound
    exact hfoundEmpty
  have hmem : id ∈ s.records := (hrep.mem_records id).mpr ⟨mr, hpeek⟩
  have hcountNext : s.recordCount - 1 = (s.liveRecords.erase id).length := by
    have hlive : id ∈ s.liveRecords := List.mem_filter.mpr ⟨hmem, hliveId⟩
    rw [hrep.count, List.length_erase_of_mem hlive]
  obtain ⟨hlinked, hlist⟩ := hrep.toLinked.drop hpeek (fun _ => List.mem_cons_self) htable hother
    hlive hrecords (hcount.trans hcountNext)
    (fun other hne => (mem_cons_iff_of_ne hne deleting).symm)
  refine ⟨⟨hlinked, ?_, ?_, ?_, ?_⟩, hlist⟩
  · intro other new hnew
    by_cases heq : other = id
    · subst other
      obtain ⟨hnewEmpty, hnewCount, hpos⟩ := hself new hnew
      rw [hnewEmpty, if_pos rfl, Nat.zero_add, hnewCount]
      exact ⟨rfl, hpos⟩
    · rw [hother other heq] at hnew
      exact hrep.refCount other new hnew
  · intro other hlocks
    by_cases heq : other = id
    · subst other
      exact hkept hlocks
    · rw [hother other heq]
      exact hrep.locked other hlocks
  · intro other hpending
    have hne : other ≠ id := by
      rintro rfl
      exact hpending.elim hdeleting hvalueless
    have hold := hrep.pending other
      (hpending.imp (List.mem_cons_of_mem id) (List.mem_cons_of_mem id))
    rwa [live, hother other hne]
  · have hchange := sum_range_change (f := s.owned (id :: deleting) (id :: valueless))
      (g := next.owned deleting valueless) (lt_of_peek hpeek)
      (fun other hne => owned_congr (hother other hne) (mem_cons_iff_of_ne hne deleting).symm
        (mem_cons_iff_of_ne hne valueless).symm)
    rw [hlength, hchange, hheld, hrep.held, owned_of_not_live hlive, owned_of_ne hpeek hempty,
      if_pos List.mem_cons_self, if_pos List.mem_cons_self]
    abel

/-- The end of a deletion: the record is freed, or stays empty for the iterators that
count it. -/
theorem Rep.finishDelete_spec (hrep : s.Rep store locks (id :: deleting) (id :: valueless))
    (hdeleting : id ∉ deleting) (hvalueless : id ∉ valueless) :
    ∃ next, s.finishDelete id = .ok next ∧ next.Rep store locks deleting valueless ∧
      next.liveRecords = s.liveRecords.erase id ∧ next.hashTable = s.hashTable ∧
      (∀ other, other ≠ id → next.peek other = s.peek other) ∧
      (0 < locks id → ∃ mr, next.peek id = some mr) := by
  obtain ⟨mr, hpeek, hempty⟩ := live_iff.mp (hrep.pending id (Or.inl List.mem_cons_self))
  obtain ⟨hcount, _⟩ := hrep.refCount id mr hpeek
  rw [hempty, if_neg Bool.false_ne_true] at hcount
  have hrest : mr.refCount - 1 = locks id := by omega
  have hmem : id ∈ s.records := (hrep.mem_records id).mpr ⟨mr, hpeek⟩
  have hlt := lt_of_peek hpeek
  by_cases hlocks : locks id = 0
  · have hunlocked : ¬0 < locks id := Nat.not_lt.mpr (Nat.le_of_eq hlocks)
    have hnone := peek_without_self hlt
    have hother : ∀ other, other ≠ id → (s.without id).peek other = s.peek other :=
      fun other hne => peek_without_of_ne hne
    have hall := hrep.deleted { s.without id with recordCount := s.recordCount - 1 } hdeleting
      hvalueless hpeek rfl rfl rfl (List.length_set ..) hother (live_without_self hlt)
      (Or.inr ⟨rfl, hnone⟩)
      (fun new hnew => by
        have hcontra := hnone.symm.trans hnew
        cases hcontra)
      (fun hpos => absurd hpos hunlocked)
    refine ⟨_, ?_, hall.1, hall.2, rfl, hother, fun hpos => absurd hpos hunlocked⟩
    simp only [finishDelete, record_eq hpeek, hrest, hlocks, if_true, freeRecord, if_pos hmem,
      bind, Except.bind, pure, Except.pure]
    rfl
  · have hpos := Nat.pos_of_ne_zero hlocks
    have hself : (s.write id ⟨mr.refCount - 1, true, .undefined, .undefined⟩).peek id =
        some ⟨mr.refCount - 1, true, .undefined, .undefined⟩ := peek_write_self hlt
    have hother : ∀ other, other ≠ id →
        (s.write id ⟨mr.refCount - 1, true, .undefined, .undefined⟩).peek other = s.peek other :=
      fun other hne => peek_write_of_ne hne
    have hlive : (s.write id ⟨mr.refCount - 1, true, .undefined, .undefined⟩).live id =
        false := by
      rw [live, hself]
      rfl
    have hall := hrep.deleted { s.write id ⟨mr.refCount - 1, true, .undefined, .undefined⟩ with
        recordCount := s.recordCount - 1 } hdeleting hvalueless hpeek rfl rfl rfl
      (List.length_set ..) hother hlive (Or.inl ⟨rfl, _, hself⟩)
      (fun new hnew => by
        have heq := Option.some.inj (hself.symm.trans hnew)
        subst new
        exact ⟨rfl, hrest, hpos⟩)
      (fun _ => ⟨_, hself⟩)
    refine ⟨_, ?_, hall.1, hall.2, rfl, hother, fun _ => ⟨_, hself⟩⟩
    simp only [finishDelete, record_eq hpeek, hrest, hlocks, if_false, bind, Except.bind, pure,
      Except.pure]
    rfl

end MapState

end QuickjsBackend
