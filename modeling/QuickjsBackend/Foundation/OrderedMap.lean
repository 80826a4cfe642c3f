import Mathlib.Data.List.Nodup

/-! # Maps in the order of insertion

Setting a key that is there replaces its value in place, a new key goes to the end.
-/

namespace Foundation

variable {κ α : Type*}

structure OrderedMap (κ α : Type*) where
  entries : List (κ × α)
  nodup : (entries.map Prod.fst).Nodup

namespace OrderedMap

def empty : OrderedMap κ α := ⟨[], List.nodup_nil⟩

variable [DecidableEq κ]

def get (map : OrderedMap κ α) (key : κ) : Option α := map.entries.lookup key

/-- The entries with one value replaced, or with one more entry. -/
def setEntries (key : κ) (value : α) (entries : List (κ × α)) : List (κ × α) :=
  if key ∈ entries.map Prod.fst then
    entries.map fun entry => if entry.1 = key then (key, value) else entry
  else entries ++ [(key, value)]

theorem nodup_setEntries (key : κ) (value : α) {entries : List (κ × α)}
    (hnodup : (entries.map Prod.fst).Nodup) :
    ((setEntries key value entries).map Prod.fst).Nodup := by
  unfold setEntries
  split
  next =>
    have hkeys : (entries.map fun entry => if entry.1 = key then (key, value) else entry).map
        Prod.fst = entries.map Prod.fst := by
      rw [List.map_map]
      apply List.map_congr_left
      intro entry _
      rw [Function.comp_apply]
      split
      next heq => exact heq.symm
      next => rfl
    rwa [hkeys]
  next habsent =>
    rw [List.map_append, List.nodup_append_comm]
    exact List.nodup_cons.mpr ⟨habsent, hnodup⟩

def set (map : OrderedMap κ α) (key : κ) (value : α) : OrderedMap κ α :=
  ⟨setEntries key value map.entries, nodup_setEntries key value map.nodup⟩

def erase (map : OrderedMap κ α) (key : κ) : OrderedMap κ α :=
  ⟨map.entries.filter (fun entry => entry.1 ≠ key), map.nodup.sublist
    ((List.filter_sublist).map Prod.fst)⟩

variable {map : OrderedMap κ α} {key : κ} {value old : α} {before after : List (κ × α)}

omit [DecidableEq κ] in
/-- A key stands for one entry only. -/
theorem ne_of_split (hsplit : map.entries = before ++ (key, old) :: after) :
    (∀ entry ∈ before, entry.1 ≠ key) ∧ ∀ entry ∈ after, entry.1 ≠ key := by
  have hnodup := map.nodup
  rw [hsplit, List.map_append, List.map_cons, List.nodup_middle, List.nodup_cons,
    List.mem_append, not_or] at hnodup
  exact ⟨fun entry hentry heq => hnodup.1.1 (List.mem_map.mpr ⟨entry, hentry, heq⟩),
    fun entry hentry heq => hnodup.1.2 (List.mem_map.mpr ⟨entry, hentry, heq⟩)⟩

theorem get_of_split (hsplit : map.entries = before ++ (key, old) :: after) :
    map.get key = some old := by
  have hbefore : before.lookup key = none :=
    List.lookup_eq_none_iff.mpr fun entry hentry =>
      bne_iff_ne.mpr ((ne_of_split hsplit).1 entry hentry).symm
  rw [get, hsplit, List.lookup_append, hbefore, Option.none_or, List.lookup_cons_self]

theorem set_of_split (hsplit : map.entries = before ++ (key, old) :: after) :
    (map.set key value).entries = before ++ (key, value) :: after := by
  have hmem : key ∈ map.entries.map Prod.fst := by simp [hsplit]
  have hkept : ∀ entries : List (κ × α), (∀ entry ∈ entries, entry.1 ≠ key) →
      (entries.map fun entry => if entry.1 = key then (key, value) else entry) = entries := by
    intro entries hne
    conv_rhs => rw [← List.map_id entries]
    exact List.map_congr_left fun entry hentry => if_neg (hne entry hentry)
  obtain ⟨hbefore, hafter⟩ := ne_of_split hsplit
  change setEntries key value map.entries = _
  rw [setEntries, if_pos hmem, hsplit, List.map_append, List.map_cons, hkept before hbefore,
    hkept after hafter, if_pos rfl]

theorem erase_of_split (hsplit : map.entries = before ++ (key, old) :: after) :
    (map.erase key).entries = before ++ after := by
  obtain ⟨hbefore, hafter⟩ := ne_of_split hsplit
  have hkept : ∀ entries : List (κ × α), (∀ entry ∈ entries, entry.1 ≠ key) →
      entries.filter (fun entry => entry.1 ≠ key) = entries :=
    fun entries hne => List.filter_eq_self.mpr fun entry hentry =>
      decide_eq_true (hne entry hentry)
  change map.entries.filter (fun entry => entry.1 ≠ key) = _
  rw [hsplit, List.filter_append, List.filter_cons_of_neg (by simp), hkept before hbefore,
    hkept after hafter]

theorem get_of_absent (habsent : ∀ entry ∈ map.entries, entry.1 ≠ key) : map.get key = none :=
  List.lookup_eq_none_iff.mpr fun entry hentry =>
    bne_iff_ne.mpr (habsent entry hentry).symm

theorem set_of_absent (habsent : ∀ entry ∈ map.entries, entry.1 ≠ key) :
    (map.set key value).entries = map.entries ++ [(key, value)] := by
  refine if_neg fun hmem => ?_
  obtain ⟨entry, hentry, heq⟩ := List.mem_map.mp hmem
  exact habsent entry hentry heq

theorem erase_of_absent (habsent : ∀ entry ∈ map.entries, entry.1 ≠ key) :
    (map.erase key).entries = map.entries :=
  List.filter_eq_self.mpr fun entry hentry => decide_eq_true (habsent entry hentry)

end OrderedMap

end Foundation
