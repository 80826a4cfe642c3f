import Mathlib.Tactic.Common
import QuickjsBackend.Shape.Machine

/-! # The properties of a shape

The properties of a shape are chained by the low bits of their atoms. Every operation on
them keeps the chains; adding, deleting and giving new attributes do to the list of names
and attributes what they should, and a rehash nothing.
-/

namespace QuickjsBackend

open Foundation

namespace JSShape

/-- The bucket of a property that was not deleted. -/
def place (sh : JSShape) (i : Nat) : Option Nat :=
  let pr := sh.prop.getD i default
  if pr.isFree then none else some (sh.bucket pr.atom)

/-- Names and attributes of the properties, the deleted ones included. -/
def layout (sh : JSShape) : List (JSAtom × BitVec 6) := sh.prop.map JSShapeProperty.key

structure Chained (sh : JSShape) : Prop where
  indexed : Indexed sh.propHash sh.nextOf sh.place sh.prop.length
  heads : 0 < sh.propHash.length

structure Good (sh : JSShape) : Prop extends Chained sh where
  fits : sh.prop.length ≤ sh.propSize
  -- an index fits into `hash_next`
  small : sh.prop.length ≤ 2 ^ 26
  deleted : sh.deletedPropCount = sh.layout.countP fun key => key.1 == atomNull
  distinct : ((sh.layout.filter fun key => key.1 != atomNull).map Prod.fst).Nodup

end JSShape

/-- The properties of an object that were not deleted, in order. -/
def entriesOf {α : Type} (layout : List (JSAtom × BitVec 6)) (values : List α) :
    List (JSAtom × BitVec 6 × α) :=
  (layout.zip values).filterMap fun entry =>
    if entry.1.1 = atomNull then none else some (entry.1.1, entry.1.2, entry.2)

namespace JSShape

variable {sh next : JSShape} {pr : JSShapeProperty} {atom : JSAtom} {flags : BitVec 6} {i : Nat}
  {lpr : Option Nat} {α : Type} {values : List α} {value : α}

theorem isFree_iff : pr.isFree = true ↔ pr.atom = atomNull := by
  rw [JSShapeProperty.isFree, beq_iff_eq]

theorem bucket_lt (hheads : 0 < sh.propHash.length) (atom : JSAtom) :
    sh.bucket atom < sh.propHash.length := by
  have hle : sh.bucket atom ≤ sh.propHash.length - 1 := Nat.and_le_right
  omega

theorem length_layout (sh : JSShape) : sh.layout.length = sh.prop.length := List.length_map _

theorem getElem?_layout (hi : i < sh.prop.length) :
    sh.layout[i]? = some (sh.prop.getD i default).key := by
  rw [layout, List.getElem?_map, List.getD_eq_getElem?_getD, List.getElem?_eq_getElem hi]
  rfl

section Push

@[simp] theorem length_push (sh : JSShape) (pr : JSShapeProperty) :
    (sh.push pr).prop.length = sh.prop.length + 1 := by
  simp [push]

@[simp] theorem layout_push (sh : JSShape) (pr : JSShapeProperty) :
    (sh.push pr).layout = sh.layout ++ [pr.key] := by
  simp [push, layout, JSShapeProperty.key]

theorem bucket_push (sh : JSShape) (pr : JSShapeProperty) : (sh.push pr).bucket = sh.bucket := by
  funext atom
  simp [bucket, push]

theorem getD_push_of_lt (pr : JSShapeProperty) (hi : i < sh.prop.length) :
    (sh.push pr).prop.getD i default = sh.prop.getD i default :=
  List.getD_append _ _ _ _ hi

/-- The new property becomes the head of its chain. -/
theorem Chained.push (hsh : sh.Chained) (hsmall : sh.prop.length < 2 ^ 26)
    (hatom : pr.atom ≠ atomNull) : (sh.push pr).Chained := by
  have hkept : ∀ j < sh.prop.length, (sh.push pr).nextOf j = sh.nextOf j ∧
      (sh.push pr).place j = sh.place j := by
    intro j hj
    rw [nextOf, nextOf, place, place, getD_push_of_lt pr hj, bucket_push]
    exact ⟨rfl, rfl⟩
  have hindexed := hsh.indexed.congr (fun j hj => (hkept j hj).1) (fun j hj => (hkept j hj).2)
  have hlast : (sh.push pr).prop.getD sh.prop.length default =
      { pr with hashNext := sh.propHash.getD (sh.bucket pr.atom) 0 % 2 ^ 26 } :=
    getD_concat_length
  have hhead := hsh.indexed.head_le (sh.bucket pr.atom)
  refine ⟨?_, by simpa [JSShape.push] using hsh.heads⟩
  rw [length_push]
  refine hindexed.push ?_ ?_
  · rw [place, hlast, bucket_push, if_neg]
    rwa [isFree_iff]
  · rw [nextOf, hlast]
    exact Nat.mod_eq_of_lt (by omega)

end Push

section Rehash

/-- One round of the loop. -/
def rehashStep (compact : Bool) (new : JSShape) (pr : JSShapeProperty) : JSShape :=
  if pr.isFree then if compact then new else { new with prop := new.prop ++ [pr] } else new.push pr

theorem rehash_eq (sh : JSShape) (size : Nat) (compact : Bool) : sh.rehash size compact =
    sh.prop.foldl (rehashStep compact)
      { sh with propHash := List.replicate size 0, prop := [] } := rfl

/-- What a round leaves, the loop leaves. -/
theorem foldl_rehashStep {β : Type} (field : JSShape → β) (compact : Bool)
    (hpush : ∀ new pr, field (JSShape.push new pr) = field new)
    (hkeep : ∀ new prop, field { new with prop := prop } = field new)
    (prop : List JSShapeProperty) (new : JSShape) :
    field (prop.foldl (rehashStep compact) new) = field new := by
  induction prop generalizing new with
  | nil => rfl
  | cons pr rest ih =>
      rw [List.foldl_cons, ih, rehashStep]
      split
      · split
        · rfl
        · exact hkeep new _
      · exact hpush new pr

theorem rehash_fields (sh : JSShape) (size : Nat) (compact : Bool) :
    (sh.rehash size compact).refCount = sh.refCount ∧
    (sh.rehash size compact).isHashed = sh.isHashed ∧
    (sh.rehash size compact).hash = sh.hash ∧
    (sh.rehash size compact).deletedPropCount = sh.deletedPropCount ∧
    (sh.rehash size compact).proto = sh.proto :=
  ⟨foldl_rehashStep (·.refCount) compact (fun _ _ => rfl) (fun _ _ => rfl) _ _,
    foldl_rehashStep (·.isHashed) compact (fun _ _ => rfl) (fun _ _ => rfl) _ _,
    foldl_rehashStep (·.hash) compact (fun _ _ => rfl) (fun _ _ => rfl) _ _,
    foldl_rehashStep (·.deletedPropCount) compact (fun _ _ => rfl) (fun _ _ => rfl) _ _,
    foldl_rehashStep (·.proto) compact (fun _ _ => rfl) (fun _ _ => rfl) _ _⟩

theorem layout_foldl_rehashStep (compact : Bool) (prop : List JSShapeProperty) (new : JSShape) :
    (prop.foldl (rehashStep compact) new).layout = new.layout ++
      (prop.map JSShapeProperty.key).filter fun key => !compact || key.1 != atomNull := by
  induction prop generalizing new with
  | nil => simp
  | cons pr rest ih =>
      rw [List.foldl_cons, ih, rehashStep, List.map_cons, List.filter_cons]
      have hkey : (pr.key.1 != atomNull) = !pr.isFree := rfl
      rw [hkey]
      cases hfree : pr.isFree <;> cases compact <;> simp [layout, JSShape.push, JSShapeProperty.key]

/-- A rehash keeps names and attributes; compacting drops the deleted ones. -/
theorem layout_rehash (sh : JSShape) (size : Nat) (compact : Bool) :
    (sh.rehash size compact).layout =
      sh.layout.filter fun key => !compact || key.1 != atomNull := by
  rw [rehash_eq, layout_foldl_rehashStep]
  rfl

theorem chained_foldl_rehashStep (compact : Bool) (prop : List JSShapeProperty) (new : JSShape)
    (hnew : new.Chained) (hsmall : new.prop.length + prop.length ≤ 2 ^ 26) :
    (prop.foldl (rehashStep compact) new).Chained := by
  induction prop generalizing new with
  | nil => exact hnew
  | cons pr rest ih =>
      rw [List.length_cons] at hsmall
      rw [List.foldl_cons]
      have hstep : (rehashStep compact new pr).Chained ∧
          (rehashStep compact new pr).prop.length ≤ new.prop.length + 1 := by
        rw [rehashStep]
        cases hfree : pr.isFree with
        | false =>
            have hatom : pr.atom ≠ atomNull := fun heq => by simp [isFree_iff.mpr heq] at hfree
            exact ⟨hnew.push (by omega) hatom, (length_push new pr).le⟩
        | true =>
            cases compact with
            | true => exact ⟨hnew, Nat.le_succ _⟩
            | false =>
                refine ⟨⟨?_, hnew.heads⟩, by simp⟩
                have hlast : (new.prop ++ [pr]).getD new.prop.length default = pr :=
                  getD_concat_length
                have hkept : Indexed new.propHash (nextOf { new with prop := new.prop ++ [pr] })
                    (place { new with prop := new.prop ++ [pr] }) new.prop.length :=
                  hnew.indexed.congr
                    (fun j hj => by rw [nextOf, nextOf, List.getD_append _ _ _ _ hj])
                    (fun j hj => by rw [place, place, List.getD_append _ _ _ _ hj]; rfl)
                have hskip := hkept.skip (by simp only [place, hlast, hfree, if_true])
                simpa using hskip
      exact ih _ hstep.1 (by omega)

theorem Good.rehash (hsh : sh.Good) {size : Nat} (hsize : 0 < size) (compact : Bool) :
    (sh.rehash size compact).Chained :=
  chained_foldl_rehashStep compact _ _ ⟨.empty _ _ _, by simpa using hsize⟩
    (by simpa using hsh.small)

end Rehash

section Find

/-- The property is found where the chain of its bucket has it, or it is not there. -/
theorem Chained.findOwnProperty_spec (hsh : sh.Chained) (hatom : atom ≠ atomNull) :
    (∃ i before after, slotsOf sh.place sh.prop.length (sh.bucket atom) = before ++ i :: after ∧
      (sh.prop.getD i default).atom = atom ∧
      sh.findOwnProperty atom = some (some (before.getLast?, i))) ∨
    sh.findOwnProperty atom = some none ∧ ∀ key ∈ sh.layout, key.1 ≠ atom := by
  have hchain := hsh.indexed _ (bucket_lt hsh.heads atom)
  have hlength : (slotsOf sh.place sh.prop.length (sh.bucket atom)).length ≤ sh.prop.length :=
    length_slotsOf_le
  cases hfind : (slotsOf sh.place sh.prop.length (sh.bucket atom)).find?
      fun i => (sh.prop.getD i default).atom == atom with
  | some i =>
      obtain ⟨hwanted, before, after, hsplit, hbefore⟩ := List.find?_eq_some_iff_append.mp hfind
      rw [hsplit] at hchain hlength
      refine .inl ⟨i, before, after, hsplit, by simpa using hwanted, ?_⟩
      rw [findOwnProperty, hchain.seek_eq_some hlength hwanted
        fun j hj => by simpa using hbefore j hj, Option.or_none]
  | none =>
      rw [List.find?_eq_none] at hfind
      refine .inr ⟨hchain.seek_eq_none hlength fun j hj => by simpa using hfind j hj,
        fun key hkey heq => ?_⟩
      obtain ⟨i, hi, hget⟩ := List.mem_iff_getElem.mp hkey
      have hfound := getElem?_layout (length_layout sh ▸ hi)
      rw [List.getElem?_eq_getElem hi, hget, Option.some.injEq] at hfound
      have hat : (sh.prop.getD i default).atom = atom := heq ▸ (congrArg Prod.fst hfound).symm
      have hplace : sh.place i = some (sh.bucket atom) := by
        rw [place, if_neg (by rwa [isFree_iff, hat]), hat]
      exact hfind i (mem_slotsOf.mpr ⟨length_layout sh ▸ hi, hplace⟩) (beq_iff_eq.mpr hat)

end Find

section Write

/-- What is found in the chain of a bucket is there. -/
theorem lt_of_split {before after : List Nat}
    (hsplit : slotsOf sh.place sh.prop.length (sh.bucket atom) = before ++ i :: after) :
    i < sh.prop.length :=
  (mem_slotsOf.mp (hsplit ▸ List.mem_append_right _ List.mem_cons_self)).1

/-- Other properties become links only. -/
theorem layout_set_set {l : Nat} {prior : JSShapeProperty} (hl : l < sh.prop.length)
    (hprior : prior.key = (sh.prop.getD l default).key) (pr : JSShapeProperty) :
    ((sh.prop.set l prior).set i pr).map JSShapeProperty.key = sh.layout.set i pr.key := by
  have hsame : (sh.prop.set l prior).map JSShapeProperty.key = sh.layout := by
    rw [List.map_set, hprior, layout]
    apply List.ext_getElem?
    intro j
    by_cases heq : l = j
    · subst j
      rw [List.getElem?_set_self (by simpa using hl)]
      exact (getElem?_layout hl).symm
    · rw [List.getElem?_set_ne heq]
  rw [List.map_set, hsame]

theorem layout_removeProperty (hprior : ∀ l, lpr = some l → l < sh.prop.length) :
    (sh.removeProperty lpr i).layout = sh.layout.set i (atomNull, 0) := by
  cases lpr with
  | none =>
      rw [layout, removeProperty, List.map_set]
      rfl
  | some l =>
      have hkey : JSShapeProperty.key { sh.prop.getD l default with
          hashNext := (sh.prop.getD i default).hashNext } = (sh.prop.getD l default).key := rfl
      exact layout_set_set (hprior l rfl) hkey
        { sh.prop.getD i default with flags := 0, atom := atomNull }

theorem getD_removeProperty_self (hi : i < sh.prop.length) :
    (sh.removeProperty lpr i).prop.getD i default =
      { sh.prop.getD i default with flags := 0, atom := atomNull } := by
  cases lpr <;> exact getD_set_self (by simpa using hi)

theorem getD_removeProperty_of_ne {j : Nat} (hj : j ≠ i) :
    ((sh.removeProperty lpr i).prop.getD j default).key = (sh.prop.getD j default).key := by
  cases lpr with
  | none => rw [removeProperty, getD_set_of_ne (Ne.symm hj)]
  | some l =>
      rw [removeProperty, getD_set_of_ne (Ne.symm hj)]
      by_cases heq : l = j
      · subst l
        by_cases hlt : j < sh.prop.length
        · rw [getD_set_self hlt]
          rfl
        · rw [List.set_eq_of_length_le (Nat.le_of_not_lt hlt)]
      · rw [getD_set_of_ne heq]

theorem place_congr (hkey : (next.prop.getD i default).key = (sh.prop.getD i default).key)
    (hbucket : next.bucket = sh.bucket) : next.place i = sh.place i := by
  have hatom : (next.prop.getD i default).atom = (sh.prop.getD i default).atom :=
    congrArg Prod.fst hkey
  rw [place, place, JSShapeProperty.isFree, JSShapeProperty.isFree, hatom, hbucket]

theorem countP_set_free (hi : i < sh.layout.length) (hlive : sh.layout[i].1 ≠ atomNull) :
    (sh.layout.set i (atomNull, 0)).countP (fun key => key.1 == atomNull) =
      (sh.layout.countP fun key => key.1 == atomNull) + 1 := by
  rw [List.countP_set hi, if_neg (by simpa using hlive), if_pos (by rfl)]
  rfl

/-- Without one name the others stay distinct. -/
theorem distinct_set_free {layout : List (JSAtom × BitVec 6)}
    (hdistinct : ((layout.filter fun key => key.1 != atomNull).map Prod.fst).Nodup) (i : Nat) :
    (((layout.set i (atomNull, 0)).filter fun key => key.1 != atomNull).map Prod.fst).Nodup := by
  rw [List.set_eq_take_append_cons_drop]
  split
  · rw [List.filter_append, List.filter_cons_of_neg (by simp), ← List.filter_append,
      ← List.eraseIdx_eq_take_drop_succ]
    exact hdistinct.sublist (((List.eraseIdx_sublist _ _).filter _).map _)
  · exact hdistinct

/-- A property that was found is deleted. -/
theorem Good.removeProperty (hsh : sh.Good) (hatom : atom ≠ atomNull) {before after : List Nat}
    (hsplit : slotsOf sh.place sh.prop.length (sh.bucket atom) = before ++ i :: after)
    (hat : (sh.prop.getD i default).atom = atom) :
    (sh.removeProperty before.getLast? i).Good ∧
      (sh.removeProperty before.getLast? i).layout = sh.layout.set i (atomNull, 0) := by
  have hi := lt_of_split hsplit
  have hlength : (sh.removeProperty before.getLast? i).prop.length = sh.prop.length := by
    cases hlast : before.getLast? <;> simp [JSShape.removeProperty]
  have hheads : (sh.removeProperty before.getLast? i).propHash.length = sh.propHash.length := by
    cases hlast : before.getLast? <;> simp [JSShape.removeProperty]
  have hbucket : (sh.removeProperty before.getLast? i).bucket = sh.bucket := by
    funext other
    rw [bucket, bucket, hheads]
  have hself : (sh.removeProperty before.getLast? i).place i = none := by
    rw [place, if_pos (isFree_iff.mpr ?_)]
    rw [getD_removeProperty_self hi]
  have hothers : ∀ j ≠ i, (sh.removeProperty before.getLast? i).place j = sh.place j :=
    fun j hj => place_congr (getD_removeProperty_of_ne hj) hbucket
  have hremoved := hsh.indexed.remove (bucket_lt hsh.heads atom) hsplit hself hothers
  have hlayout : (sh.removeProperty before.getLast? i).layout = sh.layout.set i (atomNull, 0) := by
    refine layout_removeProperty fun l hl => ?_
    rw [hl] at hremoved
    exact hremoved.2.1
  have hindexed : Indexed (sh.removeProperty before.getLast? i).propHash
      (sh.removeProperty before.getLast? i).nextOf (sh.removeProperty before.getLast? i).place
      (sh.removeProperty before.getLast? i).prop.length := by
    rw [hlength]
    cases hlast : before.getLast? with
    | none =>
        rw [hlast] at hremoved
        have hnext : (sh.removeProperty none i).nextOf = sh.nextOf := by
          funext j
          by_cases heq : j = i
          · rw [heq, nextOf, getD_removeProperty_self hi]
            rfl
          · rw [nextOf, JSShape.removeProperty, getD_set_of_ne (Ne.symm heq)]
            rfl
        have hset : (sh.removeProperty none i).propHash =
            sh.propHash.set (sh.bucket atom) (sh.nextOf i) := by
          rw [JSShape.removeProperty, hat]
          rfl
        rw [hnext, hset]
        exact hremoved
    | some l =>
        rw [hlast] at hremoved
        have hnext : (sh.removeProperty (some l) i).nextOf =
            Function.update sh.nextOf l (sh.nextOf i) := by
          funext j
          by_cases heq : j = i
          · rw [heq, nextOf, getD_removeProperty_self hi, Function.update_of_ne hremoved.1.symm]
            rfl
          · rw [nextOf, JSShape.removeProperty, getD_set_of_ne (Ne.symm heq)]
            by_cases hj : j = l
            · subst j
              rw [Function.update_self, getD_set_self hremoved.2.1]
              rfl
            · rw [Function.update_of_ne hj, getD_set_of_ne (Ne.symm hj)]
              rfl
        rw [hnext]
        exact hremoved.2.2
  have hlive : ∀ hlt : i < sh.layout.length, sh.layout[i].1 ≠ atomNull := by
    intro hlt
    have hget := getElem?_layout hi
    rw [List.getElem?_eq_getElem hlt, Option.some.injEq] at hget
    rw [hget]
    exact fun heq => hatom (hat.symm.trans heq)
  refine ⟨{
    indexed := hindexed
    heads := hheads ▸ hsh.heads
    fits := hlength ▸ hsh.fits
    small := hlength ▸ hsh.small
    deleted := ?_
    distinct := hlayout ▸ distinct_set_free hsh.distinct i }, hlayout⟩
  rw [hlayout, countP_set_free (length_layout sh ▸ hi) (hlive _), ← hsh.deleted]
  rfl

theorem getD_setFlags (sh : JSShape) (i : Nat) (flags : BitVec 6) (j : Nat) :
    ((sh.setFlags i flags).prop.getD j default).atom = (sh.prop.getD j default).atom ∧
      ((sh.setFlags i flags).prop.getD j default).hashNext = (sh.prop.getD j default).hashNext := by
  by_cases heq : i = j
  · subst j
    by_cases hlt : i < sh.prop.length
    · rw [setFlags, getD_set_self hlt]
      exact ⟨rfl, rfl⟩
    · rw [setFlags, List.set_eq_of_length_le (Nat.le_of_not_lt hlt)]
      exact ⟨rfl, rfl⟩
  · rw [setFlags, getD_set_of_ne heq]
    exact ⟨rfl, rfl⟩

theorem layout_setFlags (sh : JSShape) (i : Nat) (flags : BitVec 6) :
    (sh.setFlags i flags).layout =
      sh.layout.set i ((sh.prop.getD i default).atom, flags) := by
  rw [layout, setFlags, List.map_set]
  rfl

/-- The names are as they were. -/
theorem map_fst_layout_setFlags (sh : JSShape) (i : Nat) (flags : BitVec 6) :
    (sh.setFlags i flags).layout.map Prod.fst = sh.layout.map Prod.fst := by
  rw [layout, layout, List.map_map, List.map_map]
  apply List.ext_getElem?
  intro j
  rw [List.getElem?_map, List.getElem?_map]
  by_cases hlt : j < sh.prop.length
  · have hlt' : j < (sh.setFlags i flags).prop.length := by simpa [setFlags] using hlt
    have hat := (getD_setFlags sh i flags j).1
    rw [List.getD_eq_getElem _ _ hlt, List.getD_eq_getElem _ _ hlt'] at hat
    rw [List.getElem?_eq_getElem hlt, List.getElem?_eq_getElem hlt', Option.map_some,
      Option.map_some]
    exact congrArg some hat
  · rw [List.getElem?_eq_none (Nat.le_of_not_lt hlt),
      List.getElem?_eq_none (by simpa [setFlags] using Nat.le_of_not_lt hlt)]

/-- What depends on the names alone. -/
theorem Good.of_names (hsh : sh.Good) (hnames : next.layout.map Prod.fst = sh.layout.map Prod.fst)
    (hindexed : next.Chained) (hsize : next.propSize = sh.propSize)
    (hdeleted : next.deletedPropCount = sh.deletedPropCount) : next.Good := by
  have hlength : next.prop.length = sh.prop.length := by
    have h := congrArg List.length hnames
    simpa [length_layout] using h
  refine ⟨hindexed, by rw [hlength, hsize]; exact hsh.fits, hlength ▸ hsh.small, ?_, ?_⟩
  · have hcount : ∀ layout : List (JSAtom × BitVec 6),
        (layout.countP fun key => key.1 == atomNull) =
          (layout.map Prod.fst).countP (· == atomNull) :=
      fun layout => by rw [List.countP_map]; rfl
    rw [hdeleted, hsh.deleted, hcount, hcount, hnames]
  · have hfilter : ∀ layout : List (JSAtom × BitVec 6),
        (layout.filter fun key => key.1 != atomNull).map Prod.fst =
          (layout.map Prod.fst).filter (· != atomNull) :=
      fun layout => by rw [List.filter_map]; rfl
    rw [hfilter, hnames, ← hfilter]
    exact hsh.distinct

theorem Good.setFlags (hsh : sh.Good) (i : Nat) (flags : BitVec 6) :
    (sh.setFlags i flags).Good := by
  refine hsh.of_names (map_fst_layout_setFlags sh i flags) ⟨?_, hsh.heads⟩ rfl rfl
  have hlength : (sh.setFlags i flags).prop.length = sh.prop.length := by simp [JSShape.setFlags]
  rw [hlength]
  refine hsh.indexed.congr (fun j _ => (getD_setFlags sh i flags j).2) fun j _ => ?_
  rw [place, place, JSShapeProperty.isFree, JSShapeProperty.isFree, (getD_setFlags sh i flags j).1]
  rfl

end Write

section Entries

variable {layout front rest : List (JSAtom × BitVec 6)} {key : JSAtom × BitVec 6}
  {first later : List α}

theorem entriesOf_append (hlength : front.length = first.length) :
    entriesOf (front ++ rest) (first ++ later) = entriesOf front first ++ entriesOf rest later := by
  rw [entriesOf, List.zip_append hlength, List.filterMap_append]
  rfl

theorem entriesOf_cons : entriesOf (key :: layout) (value :: values) =
    (if key.1 = atomNull then [] else [(key.1, key.2, value)]) ++ entriesOf layout values := by
  rw [entriesOf, List.zip_cons_cons, List.filterMap_cons]
  split <;> rename_i heq <;> split at heq <;> simp_all [entriesOf]

/-- One property with its value is written, the others stay. -/
theorem entriesOf_set (hi : i < layout.length) (hlength : values.length = layout.length) :
    ∃ before after old, entriesOf layout values = before ++
        (if layout[i].1 = atomNull then [] else [(layout[i].1, layout[i].2, old)]) ++ after ∧
      values[i]? = some old ∧
      ∀ key value, entriesOf (layout.set i key) (values.set i value) = before ++
        (if key.1 = atomNull then [] else [(key.1, key.2, value)]) ++ after := by
  have hvalue : i < values.length := hlength ▸ hi
  have htake : (layout.take i).length = (values.take i).length := by
    rw [List.length_take, List.length_take, hlength]
  refine ⟨entriesOf (layout.take i) (values.take i),
    entriesOf (layout.drop (i + 1)) (values.drop (i + 1)), values[i], ?_,
    List.getElem?_eq_getElem hvalue, fun key value => ?_⟩
  · rw [List.append_assoc, ← entriesOf_cons, ← entriesOf_append htake,
      ← List.drop_eq_getElem_cons hi, ← List.drop_eq_getElem_cons hvalue, List.take_append_drop,
      List.take_append_drop]
  · rw [List.set_eq_take_append_cons_drop, if_pos hi, List.set_eq_take_append_cons_drop,
      if_pos hvalue, entriesOf_append htake, entriesOf_cons, List.append_assoc]

/-- A new property stands at the end. -/
theorem entriesOf_concat (hlength : values.length = layout.length) (hkey : key.1 ≠ atomNull) :
    entriesOf (layout ++ [key]) (values ++ [value]) =
      entriesOf layout values ++ [(key.1, key.2, value)] := by
  rw [entriesOf_append hlength.symm, entriesOf_cons, if_neg hkey]
  rfl

/-- Compacting loses nothing but what was deleted. -/
theorem entriesOf_filter (layout : List (JSAtom × BitVec 6)) (values : List α) :
    entriesOf (layout.filter fun key => key.1 != atomNull)
      (((layout.zip values).filter fun entry => entry.1.1 != atomNull).map Prod.snd) =
      entriesOf layout values := by
  induction layout generalizing values with
  | nil => rfl
  | cons key rest ih =>
      cases values with
      | nil => simp [entriesOf]
      | cons value values =>
          rw [entriesOf_cons, ← ih values]
          by_cases hkey : key.1 = atomNull <;> simp [hkey, entriesOf_cons]

theorem keep_eq (sh : JSShape) (values : List α) : sh.keep values =
    ((sh.layout.zip values).filter fun entry => entry.1.1 != atomNull).map Prod.snd := by
  rw [keep, layout]
  induction sh.prop generalizing values with
  | nil => rfl
  | cons pr rest ih =>
      cases values with
      | nil => rfl
      | cons value values =>
          have hkey : (pr.key.1 != atomNull) = !pr.isFree := rfl
          rw [List.zip_cons_cons, List.map_cons, List.zip_cons_cons, List.filter_cons,
            List.filter_cons, hkey]
          cases pr.isFree <;> simp [ih]

theorem length_keep (hlength : values.length = sh.prop.length) : (sh.keep values).length =
    (sh.layout.filter fun key => key.1 != atomNull).length := by
  have hfirst : (sh.layout.zip values).map Prod.fst = sh.layout :=
    List.map_fst_zip (by rw [length_layout, hlength])
  conv_rhs => rw [← hfirst, List.filter_map, List.length_map]
  rw [keep_eq, List.length_map]
  rfl

/-- The names of the entries are those of the properties that were not deleted. -/
theorem map_fst_entriesOf (hlength : values.length = layout.length) :
    (entriesOf layout values).map Prod.fst =
      (layout.filter fun key => key.1 != atomNull).map Prod.fst := by
  induction layout generalizing values with
  | nil => rfl
  | cons key rest ih =>
      cases values with
      | nil => simp at hlength
      | cons value values =>
          rw [entriesOf_cons, List.map_append, ih (by simpa using hlength)]
          by_cases hkey : key.1 = atomNull <;> simp [hkey]

end Entries

end JSShape

end QuickjsBackend
