import QuickjsBackend.Shape.Table

/-! # Shared shapes

A shape counts the objects that have it; one that is not in the table of shapes belongs to
one object alone, and the table has the others in the buckets of their hashes. The
invariant is stated while references are in hand, and while a shape that counts as hashed
is out of the table to be changed.
-/

namespace QuickjsBackend

open Foundation

/-- The hash of a shape with this prototype and these properties. -/
def layoutHash (proto : Option Ptr) (layout : List (JSAtom × BitVec 6)) : BitVec 32 :=
  layout.foldl (fun h key => shapePropertyHash h key.1 key.2) (shapeInitialHash proto)

theorem layoutHash_concat (proto : Option Ptr) (layout : List (JSAtom × BitVec 6))
    (key : JSAtom × BitVec 6) : layoutHash proto (layout ++ [key]) =
      shapePropertyHash (layoutHash proto layout) key.1 key.2 := by
  rw [layoutHash, List.foldl_append]
  rfl

theorem getShapeHash_lt (h : BitVec 32) (bits : Nat) : getShapeHash h bits < 2 ^ bits := by
  rw [getShapeHash, Nat.shiftRight_eq_div_pow]
  refine Nat.div_lt_of_lt_mul (Nat.lt_of_lt_of_le h.isLt ?_)
  rw [← Nat.pow_add]
  exact Nat.pow_le_pow_right Nat.two_pos (by omega)

namespace ShapeRuntime

/-- How many objects have the shape. -/
def users (rt : ShapeRuntime) (ptr : Ptr) : Nat :=
  rt.objects.countP fun o => o.any (·.shape == ptr)

/-- Prototype and own properties of an object, as scripts see them. -/
def viewOf (rt : ShapeRuntime) (obj : Ptr) :
    Option (Option Ptr × List (JSAtom × BitVec 6 × PropertySlot)) :=
  (rt.objects.getD obj none).bind fun p =>
    (rt.shapes.getD p.shape none).map fun sh => (sh.proto, entriesOf sh.layout p.prop)

structure Sound (held : List Ptr) (unlinked : Option Ptr) (rt : ShapeRuntime) : Prop where
  owner : ∀ {obj p}, rt.objects.getD obj none = some p →
    ∃ sh, rt.shapes.getD p.shape none = some sh ∧ p.prop.length = sh.prop.length ∧
      p.propSize = sh.propSize
  good : ∀ {ptr sh}, rt.shapes.getD ptr none = some sh → sh.Good
  alive : ∀ ptr ∈ held, ∃ sh, rt.shapes.getD ptr none = some sh
  counted : ∀ {ptr sh}, rt.shapes.getD ptr none = some sh →
    sh.refCount = rt.users ptr + held.count ptr ∧ 0 < sh.refCount
  exclusive : ∀ {ptr sh}, rt.shapes.getD ptr none = some sh → sh.isHashed = false →
    sh.refCount = 1
  hashed : ∀ {ptr sh}, rt.shapes.getD ptr none = some sh → sh.isHashed = true →
    unlinked ≠ some ptr → sh.hash = layoutHash sh.proto sh.layout
  table : ∀ bucket ptr, ptr ∈ rt.shapeHash.getD bucket [] ↔
    ∃ sh, rt.shapes.getD ptr none = some sh ∧ sh.isHashed = true ∧ unlinked ≠ some ptr ∧
      getShapeHash sh.hash rt.shapeHashBits = bucket
  nodup : ∀ bucket, (rt.shapeHash.getD bucket []).Nodup
  size : rt.shapeHash.length = 2 ^ rt.shapeHashBits

variable {rt next : ShapeRuntime} {held : List Ptr} {unlinked : Option Ptr} {obj other ptr : Ptr}
  {p written : ShapedObject} {sh new : JSShape}

theorem shapeAt_eq (hshape : rt.shapes.getD ptr none = some sh) : rt.shapeAt ptr = .ok sh := by
  rw [shapeAt, hshape]

theorem objectAt_eq (hobject : rt.objects.getD obj none = some p) : rt.objectAt obj = .ok p := by
  rw [objectAt, hobject]

theorem viewOf_eq (hobject : rt.objects.getD obj none = some p)
    (hshape : rt.shapes.getD p.shape none = some sh) :
    rt.viewOf obj = some (sh.proto, entriesOf sh.layout p.prop) := by
  rw [viewOf, hobject, Option.bind_some, hshape, Option.map_some]

theorem viewOf_none (hobject : rt.objects.getD obj none = none) : rt.viewOf obj = none := by
  rw [viewOf, hobject, Option.bind_none]

/-- Objects that did not change, whose shapes did not. -/
theorem viewOf_congr (hobject : next.objects.getD obj none = rt.objects.getD obj none)
    (hshape : ∀ p, rt.objects.getD obj none = some p →
      (next.shapes.getD p.shape none).map (fun sh => (sh.proto, sh.layout)) =
        (rt.shapes.getD p.shape none).map fun sh => (sh.proto, sh.layout)) :
    next.viewOf obj = rt.viewOf obj := by
  rw [viewOf, viewOf, hobject]
  cases hp : rt.objects.getD obj none with
  | none => rfl
  | some p =>
      have hsame := hshape p hp
      rw [Option.bind_some, Option.bind_some]
      cases hnext : next.shapes.getD p.shape none with
      | none =>
          rw [hnext, Option.map_none, eq_comm, Option.map_eq_none_iff] at hsame
          rw [hsame]
      | some sh =>
          rw [hnext, Option.map_some, eq_comm, Option.map_eq_some_iff] at hsame
          obtain ⟨old, hold, heq⟩ := hsame
          rw [Prod.mk.injEq] at heq
          rw [hold, Option.map_some, Option.map_some, heq.1, heq.2]

section Counting

theorem users_pos (hobject : rt.objects.getD obj none = some p) : 0 < rt.users p.shape := by
  refine List.countP_pos_iff.mpr ⟨some p, ?_, by simp⟩
  have hlt := lt_length_of_getD hobject
  rw [List.getD_eq_getElem _ _ hlt] at hobject
  exact hobject ▸ List.getElem_mem hlt

theorem users_set (hobject : rt.objects.getD obj none = some p) (entry : Option ShapedObject)
    (ptr : Ptr) :
    (rt.objects.set obj entry).countP (fun o => o.any (·.shape == ptr)) +
        (if p.shape = ptr then 1 else 0) =
      rt.users ptr + if entry.any (·.shape == ptr) = true then 1 else 0 := by
  have hlt := lt_length_of_getD hobject
  have hget : rt.objects[obj] = some p := by
    rw [← hobject, List.getD_eq_getElem _ _ hlt]
  have hle := List.boole_getElem_le_countP
    (p := fun o : Option ShapedObject => o.any (·.shape == ptr)) hlt
  rw [List.countP_set hlt]
  simp only [hget, Option.any_some, beq_iff_eq] at hle ⊢
  rw [users]
  omega

theorem users_setObject (hobject : rt.objects.getD obj none = some p) (written : ShapedObject)
    (ptr : Ptr) :
    (rt.setObject obj written).users ptr + (if p.shape = ptr then 1 else 0) =
      rt.users ptr + if written.shape = ptr then 1 else 0 := by
  have hset := users_set hobject (some written) ptr
  simpa [users, setObject] using hset

/-- Two objects that have the shape are two users. -/
theorem two_le_users (hobject : rt.objects.getD obj none = some p)
    (hother : rt.objects.getD other none = some written) (hne : other ≠ obj)
    (hshape : written.shape = p.shape) : 2 ≤ rt.users p.shape := by
  have hremoved := users_set hobject none p.shape
  have hkept : ({ rt with objects := rt.objects.set obj none } : ShapeRuntime).objects.getD other
      none = some written := (getD_set_of_ne hne.symm).trans hother
  have hpos := hshape ▸ users_pos hkept
  change 0 < (rt.objects.set obj none).countP _ at hpos
  simp only [Option.any_none, Bool.false_eq_true, if_false, if_true, Nat.add_zero] at hremoved
  omega

end Counting

namespace Sound

/-- An object has as many values as its shape has properties, and as much room. -/
theorem sizes (hrt : rt.Sound held unlinked) (hobject : rt.objects.getD obj none = some p)
    (hshape : rt.shapes.getD p.shape none = some sh) :
    p.prop.length = sh.prop.length ∧ p.propSize = sh.propSize := by
  obtain ⟨found, hfound, hsizes⟩ := hrt.owner hobject
  rw [hshape, Option.some.injEq] at hfound
  exact hfound ▸ hsizes

section Table

theorem jsShapeHashLink_eq (hshape : rt.shapes.getD ptr none = some sh) :
    rt.jsShapeHashLink ptr = .ok { rt with
      shapeHash := rt.shapeHash.set (getShapeHash sh.hash rt.shapeHashBits)
        (ptr :: rt.shapeHash.getD (getShapeHash sh.hash rt.shapeHashBits) [])
      shapeHashCount := rt.shapeHashCount + 1 } := by
  rw [jsShapeHashLink, shapeAt_eq hshape]
  rfl

theorem jsShapeHashUnlink_eq (hshape : rt.shapes.getD ptr none = some sh)
    (hmem : ptr ∈ rt.shapeHash.getD (getShapeHash sh.hash rt.shapeHashBits) []) :
    rt.jsShapeHashUnlink ptr = .ok { rt with
      shapeHash := rt.shapeHash.set (getShapeHash sh.hash rt.shapeHashBits)
        ((rt.shapeHash.getD (getShapeHash sh.hash rt.shapeHashBits) []).erase ptr)
      shapeHashCount := rt.shapeHashCount - 1 } := by
  rw [jsShapeHashUnlink, shapeAt_eq hshape]
  exact if_pos hmem

/-- A shape that is out of the table goes into the bucket of its hash. -/
theorem link (hrt : rt.Sound held (some ptr)) (hshape : rt.shapes.getD ptr none = some sh)
    (hhashed : sh.isHashed = true) (hhash : sh.hash = layoutHash sh.proto sh.layout) :
    ∃ next, rt.jsShapeHashLink ptr = .ok next ∧ next.Sound held none ∧
      next.shapes = rt.shapes ∧ next.objects = rt.objects := by
  refine ⟨_, jsShapeHashLink_eq hshape, ?_, rfl, rfl⟩
  have hlt : getShapeHash sh.hash rt.shapeHashBits < rt.shapeHash.length :=
    hrt.size ▸ getShapeHash_lt _ _
  have hfresh : ∀ bucket, ptr ∉ rt.shapeHash.getD bucket [] := fun bucket hmem => by
    obtain ⟨_, -, -, hne, -⟩ := (hrt.table bucket ptr).mp hmem
    exact hne rfl
  refine ⟨hrt.owner, hrt.good, hrt.alive, hrt.counted, hrt.exclusive, ?_, fun bucket other => ?_,
    fun bucket => ?_, by rw [List.length_set, hrt.size]⟩
  · intro other found hfound hisHashed _
    by_cases heq : ptr = other
    · subst other
      rw [hshape, Option.some.injEq] at hfound
      exact hfound ▸ hhash
    · exact hrt.hashed hfound hisHashed (by simpa using heq)
  · by_cases heq : ptr = other
    · subst other
      by_cases hbucket : getShapeHash sh.hash rt.shapeHashBits = bucket
      · rw [hbucket] at hlt ⊢
        rw [getD_set_self hlt]
        exact iff_of_true List.mem_cons_self ⟨sh, hshape, hhashed, by simp, hbucket⟩
      · rw [getD_set_of_ne hbucket]
        refine iff_of_false (hfresh bucket) ?_
        rintro ⟨found, hfound, -, -, hfoundBucket⟩
        rw [hshape, Option.some.injEq] at hfound
        exact hbucket (hfound ▸ hfoundBucket)
    · have hold := hrt.table bucket other
      have hne : (some ptr : Option Ptr) ≠ some other := by simpa using heq
      simp only [ne_eq, hne, not_false_eq_true, true_and] at hold
      simp only [ne_eq, reduceCtorEq, not_false_eq_true, true_and]
      rw [← hold]
      by_cases hbucket : getShapeHash sh.hash rt.shapeHashBits = bucket
      · rw [hbucket] at hlt ⊢
        rw [getD_set_self hlt, List.mem_cons]
        exact or_iff_right (Ne.symm heq)
      · rw [getD_set_of_ne hbucket]
  · by_cases hbucket : getShapeHash sh.hash rt.shapeHashBits = bucket
    · rw [hbucket] at hlt ⊢
      rw [getD_set_self hlt]
      exact List.nodup_cons.mpr ⟨hfresh bucket, hrt.nodup bucket⟩
    · rw [getD_set_of_ne hbucket]
      exact hrt.nodup bucket

/-- A hashed shape is found in the table, and taken out. -/
theorem unlink (hrt : rt.Sound held none) (hshape : rt.shapes.getD ptr none = some sh)
    (hhashed : sh.isHashed = true) :
    ∃ next, rt.jsShapeHashUnlink ptr = .ok next ∧ next.Sound held (some ptr) ∧
      next.shapes = rt.shapes ∧ next.objects = rt.objects := by
  have hmem : ptr ∈ rt.shapeHash.getD (getShapeHash sh.hash rt.shapeHashBits) [] :=
    (hrt.table _ ptr).mpr ⟨sh, hshape, hhashed, by simp, rfl⟩
  refine ⟨_, jsShapeHashUnlink_eq hshape hmem, ?_, rfl, rfl⟩
  have hlt : getShapeHash sh.hash rt.shapeHashBits < rt.shapeHash.length :=
    hrt.size ▸ getShapeHash_lt _ _
  refine ⟨hrt.owner, hrt.good, hrt.alive, hrt.counted, hrt.exclusive,
    fun hfound hisHashed _ => hrt.hashed hfound hisHashed (by simp), fun bucket other => ?_,
    fun bucket => ?_, by rw [List.length_set, hrt.size]⟩
  · have hold := hrt.table bucket other
    simp only [ne_eq, reduceCtorEq, not_false_eq_true, true_and] at hold
    by_cases heq : ptr = other
    · subst other
      refine iff_of_false (fun hfound => ?_) fun ⟨_, _, _, hne, _⟩ => hne rfl
      by_cases hbucket : getShapeHash sh.hash rt.shapeHashBits = bucket
      · rw [hbucket] at hlt hfound
        rw [getD_set_self hlt] at hfound
        exact (hrt.nodup bucket).not_mem_erase hfound
      · rw [getD_set_of_ne hbucket] at hfound
        obtain ⟨found, hfoundShape, -, hfoundBucket⟩ := hold.mp hfound
        rw [hshape, Option.some.injEq] at hfoundShape
        exact hbucket (hfoundShape ▸ hfoundBucket)
    · have hne : (some ptr : Option Ptr) ≠ some other := by simpa using heq
      simp only [ne_eq, hne, not_false_eq_true, true_and]
      rw [← hold]
      by_cases hbucket : getShapeHash sh.hash rt.shapeHashBits = bucket
      · rw [hbucket] at hlt ⊢
        rw [getD_set_self hlt, (hrt.nodup bucket).mem_erase_iff]
        exact and_iff_right (Ne.symm heq)
      · rw [getD_set_of_ne hbucket]
  · by_cases hbucket : getShapeHash sh.hash rt.shapeHashBits = bucket
    · rw [hbucket] at hlt ⊢
      rw [getD_set_self hlt]
      exact (hrt.nodup bucket).erase ptr
    · rw [getD_set_of_ne hbucket]
      exact hrt.nodup bucket

end Table

section Write

theorem getD_setShape (hshape : rt.shapes.getD ptr none = some sh) (new : JSShape) (q : Ptr) :
    (rt.setShape ptr new).shapes.getD q none =
      if q = ptr then some new else rt.shapes.getD q none := by
  split
  · subst q
    exact getD_set_self (lt_length_of_getD hshape)
  · exact getD_set_of_ne (Ne.symm ‹_›)

/-- What is at one address changes: a shape is written, allocated or freed. -/
theorem write (hrt : rt.Sound held unlinked) {entry : Option JSShape} {kept : List Ptr}
    {aside : Option Ptr}
    (hshapes : ∀ q, next.shapes.getD q none = if q = ptr then entry else rt.shapes.getD q none)
    (hshapeHash : next.shapeHash = rt.shapeHash) (hbits : next.shapeHashBits = rt.shapeHashBits)
    (hcounts : ∀ q ≠ ptr, next.users q + kept.count q = rt.users q + held.count q)
    (hunlinked : ∀ q ≠ ptr, aside ≠ some q ↔ unlinked ≠ some q)
    (howner : ∀ obj p, next.objects.getD obj none = some p →
      ∃ sh, next.shapes.getD p.shape none = some sh ∧ p.prop.length = sh.prop.length ∧
        p.propSize = sh.propSize)
    (halive : ∀ q ∈ kept, ∃ sh, next.shapes.getD q none = some sh)
    (hentry : ∀ new, entry = some new → new.Good ∧
      (new.refCount = next.users ptr + kept.count ptr ∧ 0 < new.refCount) ∧
      (new.isHashed = false → new.refCount = 1) ∧
      (new.isHashed = true → aside ≠ some ptr → new.hash = layoutHash new.proto new.layout))
    (hlisted : ∀ bucket, ptr ∈ rt.shapeHash.getD bucket [] ↔ ∃ new, entry = some new ∧
      new.isHashed = true ∧ aside ≠ some ptr ∧ getShapeHash new.hash rt.shapeHashBits = bucket) :
    next.Sound kept aside := by
  refine ⟨howner _ _, fun {q found} hfound => ?_, halive, fun {q found} hfound => ?_,
    fun {q found} hfound hisHashed => ?_, fun {q found} hfound hisHashed haside => ?_,
    fun bucket q => ?_, fun bucket => hshapeHash ▸ hrt.nodup bucket,
    by rw [hshapeHash, hbits, hrt.size]⟩
  · rw [hshapes] at hfound
    split at hfound
    · exact (hentry found hfound).1
    · exact hrt.good hfound
  · rw [hshapes] at hfound
    split at hfound
    · subst q
      exact (hentry found hfound).2.1
    · rw [hcounts q ‹_›]
      exact hrt.counted hfound
  · rw [hshapes] at hfound
    split at hfound
    · exact (hentry found hfound).2.2.1 hisHashed
    · exact hrt.exclusive hfound hisHashed
  · rw [hshapes] at hfound
    split at hfound
    · subst q
      exact (hentry found hfound).2.2.2 hisHashed haside
    · exact hrt.hashed hfound hisHashed ((hunlinked q ‹_›).mp haside)
  · rw [hshapeHash, hbits]
    by_cases heq : q = ptr
    · subst q
      rw [hlisted bucket, hshapes, if_pos rfl]
    · rw [hrt.table bucket q, hshapes, if_neg heq]
      simp only [hunlinked q heq]

/-- A shape that is out of the table is where no bucket has it. -/
theorem not_listed (hrt : rt.Sound held unlinked) (hshape : ∀ found,
    rt.shapes.getD ptr none = some found → found.isHashed = true → unlinked = some ptr)
    (bucket : Nat) : ptr ∉ rt.shapeHash.getD bucket [] := by
  intro hmem
  obtain ⟨found, hfound, hisHashed, hne, -⟩ := (hrt.table bucket ptr).mp hmem
  exact hne (hshape found hfound hisHashed)

/-- The same where no object changes: objects that have the shape keep one of the same
size. -/
theorem writeShape (hrt : rt.Sound held unlinked) {entry : Option JSShape} {kept : List Ptr}
    {aside : Option Ptr}
    (hshapes : ∀ q, next.shapes.getD q none = if q = ptr then entry else rt.shapes.getD q none)
    (hobjects : next.objects = rt.objects)
    (hshapeHash : next.shapeHash = rt.shapeHash) (hbits : next.shapeHashBits = rt.shapeHashBits)
    (hcounts : ∀ q ≠ ptr, kept.count q = held.count q)
    (hunlinked : ∀ q ≠ ptr, aside ≠ some q ↔ unlinked ≠ some q)
    (hused : ∀ found, rt.shapes.getD ptr none = some found → 0 < rt.users ptr →
      ∃ new, entry = some new ∧ new.prop.length = found.prop.length ∧
        new.propSize = found.propSize)
    (halive : ptr ∈ kept → entry ≠ none)
    (hentry : ∀ new, entry = some new → new.Good ∧
      (new.refCount = rt.users ptr + kept.count ptr ∧ 0 < new.refCount) ∧
      (new.isHashed = false → new.refCount = 1) ∧
      (new.isHashed = true → aside ≠ some ptr → new.hash = layoutHash new.proto new.layout))
    (hlisted : ∀ bucket, ptr ∈ rt.shapeHash.getD bucket [] ↔ ∃ new, entry = some new ∧
      new.isHashed = true ∧ aside ≠ some ptr ∧ getShapeHash new.hash rt.shapeHashBits = bucket) :
    next.Sound kept aside := by
  have husers : ∀ q, next.users q = rt.users q := fun q => by rw [users, users, hobjects]
  refine hrt.write hshapes hshapeHash hbits (fun q hq => by rw [husers, hcounts q hq]) hunlinked
    (fun obj p hobject => ?_) (fun q hq => ?_) (husers ptr ▸ hentry) hlisted
  · rw [hobjects] at hobject
    obtain ⟨sh, hsh, hlength, hsize⟩ := hrt.owner hobject
    rw [hshapes]
    split
    · rename_i heq
      rw [heq] at hsh
      obtain ⟨new, hnew, hnewLength, hnewSize⟩ := hused sh hsh (heq ▸ users_pos hobject)
      exact ⟨new, hnew, hlength.trans hnewLength.symm, hsize.trans hnewSize.symm⟩
    · exact ⟨sh, hsh, hlength, hsize⟩
  · rw [hshapes]
    split
    · rename_i heq
      exact Option.ne_none_iff_exists'.mp (halive (heq ▸ hq))
    · have hmem : q ∈ held := by
        rw [← List.count_pos_iff, ← hcounts q ‹_›]
        exact List.count_pos_iff.mpr hq
      exact hrt.alive q hmem

/-- A shape that is out of the table, of one object, counts no longer as hashed. -/
theorem unhash (hrt : rt.Sound held (some ptr)) (hshape : rt.shapes.getD ptr none = some sh)
    (hone : sh.refCount = 1) : (rt.setShape ptr { sh with isHashed := false }).Sound held none := by
  have hgood := hrt.good hshape
  have hcounted := hrt.counted hshape
  refine hrt.writeShape (getD_setShape hshape _) rfl rfl rfl (fun _ _ => rfl)
    (fun q hq => by simpa using hq.symm) (fun found hfound _ => ?_) (fun _ => by simp)
    (fun new hnew => ?_) fun bucket => ?_
  · rw [hshape, Option.some.injEq] at hfound
    exact ⟨_, rfl, hfound ▸ rfl, hfound ▸ rfl⟩
  · rw [Option.some.injEq] at hnew
    subst new
    exact ⟨⟨⟨hgood.indexed, hgood.heads⟩, hgood.fits, hgood.small, hgood.deleted, hgood.distinct⟩,
      hcounted, fun _ => hone, fun hisHashed => by cases hisHashed⟩
  · refine iff_of_false (hrt.not_listed (fun _ _ _ => rfl) bucket) ?_
    rintro ⟨new, hnew, hisHashed, -, -⟩
    rw [Option.some.injEq] at hnew
    subst new
    cases hisHashed

/-- The count of a hashed shape may be changed with the references in hand. -/
theorem recount (hrt : rt.Sound held unlinked) (hshape : rt.shapes.getD ptr none = some sh)
    {kept : List Ptr} {n : Nat} (hcounts : ∀ q ≠ ptr, kept.count q = held.count q)
    (hn : n = rt.users ptr + kept.count ptr ∧ 0 < n)
    (hone : sh.isHashed = false → n = 1) :
    (rt.setShape ptr { sh with refCount := n }).Sound kept unlinked := by
  have hgood := hrt.good hshape
  have hhash := hrt.hashed hshape
  refine hrt.writeShape (getD_setShape hshape _) rfl rfl rfl hcounts (fun _ _ => Iff.rfl)
    (fun found hfound _ => ?_) (fun _ => by simp) (fun new hnew => ?_) fun bucket => ?_
  · rw [hshape, Option.some.injEq] at hfound
    exact ⟨_, rfl, hfound ▸ rfl, hfound ▸ rfl⟩
  · rw [Option.some.injEq] at hnew
    subst new
    exact ⟨⟨⟨hgood.indexed, hgood.heads⟩, hgood.fits, hgood.small, hgood.deleted, hgood.distinct⟩,
      hn, hone, hhash⟩
  · rw [hrt.table, hshape]
    constructor
    · rintro ⟨found, hfound, hisHashed⟩
      rw [Option.some.injEq] at hfound
      subst found
      exact ⟨_, rfl, hisHashed⟩
    · rintro ⟨new, hnew, hisHashed⟩
      rw [Option.some.injEq] at hnew
      subst new
      exact ⟨sh, rfl, hisHashed⟩

theorem dup (hrt : rt.Sound held unlinked) (hshape : rt.shapes.getD ptr none = some sh)
    (hhashed : sh.isHashed = true) :
    rt.jsDupShape ptr = .ok (rt.setShape ptr { sh with refCount := sh.refCount + 1 }) ∧
      (rt.setShape ptr { sh with refCount := sh.refCount + 1 }).Sound (ptr :: held) unlinked := by
  refine ⟨by rw [jsDupShape, shapeAt_eq hshape]; rfl, hrt.recount hshape (fun q hq => ?_) ?_ ?_⟩
  · rw [List.count_cons_of_ne hq.symm]
  · rw [List.count_cons_self, ← Nat.add_assoc, ← (hrt.counted hshape).1]
    exact ⟨rfl, Nat.succ_pos _⟩
  · intro hnot
    rw [hhashed] at hnot
    cases hnot

theorem users_eq_zero (hrt : rt.Sound held unlinked) (hshape : rt.shapes.getD ptr none = none) :
    rt.users ptr = 0 := by
  refine Nat.eq_zero_of_not_pos fun hpos => ?_
  obtain ⟨entry, hmem, hentry⟩ := List.countP_pos_iff.mp hpos
  obtain ⟨obj, hlt, hget⟩ := List.mem_iff_getElem.mp hmem
  cases entry with
  | none => cases hentry
  | some p =>
      have hobject : rt.objects.getD obj none = some p := by rw [List.getD_eq_getElem _ _ hlt, hget]
      obtain ⟨sh, hsh, -⟩ := hrt.owner hobject
      rw [Option.any_some, beq_iff_eq] at hentry
      rw [hentry, hshape] at hsh
      cases hsh

theorem count_eq_zero (hrt : rt.Sound held unlinked) (hshape : rt.shapes.getD ptr none = none) :
    held.count ptr = 0 := by
  refine List.count_eq_zero.mpr fun hmem => ?_
  obtain ⟨sh, hsh⟩ := hrt.alive ptr hmem
  rw [hshape] at hsh
  cases hsh

/-- A new shape is in the hand that has allocated it, and not yet in the table. -/
theorem allocate (hrt : rt.Sound held none) {new : JSShape} (hgood : new.Good)
    (hone : new.refCount = 1) :
    Sound (rt.shapes.length :: held) (if new.isHashed = true then some rt.shapes.length else none)
      { rt with shapes := rt.shapes ++ [some new] } := by
  have hfresh : rt.shapes.getD rt.shapes.length none = none :=
    List.getD_eq_default _ _ (Nat.le_refl _)
  refine hrt.writeShape (getD_concat rt.shapes new) rfl rfl rfl (fun q hq => ?_) (fun q hq => ?_)
    (fun found hfound _ => ?_) (fun _ => by simp) (fun other hother => ?_) fun bucket => ?_
  · rw [List.count_cons_of_ne hq.symm]
  · split
    · simpa using hq.symm
    · rfl
  · rw [hfresh] at hfound
    cases hfound
  · rw [Option.some.injEq] at hother
    subst other
    refine ⟨hgood, ?_, fun _ => hone, fun hisHashed haside => ?_⟩
    · rw [hrt.users_eq_zero hfresh, List.count_cons_self, hrt.count_eq_zero hfresh, hone]
      exact ⟨rfl, Nat.one_pos⟩
    · rw [if_pos hisHashed] at haside
      exact absurd rfl haside
  · refine iff_of_false (hrt.not_listed (fun found hfound => ?_) bucket) ?_
    · rw [hfresh] at hfound
      cases hfound
    · rintro ⟨other, hother, hisHashed, haside, -⟩
      rw [Option.some.injEq] at hother
      subst other
      rw [if_pos hisHashed] at haside
      exact haside rfl

/-- A shape goes with its last reference; it is not in the table any more. -/
theorem drop (hrt : rt.Sound (ptr :: held) unlinked)
    (hshape : rt.shapes.getD ptr none = some sh) (hone : sh.refCount = 1)
    (hnot : sh.isHashed = true → unlinked = some ptr) {aside : Option Ptr}
    (hothers : ∀ q ≠ ptr, aside ≠ some q ↔ unlinked ≠ some q) :
    Sound held aside { rt with shapes := rt.shapes.set ptr none } := by
  have hcounted := (hrt.counted hshape).1
  rw [hone, List.count_cons_self] at hcounted
  refine hrt.writeShape (getD_set_none rt.shapes ptr) rfl rfl rfl (fun q hq => ?_)
    hothers (fun found _ hpos => by omega)
    (fun hmem => ?_) (fun new hnew => by cases hnew) fun bucket => ?_
  · rw [List.count_cons_of_ne hq.symm]
  · have hpos := List.count_pos_iff.mpr hmem
    omega
  · refine iff_of_false (hrt.not_listed (fun found hfound hisHashed => ?_) bucket) ?_
    · rw [hshape, Option.some.injEq] at hfound
      exact hnot (hfound ▸ hisHashed)
    · rintro ⟨new, hnew, -⟩
      cases hnew

/-- A reference in hand is given back; the shape may go. -/
theorem free (hrt : rt.Sound (ptr :: held) none) :
    ∃ next, rt.jsFreeShape ptr = .ok next ∧ next.Sound held none ∧ next.objects = rt.objects ∧
      ∀ q found, next.shapes.getD q none = some found →
        ∃ n old, rt.shapes.getD q none = some old ∧ found = { old with refCount := n } := by
  obtain ⟨sh, hshape⟩ := hrt.alive ptr List.mem_cons_self
  obtain ⟨hcount, hpos⟩ := hrt.counted hshape
  rw [List.count_cons_self] at hcount
  rw [jsFreeShape, shapeAt_eq hshape]
  by_cases hlast : sh.refCount ≤ 1
  · have hone : sh.refCount = 1 := Nat.le_antisymm hlast hpos
    have hgone : ∀ {middle : ShapeRuntime}, middle.shapes = rt.shapes → ∀ q found,
        (middle.shapes.set ptr none).getD q none = some found →
        ∃ n old, rt.shapes.getD q none = some old ∧ found = { old with refCount := n } := by
      intro middle hmiddle q found hfound
      rw [getD_set_none, hmiddle] at hfound
      split at hfound
      · cases hfound
      · exact ⟨found.refCount, found, hfound, rfl⟩
    cases hhashed : sh.isHashed with
    | true =>
        obtain ⟨middle, hunlink, hmiddle, hshapes, hobjects⟩ := hrt.unlink hshape hhashed
        have hshape' : middle.shapes.getD ptr none = some sh := hshapes ▸ hshape
        refine ⟨_, ?_, hmiddle.drop hshape' hone (fun _ => rfl) fun q hq => by
          simpa using hq.symm, hobjects, hgone hshapes⟩
        simp only [bind, Except.bind, hlast, if_true, hhashed, hunlink, pure, Except.pure]
    | false =>
        refine ⟨_, ?_, hrt.drop hshape hone (fun hisHashed => ?_) (fun q _ => Iff.rfl), rfl,
          hgone rfl⟩
        · simp only [bind, Except.bind, hlast, if_true, hhashed, Bool.false_eq_true, if_false, pure,
            Except.pure]
        · rw [hhashed] at hisHashed
          cases hisHashed
  · refine ⟨rt.setShape ptr { sh with refCount := sh.refCount - 1 }, ?_,
      hrt.recount hshape (fun q hq => ?_) ⟨by omega, by omega⟩ fun hnot => ?_, rfl, ?_⟩
    · simp only [bind, Except.bind, hlast, if_false, pure, Except.pure]
    · rw [List.count_cons_of_ne hq.symm]
    · have hexclusive := hrt.exclusive hshape hnot
      omega
    · intro q found hfound
      rw [getD_setShape hshape] at hfound
      split at hfound
      · rename_i heq
        rw [Option.some.injEq] at hfound
        exact ⟨_, sh, heq ▸ hshape, hfound.symm⟩
      · exact ⟨found.refCount, found, hfound, rfl⟩

end Write

section Objects

/-- An object is given a shape that was in hand; its own is in hand then. -/
theorem give (hrt : rt.Sound (ptr :: held) unlinked) (hobject : rt.objects.getD obj none = some p)
    (hshape : rt.shapes.getD ptr none = some sh) (hwritten : written.shape = ptr)
    (hlength : written.prop.length = sh.prop.length) (hsize : written.propSize = sh.propSize) :
    (rt.setObject obj written).Sound (p.shape :: held) unlinked := by
  have hcounts : ∀ q, (rt.setObject obj written).users q + (p.shape :: held).count q =
      rt.users q + (ptr :: held).count q := by
    intro q
    have husers := users_setObject hobject written q
    rw [hwritten] at husers
    rw [List.count_cons, List.count_cons]
    simp only [beq_iff_eq]
    omega
  refine ⟨fun {other q} hother => ?_, hrt.good, fun q hq => ?_, fun {q found} hfound => ?_,
    hrt.exclusive, hrt.hashed, hrt.table, hrt.nodup, hrt.size⟩
  · by_cases heq : obj = other
    · subst other
      rw [setObject, getD_set_self (lt_length_of_getD hobject), Option.some.injEq] at hother
      subst q
      exact ⟨sh, hwritten ▸ hshape, hlength, hsize⟩
    · rw [setObject, getD_set_of_ne heq] at hother
      exact hrt.owner hother
  · rcases List.mem_cons.mp hq with rfl | hmem
    · obtain ⟨found, hfound, -⟩ := hrt.owner hobject
      exact ⟨found, hfound⟩
    · exact hrt.alive q (List.mem_cons_of_mem _ hmem)
  · rw [hcounts q]
    exact hrt.counted hfound

/-- An object goes; its shape is in hand. -/
theorem takeBack (hrt : rt.Sound held unlinked) (hobject : rt.objects.getD obj none = some p) :
    Sound (p.shape :: held) unlinked { rt with objects := rt.objects.set obj none } := by
  refine ⟨fun {other q} hother => ?_, hrt.good, fun q hq => ?_, fun {q found} hfound => ?_,
    hrt.exclusive, hrt.hashed, hrt.table, hrt.nodup, hrt.size⟩
  · by_cases heq : obj = other
    · subst other
      rw [getD_set_self (lt_length_of_getD hobject)] at hother
      cases hother
    · rw [getD_set_of_ne heq] at hother
      exact hrt.owner hother
  · rcases List.mem_cons.mp hq with rfl | hmem
    · obtain ⟨found, hfound, -⟩ := hrt.owner hobject
      exact ⟨found, hfound⟩
    · exact hrt.alive q hmem
  · have husers := users_set hobject none q
    have hcounted := hrt.counted hfound
    rw [List.count_cons]
    simp only [users, Option.any_none, Bool.false_eq_true, if_false, Nat.add_zero,
      beq_iff_eq] at husers hcounted ⊢
    omega

/-- A new object has the shape that was in hand. -/
theorem found (hrt : rt.Sound (ptr :: held) unlinked) (hshape : rt.shapes.getD ptr none = some sh)
    (hempty : sh.prop.length = 0) :
    Sound held unlinked { rt with objects := rt.objects ++ [some ⟨ptr, [], sh.propSize⟩] } := by
  refine ⟨fun {other q} hother => ?_, hrt.good,
    fun q hq => hrt.alive q (List.mem_cons_of_mem _ hq), fun {q found} hfound => ?_,
    hrt.exclusive, hrt.hashed, hrt.table, hrt.nodup, hrt.size⟩
  · rcases getD_concat_cases hother with ⟨-, hnew⟩ | hold
    · rw [Option.some.injEq] at hnew
      subst q
      exact ⟨sh, hshape, hempty.symm, rfl⟩
    · exact hrt.owner hold
  · have hcounted := hrt.counted hfound
    rw [List.count_cons] at hcounted
    rw [users, List.countP_append, List.countP_singleton]
    simp only [Option.any_some, beq_iff_eq] at hcounted ⊢
    rw [users] at hcounted
    omega

/-- The shape of one object alone is written, and the object. -/
theorem rewrite (hrt : rt.Sound held unlinked) (hobject : rt.objects.getD obj none = some p)
    (hshape : rt.shapes.getD p.shape none = some sh) (hone : sh.refCount = 1)
    (hfree : sh.isHashed = true → unlinked = some p.shape) (hgood : new.Good)
    (hnew : new.refCount = 1) (hsame : new.isHashed = sh.isHashed)
    (hwritten : written.shape = p.shape) (hlength : written.prop.length = new.prop.length)
    (hsize : written.propSize = new.propSize) :
    ((rt.setShape p.shape new).setObject obj written).Sound held unlinked ∧
      ∀ other ≠ obj, ((rt.setShape p.shape new).setObject obj written).viewOf other =
        rt.viewOf other := by
  have hcounted := hrt.counted hshape
  have hpos := users_pos hobject
  have hshapes : ∀ q, ((rt.setShape p.shape new).setObject obj written).shapes.getD q none =
      if q = p.shape then some new else rt.shapes.getD q none := getD_setShape hshape new
  have husers : ∀ q, ((rt.setShape p.shape new).setObject obj written).users q = rt.users q := by
    intro q
    have hset := users_setObject hobject written q
    rw [hwritten] at hset
    change (rt.setObject obj written).users q = _
    omega
  have hsingle : ∀ other ≠ obj, ∀ q, rt.objects.getD other none = some q → q.shape ≠ p.shape := by
    intro other hne q hother heq
    have htwo := two_le_users hobject hother hne heq
    omega
  have hothers : ∀ other ≠ obj, ((rt.setShape p.shape new).setObject obj written).objects.getD other
      none = rt.objects.getD other none := fun other hne => getD_set_of_ne (Ne.symm hne)
  refine ⟨hrt.write hshapes rfl rfl (fun q _ => by rw [husers q]) (fun _ _ => Iff.rfl)
    (fun other q hother => ?_) (fun q hq => ?_) (fun entry hentry => ?_) (fun bucket => ?_),
    fun other hne => viewOf_congr (hothers other hne) fun q hq => ?_⟩
  · by_cases heq : other = obj
    · subst other
      have hself : ((rt.setShape p.shape new).setObject obj written).objects.getD obj none =
        some written := getD_set_self (lt_length_of_getD hobject)
      rw [hself, Option.some.injEq] at hother
      subst q
      exact ⟨new, by rw [hshapes, if_pos hwritten], hlength, hsize⟩
    · rw [hothers other heq] at hother
      rw [hshapes, if_neg (hsingle other heq q hother)]
      exact hrt.owner hother
  · rw [hshapes]
    split
    · exact ⟨new, rfl⟩
    · exact hrt.alive q hq
  · rw [Option.some.injEq] at hentry
    subst entry
    refine ⟨hgood, ?_, fun _ => hnew, fun hisHashed haside => ?_⟩
    · rw [husers]
      omega
    · exact absurd (hfree (hsame ▸ hisHashed)) haside
  · refine iff_of_false (hrt.not_listed (fun found hfound hisHashed => ?_) bucket) ?_
    · rw [hshape, Option.some.injEq] at hfound
      exact hfree (hfound ▸ hisHashed)
    · rintro ⟨entry, hentry, hisHashed, haside, -⟩
      rw [Option.some.injEq] at hentry
      subst entry
      exact haside (hfree (hsame ▸ hisHashed))
  · rw [hshapes, if_neg (hsingle other hne q hq)]

end Objects

end Sound

end ShapeRuntime

end QuickjsBackend
