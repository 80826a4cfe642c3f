import QuickjsBackend.Shape.Sharing

/-! # Changing the shape of one object

Before a shape is changed it is made to belong to its object alone; then it may move, and
its properties may be written, while no other object sees it.
-/

namespace QuickjsBackend

open Foundation

namespace ShapeRuntime

variable {rt next : ShapeRuntime} {held : List Ptr} {unlinked : Option Ptr} {obj other ptr : Ptr}
  {p written : ShapedObject} {sh new : JSShape}

/-- Prototype and properties of a hashed shape. -/
def signature (rt : ShapeRuntime) (ptr : Ptr) : Option (Option Ptr × List (JSAtom × BitVec 6)) :=
  (rt.shapes.getD ptr none).bind fun sh => if sh.isHashed then some (sh.proto, sh.layout) else none

/-- Hashed shapes have gone or stopped being hashed, and none was added. -/
def Fewer (next rt : ShapeRuntime) : Prop :=
  ∀ q x, next.signature q = some x → rt.signature q = some x

theorem Fewer.of_eq (hshapes : next.shapes = rt.shapes) : next.Fewer rt := by
  intro q x hq
  rwa [signature, hshapes] at hq

theorem Fewer.trans {middle : ShapeRuntime} (hfirst : next.Fewer middle)
    (hsecond : middle.Fewer rt) : next.Fewer rt :=
  fun q x hq => hsecond q x (hfirst q x hq)

theorem signature_eq (hshape : rt.shapes.getD ptr none = some sh) :
    rt.signature ptr = if sh.isHashed then some (sh.proto, sh.layout) else none := by
  rw [signature, hshape, Option.bind_some]

theorem Fewer.of_recounted (hshapes : ∀ q found, next.shapes.getD q none = some found →
    ∃ n old, rt.shapes.getD q none = some old ∧ found = { old with refCount := n }) :
    next.Fewer rt := by
  intro q x hq
  obtain ⟨found, hfound, hx⟩ := Option.bind_eq_some_iff.mp hq
  obtain ⟨n, old, hold, rfl⟩ := hshapes q found hfound
  rw [signature_eq hold]
  exact hx

theorem viewOf_of_recounted (hnext : next.Sound held unlinked)
    (hobjects : next.objects = rt.objects)
    (hshapes : ∀ q found, next.shapes.getD q none = some found →
      ∃ n old, rt.shapes.getD q none = some old ∧ found = { old with refCount := n }) (obj : Ptr) :
    next.viewOf obj = rt.viewOf obj := by
  refine viewOf_congr (by rw [hobjects]) fun p hobject => ?_
  obtain ⟨found, hfound, -⟩ := hnext.owner (hobjects ▸ hobject)
  obtain ⟨n, old, hold, rfl⟩ := hshapes _ _ hfound
  rw [hfound, hold]
  rfl

theorem jsFreeShape_objects (hfree : rt.jsFreeShape ptr = .ok next) :
    next.objects = rt.objects := by
  simp only [jsFreeShape, jsShapeHashUnlink, shapeAt, bind, Except.bind, pure, Except.pure] at hfree
  cases hshape : rt.shapes.getD ptr none with
  | none =>
      rw [hshape] at hfree
      cases hfree
  | some sh =>
      simp only [hshape] at hfree
      split at hfree
      · split at hfree
        · by_cases hmem : ptr ∈ rt.shapeHash.getD (getShapeHash sh.hash rt.shapeHashBits) [] <;>
            simp only [hmem, if_true, if_false] at hfree <;> cases hfree
          rfl
        · cases hfree
          rfl
      · cases hfree
        rfl

/-- Nothing about an object is read when a shape is freed. -/
theorem jsFreeShape_setObject (rt : ShapeRuntime) (obj : Ptr) (written : ShapedObject) (ptr : Ptr) :
    (rt.setObject obj written).jsFreeShape ptr =
      (rt.jsFreeShape ptr).map fun next => next.setObject obj written := by
  simp only [jsFreeShape, jsShapeHashUnlink, shapeAt, setObject, bind, Except.bind, pure,
    Except.pure]
  cases rt.shapes.getD ptr none with
  | none => rfl
  | some sh =>
      dsimp only
      split
      · split
        · by_cases hmem : ptr ∈ rt.shapeHash.getD (getShapeHash sh.hash rt.shapeHashBits) [] <;>
            simp only [hmem, if_true, if_false] <;> rfl
        · rfl
      · rfl

namespace Sound

/-- A shape of one object is allocated anew; the old one is gone. -/
theorem move (hrt : rt.Sound held unlinked) (written : ShapedObject)
    (hobject : rt.objects.getD obj none = some p)
    (hshape : rt.shapes.getD p.shape none = some sh) (hone : sh.refCount = 1)
    (hunlinked : unlinked = if sh.isHashed = true then some p.shape else none)
    (hgood : new.Good) (hnew : new.refCount = 1) (hwritten : written.shape = p.shape)
    (hlength : written.prop.length = new.prop.length) (hsize : written.propSize = new.propSize) :
    (rt.moveShape obj written new).Sound held
        (if new.isHashed = true then some rt.shapes.length else none) ∧
      (∀ other ≠ obj, (rt.moveShape obj written new).viewOf other = rt.viewOf other) ∧
      ∀ q ≠ rt.shapes.length, (rt.moveShape obj written new).shapes.getD q none =
        if q = p.shape then none else rt.shapes.getD q none := by
  -- whether the old shape counts as hashed does not matter any more
  obtain ⟨old, hold, holdOne, holdHashed⟩ : ∃ old, (rt.setShape p.shape old).Sound held none ∧
      old.refCount = 1 ∧ old.isHashed = false := by
    cases hhashed : sh.isHashed with
    | true =>
        rw [hhashed, if_pos rfl] at hunlinked
        subst unlinked
        exact ⟨_, hrt.unhash hshape hone, hone, rfl⟩
    | false =>
        rw [hhashed, if_neg (by simp)] at hunlinked
        subst unlinked
        have hcounted := hrt.counted hshape
        exact ⟨_, hrt.recount hshape (fun _ _ => rfl) hcounted fun _ => hone, hone, hhashed⟩
  have hlt := lt_length_of_getD hshape
  have hallocated := hold.allocate hgood hnew
  have hlengthSet : (rt.setShape p.shape old).shapes.length = rt.shapes.length :=
    List.length_set
  rw [hlengthSet] at hallocated
  have hnewShape : ((rt.setShape p.shape old).shapes ++ [some new]).getD rt.shapes.length none =
      some new := by
    rw [← hlengthSet]
    exact getD_concat_length
  have hmoved : ({ written with shape := rt.shapes.length } : ShapedObject).shape =
    rt.shapes.length := rfl
  have hgiven := hallocated.give hobject hnewShape hmoved hlength hsize
  have holdShape :
      ((rt.setShape p.shape old).shapes ++ [some new]).getD p.shape none = some old := by
    rw [List.getD_append _ _ _ _ (by rwa [hlengthSet])]
    exact getD_set_self hlt
  have hdropped := hgiven.drop holdShape holdOne
    (fun hisHashed => by rw [holdHashed] at hisHashed; cases hisHashed) fun _ _ => Iff.rfl
  have hshapes : ((rt.shapes.set p.shape (some old)) ++ [some new]).set p.shape none =
      rt.shapes.set p.shape none ++ [some new] := by
    rw [List.set_append_left _ _ (by rwa [List.length_set]), List.set_set]
  refine ⟨?_, fun other hne => viewOf_congr (getD_set_of_ne (Ne.symm hne)) fun q hq => ?_,
    fun q hq => ?_⟩
  · rw [moveShape, hwritten, ← hshapes]
    exact hdropped
  · have hapart : q.shape ≠ p.shape := by
      intro heq
      have htwo := two_le_users hobject hq hne heq
      have hcounted := (hrt.counted hshape).1
      omega
    obtain ⟨found, hfound, -⟩ := hrt.owner hq
    have hkept : (rt.moveShape obj written new).shapes.getD q.shape none = some found := by
      rw [moveShape, hwritten, getD_concat, if_neg, getD_set_of_ne hapart.symm, hfound]
      rw [List.length_set]
      exact Nat.ne_of_lt (lt_length_of_getD hfound)
    rw [hkept, hfound]
  · rw [moveShape, hwritten, getD_concat, if_neg (by rwa [List.length_set]), getD_set_none]

end Sound

/-- An object with a shape that belongs to it alone and is as another was. -/
structure Alone (rt : ShapeRuntime) (obj : Ptr) (p : ShapedObject) (sh : JSShape) : Prop where
  object : rt.objects.getD obj none = some p
  shape : rt.shapes.getD p.shape none = some sh
  one : sh.refCount = 1

namespace Sound

theorem jsCloneShape_eq (hshape : rt.shapes.getD ptr none = some sh) :
    rt.jsCloneShape ptr = .ok (rt.shapes.length, { rt with
      shapes := rt.shapes ++ [some { sh with refCount := 1, isHashed := false }] }) := by
  rw [jsCloneShape, shapeAt_eq hshape]
  rfl

theorem good_clone (hgood : sh.Good) (refCount : Nat) (isHashed : Bool) :
    JSShape.Good { sh with refCount := refCount, isHashed := isHashed } :=
  ⟨⟨hgood.indexed, hgood.heads⟩, hgood.fits, hgood.small, hgood.deleted, hgood.distinct⟩

/-- An object is given a shape that nothing else has, and gives its own back. -/
theorem replaceShape (hrt : rt.Sound (ptr :: held) none)
    (hobject : rt.objects.getD obj none = some p) (hshape : rt.shapes.getD ptr none = some new)
    (hnew : new.refCount = 1) (hlength : p.prop.length = new.prop.length)
    (hsize : p.propSize = new.propSize) :
    ∃ next, rt.jsFreeShape p.shape = .ok next ∧
      (next.setObject obj { p with shape := ptr }).Sound held none ∧
      (next.setObject obj { p with shape := ptr }).Alone obj { p with shape := ptr } new ∧
      next.objects = rt.objects ∧
      (∀ other ≠ obj, (next.setObject obj { p with shape := ptr }).viewOf other =
        rt.viewOf other) ∧ next.Fewer rt := by
  have hmoved : ({ p with shape := ptr } : ShapedObject).shape = ptr := rfl
  have hgiven := hrt.give hobject hshape hmoved hlength hsize
  obtain ⟨final, hfree, hfinal, hobjects, hshapes⟩ := hgiven.free
  rw [jsFreeShape_setObject] at hfree
  cases hresult : rt.jsFreeShape p.shape with
  | error fault =>
      rw [hresult] at hfree
      cases hfree
  | ok next =>
      rw [hresult] at hfree
      cases hfree
      have hnextObjects : next.objects = rt.objects := jsFreeShape_objects hresult
      have hself : (next.setObject obj { p with shape := ptr }).objects.getD obj none =
          some { p with shape := ptr } :=
        getD_set_self (hnextObjects ▸ lt_length_of_getD hobject)
      obtain ⟨found, hfound, -⟩ := hfinal.owner hself
      obtain ⟨n, old, hold, hrecounted⟩ := hshapes _ _ hfound
      have holdNew : old = new := by
        change rt.shapes.getD ptr none = some old at hold
        rw [hshape, Option.some.injEq] at hold
        exact hold.symm
      subst old
      -- nothing else had the shape
      have hn : n = 1 := by
        have hbefore := (hrt.counted hshape).1
        have hafter := (hfinal.counted hfound).1
        have hset := users_setObject (hnextObjects ▸ hobject) { p with shape := ptr } ptr
        have husers : next.users ptr = rt.users ptr := by rw [users, users, hnextObjects]
        have hpos := users_pos hobject
        rw [hnew, List.count_cons_self] at hbefore
        rw [hrecounted] at hafter
        have hapart : p.shape ≠ ptr := fun heq => by
          rw [heq] at hpos
          omega
        rw [if_neg hapart, if_pos rfl, husers] at hset
        simp only at hafter
        omega
      refine ⟨next, rfl, hfinal, ⟨hself, ?_, hnew⟩, hnextObjects, fun other hne => ?_,
        .of_recounted hshapes⟩
      · rw [hfound, hrecounted, hn, ← hnew]
      · rw [viewOf_of_recounted hfinal hobjects hshapes other]
        exact viewOf_congr (getD_set_of_ne (Ne.symm hne)) fun q _ => rfl

/-- An unhashed shape that is allocated counts for nothing. -/
theorem fewer_allocate (hnot : new.isHashed = false) :
    Fewer { rt with shapes := rt.shapes ++ [some new] } rt := by
  intro q x hq
  rw [signature, getD_concat] at hq
  split at hq
  · rw [Option.bind_some, hnot] at hq
    cases hq
  · exact hq

/-- Shapes that are allocated are not seen. -/
theorem viewOf_allocate (hrt : rt.Sound held unlinked) (new : JSShape) (other : Ptr) :
    viewOf { rt with shapes := rt.shapes ++ [some new] } other = rt.viewOf other := by
  refine viewOf_congr rfl fun q hq => ?_
  obtain ⟨found, hfound, -⟩ := hrt.owner hq
  rw [List.getD_append _ _ _ _ (lt_length_of_getD hfound)]

/-- `js_shape_prepare_update` leaves the object with a shape of its own. -/
theorem prepareUpdate (hrt : rt.Sound held none) (hobject : rt.objects.getD obj none = some p)
    (hshape : rt.shapes.getD p.shape none = some sh) :
    ∃ next own, rt.jsShapePrepareUpdate obj = .ok next ∧ next.Sound held none ∧
      next.Alone obj { p with shape := own } { sh with refCount := 1, isHashed := false } ∧
      next.objects.length = rt.objects.length ∧ (∀ other, next.viewOf other = rt.viewOf other) ∧
      next.Fewer rt := by
  rw [jsShapePrepareUpdate, objectAt_eq hobject]
  simp only [bind, Except.bind, shapeAt_eq hshape]
  cases hhashed : sh.isHashed with
  | false =>
      have hone := hrt.exclusive hshape hhashed
      have hsame : ({ sh with refCount := 1, isHashed := false } : JSShape) = sh := by
        rw [← hone, ← hhashed]
      exact ⟨rt, p.shape, rfl, hrt, ⟨hobject, hsame ▸ hshape, rfl⟩, rfl, fun _ => rfl, .of_eq rfl⟩
  | true =>
      by_cases hone : sh.refCount = 1
      · obtain ⟨middle, hunlink, hmiddle, hshapes, hobjects⟩ := hrt.unlink hshape hhashed
        have hshape' : middle.shapes.getD p.shape none = some sh := hshapes ▸ hshape
        have hset := getD_setShape hshape' { sh with isHashed := false }
        refine ⟨middle.setShape p.shape { sh with isHashed := false }, p.shape, ?_,
          hmiddle.unhash hshape' hone, ⟨?_, ?_, rfl⟩, ?_, fun other =>
            viewOf_congr (by rw [setShape, hobjects]) fun q hq => ?_, fun q x hq => ?_⟩
        · simp only [hone, ne_eq, not_true_eq_false, if_false, if_true, hunlink, pure, Except.pure]
        · exact hobjects ▸ hobject
        · rw [hset, if_pos rfl, hone]
        · rw [setShape, hobjects]
        · rw [hset, hshapes]
          split
          · rename_i heq
            rw [heq, hshape]
            rfl
          · rfl
        · rw [signature, hset] at hq
          split at hq
          · cases hq
          · rwa [hshapes] at hq
      · have hgood := good_clone (hrt.good hshape) 1 false
        have hallocated := hrt.allocate hgood rfl
        obtain ⟨hlength, hsize⟩ := hrt.sizes hobject hshape
        have hnewShape : (rt.shapes ++ [some { sh with refCount := 1, isHashed := false }]).getD
            rt.shapes.length none = some { sh with refCount := 1, isHashed := false } :=
          getD_concat_length
        obtain ⟨next, hfree, hnext, halone, hobjects, hview, hfewer⟩ :=
          hallocated.replaceShape hobject hnewShape rfl hlength hsize
        refine ⟨_, rt.shapes.length, ?_, hnext, halone, ?_, fun other => ?_,
          Fewer.trans (fun q x hq => hfewer q x hq) (fewer_allocate rfl)⟩
        · simp only [ne_eq, hone, not_false_eq_true, if_true, jsCloneShape_eq hshape, hfree, pure,
            Except.pure]
        · simp [setObject, hobjects]
        · by_cases heq : other = obj
          · subst other
            rw [viewOf_eq halone.object halone.shape, viewOf_eq hobject hshape]
            rfl
          · rw [hview other heq, hrt.viewOf_allocate]

theorem growHashSize_pos {newSize : Nat} (fuel : Nat) {size : Nat} (hsize : 0 < size) :
    0 < growHashSize newSize fuel size := by
  induction fuel generalizing size with
  | zero => exact hsize
  | succ fuel ih =>
      rw [growHashSize]
      split
      · exact ih (by omega)
      · exact hsize

theorem shrinkHashSize_pos {newSize : Nat} (hnewSize : 0 < newSize) (fuel : Nat) {size : Nat}
    (hsize : 0 < size) : 0 < shrinkHashSize newSize fuel size := by
  induction fuel generalizing size with
  | zero => exact hsize
  | succ fuel ih =>
      rw [shrinkHashSize]
      split
      · exact ih (by omega)
      · exact hsize

/-- A shape that was rehashed or not, with more room. -/
theorem good_resized (hgood : sh.Good) {newSize size : Nat} (hsize : sh.propSize ≤ newSize)
    (hpos : 0 < size) {resized : JSShape}
    (hresized : resized = sh.rehash size false ∨ resized = sh) :
    JSShape.Good { resized with propSize := newSize } ∧ resized.layout = sh.layout ∧
      resized.refCount = sh.refCount ∧ resized.isHashed = sh.isHashed ∧
      resized.hash = sh.hash ∧ resized.proto = sh.proto := by
  rcases hresized with rfl | rfl
  · obtain ⟨hrefCount, hisHashed, hhash, hdeleted, hproto⟩ := sh.rehash_fields size false
    have hlayout : (sh.rehash size false).layout = sh.layout := by
      rw [JSShape.layout_rehash]
      exact List.filter_eq_self.mpr fun _ _ => rfl
    have hlength : (sh.rehash size false).prop.length = sh.prop.length := by
      rw [← JSShape.length_layout, hlayout, JSShape.length_layout]
    have hchained := hgood.rehash hpos false
    refine ⟨⟨⟨hchained.indexed, hchained.heads⟩, ?_, ?_, ?_, ?_⟩, hlayout, hrefCount, hisHashed,
      hhash, hproto⟩
    · exact hlength ▸ hgood.fits.trans hsize
    · exact hlength ▸ hgood.small
    · change _ = (sh.rehash size false).layout.countP _
      rw [hlayout, ← hgood.deleted]
      exact hdeleted
    · change ((sh.rehash size false).layout.filter _ |>.map _).Nodup
      rw [hlayout]
      exact hgood.distinct
  · exact ⟨⟨⟨hgood.indexed, hgood.heads⟩, hgood.fits.trans hsize, hgood.small, hgood.deleted,
      hgood.distinct⟩, rfl, rfl, rfl, rfl, rfl⟩

/-- `resize_properties` makes room and changes nothing that scripts see. -/
theorem resizeProperties (hrt : rt.Sound held unlinked) (halone : rt.Alone obj p sh)
    (hunlinked : unlinked = if sh.isHashed = true then some p.shape else none) (count : Nat) :
    ∃ next moved new, rt.resizeProperties obj count = .ok next ∧
      next.Sound held (if new.isHashed = true then some moved.shape else none) ∧
      next.Alone obj moved new ∧ next.objects.length = rt.objects.length ∧
      (moved.prop = p.prop ∧ new.layout = sh.layout ∧ new.isHashed = sh.isHashed ∧
        new.hash = sh.hash ∧ new.proto = sh.proto ∧ count ≤ new.propSize) ∧
      (∀ other ≠ obj, next.viewOf other = rt.viewOf other) ∧
      ∀ q x, q ≠ moved.shape → next.signature q = some x →
        q ≠ p.shape ∧ rt.signature q = some x := by
  obtain ⟨hobject, hshape, hone⟩ := halone
  have hgood := hrt.good hshape
  obtain ⟨hlength, hsize⟩ := hrt.sizes hobject hshape
  have hle : sh.propSize ≤ max count (sh.propSize * 3 / 2) :=
    Nat.le_trans (by omega) (Nat.le_max_right _ _)
  have hpos : 0 < growHashSize (max count (sh.propSize * 3 / 2)) (max count (sh.propSize * 3 / 2))
      sh.propHash.length := growHashSize_pos _ hgood.heads
  obtain ⟨resized, hresized, hcases⟩ : ∃ resized, resized = (if growHashSize
        (max count (sh.propSize * 3 / 2)) (max count (sh.propSize * 3 / 2)) sh.propHash.length ≠
          sh.propHash.length
      then sh.rehash (growHashSize (max count (sh.propSize * 3 / 2))
        (max count (sh.propSize * 3 / 2)) sh.propHash.length) false else sh) ∧
      (resized = sh.rehash (growHashSize (max count (sh.propSize * 3 / 2))
        (max count (sh.propSize * 3 / 2)) sh.propHash.length) false ∨ resized = sh) := by
    refine ⟨_, rfl, ?_⟩
    split
    · exact .inl rfl
    · exact .inr rfl
  obtain ⟨hgoodNew, hlayout, hrefCount, hisHashed, hhash, hproto⟩ :=
    good_resized hgood hle hpos hcases
  have hlengthNew : resized.prop.length = sh.prop.length := by
    rw [← JSShape.length_layout, hlayout, JSShape.length_layout]
  obtain ⟨hmoved, hview, hkept⟩ := hrt.move { p with
      propSize := max count (sh.propSize * 3 / 2) } hobject hshape hone hunlinked hgoodNew
    (hrefCount.trans hone) rfl (hlength.trans hlengthNew.symm) rfl
  refine ⟨_, ⟨rt.shapes.length, p.prop, max count (sh.propSize * 3 / 2)⟩,
    { resized with propSize := max count (sh.propSize * 3 / 2) }, ?_, hmoved, ⟨?_, ?_, ?_⟩, ?_,
    ⟨rfl, hlayout, hisHashed, hhash, hproto, Nat.le_max_left _ _⟩, hview, fun q x hq hx => ?_⟩
  · rw [ShapeRuntime.resizeProperties, objectAt_eq hobject]
    simp only [bind, Except.bind, shapeAt_eq hshape, pure, Except.pure, ← hresized]
  · exact getD_set_self (lt_length_of_getD hobject)
  · rw [moveShape, getD_concat, if_pos]
    exact List.length_set.symm
  · exact hrefCount.trans hone
  · simp [moveShape]
  · rw [signature, hkept q hq] at hx
    split at hx
    · cases hx
    · exact ⟨‹_›, hx⟩

/-- `compact_properties` drops what was deleted, and scripts see no difference. -/
theorem compactProperties (hrt : rt.Sound held none) (halone : rt.Alone obj p sh)
    (hhashed : sh.isHashed = false) (hdeleted : 2 ≤ sh.deletedPropCount) :
    ∃ next, rt.compactProperties obj = .ok next ∧ next.Sound held none ∧
      next.objects.length = rt.objects.length ∧ (∀ other, next.viewOf other = rt.viewOf other) ∧
      next.Fewer rt := by
  obtain ⟨hobject, hshape, hone⟩ := halone
  have hgood := hrt.good hshape
  obtain ⟨hlength, hsize⟩ := hrt.sizes hobject hshape
  have hcount : sh.deletedPropCount ≤ sh.prop.length := by
    rw [hgood.deleted, ← JSShape.length_layout]
    exact List.countP_le_length
  generalize hnewSize : max 2 (sh.prop.length - sh.deletedPropCount) = newSize
  have hfits : newSize ≤ sh.propSize := by
    have hroom := hgood.fits
    omega
  have hpos : 0 < shrinkHashSize newSize sh.propHash.length sh.propHash.length :=
    shrinkHashSize_pos (by omega) _ hgood.heads
  generalize hnewHashSize : shrinkHashSize newSize sh.propHash.length sh.propHash.length =
    newHashSize at hpos
  obtain ⟨hrefCount, hisHashed, -, -, hproto⟩ := sh.rehash_fields newHashSize true
  have hlayout : (sh.rehash newHashSize true).layout =
      sh.layout.filter fun key => key.1 != atomNull := JSShape.layout_rehash sh newHashSize true
  have hkeptLength : (sh.rehash newHashSize true).prop.length =
      sh.prop.length - sh.deletedPropCount := by
    rw [← JSShape.length_layout, hlayout, ← List.countP_eq_length_filter, hgood.deleted,
      ← JSShape.length_layout sh, List.length_eq_countP_add_countP fun key => key.1 == atomNull,
      Nat.add_sub_cancel_left]
    exact List.countP_congr fun key _ => by simp
  have hchained := hgood.rehash hpos true
  have hgoodNew : JSShape.Good { sh.rehash newHashSize true with
      propSize := newSize, deletedPropCount := 0 } := by
    refine ⟨⟨hchained.indexed, hchained.heads⟩, ?_, ?_, ?_, ?_⟩
    · change (sh.rehash newHashSize true).prop.length ≤ newSize
      omega
    · have hsmall := hgood.small
      change (sh.rehash newHashSize true).prop.length ≤ _
      omega
    · change 0 = (sh.rehash newHashSize true).layout.countP _
      rw [hlayout, eq_comm, List.countP_eq_zero]
      intro key hkey
      simpa using (List.mem_filter.mp hkey).2
    · change ((sh.rehash newHashSize true).layout.filter _ |>.map _).Nodup
      rw [hlayout, List.filter_filter]
      simpa using hgood.distinct
  have hvalues : (sh.keep p.prop).length = (sh.rehash newHashSize true).prop.length := by
    rw [JSShape.length_keep hlength, ← hlayout, JSShape.length_layout]
  obtain ⟨hmoved, hview, hkept⟩ := hrt.move { p with prop := sh.keep p.prop, propSize := newSize }
    hobject hshape hone (by rw [hhashed]; rfl) hgoodNew (hrefCount.trans hone) rfl hvalues rfl
  have hnot : ¬(sh.rehash newHashSize true).isHashed = true := by simp [hisHashed, hhashed]
  rw [if_neg hnot] at hmoved
  have hnewShape : (rt.moveShape obj { p with prop := sh.keep p.prop, propSize := newSize }
      { sh.rehash newHashSize true with
        propSize := newSize, deletedPropCount := 0 }).shapes.getD rt.shapes.length none =
      some { sh.rehash newHashSize true with propSize := newSize, deletedPropCount := 0 } := by
    rw [moveShape, getD_concat, if_pos]
    exact List.length_set.symm
  refine ⟨_, ?_, hmoved, by simp [moveShape], fun other => ?_, fun q x hx => ?_⟩
  · rw [ShapeRuntime.compactProperties, objectAt_eq hobject]
    simp only [bind, Except.bind, shapeAt_eq hshape, pure, Except.pure, hnewSize, hnewHashSize]
    rw [if_neg]
    rw [hhashed, hkeptLength]
    simp only [Bool.false_eq_true, ne_eq, not_true_eq_false, or_false, false_or]
    omega
  · by_cases heq : other = obj
    · subst other
      have hself : (rt.moveShape obj { p with prop := sh.keep p.prop, propSize := newSize }
          { sh.rehash newHashSize true with
            propSize := newSize, deletedPropCount := 0 }).objects.getD obj none =
          some ⟨rt.shapes.length, sh.keep p.prop, newSize⟩ :=
        getD_set_self (lt_length_of_getD hobject)
      have hentries : entriesOf (sh.rehash newHashSize true).layout (sh.keep p.prop) =
          entriesOf sh.layout p.prop := by
        rw [hlayout, JSShape.keep_eq, JSShape.entriesOf_filter]
      rw [viewOf_eq hself hnewShape, viewOf_eq hobject hshape, ← hentries, ← hproto]
      rfl
    · exact hview other heq
  · by_cases hq : q = rt.shapes.length
    · rw [hq, signature_eq hnewShape, if_neg hnot] at hx
      cases hx
    · rw [signature, hkept q hq] at hx
      split at hx
      · cases hx
      · exact hx

/-- A shape with one more property. -/
theorem good_push (hgood : sh.Good) {atom : JSAtom} (hatom : atom ≠ atomNull)
    (habsent : ∀ key ∈ sh.layout, key.1 ≠ atom) (hroom : sh.prop.length < sh.propSize)
    (hsmall : sh.prop.length < 2 ^ 26) (flags : BitVec 6) : (sh.push ⟨0, flags, atom⟩).Good := by
  have hkey : (JSShapeProperty.key ⟨0, flags, atom⟩).1 ≠ atomNull := hatom
  have hchained : (sh.push ⟨0, flags, atom⟩).Chained := hgood.toChained.push hsmall hatom
  refine ⟨hchained, ?_, ?_, ?_, ?_⟩
  · rw [JSShape.length_push]
    exact hroom
  · rw [JSShape.length_push]
    exact hsmall
  · rw [JSShape.layout_push, List.countP_append, List.countP_singleton,
      if_neg (by simpa using hkey),
      Nat.add_zero, ← hgood.deleted]
    rfl
  · rw [JSShape.layout_push, List.filter_append, List.filter_cons_of_pos (by simpa using hkey),
      List.filter_nil, List.map_append, List.nodup_append_comm]
    refine List.nodup_cons.mpr ⟨fun hmem => ?_, hgood.distinct⟩
    obtain ⟨key, hkey, heq⟩ := List.mem_map.mp hmem
    exact habsent key (List.mem_filter.mp hkey).1 heq

/-- The shape with one more property, whose hash is the new one if it is hashed. -/
theorem exists_pushed {atom : JSAtom} {flags : BitVec 6} {h : BitVec 32}
    (hgood : (sh.push ⟨0, flags, atom⟩).Good) (hone : sh.refCount = 1)
    (hhash : sh.isHashed = true → h = layoutHash sh.proto (sh.layout ++ [(atom, flags)])) :
    ∃ new : JSShape, new.Good ∧ new.refCount = 1 ∧ new.isHashed = sh.isHashed ∧
      new.layout = sh.layout ++ [(atom, flags)] ∧ new.proto = sh.proto ∧
      (new.isHashed = true → new.hash = layoutHash new.proto new.layout) ∧
      new = if sh.isHashed = true then JSShape.push { sh with hash := h } ⟨0, flags, atom⟩
        else sh.push ⟨0, flags, atom⟩ := by
  have hlayout := JSShape.layout_push sh ⟨0, flags, atom⟩
  by_cases hhashed : sh.isHashed = true
  · refine ⟨JSShape.push { sh with hash := h } ⟨0, flags, atom⟩,
      ⟨⟨hgood.indexed, hgood.heads⟩, hgood.fits, hgood.small, hgood.deleted, hgood.distinct⟩,
      hone, rfl, hlayout, rfl, fun _ => (hhash hhashed).trans ?_, (if_pos hhashed).symm⟩
    exact congrArg (layoutHash sh.proto) hlayout.symm
  · exact ⟨_, hgood, hone, rfl, hlayout, rfl, fun hisHashed => absurd hisHashed hhashed,
      (if_neg hhashed).symm⟩

/-- The end of `add_shape_property`, once the shape is out of the table and has room. -/
theorem pushProperty (hrt : rt.Sound held unlinked) (halone : rt.Alone obj p sh)
    (hunlinked : unlinked = if sh.isHashed = true then some p.shape else none) {atom : JSAtom}
    {flags : BitVec 6} (hgood : (sh.push ⟨0, flags, atom⟩).Good) (hatom : atom ≠ atomNull)
    (hroom : sh.prop.length < sh.propSize) {h : BitVec 32}
    (hhash : sh.isHashed = true → h = layoutHash sh.proto (sh.layout ++ [(atom, flags)]))
    (value : PropertySlot) :
    ∃ next, (do
        let rt ← if sh.isHashed then
            (rt.setShape p.shape { sh with hash := h }).jsShapeHashLink p.shape
          else pure rt
        let sh ← rt.shapeAt p.shape
        (rt.setShape p.shape (sh.push ⟨0, flags, atom⟩)).appendValue obj p value) = .ok next ∧
      next.Sound held none ∧ next.objects.length = rt.objects.length ∧
      next.viewOf obj = some (sh.proto, entriesOf sh.layout p.prop ++ [(atom, flags, value)]) ∧
      (∀ other ≠ obj, next.viewOf other = rt.viewOf other) ∧
      (∀ q ≠ p.shape, ∀ x, next.signature q = some x → rt.signature q = some x) ∧
      ∀ x, next.signature p.shape = some x →
        sh.isHashed = true ∧ x = (sh.proto, sh.layout ++ [(atom, flags)]) := by
  obtain ⟨hobject, hshape, hone⟩ := halone
  obtain ⟨hlength, hsize⟩ := hrt.sizes hobject hshape
  have hbounds : p.prop.length < p.propSize := by omega
  -- the shape and the object as they will be
  obtain ⟨new, hnewGood, hnewOne, hnewHashed, hnewLayout, hnewProto, hnewHash, hnew⟩ :=
    exists_pushed hgood hone hhash
  have hnewLength : new.prop.length = sh.prop.length + 1 := by
    rw [← JSShape.length_layout, hnewLayout, List.length_append, JSShape.length_layout]
    rfl
  have hnewSize : new.propSize = sh.propSize := by
    rw [hnew]
    split <;> rfl
  obtain ⟨hwritten, hview⟩ := hrt.rewrite hobject hshape hone
    (fun hisHashed => by rw [hunlinked, if_pos hisHashed]) hnewGood hnewOne hnewHashed
    (show ({ p with prop := p.prop ++ [value] } : ShapedObject).shape = p.shape from rfl)
    (by rw [hnewLength, ← hlength, List.length_append]; rfl) (hsize.trans hnewSize.symm)
  have hself : ((rt.setShape p.shape new).setObject obj
      { p with prop := p.prop ++ [value] }).objects.getD obj none =
      some { p with prop := p.prop ++ [value] } := getD_set_self (lt_length_of_getD hobject)
  have hset : ((rt.setShape p.shape new).setObject obj
      { p with prop := p.prop ++ [value] }).shapes.getD p.shape none = some new :=
    (getD_setShape hshape new p.shape).trans (if_pos rfl)
  have hentries : entriesOf new.layout (p.prop ++ [value]) =
      entriesOf sh.layout p.prop ++ [(atom, flags, value)] := by
    rw [hnewLayout, JSShape.entriesOf_concat (by rw [hlength, JSShape.length_layout]) hatom]
  -- what follows for any state with these objects and shapes
  have hresult : ∀ final : ShapeRuntime, final.shapes = (rt.setShape p.shape new).shapes →
      final.objects = rt.objects.set obj (some { p with prop := p.prop ++ [value] }) →
      final.objects.length = rt.objects.length ∧
      final.viewOf obj = some (sh.proto, entriesOf sh.layout p.prop ++ [(atom, flags, value)]) ∧
      (∀ other ≠ obj, final.viewOf other = rt.viewOf other) ∧
      (∀ q ≠ p.shape, ∀ x, final.signature q = some x → rt.signature q = some x) ∧
      ∀ x, final.signature p.shape = some x →
        sh.isHashed = true ∧ x = (sh.proto, sh.layout ++ [(atom, flags)]) := by
    intro final hshapes hobjects
    have hviews : ∀ other, final.viewOf other = ((rt.setShape p.shape new).setObject obj
        { p with prop := p.prop ++ [value] }).viewOf other := fun other => by
      rw [viewOf, viewOf, hshapes, hobjects]
      rfl
    refine ⟨by rw [hobjects, List.length_set], ?_, fun other hne => ?_, fun q hq x hx => ?_,
      fun x hx => ?_⟩
    · rw [hviews, viewOf_eq hself hset, hentries, hnewProto]
    · rw [hviews, hview other hne]
    · rw [signature, hshapes, getD_setShape hshape, if_neg hq] at hx
      exact hx
    · rw [signature, hshapes, getD_setShape hshape, if_pos rfl, Option.bind_some] at hx
      split at hx
      · rw [Option.some.injEq] at hx
        exact ⟨hnewHashed ▸ ‹_›, by rw [← hx, hnewProto, hnewLayout]⟩
      · cases hx
  by_cases hhashed : sh.isHashed = true
  · rw [if_pos hhashed] at hunlinked hnew
    subst unlinked
    obtain ⟨final, hlink, hfinal, hshapes, hobjects⟩ :=
      hwritten.link hset (hnewHashed.trans hhashed) (hnewHash (hnewHashed.trans hhashed))
    refine ⟨final, ?_, hfinal, hresult final hshapes hobjects⟩
    have hset' : (rt.setShape p.shape { sh with hash := h }).shapes.getD p.shape none =
        some { sh with hash := h } := (getD_setShape hshape _ p.shape).trans (if_pos rfl)
    obtain ⟨middle, hmiddle, heq⟩ : ∃ middle,
        (rt.setShape p.shape { sh with hash := h }).jsShapeHashLink p.shape = .ok middle ∧
        middle = _ := ⟨_, jsShapeHashLink_eq hset', rfl⟩
    have hfound : middle.shapes.getD p.shape none = some { sh with hash := h } := heq ▸ hset'
    rw [jsShapeHashLink_eq hset] at hlink
    rw [if_pos hhashed, hmiddle]
    simp only [bind, Except.bind, shapeAt_eq hfound, appendValue]
    rw [if_pos hbounds, ← hlink, hnew, heq]
    simp only [setShape, setObject, List.set_set]
    rfl
  · rw [if_neg hhashed] at hunlinked hnew
    subst unlinked
    refine ⟨_, ?_, hwritten, hresult _ rfl rfl⟩
    rw [if_neg hhashed]
    simp only [bind, Except.bind, pure, Except.pure, shapeAt_eq hshape, appendValue]
    rw [if_pos hbounds, hnew]

/-- A property is added to an object with a shape of its own. -/
theorem addShapeProperty (hrt : rt.Sound held none) (halone : rt.Alone obj p sh) {atom : JSAtom}
    (hatom : atom ≠ atomNull) (habsent : ∀ key ∈ sh.layout, key.1 ≠ atom)
    (hsmall : sh.prop.length < 2 ^ 26) (flags : BitVec 6) (value : PropertySlot) :
    ∃ next own, rt.addShapeProperty obj atom flags value = .ok next ∧
      next.Sound held none ∧ next.objects.length = rt.objects.length ∧
      next.viewOf obj = some (sh.proto, entriesOf sh.layout p.prop ++ [(atom, flags, value)]) ∧
      (∀ other ≠ obj, next.viewOf other = rt.viewOf other) ∧
      (∀ q ≠ own, ∀ x, next.signature q = some x → q ≠ p.shape ∧ rt.signature q = some x) ∧
      ∀ x, next.signature own = some x →
        sh.isHashed = true ∧ x = (sh.proto, sh.layout ++ [(atom, flags)]) := by
  obtain ⟨hobject, hshape, hone⟩ := halone
  have hgood := hrt.good hshape
  -- out of the table
  obtain ⟨first, hfirst, hsound, hshapes, hobjects⟩ : ∃ first,
      (if sh.isHashed then rt.jsShapeHashUnlink p.shape else pure rt) = .ok first ∧
      first.Sound held (if sh.isHashed = true then some p.shape else none) ∧
      first.shapes = rt.shapes ∧ first.objects = rt.objects := by
    by_cases hhashed : sh.isHashed = true
    · rw [if_pos hhashed, if_pos hhashed]
      exact hrt.unlink hshape hhashed
    · rw [if_neg hhashed, if_neg hhashed]
      exact ⟨rt, rfl, hrt, rfl, rfl⟩
  have halone : first.Alone obj p sh := ⟨hobjects ▸ hobject, hshapes ▸ hshape, hone⟩
  have hhash : sh.isHashed = true → shapePropertyHash sh.hash atom flags =
      layoutHash sh.proto (sh.layout ++ [(atom, flags)]) := fun hhashed => by
    rw [layoutHash_concat, hrt.hashed hshape hhashed (by simp)]
  have hviews : ∀ other, first.viewOf other = rt.viewOf other := fun other => by
    rw [viewOf, viewOf, hshapes, hobjects]
  have hsignature : ∀ q, first.signature q = rt.signature q := fun q => by
    rw [signature, signature, hshapes]
  simp only [ShapeRuntime.addShapeProperty, objectAt_eq hobject, ok_bind, shapeAt_eq hshape,
    ite_bind_eq hfirst]
  simp only [bind, Except.bind]
  by_cases hroom : sh.propSize ≤ sh.prop.length
  · obtain ⟨second, moved, new, hresize, hsecond, hmoved, hsecondLength,
      ⟨hprop, hlayout, hisHashed, hnewHash, hproto, hcount⟩, hview, hfewer⟩ :=
      hsound.resizeProperties halone rfl (sh.prop.length + 1)
    have hnewLength : new.prop.length = sh.prop.length := by
      rw [← JSShape.length_layout, hlayout, JSShape.length_layout]
    have hnewGood := good_push (hsecond.good hmoved.shape) hatom
      (fun key hkey => habsent key (hlayout ▸ hkey)) (by omega) (by omega) flags
    have hmovedHash : new.isHashed = true → shapePropertyHash sh.hash atom flags =
        layoutHash new.proto (new.layout ++ [(atom, flags)]) := fun hhashed => by
      rw [hhash (hisHashed ▸ hhashed), hproto, hlayout]
    obtain ⟨next, hpush, hnext, hlength, hself, hothers, hkept, hown⟩ :=
      hsecond.pushProperty hmoved rfl hnewGood hatom (by omega) hmovedHash value
    simp only [bind, Except.bind] at hpush
    refine ⟨next, moved.shape, ?_, hnext, hlength.trans (hsecondLength.trans (by rw [hobjects])),
      ?_, fun other hne => ?_, fun q hq x hx => ?_, fun x hx => ?_⟩
    · rw [if_pos hroom, hresize]
      simp only [objectAt_eq hmoved.object, shapeAt_eq hmoved.shape]
      exact hpush
    · rw [hself, hproto, hlayout, hprop]
    · rw [hothers other hne, hview other hne, hviews]
    · rw [← hsignature]
      exact hfewer q x hq (hkept q hq x hx)
    · obtain ⟨hhashed, hx⟩ := hown x hx
      exact ⟨hisHashed ▸ hhashed, by rw [hx, hproto, hlayout]⟩
  · have hnewGood := good_push hgood hatom habsent (Nat.lt_of_not_le hroom) hsmall flags
    obtain ⟨next, hpush, hnext, hlength, hself, hothers, hkept, hown⟩ :=
      hsound.pushProperty halone rfl hnewGood hatom (Nat.lt_of_not_le hroom) hhash value
    simp only [bind, Except.bind, pure, Except.pure, shapeAt_eq halone.shape] at hpush
    refine ⟨next, p.shape, ?_, hnext, hlength.trans (by rw [hobjects]), hself,
      fun other hne => ?_, fun q hq x hx => ⟨hq, ?_⟩, hown⟩
    · rw [if_neg hroom]
      simp only [pure, Except.pure, objectAt_eq halone.object, shapeAt_eq halone.shape]
      exact hpush
    · rw [hothers other hne, hviews]
    · rw [← hsignature]
      exact hkept q hq x hx

end Sound

end ShapeRuntime

end QuickjsBackend
