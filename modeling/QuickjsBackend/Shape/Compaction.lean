import QuickjsBackend.Shape.Lookup

/-! # Compaction

A deleted property keeps its place until there are too many of them: at least eight, and
half of all. Whatever else an operation does, it leaves fewer.
-/

namespace QuickjsBackend

open Foundation

/-- What `delete_property` leaves when it does not compact. -/
def JSShape.Thrifty (sh : JSShape) : Prop :=
  sh.deletedPropCount < 8 ∨ sh.deletedPropCount < sh.prop.length / 2

theorem JSShape.Thrifty.congr {sh new : JSShape} (hsh : sh.Thrifty)
    (hdeleted : new.deletedPropCount = sh.deletedPropCount) (hprop : new.prop = sh.prop) :
    new.Thrifty := by
  rwa [JSShape.Thrifty, hdeleted, hprop]

theorem JSShape.Thrifty.push {sh : JSShape} (hsh : sh.Thrifty) (pr : JSShapeProperty) :
    (sh.push pr).Thrifty := by
  rw [JSShape.Thrifty, JSShape.length_push]
  exact hsh.imp_right fun hless => Nat.lt_of_lt_of_le hless (Nat.div_le_div_right (Nat.le_succ _))

theorem JSShape.Thrifty.rehash {sh : JSShape} (hsh : sh.Thrifty) (size : Nat) :
    (sh.rehash size false).Thrifty := by
  have hlength : (sh.rehash size false).prop.length = sh.prop.length := by
    rw [← JSShape.length_layout, JSShape.layout_rehash, ← JSShape.length_layout]
    simp
  obtain ⟨-, -, -, hdeleted, -⟩ := sh.rehash_fields size false
  rwa [JSShape.Thrifty, hlength, hdeleted]

namespace ShapeRuntime

def Thrifty (rt : ShapeRuntime) : Prop :=
  ∀ ptr sh, rt.shapes.getD ptr none = some sh → sh.Thrifty

variable {rt next : ShapeRuntime} {obj ptr : Ptr} {p : ShapedObject} {sh new : JSShape}
  {atom : JSAtom} {flags : BitVec 6} {value : PropertySlot} {proto : Option Ptr}

theorem shapeAt_ok (hshape : rt.shapeAt ptr = .ok sh) : rt.shapes.getD ptr none = some sh := by
  rw [shapeAt] at hshape
  split at hshape
  · rename_i found hfound
    rw [hfound, Except.ok.inj hshape]
  · cases hshape

theorem objectAt_ok (hobject : rt.objectAt obj = .ok p) : rt.objects.getD obj none = some p := by
  rw [objectAt] at hobject
  split at hobject
  · rename_i found hfound
    rw [hfound, Except.ok.inj hobject]
  · cases hobject

theorem jsShapeHashLink_shapes (hlink : rt.jsShapeHashLink ptr = .ok next) :
    next.shapes = rt.shapes := by
  obtain ⟨sh, -, hnext⟩ := bind_eq_ok.mp hlink
  rw [← Except.ok.inj hnext]

theorem jsShapeHashUnlink_shapes (hunlink : rt.jsShapeHashUnlink ptr = .ok next) :
    next.shapes = rt.shapes := by
  obtain ⟨sh, -, hnext⟩ := bind_eq_ok.mp hunlink
  dsimp only at hnext
  split at hnext
  · rw [← Except.ok.inj hnext]
  · cases hnext

/-- Taking a shape out of the table first, if it is there, changes no shape. -/
theorem unlinkIfHashed_shapes {c : Prop} [Decidable c]
    (hunlink : (if c then rt.jsShapeHashUnlink ptr else pure rt) = .ok next) :
    next.shapes = rt.shapes := by
  split at hunlink
  · exact jsShapeHashUnlink_shapes hunlink
  · rw [← Except.ok.inj hunlink]

theorem resizeShapeHash_shapes {bits : Nat} (hresize : rt.resizeShapeHash bits = .ok next) :
    next.shapes = rt.shapes := by
  obtain ⟨table, -, hnext⟩ := bind_eq_ok.mp hresize
  rw [← Except.ok.inj hnext]

theorem appendValue_shapes (happend : rt.appendValue obj p value = .ok next) :
    next.shapes = rt.shapes := by
  rw [appendValue] at happend
  split at happend
  · rw [← Except.ok.inj happend]
    rfl
  · cases happend

namespace Thrifty

theorem congr (hrt : rt.Thrifty) (hshapes : next.shapes = rt.shapes) : next.Thrifty := by
  rwa [Thrifty, hshapes]

theorem setShape (hrt : rt.Thrifty) (hsh : sh.Thrifty) : (rt.setShape ptr sh).Thrifty := by
  intro q found hfound
  rcases getD_set_cases hfound with ⟨-, hentry⟩ | hold
  · exact Option.some.inj hentry ▸ hsh
  · exact hrt q found hold

theorem freed (hrt : rt.Thrifty) : Thrifty { rt with shapes := rt.shapes.set ptr none } := by
  intro q found hfound
  rcases getD_set_cases hfound with ⟨-, hentry⟩ | hold
  · cases hentry
  · exact hrt q found hold

theorem allocate (hrt : rt.Thrifty) (hsh : sh.Thrifty) :
    Thrifty { rt with shapes := rt.shapes ++ [some sh] } := by
  intro q found hfound
  rcases getD_concat_cases hfound with ⟨-, hentry⟩ | hold
  · exact Option.some.inj hentry ▸ hsh
  · exact hrt q found hold

/-- The shape that was moved may have been anything. -/
theorem moveShape (hrt : ∀ q ≠ p.shape, ∀ sh, rt.shapes.getD q none = some sh → sh.Thrifty)
    (hnew : new.Thrifty) : (rt.moveShape obj p new).Thrifty := by
  intro q found hfound
  rcases getD_concat_cases hfound with ⟨-, hentry⟩ | hold
  · exact Option.some.inj hentry ▸ hnew
  · rw [getD_set_none] at hold
    split at hold
    · cases hold
    · exact hrt q ‹_› found hold

theorem jsNewShape (hrt : rt.Thrifty) (hnew : rt.jsNewShape proto = .ok (ptr, next)) :
    next.Thrifty := by
  obtain ⟨middle, hmiddle, hallocated⟩ := ite_bind_eq_ok.mp hnew
  have hshapes : middle.shapes = rt.shapes := by
    split at hmiddle
    · exact resizeShapeHash_shapes hmiddle
    · rw [← Except.ok.inj hmiddle]
  obtain ⟨linked, hlink, hnext⟩ := bind_eq_ok.mp hallocated
  cases hnext
  exact ((hrt.congr hshapes).allocate (.inl (Nat.zero_lt_succ 7))).congr
    (jsShapeHashLink_shapes hlink)

theorem jsCloneShape (hrt : rt.Thrifty) {clone : Ptr}
    (hclone : rt.jsCloneShape ptr = .ok (clone, next)) : next.Thrifty := by
  obtain ⟨sh, hshape, hnext⟩ := bind_eq_ok.mp hclone
  have hsh : sh.Thrifty := hrt ptr sh (shapeAt_ok hshape)
  cases hnext
  exact hrt.allocate hsh

theorem jsDupShape (hrt : rt.Thrifty) (hdup : rt.jsDupShape ptr = .ok next) : next.Thrifty := by
  obtain ⟨sh, hshape, hnext⟩ := bind_eq_ok.mp hdup
  have hsh : sh.Thrifty := hrt ptr sh (shapeAt_ok hshape)
  cases hnext
  exact hrt.setShape hsh

theorem jsFreeShape (hrt : rt.Thrifty) (hfree : rt.jsFreeShape ptr = .ok next) :
    next.Thrifty := by
  obtain ⟨sh, hshape, hnext⟩ := bind_eq_ok.mp hfree
  have hsh : sh.Thrifty := hrt ptr sh (shapeAt_ok hshape)
  dsimp only at hnext
  split at hnext
  · obtain ⟨middle, hmiddle, hnext⟩ := ite_bind_eq_ok.mp hnext
    cases hnext
    exact (hrt.congr (unlinkIfHashed_shapes hmiddle)).freed
  · cases hnext
    exact hrt.setShape hsh

theorem resizeProperties (hrt : rt.Thrifty) {count : Nat}
    (hresize : rt.resizeProperties obj count = .ok next) : next.Thrifty := by
  obtain ⟨p, -, hresize⟩ := bind_eq_ok.mp hresize
  obtain ⟨sh, hshape, hnext⟩ := bind_eq_ok.mp hresize
  have hsh : sh.Thrifty := hrt p.shape sh (shapeAt_ok hshape)
  cases hnext
  refine moveShape (fun q _ => hrt q) ?_
  split
  · exact hsh.rehash _
  · exact hsh

/-- After compacting nothing deleted is left. -/
theorem compactProperties (hobject : rt.objects.getD obj none = some p)
    (hrt : ∀ q ≠ p.shape, ∀ sh, rt.shapes.getD q none = some sh → sh.Thrifty)
    (hcompact : rt.compactProperties obj = .ok next) : next.Thrifty := by
  simp only [ShapeRuntime.compactProperties, objectAt_eq hobject, ok_bind] at hcompact
  obtain ⟨sh, -, hnext⟩ := bind_eq_ok.mp hcompact
  split at hnext
  · cases hnext
  · cases hnext
    exact moveShape hrt (.inl (Nat.zero_lt_succ 7))

theorem addShapeProperty (hrt : rt.Thrifty)
    (hadd : rt.addShapeProperty obj atom flags value = .ok next) : next.Thrifty := by
  obtain ⟨p, -, hadd⟩ := bind_eq_ok.mp hadd
  obtain ⟨sh, hshape, hadd⟩ := bind_eq_ok.mp hadd
  obtain ⟨unlinked, hunlink, hadd⟩ := ite_bind_eq_ok.mp hadd
  have hunlinked := hrt.congr (unlinkIfHashed_shapes hunlink)
  obtain ⟨resized, hresize, hadd⟩ := ite_bind_eq_ok.mp hadd
  have hresized : resized.Thrifty := by
    split at hresize
    · exact hunlinked.resizeProperties hresize
    · exact hunlinked.congr (by rw [← Except.ok.inj hresize])
  obtain ⟨moved, -, hadd⟩ := bind_eq_ok.mp hadd
  obtain ⟨new, hnew, hadd⟩ := bind_eq_ok.mp hadd
  have hnewThrifty : JSShape.Thrifty { new with hash := shapePropertyHash sh.hash atom flags } :=
    JSShape.Thrifty.congr (hresized moved.shape new (shapeAt_ok hnew)) rfl rfl
  obtain ⟨linked, hlink, hadd⟩ := ite_bind_eq_ok.mp hadd
  have hlinked : linked.Thrifty := by
    split at hlink
    · exact (hresized.setShape hnewThrifty).congr (jsShapeHashLink_shapes hlink)
    · exact hresized.congr (by rw [← Except.ok.inj hlink])
  obtain ⟨final, hfinal, hadd⟩ := bind_eq_ok.mp hadd
  have hfinalThrifty : final.Thrifty := hlinked moved.shape final (shapeAt_ok hfinal)
  exact (hlinked.setShape (hfinalThrifty.push _)).congr (appendValue_shapes hadd)

theorem newObject (hrt : rt.Thrifty) (hnew : rt.newObject proto = .ok next) : next.Thrifty := by
  obtain ⟨found, -, hnew⟩ := bind_eq_ok.mp hnew
  cases found with
  | some shape =>
      obtain ⟨duped, hdup, hnew⟩ := bind_eq_ok.mp hnew
      obtain ⟨sh, -, hnext⟩ := bind_eq_ok.mp hnew
      cases hnext
      exact (hrt.jsDupShape hdup).congr rfl
  | none =>
      obtain ⟨⟨shape, made⟩, hmade, hnew⟩ := bind_eq_ok.mp hnew
      obtain ⟨sh, -, hnext⟩ := bind_eq_ok.mp hnew
      cases hnext
      exact (hrt.jsNewShape hmade).congr rfl

theorem addProperty (hrt : rt.Thrifty) (hadd : rt.addProperty obj atom flags value = .ok next) :
    next.Thrifty := by
  obtain ⟨p, -, hadd⟩ := bind_eq_ok.mp hadd
  obtain ⟨sh, hshape, hadd⟩ := bind_eq_ok.mp hadd
  dsimp only at hadd
  split at hadd
  · obtain ⟨found, -, hadd⟩ := bind_eq_ok.mp hadd
    cases found with
    | some newSh =>
        obtain ⟨new, -, hadd⟩ := bind_eq_ok.mp hadd
        obtain ⟨duped, hdup, hadd⟩ := bind_eq_ok.mp hadd
        obtain ⟨given, hgive, hfree⟩ := bind_eq_ok.mp hadd
        exact ((hrt.jsDupShape hdup).congr (appendValue_shapes hgive)).jsFreeShape hfree
    | none =>
        dsimp only at hadd
        split at hadd
        · obtain ⟨⟨newSh, cloned⟩, hclone, hadd⟩ := bind_eq_ok.mp hadd
          obtain ⟨new, hnew, hadd⟩ := bind_eq_ok.mp hadd
          obtain ⟨linked, hlink, hadd⟩ := bind_eq_ok.mp hadd
          obtain ⟨freed, hfree, hadd⟩ := bind_eq_ok.mp hadd
          have hcloned := hrt.jsCloneShape hclone
          have hnewThrifty : JSShape.Thrifty { new with isHashed := true } :=
            hcloned newSh new (shapeAt_ok hnew)
          have hlinked := (hcloned.setShape hnewThrifty).congr (jsShapeHashLink_shapes hlink)
          have hfreed := hlinked.jsFreeShape hfree
          have hgiven : Thrifty (freed.setObject obj { p with shape := newSh }) := hfreed.congr rfl
          exact hgiven.addShapeProperty hadd
        · exact hrt.addShapeProperty hadd
  · split at hadd
    · cases hadd
    · exact hrt.addShapeProperty hadd

theorem jsShapePrepareUpdate (hrt : rt.Thrifty)
    (hprepare : rt.jsShapePrepareUpdate obj = .ok next) : next.Thrifty := by
  obtain ⟨p, -, hprepare⟩ := bind_eq_ok.mp hprepare
  obtain ⟨sh, hshape, hprepare⟩ := bind_eq_ok.mp hprepare
  have hsh : sh.Thrifty := hrt p.shape sh (shapeAt_ok hshape)
  dsimp only at hprepare
  split at hprepare
  · split at hprepare
    · obtain ⟨⟨clone, cloned⟩, hclone, hprepare⟩ := bind_eq_ok.mp hprepare
      obtain ⟨freed, hfree, hnext⟩ := bind_eq_ok.mp hprepare
      cases hnext
      exact ((hrt.jsCloneShape hclone).jsFreeShape hfree).congr rfl
    · obtain ⟨unlinked, hunlink, hnext⟩ := bind_eq_ok.mp hprepare
      cases hnext
      exact (hrt.congr (jsShapeHashUnlink_shapes hunlink)).setShape hsh
  · cases hprepare
    exact hrt

theorem jsUpdatePropertyFlags (hrt : rt.Thrifty) {i : Nat}
    (hupdate : rt.jsUpdatePropertyFlags obj i flags = .ok next) : next.Thrifty := by
  obtain ⟨p, -, hupdate⟩ := bind_eq_ok.mp hupdate
  obtain ⟨sh, -, hupdate⟩ := bind_eq_ok.mp hupdate
  split at hupdate
  · obtain ⟨middle, hprepare, hupdate⟩ := bind_eq_ok.mp hupdate
    obtain ⟨moved, -, hupdate⟩ := bind_eq_ok.mp hupdate
    obtain ⟨own, hown, hnext⟩ := bind_eq_ok.mp hupdate
    have hmiddle := hrt.jsShapePrepareUpdate hprepare
    have howned := hmiddle moved.shape own (shapeAt_ok hown)
    cases hnext
    refine hmiddle.setShape ?_
    simpa [JSShape.Thrifty, JSShape.setFlags] using howned
  · cases hupdate
    exact hrt

theorem defineProperty (hrt : rt.Thrifty)
    (hdefine : rt.defineProperty obj atom flags value = .ok next) : next.Thrifty := by
  obtain ⟨p, -, hdefine⟩ := bind_eq_ok.mp hdefine
  obtain ⟨sh, -, hdefine⟩ := bind_eq_ok.mp hdefine
  split at hdefine
  · cases hdefine
  · exact hrt.addProperty hdefine
  · obtain ⟨middle, hupdate, hdefine⟩ := bind_eq_ok.mp hdefine
    obtain ⟨moved, -, hnext⟩ := bind_eq_ok.mp hdefine
    cases hnext
    exact (hrt.jsUpdatePropertyFlags hupdate).congr rfl

theorem setPrototype (hrt : rt.Thrifty) (hset : rt.setPrototype obj proto = .ok next) :
    next.Thrifty := by
  obtain ⟨p, -, hset⟩ := bind_eq_ok.mp hset
  obtain ⟨sh, -, hset⟩ := bind_eq_ok.mp hset
  split at hset
  · cases hset
    exact hrt
  · obtain ⟨middle, hprepare, hset⟩ := bind_eq_ok.mp hset
    obtain ⟨moved, -, hset⟩ := bind_eq_ok.mp hset
    obtain ⟨own, hown, hnext⟩ := bind_eq_ok.mp hset
    have hmiddle := hrt.jsShapePrepareUpdate hprepare
    have howned : own.Thrifty := hmiddle moved.shape own (shapeAt_ok hown)
    cases hnext
    exact hmiddle.setShape howned

theorem deleteProperty (hrt : rt.Thrifty) (hdelete : rt.deleteProperty obj atom = .ok next) :
    next.Thrifty := by
  obtain ⟨p, -, hdelete⟩ := bind_eq_ok.mp hdelete
  obtain ⟨sh, -, hdelete⟩ := bind_eq_ok.mp hdelete
  dsimp only at hdelete
  split at hdelete
  · cases hdelete
  · cases hdelete
    exact hrt
  · rename_i lpr i _
    split at hdelete
    · cases hdelete
      exact hrt
    · obtain ⟨middle, hprepare, hdelete⟩ := bind_eq_ok.mp hdelete
      obtain ⟨moved, hmoved, hdelete⟩ := bind_eq_ok.mp hdelete
      obtain ⟨own, hown, hdelete⟩ := bind_eq_ok.mp hdelete
      have hmiddle := hrt.jsShapePrepareUpdate hprepare
      split at hdelete
      · have hobject : ((middle.setShape moved.shape (own.removeProperty lpr i)).setObject obj
            ⟨moved.shape, moved.prop.set i (.value .undefined), moved.propSize⟩).objects.getD obj
              none = some ⟨moved.shape, moved.prop.set i (.value .undefined), moved.propSize⟩ :=
          getD_set_self (lt_length_of_getD (objectAt_ok hmoved))
        refine compactProperties hobject (fun q hq found hfound => hmiddle q found ?_) hdelete
        rw [← hfound]
        exact (getD_set_of_ne (Ne.symm hq)).symm
      · rename_i hfew
        cases hdelete
        refine (hmiddle.setShape ?_).congr rfl
        rw [JSShape.Thrifty]
        omega

theorem freeObject (hrt : rt.Thrifty) (hfree : rt.freeObject obj = .ok next) : next.Thrifty := by
  obtain ⟨p, -, hfree⟩ := bind_eq_ok.mp hfree
  have htaken : Thrifty { rt with objects := rt.objects.set obj none } := hrt.congr rfl
  exact htaken.jsFreeShape hfree

theorem step (hrt : rt.Thrifty) {action : ShapeAction}
    (hstep : ShapeRuntime.step rt action = .ok next) : next.Thrifty := by
  cases action with
  | newObject proto => exact hrt.newObject hstep
  | defineProperty obj atom flags value => exact hrt.defineProperty hstep
  | deleteProperty obj atom => exact hrt.deleteProperty hstep
  | setPrototype obj proto => exact hrt.setPrototype hstep
  | freeObject obj => exact hrt.freeObject hstep

/-- What is deleted takes less room than seven properties or than half of all. -/
theorem length_prop (hrt : rt.Thrifty) (hsound : rt.Sound [] none)
    (hobject : rt.objects.getD obj none = some p)
    {entries : List (JSAtom × BitVec 6 × PropertySlot)}
    (hview : rt.viewOf obj = some (proto, entries)) :
    p.prop.length < entries.length + 8 ∨ p.prop.length ≤ 2 * entries.length := by
  obtain ⟨sh, hshape, hlength, -⟩ := hsound.owner hobject
  rw [viewOf_eq hobject hshape, Option.some.injEq, Prod.mk.injEq] at hview
  have hnames := congrArg List.length
    (JSShape.map_fst_entriesOf (hlength.trans (JSShape.length_layout sh).symm))
  rw [List.length_map, List.length_map, hview.2, ← List.countP_eq_length_filter] at hnames
  have hcount := List.length_eq_countP_add_countP (fun key => key.1 == atomNull)
    (l := sh.layout)
  rw [JSShape.length_layout, ← (hsound.good hshape).deleted] at hcount
  have hlive : sh.layout.countP (fun key => ¬(key.1 == atomNull) = true) = entries.length := by
    rw [hnames]
    exact List.countP_congr fun key _ => by simp
  have hfew : sh.deletedPropCount < 8 ∨ sh.deletedPropCount < sh.prop.length / 2 :=
    hrt p.shape sh hshape
  rw [hlive] at hcount
  rcases hfew with hfew | hfew
  · left
    omega
  · right
    omega

end Thrifty

end ShapeRuntime

end QuickjsBackend
