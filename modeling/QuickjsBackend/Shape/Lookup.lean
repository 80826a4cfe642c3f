import Mathlib.Data.List.Lattice
import QuickjsBackend.Shape.Update

/-! # Finding shapes

A shape that has the wanted prototype and properties is found in the table whenever there
is one, so that there is never a second.
-/

namespace QuickjsBackend

open Foundation

namespace ShapeRuntime

/-- No two hashed shapes have the same prototype and the same properties. -/
def Canonical (rt : ShapeRuntime) : Prop :=
  ∀ q r x, rt.signature q = some x → rt.signature r = some x → q = r

variable {rt next : ShapeRuntime} {held : List Ptr} {obj other ptr : Ptr}
  {p written : ShapedObject} {sh new : JSShape} {atom : JSAtom} {flags : BitVec 6}
  {value : PropertySlot} {proto : Option Ptr}

theorem Fewer.canonical (hfewer : next.Fewer rt) (hrt : rt.Canonical) : next.Canonical :=
  fun q r x hq hr => hrt q r x (hfewer q x hq) (hfewer r x hr)

theorem viewOf_recount (hshape : rt.shapes.getD ptr none = some sh) (n : Nat) (obj : Ptr) :
    (rt.setShape ptr { sh with refCount := n }).viewOf obj = rt.viewOf obj := by
  refine viewOf_congr rfl fun q _ => ?_
  rw [Sound.getD_setShape hshape]
  split
  · rename_i heq
    rw [heq, hshape]
    rfl
  · rfl

theorem fewer_recount (hshape : rt.shapes.getD ptr none = some sh) (n : Nat) :
    (rt.setShape ptr { sh with refCount := n }).Fewer rt := by
  intro q x hq
  rw [signature, Sound.getD_setShape hshape] at hq
  split at hq
  · rename_i heq
    rw [heq, signature_eq hshape]
    exact hq
  · exact hq

/-- One shape is new or has changed, to what no shape was before. -/
theorem Canonical.add (hrt : rt.Canonical) (own : Ptr)
    (x : Option Ptr × List (JSAtom × BitVec 6))
    (hkept : ∀ q ≠ own, ∀ y, next.signature q = some y → rt.signature q = some y)
    (hown : ∀ y, next.signature own = some y → y = x)
    (hnew : ∀ q, rt.signature q ≠ some x) : next.Canonical := by
  intro q r y hq hr
  by_cases hqOwn : q = own
  · by_cases hrOwn : r = own
    · rw [hqOwn, hrOwn]
    · rw [hqOwn] at hq
      exact absurd (hown y hq ▸ hkept r hrOwn y hr) (hnew r)
  · by_cases hrOwn : r = own
    · rw [hrOwn] at hr
      exact absurd (hown y hr ▸ hkept q hqOwn y hq) (hnew q)
    · exact hrt q r y (hkept q hqOwn y hq) (hkept r hrOwn y hr)

theorem signature_some {x : Option Ptr × List (JSAtom × BitVec 6)} :
    rt.signature ptr = some x ↔ ∃ sh, rt.shapes.getD ptr none = some sh ∧ sh.isHashed = true ∧
      (sh.proto, sh.layout) = x := by
  rw [signature, Option.bind_eq_some_iff]
  refine exists_congr fun sh => and_congr_right fun _ => ?_
  by_cases hhashed : sh.isHashed = true <;> simp [hhashed]

theorem findShape_spec (test : JSShape → Bool) (ptrs : List Ptr)
    (halive : ∀ q ∈ ptrs, ∃ sh, rt.shapes.getD q none = some sh) :
    ∃ result, rt.findShape test ptrs = .ok result ∧
      (∀ q, result = some q → q ∈ ptrs ∧ ∃ sh, rt.shapes.getD q none = some sh ∧ test sh = true) ∧
      (result = none → ∀ q ∈ ptrs, ∀ sh, rt.shapes.getD q none = some sh → test sh = false) := by
  induction ptrs with
  | nil => exact ⟨none, rfl, nofun, nofun⟩
  | cons first rest ih =>
      obtain ⟨sh, hsh⟩ := halive first List.mem_cons_self
      obtain ⟨result, hresult, hsome, hnone⟩ :=
        ih fun q hq => halive q (List.mem_cons_of_mem _ hq)
      have hstep : rt.findShape test (first :: rest) =
          if test sh = true then .ok (some first) else rt.findShape test rest := by
        simp only [findShape, shapeAt_eq hsh, ok_bind]
        rfl
      by_cases htest : test sh = true
      · refine ⟨some first, by rw [hstep, if_pos htest], fun q hq => ?_, nofun⟩
        rw [Option.some.injEq] at hq
        subst q
        exact ⟨List.mem_cons_self, sh, hsh, htest⟩
      · refine ⟨result, by rw [hstep, if_neg htest, hresult], fun q hq => ?_, fun hq q hmem => ?_⟩
        · exact ⟨List.mem_cons_of_mem _ (hsome q hq).1, (hsome q hq).2⟩
        · rcases List.mem_cons.mp hmem with rfl | hmem
          · intro found hfound
            rw [hsh, Option.some.injEq] at hfound
            exact hfound ▸ Bool.eq_false_of_not_eq_true htest
          · exact hnone hq q hmem

namespace Sound

/-- The walk along the bucket of a hash finds the shapes that have it. -/
theorem find (hrt : rt.Sound held none) (test : JSShape → Bool) (h : BitVec 32) :
    ∃ result, rt.findShape test (rt.shapeHash.getD (getShapeHash h rt.shapeHashBits) []) =
        .ok result ∧
      (∀ q, result = some q → ∃ sh, rt.shapes.getD q none = some sh ∧ sh.isHashed = true ∧
        test sh = true) ∧
      (result = none → ∀ q sh, rt.shapes.getD q none = some sh → sh.isHashed = true →
        layoutHash sh.proto sh.layout = h → test sh = false) := by
  obtain ⟨result, hresult, hsome, hnone⟩ := findShape_spec test
    (rt.shapeHash.getD (getShapeHash h rt.shapeHashBits) []) fun q hq => by
      obtain ⟨sh, hsh, -⟩ := (hrt.table _ q).mp hq
      exact ⟨sh, hsh⟩
  refine ⟨result, hresult, fun q hq => ?_, fun hq q sh hsh hhashed hhash => ?_⟩
  · obtain ⟨hmem, sh, hsh, htest⟩ := hsome q hq
    obtain ⟨found, hfound, hhashed, -⟩ := (hrt.table _ q).mp hmem
    rw [hsh, Option.some.injEq] at hfound
    exact ⟨sh, hsh, hfound ▸ hhashed, htest⟩
  · refine hnone hq q ((hrt.table _ q).mpr ⟨sh, hsh, hhashed, by simp, ?_⟩) sh hsh
    rw [hrt.hashed hsh hhashed (by simp), hhash]

theorem findHashedShapeProto_spec (hrt : rt.Sound held none) (proto : Option Ptr) :
    ∃ result, rt.findHashedShapeProto proto = .ok result ∧
      (∀ q, result = some q → ∃ sh, rt.shapes.getD q none = some sh ∧ sh.isHashed = true ∧
        sh.proto = proto ∧ sh.prop.length = 0) ∧
      (result = none → ∀ q, rt.signature q ≠ some (proto, [])) := by
  obtain ⟨result, hresult, hsome, hnone⟩ := hrt.find (fun sh1 =>
    sh1.hash = shapeInitialHash proto ∧ sh1.proto = proto ∧ sh1.prop.length = 0)
    (shapeInitialHash proto)
  refine ⟨result, hresult, fun q hq => ?_, fun hq q hsignature => ?_⟩
  · obtain ⟨sh, hsh, hhashed, htest⟩ := hsome q hq
    simp only [decide_eq_true_eq] at htest
    exact ⟨sh, hsh, hhashed, htest.2⟩
  · obtain ⟨sh, hsh, hhashed, hx⟩ := signature_some.mp hsignature
    rw [Prod.mk.injEq] at hx
    have hlayoutHash : layoutHash sh.proto sh.layout = shapeInitialHash proto := by
      rw [hx.1, hx.2]
      rfl
    have hmiss := hnone hq q sh hsh hhashed hlayoutHash
    have hempty : sh.prop.length = 0 := by rw [← JSShape.length_layout, hx.2]; rfl
    rw [decide_eq_false_iff_not] at hmiss
    exact hmiss ⟨(hrt.hashed hsh hhashed (by simp)).trans hlayoutHash, hx.1, hempty⟩

theorem findHashedShapeProp_spec (hrt : rt.Sound held none)
    (hshape : rt.shapes.getD ptr none = some sh) (hhashed : sh.isHashed = true) (atom : JSAtom)
    (flags : BitVec 6) :
    ∃ result, rt.findHashedShapeProp sh atom flags = .ok result ∧
      (∀ q, result = some q → ∃ new, rt.shapes.getD q none = some new ∧ new.isHashed = true ∧
        new.proto = sh.proto ∧ new.layout = sh.layout ++ [(atom, flags)]) ∧
      (result = none → ∀ q, rt.signature q ≠ some (sh.proto, sh.layout ++ [(atom, flags)])) := by
  have hhash : shapePropertyHash sh.hash atom flags =
      layoutHash sh.proto (sh.layout ++ [(atom, flags)]) := by
    rw [layoutHash_concat, hrt.hashed hshape hhashed (by simp)]
  obtain ⟨result, hresult, hsome, hnone⟩ := hrt.find (fun sh1 =>
    sh1.hash = shapePropertyHash sh.hash atom flags ∧ sh1.proto = sh.proto ∧
      sh1.prop.map JSShapeProperty.key = sh.prop.map JSShapeProperty.key ++ [(atom, flags)])
    (shapePropertyHash sh.hash atom flags)
  refine ⟨result, hresult, fun q hq => ?_, fun hq q hsignature => ?_⟩
  · obtain ⟨new, hnew, hnewHashed, htest⟩ := hsome q hq
    simp only [decide_eq_true_eq] at htest
    exact ⟨new, hnew, hnewHashed, htest.2⟩
  · obtain ⟨new, hnew, hnewHashed, hx⟩ := signature_some.mp hsignature
    rw [Prod.mk.injEq] at hx
    have hlayoutHash : layoutHash new.proto new.layout = shapePropertyHash sh.hash atom flags := by
      rw [hx.1, hx.2, hhash]
    have hmiss := hnone hq q new hnew hnewHashed hlayoutHash
    rw [decide_eq_false_iff_not] at hmiss
    exact hmiss ⟨(hrt.hashed hnew hnewHashed (by simp)).trans hlayoutHash, hx⟩

/-- Shapes are put into the buckets of their hashes. -/
theorem relink_spec (newBits : Nat) (ptrs : List Ptr) (table : List (List Ptr))
    (halive : ∀ q ∈ ptrs, ∃ sh, rt.shapes.getD q none = some sh) (hptrs : ptrs.Nodup)
    (hlength : table.length = 2 ^ newBits) (hnodup : ∀ bucket, (table.getD bucket []).Nodup)
    (hapart : ∀ q ∈ ptrs, ∀ bucket, q ∉ table.getD bucket []) :
    ∃ result, rt.relink newBits table ptrs = .ok result ∧ result.length = 2 ^ newBits ∧
      (∀ bucket, (result.getD bucket []).Nodup) ∧
      ∀ bucket q, q ∈ result.getD bucket [] ↔ q ∈ table.getD bucket [] ∨ q ∈ ptrs ∧
        ∃ sh, rt.shapes.getD q none = some sh ∧ getShapeHash sh.hash newBits = bucket := by
  induction ptrs generalizing table with
  | nil => exact ⟨table, rfl, hlength, hnodup, fun bucket q => by simp⟩
  | cons first rest ih =>
      obtain ⟨sh, hsh⟩ := halive first List.mem_cons_self
      have hlt : getShapeHash sh.hash newBits < table.length := hlength ▸ getShapeHash_lt _ _
      obtain ⟨hfirst, hrest⟩ := List.nodup_cons.mp hptrs
      have hset : ∀ bucket, (table.set (getShapeHash sh.hash newBits)
          (first :: table.getD (getShapeHash sh.hash newBits) [])).getD bucket [] =
          if getShapeHash sh.hash newBits = bucket then first :: table.getD bucket []
          else table.getD bucket [] := by
        intro bucket
        split
        · rename_i heq
          rw [← heq, getD_set_self hlt]
        · exact getD_set_of_ne ‹_›
      have hsetNodup : ∀ bucket, ((table.set (getShapeHash sh.hash newBits)
          (first :: table.getD (getShapeHash sh.hash newBits) [])).getD bucket []).Nodup := by
        intro bucket
        rw [hset]
        split
        · exact List.nodup_cons.mpr ⟨hapart first List.mem_cons_self bucket, hnodup bucket⟩
        · exact hnodup bucket
      have hsetApart : ∀ q ∈ rest, ∀ bucket, q ∉ (table.set (getShapeHash sh.hash newBits)
          (first :: table.getD (getShapeHash sh.hash newBits) [])).getD bucket [] := by
        intro q hq bucket hbucket
        rw [hset] at hbucket
        have hold := hapart q (List.mem_cons_of_mem _ hq) bucket
        split at hbucket
        · rcases List.mem_cons.mp hbucket with rfl | hbucket
          · exact hfirst hq
          · exact hold hbucket
        · exact hold hbucket
      obtain ⟨result, hresult, hresultLength, hresultNodup, hmem⟩ := ih _
        (fun q hq => halive q (List.mem_cons_of_mem _ hq)) hrest
        ((List.length_set ..).trans hlength) hsetNodup hsetApart
      refine ⟨result, ?_, hresultLength, hresultNodup, fun bucket q => ?_⟩
      · simp only [relink, shapeAt_eq hsh, ok_bind, hresult]
      · rw [hmem, hset]
        constructor
        · rintro (hold | ⟨hq, hfound⟩)
          · split at hold
            · rcases List.mem_cons.mp hold with rfl | hold
              · exact .inr ⟨List.mem_cons_self, sh, hsh, ‹_›⟩
              · exact .inl hold
            · exact .inl hold
          · exact .inr ⟨List.mem_cons_of_mem _ hq, hfound⟩
        · rintro (hold | ⟨hq, found, hfound, hbucket⟩)
          · left
            split
            · exact List.mem_cons_of_mem _ hold
            · exact hold
          · rcases List.mem_cons.mp hq with rfl | hq
            · rw [hsh, Option.some.injEq] at hfound
              subst found
              rw [if_pos hbucket]
              exact .inl List.mem_cons_self
            · exact .inr ⟨hq, found, hfound, hbucket⟩

theorem mem_flatten_shapeHash (hrt : rt.Sound held none) (q : Ptr) :
    q ∈ rt.shapeHash.flatten ↔
      ∃ sh, rt.shapes.getD q none = some sh ∧ sh.isHashed = true := by
  rw [List.mem_flatten]
  constructor
  · rintro ⟨ptrs, hptrs, hq⟩
    obtain ⟨bucket, hlt, rfl⟩ := List.mem_iff_getElem.mp hptrs
    rw [← List.getD_eq_getElem _ [] hlt] at hq
    obtain ⟨sh, hsh, hhashed, -⟩ := (hrt.table bucket q).mp hq
    exact ⟨sh, hsh, hhashed⟩
  · rintro ⟨sh, hsh, hhashed⟩
    have hq := (hrt.table _ q).mpr ⟨sh, hsh, hhashed, by simp, rfl⟩
    have hlt : getShapeHash sh.hash rt.shapeHashBits < rt.shapeHash.length :=
      hrt.size ▸ getShapeHash_lt _ _
    rw [List.getD_eq_getElem _ _ hlt] at hq
    exact ⟨_, List.getElem_mem hlt, hq⟩

theorem nodup_flatten_shapeHash (hrt : rt.Sound held none) : rt.shapeHash.flatten.Nodup := by
  rw [List.nodup_flatten]
  refine ⟨fun ptrs hptrs => ?_, List.pairwise_iff_getElem.mpr fun i j hi hj hlt q hqi hqj => ?_⟩
  · obtain ⟨bucket, hlt, rfl⟩ := List.mem_iff_getElem.mp hptrs
    rw [← List.getD_eq_getElem _ [] hlt]
    exact hrt.nodup bucket
  · rw [← List.getD_eq_getElem _ [] hi] at hqi
    rw [← List.getD_eq_getElem _ [] hj] at hqj
    obtain ⟨sh, hsh, -, -, hbucket⟩ := (hrt.table i q).mp hqi
    obtain ⟨found, hfound, -, -, hbucket'⟩ := (hrt.table j q).mp hqj
    rw [hsh, Option.some.injEq] at hfound
    subst found
    omega

/-- The table may grow at any time. -/
theorem resizeShapeHash (hrt : rt.Sound held none) (newBits : Nat) :
    ∃ next, rt.resizeShapeHash newBits = .ok next ∧ next.Sound held none ∧
      next.shapes = rt.shapes ∧ next.objects = rt.objects := by
  have hempty : ∀ bucket, (List.replicate (2 ^ newBits) ([] : List Ptr)).getD bucket [] = [] := by
    intro bucket
    rw [List.getD_eq_getElem?_getD, List.getElem?_replicate]
    split <;> rfl
  obtain ⟨result, hresult, hlength, hnodup, hmem⟩ := relink_spec newBits rt.shapeHash.flatten
    (List.replicate (2 ^ newBits) []) (fun q hq => by
      obtain ⟨sh, hsh, -⟩ := (hrt.mem_flatten_shapeHash q).mp hq
      exact ⟨sh, hsh⟩)
    hrt.nodup_flatten_shapeHash List.length_replicate (fun bucket => by rw [hempty]; exact .nil)
    fun q _ bucket hq => by
      rw [hempty] at hq
      cases hq
  refine ⟨{ rt with shapeHash := result, shapeHashBits := newBits }, ?_, ⟨hrt.owner, hrt.good,
    hrt.alive, hrt.counted, hrt.exclusive, hrt.hashed, fun bucket q => ?_, hnodup, hlength⟩, rfl,
    rfl⟩
  · simp only [ShapeRuntime.resizeShapeHash, hresult, ok_bind]
    rfl
  · change q ∈ result.getD bucket [] ↔ _
    rw [hmem, hempty, hrt.mem_flatten_shapeHash]
    constructor
    · rintro (hnil | ⟨⟨sh, hsh, hhashed⟩, found, hfound, hbucket⟩)
      · cases hnil
      · rw [hsh, Option.some.injEq] at hfound
        subst found
        exact ⟨sh, hsh, hhashed, by simp, hbucket⟩
    · rintro ⟨sh, hsh, hhashed, -, hbucket⟩
      exact .inr ⟨⟨sh, hsh, hhashed⟩, sh, hsh, hbucket⟩

/-- The shape of an object without properties. -/
theorem good_empty {sh : JSShape} (hprop : sh.prop = []) (hheads : sh.propHash = List.replicate 4 0)
    (hdeleted : sh.deletedPropCount = 0) : sh.Good := by
  have hlength : sh.prop.length = 0 := by rw [hprop]; rfl
  have hlayout : sh.layout = [] := by rw [JSShape.layout, hprop]; rfl
  refine ⟨⟨?_, by rw [hheads]; decide⟩, by omega, by omega, by rw [hdeleted, hlayout]; rfl,
    by rw [hlayout]; exact .nil⟩
  rw [hlength, hheads]
  exact .empty 4 _ _

theorem jsNewShape_spec (hrt : rt.Sound held none) (proto : Option Ptr) :
    ∃ ptr next sh, rt.jsNewShape proto = .ok (ptr, next) ∧ next.Sound (ptr :: held) none ∧
      next.objects = rt.objects ∧ (∀ obj, next.viewOf obj = rt.viewOf obj) ∧
      next.shapes.getD ptr none = some sh ∧ sh.proto = proto ∧ sh.prop = [] ∧
      ∀ q ≠ ptr, ∀ x, next.signature q = some x → rt.signature q = some x := by
  obtain ⟨first, hfirst, hsound, hshapes, hobjects⟩ : ∃ first,
      (if 2 * (rt.shapeHashCount + 1) > rt.shapeHash.length then
          rt.resizeShapeHash (rt.shapeHashBits + 1)
        else pure rt) = .ok first ∧ first.Sound held none ∧ first.shapes = rt.shapes ∧
      first.objects = rt.objects := by
    split
    · exact hrt.resizeShapeHash _
    · exact ⟨rt, rfl, hrt, rfl, rfl⟩
  obtain ⟨sh, hsh⟩ : ∃ sh : JSShape, sh =
    { refCount := 1
      isHashed := true
      hash := shapeInitialHash proto
      propHash := List.replicate 4 0
      propSize := 2
      deletedPropCount := 0
      proto := proto
      prop := [] } := ⟨_, rfl⟩
  have hgood : sh.Good := good_empty (by rw [hsh]) (by rw [hsh]) (by rw [hsh])
  have hallocated := hsound.allocate hgood (by rw [hsh])
  rw [if_pos (by rw [hsh])] at hallocated
  have hnew : (first.shapes ++ [some sh]).getD first.shapes.length none = some sh :=
    getD_concat_length
  obtain ⟨next, hlink, hnext, hnextShapes, hnextObjects⟩ :=
    hallocated.link hnew (by rw [hsh]) (by rw [hsh]; rfl)
  refine ⟨first.shapes.length, next, sh, ?_, hnext, hnextObjects.trans hobjects, fun obj => ?_,
    by rw [hnextShapes]; exact hnew, by rw [hsh], by rw [hsh], fun q hq x hx => ?_⟩
  · simp only [jsNewShape, ite_bind_eq hfirst, ← hsh, hlink, ok_bind]
    rfl
  · have hview := hsound.viewOf_allocate sh obj
    rw [viewOf, hnextShapes, hnextObjects]
    refine hview.trans ?_
    rw [viewOf, viewOf, hshapes, hobjects]
  · rw [signature, hnextShapes, getD_concat, if_neg hq, hshapes] at hx
    exact hx

/-- An object without properties is made, with the shape that others have or a new one. -/
theorem newObject_spec (hrt : rt.Sound held none) (proto : Option Ptr) :
    ∃ next, rt.newObject proto = .ok next ∧ next.Sound held none ∧
      next.objects.length = rt.objects.length + 1 ∧
      next.viewOf rt.objects.length = some (proto, []) ∧
      (∀ other ≠ rt.objects.length, next.viewOf other = rt.viewOf other) ∧
      (rt.Canonical → next.Canonical) := by
  -- a shape in hand
  obtain ⟨ptr, middle, sh, hmiddle, hsound, hobjects, hview, hshape, hproto, hprop, hcanonical⟩ :
      ∃ (ptr : Ptr) (middle : ShapeRuntime) (sh : JSShape),
      rt.newObject proto = middle.jsNewObjectFromShape ptr ∧
      middle.Sound (ptr :: held) none ∧
      middle.objects = rt.objects ∧ (∀ obj, middle.viewOf obj = rt.viewOf obj) ∧
      middle.shapes.getD ptr none = some sh ∧ sh.proto = proto ∧ sh.prop.length = 0 ∧
      (rt.Canonical → middle.Canonical) := by
    obtain ⟨result, hresult, hsome, hnone⟩ := hrt.findHashedShapeProto_spec proto
    cases result with
    | some ptr =>
        obtain ⟨sh, hsh, hhashed, hproto, hprop⟩ := hsome ptr rfl
        obtain ⟨hdup, hsound⟩ := hrt.dup hsh hhashed
        refine ⟨ptr, _, { sh with refCount := sh.refCount + 1 }, ?_, hsound, rfl,
          viewOf_recount hsh _, by rw [getD_setShape hsh, if_pos rfl], hproto, hprop,
          (fewer_recount hsh _).canonical⟩
        simp only [newObject, hresult, ok_bind, hdup]
    | none =>
        obtain ⟨ptr, middle, sh, hmiddle, hsound, hobjects, hview, hshape, hproto, hprop, hkept⟩ :=
          hrt.jsNewShape_spec proto
        refine ⟨ptr, middle, sh, ?_, hsound, hobjects, hview, hshape, hproto, by rw [hprop]; rfl,
          fun hcanonical => hcanonical.add ptr (proto, []) hkept (fun y hy => ?_) (hnone rfl)⟩
        · simp only [newObject, hresult, ok_bind, hmiddle]
        · obtain ⟨found, hfound, -, hy⟩ := signature_some.mp hy
          rw [hshape, Option.some.injEq] at hfound
          rw [← hy, ← hfound, hproto, JSShape.layout, hprop]
          rfl
  have hlast : (middle.objects ++ [some (⟨ptr, [], sh.propSize⟩ : ShapedObject)]).getD
      rt.objects.length none = some ⟨ptr, [], sh.propSize⟩ := by
    rw [← hobjects]
    exact getD_concat_length
  refine ⟨{ middle with objects := middle.objects ++ [some ⟨ptr, [], sh.propSize⟩] }, ?_,
    hsound.found hshape hprop, by simp [hobjects], ?_, fun other hne => ?_, hcanonical⟩
  · rw [hmiddle, jsNewObjectFromShape, shapeAt_eq hshape]
    rfl
  · have hself : (⟨middle.shapes, middle.objects ++ [some ⟨ptr, [], sh.propSize⟩],
        middle.shapeHash, middle.shapeHashBits, middle.shapeHashCount⟩ :
        ShapeRuntime).viewOf rt.objects.length = some (sh.proto, entriesOf sh.layout []) :=
      viewOf_eq (p := ⟨ptr, [], sh.propSize⟩) hlast hshape
    rw [hself, hproto]
    have hlayout : sh.layout = [] := by
      rw [← List.length_eq_zero_iff, JSShape.length_layout, hprop]
    rw [hlayout]
    rfl
  · rw [← hview other]
    refine viewOf_congr ?_ fun q _ => rfl
    change (middle.objects ++ [_]).getD other none = _
    rw [getD_concat, if_neg (hobjects ▸ hne)]

/-- The clone that gets the new property goes into the table for a moment. -/
theorem cloneHashed (hrt : rt.Sound held none) (hobject : rt.objects.getD obj none = some p)
    (hshape : rt.shapes.getD p.shape none = some sh) (hhashed : sh.isHashed = true) :
    ∃ linked freed, (({ rt with shapes := rt.shapes ++
          [some { sh with refCount := 1, isHashed := false }] } : ShapeRuntime).setShape
        rt.shapes.length { sh with refCount := 1, isHashed := true }).jsShapeHashLink
          rt.shapes.length = .ok linked ∧
      linked.jsFreeShape p.shape = .ok freed ∧
      (freed.setObject obj { p with shape := rt.shapes.length }).Sound held none ∧
      (freed.setObject obj { p with shape := rt.shapes.length }).Alone obj
        { p with shape := rt.shapes.length } { sh with refCount := 1, isHashed := true } ∧
      (freed.setObject obj { p with shape := rt.shapes.length }).objects.length =
        rt.objects.length ∧
      (∀ other ≠ obj, (freed.setObject obj { p with shape := rt.shapes.length }).viewOf other =
        rt.viewOf other) ∧
      ∀ q ≠ rt.shapes.length, ∀ x,
        (freed.setObject obj { p with shape := rt.shapes.length }).signature q = some x →
        rt.signature q = some x := by
  obtain ⟨clone, hclone⟩ : ∃ clone : JSShape,
      clone = { sh with refCount := 1, isHashed := true } := ⟨_, rfl⟩
  rw [← hclone]
  have hset : (rt.shapes ++ [some { sh with refCount := 1, isHashed := false }]).set
      rt.shapes.length (some clone) = rt.shapes ++ [some clone] := by
    rw [List.set_append_right _ _ (Nat.le_refl _), Nat.sub_self]
    rfl
  have hgood : clone.Good := hclone ▸ good_clone (hrt.good hshape) 1 true
  have hallocated := hrt.allocate hgood (by rw [hclone])
  rw [if_pos (by rw [hclone])] at hallocated
  have hnew : (rt.shapes ++ [some clone]).getD rt.shapes.length none = some clone :=
    getD_concat_length
  have hhash : clone.hash = layoutHash clone.proto clone.layout := by
    have hold := hrt.hashed hshape hhashed (by simp)
    rw [hclone]
    exact hold
  obtain ⟨linked, hlink, hlinked, hshapes, hobjects⟩ :=
    hallocated.link hnew (by rw [hclone]) hhash
  obtain ⟨hlength, hsize⟩ := hrt.sizes hobject hshape
  have hlinkedObject : linked.objects.getD obj none = some p := hobjects ▸ hobject
  have hlinkedShape : linked.shapes.getD rt.shapes.length none = some clone := hshapes ▸ hnew
  obtain ⟨freed, hfree, hfreed, halone, hfreedObjects, hview, hfewer⟩ :=
    hlinked.replaceShape hlinkedObject hlinkedShape (by rw [hclone])
      (by rw [hclone]; exact hlength) (by rw [hclone]; exact hsize)
  refine ⟨linked, freed, ?_, hfree, hfreed, halone, ?_, fun other hne => ?_, fun q hq x hx => ?_⟩
  · rw [setShape, hset]
    exact hlink
  · simp [setObject, hfreedObjects, hobjects]
  · rw [hview other hne, ← hrt.viewOf_allocate clone other, viewOf, viewOf, hshapes, hobjects]
  · have hlinkedSignature := hfewer q x hx
    rw [signature, hshapes, getD_concat, if_neg hq] at hlinkedSignature
    exact hlinkedSignature

/-- The object takes a shape from the table that has the new property, and gives its own
back. -/
theorem takeShape (hrt : rt.Sound held none) (hobject : rt.objects.getD obj none = some p)
    (hshape : rt.shapes.getD p.shape none = some sh) (hnew : rt.shapes.getD ptr none = some new)
    (hhashed : new.isHashed = true) (hproto : new.proto = sh.proto)
    (hlayout : new.layout = sh.layout ++ [(atom, flags)]) (hatom : atom ≠ atomNull)
    (value : PropertySlot) :
    ∃ given next, (rt.setShape ptr { new with refCount := new.refCount + 1 }).appendValue obj
        ⟨ptr, p.prop, if new.propSize ≠ sh.propSize then new.propSize else p.propSize⟩ value =
          .ok given ∧
      given.jsFreeShape p.shape = .ok next ∧ next.Sound held none ∧
      next.objects.length = rt.objects.length ∧
      next.viewOf obj = some (sh.proto, entriesOf sh.layout p.prop ++ [(atom, flags, value)]) ∧
      (∀ other ≠ obj, next.viewOf other = rt.viewOf other) ∧ next.Fewer rt := by
  obtain ⟨hlength, hsize⟩ := hrt.sizes hobject hshape
  obtain ⟨-, hsound⟩ := hrt.dup hnew hhashed
  have hnewFits := (hrt.good hnew).fits
  have hnewLength : new.prop.length = sh.prop.length + 1 := by
    rw [← JSShape.length_layout, hlayout, List.length_append, JSShape.length_layout]
    rfl
  have hcapacity : (if new.propSize ≠ sh.propSize then new.propSize else p.propSize) =
      new.propSize := by
    split
    · rfl
    · rename_i hsame
      exact hsize.trans (not_not.mp hsame).symm
  have hbounds : p.prop.length < new.propSize := by omega
  have hself : (rt.setShape ptr { new with refCount := new.refCount + 1 }).shapes.getD
      ptr none = some { new with refCount := new.refCount + 1 } := by
    rw [getD_setShape hnew, if_pos rfl]
  have hmoved : (⟨ptr, p.prop ++ [value], new.propSize⟩ : ShapedObject).shape = ptr := rfl
  have hgiven := hsound.give hobject hself hmoved
    (by rw [List.length_append, hlength, hnewLength]; rfl) rfl
  have hgivenView : ((rt.setShape ptr { new with refCount := new.refCount + 1 }).setObject
      obj ⟨ptr, p.prop ++ [value], new.propSize⟩).viewOf obj =
        some (new.proto, entriesOf new.layout (p.prop ++ [value])) := by
    have hwritten : ((rt.setShape ptr
        { new with refCount := new.refCount + 1 }).setObject obj
          ⟨ptr, p.prop ++ [value], new.propSize⟩).objects.getD obj none =
            some ⟨ptr, p.prop ++ [value], new.propSize⟩ :=
      getD_set_self (lt_length_of_getD hobject)
    have hview := viewOf_eq hwritten hself
    exact hview
  obtain ⟨final, hfree, hfinal, hobjects, hrecounted⟩ := hgiven.free
  have hgivenOthers : ∀ other ≠ obj, ((rt.setShape ptr
      { new with refCount := new.refCount + 1 }).setObject obj
        ⟨ptr, p.prop ++ [value], new.propSize⟩).viewOf other = rt.viewOf other := by
    intro other hne
    rw [← viewOf_recount hnew (new.refCount + 1) other]
    exact viewOf_congr (getD_set_of_ne (Ne.symm hne)) fun q _ => rfl
  have hentries : entriesOf (sh.layout ++ [(atom, flags)]) (p.prop ++ [value]) =
      entriesOf sh.layout p.prop ++ [(atom, flags, value)] :=
    JSShape.entriesOf_concat (hlength.trans (JSShape.length_layout sh).symm) hatom
  refine ⟨_, final, ?_, hfree, hfinal, ?_, ?_, fun other hne => ?_,
    (Fewer.of_recounted hrecounted).trans (fewer_recount hnew _)⟩
  · rw [hcapacity, appendValue, if_pos hbounds]
  · rw [hobjects]
    simp [setObject, setShape]
  · rw [viewOf_of_recounted hfinal hobjects hrecounted obj, hgivenView, hproto, hlayout, hentries]
  · rw [viewOf_of_recounted hfinal hobjects hrecounted other, hgivenOthers other hne]

/-- `add_property`, whichever shape it finds or makes, adds the property to its object and
to no other. -/
theorem addProperty_spec (hrt : rt.Sound held none) (hobject : rt.objects.getD obj none = some p)
    (hshape : rt.shapes.getD p.shape none = some sh) (hatom : atom ≠ atomNull)
    (habsent : ∀ key ∈ sh.layout, key.1 ≠ atom) (hsmall : sh.prop.length < 2 ^ 26)
    (flags : BitVec 6) (value : PropertySlot) :
    ∃ next, rt.addProperty obj atom flags value = .ok next ∧ next.Sound held none ∧
      next.objects.length = rt.objects.length ∧
      next.viewOf obj = some (sh.proto, entriesOf sh.layout p.prop ++ [(atom, flags, value)]) ∧
      (∀ other ≠ obj, next.viewOf other = rt.viewOf other) ∧ (rt.Canonical → next.Canonical) := by
  obtain ⟨hlength, hsize⟩ := hrt.sizes hobject hshape
  by_cases hhashed : sh.isHashed = true
  · obtain ⟨result, hresult, hsome, hnone⟩ :=
      hrt.findHashedShapeProp_spec hshape hhashed atom flags
    cases result with
    | some newSh =>
        obtain ⟨new, hnew, hnewHashed, hproto, hlayout⟩ := hsome newSh rfl
        obtain ⟨hdup, -⟩ := hrt.dup hnew hnewHashed
        obtain ⟨given, final, happend, hfree, hfinal, hlengthFinal, hself, hothers, hfewer⟩ :=
          hrt.takeShape hobject hshape hnew hnewHashed hproto hlayout hatom value
        refine ⟨final, ?_, hfinal, hlengthFinal, hself, hothers,
          fun hcanonical => hfewer.canonical hcanonical⟩
        simp only [addProperty, objectAt_eq hobject, ok_bind, shapeAt_eq hshape, if_pos hhashed,
          hresult, shapeAt_eq hnew, hdup, happend]
        exact hfree
    | none =>
        by_cases hone : sh.refCount = 1
        · obtain ⟨next, own, hadd, hnext, hnextLength, hself, hothers, hkept, hown⟩ :=
            hrt.addShapeProperty ⟨hobject, hshape, hone⟩ hatom habsent hsmall flags value
          refine ⟨next, ?_, hnext, hnextLength, hself, hothers, fun hcanonical =>
            hcanonical.add own _ (fun q hq y hy => (hkept q hq y hy).2) (fun y hy => (hown y hy).2)
              (hnone rfl)⟩
          simp only [addProperty, objectAt_eq hobject, ok_bind, shapeAt_eq hshape, if_pos hhashed,
            hresult]
          rw [if_neg (not_not.mpr hone)]
          exact hadd
        · obtain ⟨linked, freed, hlink, hfree, hsound, halone, hfreedLength, hview, hfewer⟩ :=
            hrt.cloneHashed hobject hshape hhashed
          obtain ⟨next, own, hadd, hnext, hnextLength, hself, hothers, hkept, hown⟩ :=
            hsound.addShapeProperty halone hatom habsent hsmall flags value
          refine ⟨next, ?_, hnext, hnextLength.trans hfreedLength, hself,
            fun other hne => (hothers other hne).trans (hview other hne), fun hcanonical =>
            hcanonical.add own _ (fun q hq y hy => ?_) (fun y hy => (hown y hy).2) (hnone rfl)⟩
          · have hclone : (rt.shapes ++ [some { sh with refCount := 1, isHashed := false }]).getD
                rt.shapes.length none = some { sh with refCount := 1, isHashed := false } :=
              getD_concat_length
            simp only [addProperty, objectAt_eq hobject, ok_bind, shapeAt_eq hshape,
              if_pos hhashed, hresult, jsCloneShape_eq hshape]
            rw [if_pos hone, shapeAt_eq hclone]
            simp only [ok_bind, hlink, hfree]
            exact hadd
          · obtain ⟨hapart, hy⟩ := hkept q hq y hy
            exact hfewer q hapart y hy
  · have hone := hrt.exclusive hshape (Bool.eq_false_of_not_eq_true hhashed)
    obtain ⟨next, own, hadd, hnext, hnextLength, hself, hothers, hkept, hown⟩ :=
      hrt.addShapeProperty ⟨hobject, hshape, hone⟩ hatom habsent hsmall flags value
    refine ⟨next, ?_, hnext, hnextLength, hself, hothers, fun hcanonical q r y hq hr => ?_⟩
    · simp only [addProperty, objectAt_eq hobject, ok_bind, shapeAt_eq hshape, if_neg hhashed]
      rw [if_neg (not_not.mpr hone)]
      exact hadd
    · -- the shape of the object is not hashed after it either
      have hnot : ∀ s, next.signature s = some y → s ≠ own := fun s hs heq =>
        hhashed (hown y (heq ▸ hs)).1
      exact hcanonical q r y (hkept q (hnot q hq) y hq).2 (hkept r (hnot r hr) y hr).2

end Sound

end ShapeRuntime

end QuickjsBackend
