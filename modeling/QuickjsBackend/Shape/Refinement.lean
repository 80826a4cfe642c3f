import QuickjsBackend.Foundation.OrderedMap
import QuickjsBackend.Shape.Compaction

/-! # Plain objects

On its own, an object has a prototype and a map of properties in the order they were added.
What a run on shared shapes shows is what the same run on such objects does.
-/

namespace QuickjsBackend

open Foundation

structure PlainObject where
  proto : Option Ptr
  properties : OrderedMap JSAtom (BitVec 6 × PropertySlot)

namespace PlainObject

variable (o : PlainObject)

def define (atom : JSAtom) (flags : BitVec 6) (value : PropertySlot) : PlainObject :=
  { o with properties := o.properties.set atom (flags, value) }

/-- Only a configurable property goes. -/
def delete (atom : JSAtom) : PlainObject :=
  if (o.properties.get atom).any fun entry => entry.1.getLsbD jsPropConfigurable then
    { o with properties := o.properties.erase atom }
  else o

def view : Option Ptr × List (JSAtom × BitVec 6 × PropertySlot) := (o.proto, o.properties.entries)

end PlainObject

inductive PlainFault
  | freed
  -- the name is `JS_ATOM_NULL`
  | noName
  -- indices of properties would not fit into `hash_next`
  | tooMany
  deriving DecidableEq, Repr

/-- One action on objects that share nothing; what scripts cannot ask for is refused. -/
def plainStep : StepFn (List (Option PlainObject)) ShapeAction PlainFault
  | store, .newObject proto => .ok (store ++ [some ⟨proto, .empty⟩])
  | store, .defineProperty obj atom flags value =>
      match store.getD obj none with
      | none => .error .freed
      | some o =>
          if atom = atomNull then .error .noName
          else if 2 ^ 25 ≤ o.properties.entries.length then .error .tooMany
          else .ok (store.set obj (some (o.define atom flags value)))
  | store, .deleteProperty obj atom =>
      match store.getD obj none with
      | none => .error .freed
      | some o =>
          if atom = atomNull then .error .noName
          else .ok (store.set obj (some (o.delete atom)))
  | store, .setPrototype obj proto =>
      match store.getD obj none with
      | none => .error .freed
      | some o => .ok (store.set obj (some { o with proto := proto }))
  | store, .freeObject obj =>
      match store.getD obj none with
      | none => .error .freed
      | some _ => .ok (store.set obj none)

namespace ShapeRuntime

/-- Every object shows what the plain one has. -/
structure Refines (rt : ShapeRuntime) (store : List (Option PlainObject)) : Prop where
  length : store.length = rt.objects.length
  shows : ∀ obj, rt.viewOf obj = (store.getD obj none).map PlainObject.view

variable {rt next : ShapeRuntime} {held : List Ptr} {obj ptr : Ptr} {p : ShapedObject}
  {sh new : JSShape} {atom : JSAtom} {o : PlainObject} {store : List (Option PlainObject)}

/-- What an action on one object leaves. -/
structure Updates (next rt : ShapeRuntime) (obj : Ptr)
    (view : Option (Option Ptr × List (JSAtom × BitVec 6 × PropertySlot))) : Prop where
  sound : next.Sound [] none
  length : next.objects.length = rt.objects.length
  self : next.viewOf obj = view
  others : ∀ other ≠ obj, next.viewOf other = rt.viewOf other
  canonical : rt.Canonical → next.Canonical

namespace Sound

theorem setObject_self (hobject : rt.objects.getD obj none = some p) : rt.setObject obj p = rt := by
  have hlt := lt_length_of_getD hobject
  rw [List.getD_eq_getElem _ _ hlt] at hobject
  rw [setObject, ← hobject, List.set_getElem_self]

/-- Values are written, whether the shape is shared or not. -/
theorem setValues (hrt : rt.Sound held none) (hobject : rt.objects.getD obj none = some p)
    {values : List PropertySlot} (hlength : values.length = p.prop.length) :
    (rt.setObject obj { p with prop := values }).Sound held none ∧
      ∀ other ≠ obj, (rt.setObject obj { p with prop := values }).viewOf other =
        rt.viewOf other := by
  have husers : ∀ q, (rt.setObject obj { p with prop := values }).users q = rt.users q := by
    intro q
    have hset := users_setObject hobject { p with prop := values } q
    exact Nat.add_right_cancel hset
  refine ⟨⟨fun {other q} hother => ?_, hrt.good, hrt.alive, fun hfound => ?_, hrt.exclusive,
    hrt.hashed, hrt.table, hrt.nodup, hrt.size⟩, fun other hne =>
      viewOf_congr (getD_set_of_ne (Ne.symm hne)) fun q _ => rfl⟩
  · by_cases heq : obj = other
    · subst other
      rw [setObject, getD_set_self (lt_length_of_getD hobject), Option.some.injEq] at hother
      subst q
      obtain ⟨sh, hsh, hold, hsize⟩ := hrt.owner hobject
      exact ⟨sh, hsh, hlength.trans hold, hsize⟩
    · rw [setObject, getD_set_of_ne heq] at hother
      exact hrt.owner hother
  · rw [husers]
    exact hrt.counted hfound

theorem fewer_setShape (hshape : rt.shapes.getD ptr none = some sh) (hnot : new.isHashed = false) :
    (rt.setShape ptr new).Fewer rt := by
  intro q x hq
  rw [signature, getD_setShape hshape] at hq
  split at hq
  · rw [Option.bind_some, hnot] at hq
    cases hq
  · exact hq

/-- After `js_shape_prepare_update` the shape may be written: it is not hashed, and nothing
else has it. -/
theorem writeOwn (hrt : rt.Sound held none)
    (halone : rt.Alone obj p { sh with refCount := 1, isHashed := false }) (hgood : new.Good)
    (hone : new.refCount = 1) (hnot : new.isHashed = false)
    {values : List PropertySlot} (hlength : values.length = new.prop.length)
    (hsize : new.propSize = sh.propSize) :
    ((rt.setShape p.shape new).setObject obj { p with prop := values }).Sound held none ∧
      ((rt.setShape p.shape new).setObject obj { p with prop := values }).Alone obj
        { p with prop := values } new ∧
      (∀ other ≠ obj, ((rt.setShape p.shape new).setObject obj
        { p with prop := values }).viewOf other = rt.viewOf other) ∧
      ((rt.setShape p.shape new).setObject obj { p with prop := values }).Fewer rt := by
  obtain ⟨hobject, hshape, -⟩ := halone
  obtain ⟨-, hcapacity⟩ := hrt.sizes hobject hshape
  have hwritten : ({ p with prop := values } : ShapedObject).shape = p.shape := rfl
  obtain ⟨hsound, hothers⟩ := hrt.rewrite hobject hshape rfl nofun hgood hone hnot hwritten
    hlength (hcapacity.trans hsize.symm)
  refine ⟨hsound, ⟨getD_set_self (lt_length_of_getD hobject),
    getD_set_self (lt_length_of_getD hshape), hone⟩, hothers, fewer_setShape hshape hnot⟩

theorem writeOwnShape (hrt : rt.Sound held none)
    (halone : rt.Alone obj p { sh with refCount := 1, isHashed := false }) (hgood : new.Good)
    (hone : new.refCount = 1) (hnot : new.isHashed = false)
    (hlength : p.prop.length = new.prop.length) (hsize : new.propSize = sh.propSize) :
    (rt.setShape p.shape new).Sound held none ∧ (rt.setShape p.shape new).Alone obj p new ∧
      (∀ other ≠ obj, (rt.setShape p.shape new).viewOf other = rt.viewOf other) ∧
      (rt.setShape p.shape new).Fewer rt := by
  have hobject : (rt.setShape p.shape new).objects.getD obj none = some p := halone.object
  have hwritten := hrt.writeOwn halone hgood hone hnot hlength hsize
  rwa [setObject_self hobject] at hwritten

/-- `js_update_property_flags` changes the attributes of one property of one object. -/
theorem updatePropertyFlags (hrt : rt.Sound held none)
    (hobject : rt.objects.getD obj none = some p)
    (hshape : rt.shapes.getD p.shape none = some sh) {i : Nat} (hi : i < sh.prop.length)
    (flags : BitVec 6) :
    ∃ next own new, rt.jsUpdatePropertyFlags obj i flags = .ok next ∧ next.Sound held none ∧
      next.objects.getD obj none = some { p with shape := own } ∧
      next.shapes.getD own none = some new ∧ new.proto = sh.proto ∧
      new.layout = sh.layout.set i ((sh.prop.getD i default).atom, flags) ∧
      next.objects.length = rt.objects.length ∧
      (∀ other ≠ obj, next.viewOf other = rt.viewOf other) ∧ next.Fewer rt := by
  by_cases hflags : flags = (sh.prop.getD i default).flags
  · have hlt : i < sh.layout.length := by rwa [JSShape.length_layout]
    have hkey : sh.layout[i] = ((sh.prop.getD i default).atom, flags) := by
      have hget := JSShape.getElem?_layout hi
      rw [List.getElem?_eq_getElem hlt, Option.some.injEq] at hget
      rw [hget, hflags]
      rfl
    refine ⟨rt, p.shape, sh, ?_, hrt, hobject, hshape, rfl, ?_, rfl, fun _ _ => rfl, .of_eq rfl⟩
    · simp only [jsUpdatePropertyFlags, objectAt_eq hobject, ok_bind, shapeAt_eq hshape]
      exact if_neg (not_not.mpr hflags)
    · rw [← hkey, List.set_getElem_self]
  · obtain ⟨middle, own, hprepare, hmiddle, halone, hobjects, hviews, hfewer⟩ :=
      hrt.prepareUpdate hobject hshape
    obtain ⟨hlength, -⟩ := hrt.sizes hobject hshape
    have hgood := (good_clone (hrt.good hshape) 1 false).setFlags i flags
    obtain ⟨hsound, hwritten, hothers, hkept⟩ := hmiddle.writeOwnShape halone hgood rfl rfl
      (by rw [hlength]; simp [JSShape.setFlags]) rfl
    refine ⟨_, own, _, ?_, hsound, hwritten.object, hwritten.shape, rfl,
      JSShape.layout_setFlags _ i flags, hobjects,
      fun other hne => (hothers other hne).trans (hviews other), hkept.trans hfewer⟩
    simp only [jsUpdatePropertyFlags, objectAt_eq hobject, ok_bind, shapeAt_eq hshape]
    rw [if_pos hflags, hprepare]
    simp only [ok_bind, objectAt_eq halone.object, shapeAt_eq halone.shape]
    rfl

theorem absent_of_layout {entries : List (JSAtom × BitVec 6 × PropertySlot)}
    (hentries : entriesOf sh.layout p.prop = entries) (hlength : p.prop.length = sh.prop.length)
    (habsent : ∀ key ∈ sh.layout, key.1 ≠ atom) : ∀ entry ∈ entries, entry.1 ≠ atom := by
  intro entry hentry heq
  have hname : entry.1 ∈ (entriesOf sh.layout p.prop).map Prod.fst :=
    List.mem_map_of_mem (hentries ▸ hentry)
  rw [JSShape.map_fst_entriesOf (hlength.trans (JSShape.length_layout sh).symm)] at hname
  obtain ⟨key, hkey, hkeyName⟩ := List.mem_map.mp hname
  exact habsent key (List.mem_of_mem_filter hkey) (hkeyName.trans heq)

/-- The entry of the property at an index, and what stands before and after it. -/
theorem entriesOf_split (hatom : atom ≠ atomNull) {i : Nat} (hi : i < sh.prop.length)
    (hat : (sh.prop.getD i default).atom = atom) (hlength : p.prop.length = sh.prop.length) :
    ∃ before after old, entriesOf sh.layout p.prop = before ++
        (atom, (sh.prop.getD i default).flags, old) :: after ∧
      ∀ key value, entriesOf (sh.layout.set i key) (p.prop.set i value) = before ++
        (if key.1 = atomNull then [] else [(key.1, key.2, value)]) ++ after := by
  have hlt : i < sh.layout.length := by rwa [JSShape.length_layout]
  obtain ⟨before, after, old, hsplit, -, hset⟩ :=
    JSShape.entriesOf_set hlt (hlength.trans (JSShape.length_layout sh).symm)
  have hget := JSShape.getElem?_layout hi
  rw [List.getElem?_eq_getElem hlt, Option.some.injEq] at hget
  have hkey : sh.layout[i] = (atom, (sh.prop.getD i default).flags) := by
    rw [hget, ← hat]
    rfl
  refine ⟨before, after, old, ?_, hset⟩
  rw [hsplit, hkey, if_neg hatom, List.append_assoc]
  rfl

/-- The shape of an object that shows what a plain one has. -/
theorem shown (hrt : rt.Sound [] none) (hobject : rt.objects.getD obj none = some p)
    (hview : rt.viewOf obj = some o.view) :
    ∃ sh, rt.shapes.getD p.shape none = some sh ∧ p.prop.length = sh.prop.length ∧
      sh.proto = o.proto ∧ entriesOf sh.layout p.prop = o.properties.entries := by
  obtain ⟨sh, hshape, hlength, -⟩ := hrt.owner hobject
  rw [viewOf_eq hobject hshape, Option.some.injEq, PlainObject.view, Prod.mk.injEq] at hview
  exact ⟨sh, hshape, hlength, hview⟩

theorem defineProperty_spec (hrt : rt.Sound [] none) (hobject : rt.objects.getD obj none = some p)
    (hview : rt.viewOf obj = some o.view) (hatom : atom ≠ atomNull)
    (hsmall : p.prop.length < 2 ^ 26) (flags : BitVec 6) (value : PropertySlot) :
    ∃ next, rt.defineProperty obj atom flags value = .ok next ∧
      next.Updates rt obj (some (o.define atom flags value).view) := by
  obtain ⟨sh, hshape, hlength, hproto, hentries⟩ := hrt.shown hobject hview
  rcases (hrt.good hshape).findOwnProperty_spec hatom with
    ⟨i, before, after, hsplit, hat, hfind⟩ | ⟨hfind, habsent⟩
  · have hi := JSShape.lt_of_split hsplit
    obtain ⟨middle, own, new, hupdate, hmiddle, hmoved, hnew, hnewProto, hlayout, hobjects,
      hothers, hfewer⟩ := hrt.updatePropertyFlags hobject hshape hi flags
    obtain ⟨hsound, hkept⟩ := hmiddle.setValues hmoved (List.length_set (i := i) (a := value))
    obtain ⟨front, rest, old, hfound, hset⟩ := entriesOf_split hatom hi hat hlength
    refine ⟨_, ?_, hsound, ?_, ?_, fun other hne => (hkept other hne).trans (hothers other hne),
      fun hcanonical => hfewer.canonical hcanonical⟩
    · simp only [defineProperty, objectAt_eq hobject, ok_bind, shapeAt_eq hshape, hfind, hupdate,
        objectAt_eq hmoved]
      rfl
    · simp [setObject, hobjects]
    · have hwritten : (middle.setObject obj ⟨own, p.prop.set i value, p.propSize⟩).objects.getD obj
          none = some ⟨own, p.prop.set i value, p.propSize⟩ :=
        getD_set_self (lt_length_of_getD hmoved)
      have hdefined : (o.define atom flags value).properties.entries =
          front ++ (atom, flags, value) :: rest :=
        OrderedMap.set_of_split (hentries.symm.trans hfound)
      have hshown := viewOf_eq hwritten hnew
      rw [hnewProto, hlayout, hat, hset, if_neg hatom, List.append_assoc] at hshown
      rw [PlainObject.view, hdefined]
      exact hproto ▸ hshown
  · obtain ⟨next, hadd, hsound, hobjects, hself, hothers, hcanonical⟩ :=
      hrt.addProperty_spec hobject hshape hatom habsent (hlength ▸ hsmall) flags value
    refine ⟨next, ?_, hsound, hobjects, ?_, hothers, hcanonical⟩
    · simp only [defineProperty, objectAt_eq hobject, ok_bind, shapeAt_eq hshape, hfind, hadd]
    · have hdefined : (o.define atom flags value).properties.entries =
          o.properties.entries ++ [(atom, flags, value)] :=
        OrderedMap.set_of_absent (absent_of_layout hentries hlength habsent)
      rw [hself, PlainObject.view, hdefined, hentries, hproto]
      rfl

/-- `delete_property`, which compacts the object now and then. -/
theorem deleteProperty_spec (hrt : rt.Sound [] none) (hobject : rt.objects.getD obj none = some p)
    (hview : rt.viewOf obj = some o.view) (hatom : atom ≠ atomNull) :
    ∃ next, rt.deleteProperty obj atom = .ok next ∧
      next.Updates rt obj (some (o.delete atom).view) := by
  obtain ⟨sh, hshape, hlength, hproto, hentries⟩ := hrt.shown hobject hview
  rcases (hrt.good hshape).findOwnProperty_spec hatom with
    ⟨i, before, after, hsplit, hat, hfind⟩ | ⟨hfind, habsent⟩
  · have hi := JSShape.lt_of_split hsplit
    obtain ⟨front, rest, old, hfound, hset⟩ := entriesOf_split hatom hi hat hlength
    have hentry : o.properties.entries = front ++
        (atom, ((sh.prop.getD i default).flags, old)) :: rest := hentries.symm.trans hfound
    by_cases hconfigurable : (sh.prop.getD i default).flags.getLsbD jsPropConfigurable = false
    · refine ⟨rt, ?_, hrt, rfl, ?_, fun _ _ => rfl, id⟩
      · simp only [deleteProperty, objectAt_eq hobject, ok_bind, shapeAt_eq hshape, hfind]
        exact if_pos hconfigurable
      · rw [hview, PlainObject.delete, OrderedMap.get_of_split hentry, Option.any_some,
          if_neg (by rw [hconfigurable]; exact Bool.false_ne_true)]
    · obtain ⟨middle, own, hprepare, hmiddle, halone, hobjects, hviews, hfewer⟩ :=
        hrt.prepareUpdate hobject hshape
      have hgood := good_clone (hrt.good hshape) 1 false
      obtain ⟨removed, hdef⟩ : ∃ removed, removed = JSShape.removeProperty
          { sh with refCount := 1, isHashed := false } before.getLast? i := ⟨_, rfl⟩
      obtain ⟨hremoved, hfreed⟩ := hgood.removeProperty hatom hsplit hat
      rw [← hdef] at hremoved hfreed
      have hlayout : removed.layout = sh.layout.set i (atomNull, 0) := hfreed
      have hremovedLength : (p.prop.set i (.value .undefined)).length = removed.prop.length := by
        rw [List.length_set, ← JSShape.length_layout, hlayout, List.length_set,
          JSShape.length_layout, hlength]
      have hnot : removed.isHashed = false := by rw [hdef]; rfl
      obtain ⟨hsound, hwritten, hothers, hkept⟩ := hmiddle.writeOwn halone hremoved
        (by rw [hdef]; rfl) hnot hremovedLength (by rw [hdef]; rfl)
      have hself := viewOf_eq hwritten.object hwritten.shape
      have hremovedProto : removed.proto = sh.proto := by rw [hdef]; rfl
      have hdeleted : (o.delete atom).view =
          (removed.proto, entriesOf removed.layout (p.prop.set i (.value .undefined))) := by
        rw [PlainObject.delete, OrderedMap.get_of_split hentry, Option.any_some,
          if_pos (Bool.eq_true_of_not_eq_false hconfigurable), PlainObject.view,
          OrderedMap.erase_of_split hentry, hremovedProto, hproto, hlayout, hset]
        simp
      have hrun : rt.deleteProperty obj atom =
          if 8 ≤ removed.deletedPropCount ∧ removed.prop.length / 2 ≤ removed.deletedPropCount then
            ((middle.setShape own removed).setObject obj
              ⟨own, p.prop.set i (.value .undefined), p.propSize⟩).compactProperties obj
          else .ok ((middle.setShape own removed).setObject obj
            ⟨own, p.prop.set i (.value .undefined), p.propSize⟩) := by
        simp only [deleteProperty, objectAt_eq hobject, ok_bind, shapeAt_eq hshape, hfind]
        rw [if_neg hconfigurable, hprepare]
        simp only [ok_bind, objectAt_eq halone.object, shapeAt_eq halone.shape, hdef]
        rfl
      have hwrittenLength : ((middle.setShape own removed).setObject obj
          ⟨own, p.prop.set i (.value .undefined), p.propSize⟩).objects.length =
            rt.objects.length := (List.length_set ..).trans hobjects
      by_cases hcompact :
          8 ≤ removed.deletedPropCount ∧ removed.prop.length / 2 ≤ removed.deletedPropCount
      · obtain ⟨next, hnext, hnextSound, hnextObjects, hnextViews, hnextFewer⟩ :=
          hsound.compactProperties hwritten hnot (by omega)
        refine ⟨next, by rw [hrun, if_pos hcompact, hnext], hnextSound,
          hnextObjects.trans hwrittenLength, ?_, fun other hne => ?_, fun hcanonical =>
            ((hnextFewer.trans hkept).trans hfewer).canonical hcanonical⟩
        · rw [hnextViews, hdeleted]
          exact hself
        · rw [hnextViews, ← hviews other]
          exact hothers other hne
      · refine ⟨_, by rw [hrun, if_neg hcompact], hsound, hwrittenLength,
          by rw [hdeleted]; exact hself, fun other hne => (hothers other hne).trans (hviews other),
          fun hcanonical => (hkept.trans hfewer).canonical hcanonical⟩
  · refine ⟨rt, ?_, hrt, rfl, ?_, fun _ _ => rfl, id⟩
    · simp only [deleteProperty, objectAt_eq hobject, ok_bind, shapeAt_eq hshape, hfind]
      rfl
    · rw [hview, PlainObject.delete,
        OrderedMap.get_of_absent (absent_of_layout hentries hlength habsent)]
      rfl

theorem setPrototype_spec (hrt : rt.Sound [] none) (hobject : rt.objects.getD obj none = some p)
    (hview : rt.viewOf obj = some o.view) (proto : Option Ptr) :
    ∃ next, rt.setPrototype obj proto = .ok next ∧
      next.Updates rt obj (some { o with proto := proto : PlainObject }.view) := by
  obtain ⟨sh, hshape, hlength, hproto, hentries⟩ := hrt.shown hobject hview
  by_cases hsame : sh.proto = proto
  · refine ⟨rt, ?_, hrt, rfl, ?_, fun _ _ => rfl, id⟩
    · simp only [setPrototype, objectAt_eq hobject, ok_bind, shapeAt_eq hshape]
      exact if_pos hsame
    · rw [hview, PlainObject.view, PlainObject.view, ← hproto, hsame]
  · obtain ⟨middle, own, hprepare, hmiddle, halone, hobjects, hviews, hfewer⟩ :=
      hrt.prepareUpdate hobject hshape
    have hgood := hrt.good hshape
    have hnewGood : JSShape.Good { sh with refCount := 1, isHashed := false, proto := proto } :=
      ⟨⟨hgood.indexed, hgood.heads⟩, hgood.fits, hgood.small, hgood.deleted, hgood.distinct⟩
    obtain ⟨hsound, hwritten, hothers, hkept⟩ :=
      hmiddle.writeOwnShape halone hnewGood rfl rfl hlength rfl
    refine ⟨_, ?_, hsound, hobjects, ?_, fun other hne => (hothers other hne).trans (hviews other),
      fun hcanonical => (hkept.trans hfewer).canonical hcanonical⟩
    · simp only [setPrototype, objectAt_eq hobject, ok_bind, shapeAt_eq hshape]
      rw [if_neg hsame, hprepare]
      simp only [ok_bind, objectAt_eq halone.object, shapeAt_eq halone.shape]
      rfl
    · rw [viewOf_eq hwritten.object hwritten.shape, PlainObject.view, ← hentries]
      rfl

/-- `free_object` gives the shape back. -/
theorem freeObject_spec (hrt : rt.Sound [] none) (hobject : rt.objects.getD obj none = some p) :
    ∃ next, rt.freeObject obj = .ok next ∧ next.Updates rt obj none := by
  obtain ⟨next, hfree, hnext, hobjects, hrecounted⟩ := (hrt.takeBack hobject).free
  refine ⟨next, ?_, hnext, by rw [hobjects, List.length_set], ?_, fun other hne => ?_,
    fun hcanonical => (Fewer.of_recounted hrecounted).canonical hcanonical⟩
  · simp only [freeObject, objectAt_eq hobject, ok_bind]
    exact hfree
  · refine viewOf_none ?_
    rw [hobjects]
    exact getD_set_self (lt_length_of_getD hobject)
  · rw [viewOf_of_recounted hnext hobjects hrecounted other]
    exact viewOf_congr (getD_set_of_ne (Ne.symm hne)) fun q _ => rfl

theorem new_sound : ShapeRuntime.new.Sound [] none := by
  have hbuckets : ∀ bucket, ShapeRuntime.new.shapeHash.getD bucket [] = [] := by
    intro bucket
    rw [ShapeRuntime.new, List.getD_eq_getElem?_getD, List.getElem?_replicate]
    split <;> rfl
  refine ⟨nofun, nofun, nofun, nofun, nofun, nofun, fun bucket ptr => ?_, fun bucket => ?_, rfl⟩
  · rw [hbuckets]
    exact iff_of_false List.not_mem_nil nofun
  · rw [hbuckets]
    exact .nil

end Sound

namespace Refines

/-- One object changes as the plain one does. -/
theorem set (hrefines : rt.Refines store) (hobject : store.getD obj none = some o)
    {entry : Option PlainObject} (hupdates : next.Updates rt obj (entry.map PlainObject.view)) :
    next.Refines (store.set obj entry) := by
  refine ⟨by rw [List.length_set, hrefines.length, hupdates.length], fun other => ?_⟩
  by_cases heq : obj = other
  · subst other
    rw [hupdates.self, getD_set_self (lt_length_of_getD hobject)]
  · rw [hupdates.others other (Ne.symm heq), hrefines.shows, getD_set_of_ne heq]

/-- An object of the plain store is alive. -/
theorem alive (hrefines : rt.Refines store) (hobject : store.getD obj none = some o) :
    ∃ p, rt.objects.getD obj none = some p ∧ rt.viewOf obj = some o.view := by
  have hview : rt.viewOf obj = some o.view := by rw [hrefines.shows, hobject, Option.map_some]
  cases halive : rt.objects.getD obj none with
  | none =>
      rw [viewOf_none halive] at hview
      cases hview
  | some p => exact ⟨p, rfl, hview⟩

/-- What a plain step does, the step on shared shapes does. -/
theorem step (hrt : rt.Sound [] none) (hthrifty : rt.Thrifty) (hrefines : rt.Refines store)
    {action : ShapeAction} {plain : List (Option PlainObject)}
    (hplain : plainStep store action = .ok plain) :
    ∃ next, ShapeRuntime.step rt action = .ok next ∧ next.Sound [] none ∧
      (rt.Canonical → next.Canonical) ∧ next.Refines plain := by
  cases action with
  | newObject proto =>
      obtain ⟨next, hnext, hsound, hlength, hself, hothers, hcanonical⟩ :=
        hrt.newObject_spec proto
      cases hplain
      refine ⟨next, hnext, hsound, hcanonical, ?_, fun obj => ?_⟩
      · rw [hlength, ← hrefines.length]
        exact List.length_append
      · rw [getD_concat, hrefines.length]
        split
        · rename_i heq
          rw [heq, hself]
          rfl
        · rename_i hne
          rw [hothers obj hne, hrefines.shows]
  | defineProperty obj atom flags value =>
      simp only [plainStep] at hplain
      split at hplain
      · cases hplain
      · rename_i o ho
        obtain ⟨p, hobject, hview⟩ := hrefines.alive ho
        split at hplain
        · cases hplain
        · rename_i hatom
          split at hplain
          · cases hplain
          · rename_i hsmall
            cases hplain
            -- the deleted properties have indices as well
            have hslots : p.prop.length < 2 ^ 26 := by
              have hbound := hthrifty.length_prop hrt hobject hview
              omega
            obtain ⟨next, hnext, hupdates⟩ :=
              hrt.defineProperty_spec hobject hview hatom hslots flags value
            exact ⟨next, hnext, hupdates.sound, hupdates.canonical, hrefines.set ho hupdates⟩
  | deleteProperty obj atom =>
      simp only [plainStep] at hplain
      split at hplain
      · cases hplain
      · rename_i o ho
        obtain ⟨p, hobject, hview⟩ := hrefines.alive ho
        split at hplain
        · cases hplain
        · rename_i hatom
          cases hplain
          obtain ⟨next, hnext, hupdates⟩ := hrt.deleteProperty_spec hobject hview hatom
          exact ⟨next, hnext, hupdates.sound, hupdates.canonical, hrefines.set ho hupdates⟩
  | setPrototype obj proto =>
      simp only [plainStep] at hplain
      split at hplain
      · cases hplain
      · rename_i o ho
        cases hplain
        obtain ⟨p, hobject, hview⟩ := hrefines.alive ho
        obtain ⟨next, hnext, hupdates⟩ := hrt.setPrototype_spec hobject hview proto
        exact ⟨next, hnext, hupdates.sound, hupdates.canonical, hrefines.set ho hupdates⟩
  | freeObject obj =>
      simp only [plainStep] at hplain
      split at hplain
      · cases hplain
      · rename_i o ho
        cases hplain
        obtain ⟨p, hobject, -⟩ := hrefines.alive ho
        obtain ⟨next, hnext, hupdates⟩ := hrt.freeObject_spec hobject
        exact ⟨next, hnext, hupdates.sound, hupdates.canonical, hrefines.set ho hupdates⟩

end Refines

/-- Each hashed shape is there once and is found by its hash; a shape is there as long as
objects have it, and changes only while one object has it. -/
structure WellShared (rt : ShapeRuntime) : Prop where
  canonical : rt.Canonical
  listed : ∀ {ptr sh}, rt.shapes.getD ptr none = some sh →
    (sh.isHashed = true ↔ ptr ∈ rt.shapeHash.getD (getShapeHash sh.hash rt.shapeHashBits) [])
  hash : ∀ {ptr sh}, rt.shapes.getD ptr none = some sh → sh.isHashed = true →
    sh.hash = layoutHash sh.proto sh.layout
  counted : ∀ {ptr sh}, rt.shapes.getD ptr none = some sh →
    sh.refCount = rt.users ptr ∧ 0 < rt.users ptr
  single : ∀ {ptr sh}, rt.shapes.getD ptr none = some sh → sh.isHashed = false → rt.users ptr = 1

theorem Sound.wellShared (hrt : rt.Sound [] none) (hcanonical : rt.Canonical) : rt.WellShared where
  canonical := hcanonical
  listed {ptr sh} hshape := by
    rw [hrt.table]
    constructor
    · exact fun hhashed => ⟨sh, hshape, hhashed, by simp, rfl⟩
    · rintro ⟨found, hfound, hhashed, -⟩
      rw [hshape, Option.some.injEq] at hfound
      exact hfound ▸ hhashed
  hash hshape hhashed := hrt.hashed hshape hhashed (by simp)
  counted hshape := by
    obtain ⟨hcount, hpos⟩ := hrt.counted hshape
    rw [List.count_nil, Nat.add_zero] at hcount
    exact ⟨hcount, hcount ▸ hpos⟩
  single hshape hnot := by
    have hcount := (hrt.counted hshape).1
    rw [List.count_nil, Nat.add_zero] at hcount
    exact hcount.symm.trans (hrt.exclusive hshape hnot)

theorem new_canonical : ShapeRuntime.new.Canonical := by
  intro q r x hq _
  cases hq

theorem new_thrifty : ShapeRuntime.new.Thrifty := by
  intro ptr sh hshape
  cases hshape

/-- What holds along every run that scripts can ask for. -/
structure Related (rt : ShapeRuntime) (store : List (Option PlainObject)) : Prop where
  sound : rt.Sound [] none
  canonical : rt.Canonical
  thrifty : rt.Thrifty
  refines : rt.Refines store

theorem new_related : ShapeRuntime.new.Related [] :=
  ⟨Sound.new_sound, new_canonical, new_thrifty, ⟨rfl, fun _ => rfl⟩⟩

theorem exists_run {actions : List ShapeAction}
    (hplain : StepFn.run plainStep [] actions = .ok store) :
    ∃ rt, StepFn.run ShapeRuntime.step .new actions = .ok rt ∧ rt.Related store := by
  refine StepFn.exists_run_of_simulation ShapeRuntime.step plainStep Related ?_ new_related hplain
  intro rt store action plain hrelated hstep
  obtain ⟨next, hnext, hsound, hcanonical, hrefines⟩ :=
    hrelated.refines.step hrelated.sound hrelated.thrifty hstep
  exact ⟨next, hnext, hsound, hcanonical hrelated.canonical, hrelated.thrifty.step hnext, hrefines⟩

/-- Objects that are built alike, and then are not. -/
def alikeActions : List ShapeAction :=
  [.newObject none, .newObject none, .defineProperty 0 5 7 (.value .undefined),
    .defineProperty 1 5 7 (.value .undefined), .newObject none,
    .defineProperty 2 5 7 (.value .undefined), .deleteProperty 1 5, .setPrototype 1 (some 2),
    .freeObject 0]

/-- Whatever scripts do, no shape is read after it was freed, none is missed in the table, no
value is out of bounds, no assertion fails, and every object shows what it would show if it
shared nothing. -/
theorem shows_plain {actions : List ShapeAction}
    (hplain : StepFn.run plainStep [] actions = .ok store) :
    ∃ rt, StepFn.run ShapeRuntime.step .new actions = .ok rt ∧ rt.Refines store := by
  obtain ⟨rt, hrun, hrelated⟩ := exists_run hplain
  exact ⟨rt, hrun, hrelated.refines⟩

theorem shows_plain_alike : ∃ rt store, StepFn.run plainStep [] alikeActions = .ok store ∧
    StepFn.run ShapeRuntime.step .new alikeActions = .ok rt ∧ rt.Refines store := by
  obtain ⟨store, hplain⟩ : ∃ store, StepFn.run plainStep [] alikeActions = .ok store := ⟨_, rfl⟩
  obtain ⟨rt, hrun, hrefines⟩ := shows_plain hplain
  exact ⟨rt, store, hplain, hrun, hrefines⟩

/-- In every state that scripts reach, objects that are alike share one hashed shape. -/
theorem well_shared {actions : List ShapeAction}
    (hplain : StepFn.run plainStep [] actions = .ok store)
    (hrun : StepFn.run ShapeRuntime.step .new actions = .ok rt) : rt.WellShared := by
  obtain ⟨reached, hreached, hrelated⟩ := exists_run hplain
  rw [hrun, Except.ok.injEq] at hreached
  subst reached
  exact hrelated.sound.wellShared hrelated.canonical

theorem well_shared_alike :
    ∃ rt, StepFn.run ShapeRuntime.step .new alikeActions = .ok rt ∧ rt.WellShared := by
  obtain ⟨store, hplain⟩ : ∃ store, StepFn.run plainStep [] alikeActions = .ok store := ⟨_, rfl⟩
  obtain ⟨rt, hrun⟩ : ∃ rt, StepFn.run ShapeRuntime.step .new alikeActions = .ok rt := ⟨_, rfl⟩
  exact ⟨rt, hrun, well_shared hplain hrun⟩

/-- Deleted properties take the room of fewer than eight, or of no more than those that are
there. -/
theorem slots_bounded {actions : List ShapeAction}
    (hplain : StepFn.run plainStep [] actions = .ok store)
    (hrun : StepFn.run ShapeRuntime.step .new actions = .ok rt)
    (hobject : rt.objects.getD obj none = some p) :
    ∃ o, store.getD obj none = some o ∧
      (p.prop.length < o.properties.entries.length + 8 ∨
        p.prop.length ≤ 2 * o.properties.entries.length) := by
  obtain ⟨reached, hreached, hrelated⟩ := exists_run hplain
  rw [hrun, Except.ok.injEq] at hreached
  subst reached
  obtain ⟨sh, hshape, -⟩ := hrelated.sound.owner hobject
  have hshows := hrelated.refines.shows obj
  rw [viewOf_eq hobject hshape, eq_comm, Option.map_eq_some_iff] at hshows
  obtain ⟨o, ho, hview⟩ := hshows
  exact ⟨o, ho, hrelated.thrifty.length_prop hrelated.sound hobject
    (by rw [viewOf_eq hobject hshape, ← hview]; rfl)⟩

theorem slots_bounded_alike : ∃ rt store p o,
    StepFn.run plainStep [] alikeActions = .ok store ∧
    StepFn.run ShapeRuntime.step .new alikeActions = .ok rt ∧
    rt.objects.getD 1 none = some p ∧ store.getD 1 none = some o ∧
    (p.prop.length < o.properties.entries.length + 8 ∨
      p.prop.length ≤ 2 * o.properties.entries.length) := by
  obtain ⟨store, hplain⟩ : ∃ store, StepFn.run plainStep [] alikeActions = .ok store := ⟨_, rfl⟩
  obtain ⟨rt, p, hrun, hobject⟩ : ∃ rt p,
      StepFn.run ShapeRuntime.step .new alikeActions = .ok rt ∧
        rt.objects.getD 1 none = some p := ⟨_, _, rfl, rfl⟩
  obtain ⟨o, ho, hbound⟩ := slots_bounded hplain hrun hobject
  exact ⟨rt, store, p, o, hplain, hrun, hobject, ho, hbound⟩

end ShapeRuntime

end QuickjsBackend
