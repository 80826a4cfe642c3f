import QuickjsBackend.Template.Prototype

/-! # Links between prototype objects

Prototype objects of the functions in the cache are linked like their templates,
as long as every template up to the one without a parent gets one. What a call of
`GetFunction` has under construction is out of reach of them.
-/

namespace QuickjsBackend

open Foundation Relation

/-- All templates from this one up get prototype objects. -/
inductive Linear (table : List FunctionTemplate) : Nat → Prop
  | root {id : Nat} {template : FunctionTemplate} (hthere : table[id]? = some template)
      (hgives : template.givesPrototype = true) (hparent : template.parent = none) :
      Linear table id
  | child {id parent : Nat} {template : FunctionTemplate} (hthere : table[id]? = some template)
      (hgives : template.givesPrototype = true) (hparent : template.parent = some parent)
      (habove : Linear table parent) : Linear table id

theorem Linear.parent {table : List FunctionTemplate} {id parent : Nat}
    {template : FunctionTemplate}
    (hlinear : Linear table id)
    (htemplate : (table[id]?).map FunctionTemplate.declared = some template.declared)
    (hparent : template.parent = some parent) : Linear table parent := by
  rw [Option.map_eq_some_iff] at htemplate
  obtain ⟨found, hfound, heq⟩ := htemplate
  have hsame := FunctionTemplate.eq_of_declared FunctionTemplate.parent (fun _ => rfl) heq
  rw [hparent] at hsame
  cases hlinear with
  | root hthere _ hnone =>
      cases hfound.symm.trans hthere
      cases hnone.symm.trans hsame
  | child hthere _ hsome habove =>
      cases hfound.symm.trans hthere
      cases hsome.symm.trans hsame
      exact habove

theorem Linear.of_declared {table after : List FunctionTemplate} {id : Nat}
    (hdeclared : ∀ id : Nat, (after[id]?).map FunctionTemplate.declared =
      (table[id]?).map FunctionTemplate.declared) (hlinear : Linear table id) :
    Linear after id := by
  induction hlinear with
  | root hthere hgives hparent =>
      obtain ⟨found, hfound, heq⟩ := exists_of_map_eq (hdeclared _) hthere
      have hsameGives :=
        FunctionTemplate.eq_of_declared FunctionTemplate.givesPrototype (fun _ => rfl) heq
      have hsameParent := FunctionTemplate.eq_of_declared FunctionTemplate.parent (fun _ => rfl) heq
      exact .root hfound (hsameGives.trans hgives) (hsameParent.trans hparent)
  | child hthere hgives hparent _ ih =>
      obtain ⟨found, hfound, heq⟩ := exists_of_map_eq (hdeclared _) hthere
      have hsameGives :=
        FunctionTemplate.eq_of_declared FunctionTemplate.givesPrototype (fun _ => rfl) heq
      have hsameParent := FunctionTemplate.eq_of_declared FunctionTemplate.parent (fun _ => rfl) heq
      exact .child hfound (hsameGives.trans hgives) (hsameParent.trans hparent) ih

/-- `JS_SetPrototype` changes no more than the object. -/
theorem Heap.setPrototype_cases (heap : Heap) (ptr : Ptr) (proto : JSValue) :
    heap.setPrototype ptr proto = heap ∨ ∃ change : JSObject → JSObject,
      heap.setPrototype ptr proto = heap.modifyObject ptr change ∧
        ∀ object, (change object).classData = object.classData := by
  unfold setPrototype
  split
  next => exact .inr ⟨_, rfl, fun _ => rfl⟩
  next =>
    split
    next => exact .inl rfl
    next => exact .inr ⟨_, rfl, fun _ => rfl⟩
  next => exact .inl rfl

theorem Heap.length_setPrototype (heap : Heap) (ptr : Ptr) (proto : JSValue) :
    (heap.setPrototype ptr proto).length = heap.length := by
  rcases heap.setPrototype_cases ptr proto with h | ⟨change, h, _⟩
  · rw [h]
  · rw [h, length_modifyObject]

theorem Realm.getProperty_of_ownPrototype (realm : Realm) {heap : Heap} {func proto : Ptr}
    (hproto : heap.ownPrototype func = some proto) :
    realm.getProperty heap (.ref .object func) "prototype" = .ref .object proto := by
  unfold Heap.ownPrototype at hproto
  simp only [Option.bind_eq_bind, Option.bind_eq_some_iff] at hproto
  obtain ⟨object, hobject, property, hproperty, hslot⟩ := hproto
  unfold getProperty Heap.findProperty
  simp only [List.findSome?_cons, hobject, Option.bind_some, hproperty]
  split at hslot
  next heq =>
    cases hslot
    rw [heq]
  next => cases hslot

/-- The function of a template has four values of data, that of an accessor three. -/
def JSObject.isTemplateFunction (object : JSObject) : Bool :=
  match object.classData with
  | .cFunctionData funcData => funcData.length == 4
  | _ => false

namespace Build

variable (build : Build) (realm : Realm) (context floor : Nat)

/-- The prototype object of the function that is cached for a template. -/
def prototypeObject (id : Nat) : Option Ptr :=
  (build.functionOf context id).bind build.heap.ownPrototype

/-- The prototype of the object is the prototype object of the parent. -/
def Linked (template : FunctionTemplate) (proto : Ptr) : Prop :=
  match template.parent with
  | none => build.heap.protoOf proto = some realm.objectProto
  | some parent => ∃ above, build.prototypeObject context parent = some above ∧
      build.heap.protoOf proto = some above

/-- The function of a constructor and its prototype object are as declared, and no
function that is cached later makes a difference. -/
def Furnished (busy : Ptr → Prop) (template : FunctionTemplate) (func : Ptr) : Prop :=
  ∃ proto made link, ¬ busy proto ∧
    List.Forall₂ build.heap.ServesAccessor (prototypeAccessors template.prototypeTemplate) made ∧
    ∀ function : Nat → Option Ptr,
      (∀ id ptr, build.functionOf context id = some ptr → function id = some ptr) →
      build.heap.objectAt func = some (realm.constructorFunction template function proto) ∧
      build.heap.objectAt proto = some (realm.constructorPrototype template made function link func)

/-- What there is of a template with a function: it has a prototype object if it is to have
one, what it uses has functions, and it is as declared. -/
structure Built (busy : Ptr → Prop) (id : Nat) (template : FunctionTemplate) (func : Ptr) :
    Prop where
  owns : template.givesPrototype = true ↔ (build.heap.ownPrototype func).isSome
  uses : ∀ callee ∈ template.uses, (build.cached context callee).isSome
  furnished : template.isConstrutor = true → build.Furnished realm context busy template func
  proto : ∀ proto, build.heap.ownPrototype func = some proto →
    floor ≤ proto ∧ proto < build.heap.length ∧ ¬ busy proto
  plain : ∀ proto object, build.heap.ownPrototype func = some proto →
    build.heap.objectAt proto = some object → object.isTemplateFunction = false
  linked : ∀ proto, build.heap.ownPrototype func = some proto → Linear build.table id →
    build.Linked realm context template proto

/-- What `GetFunction` leaves, apart from the objects that are busy; the objects
below the floor were there before. -/
structure Derived (busy : Ptr → Prop) : Prop where
  sound : build.Sound context
  floor_le : floor ≤ build.heap.length
  base : ∀ ptr proto, ptr < floor → build.heap.protoOf ptr = some proto → proto < floor
  root : realm.objectProto < floor
  away : ∀ ptr, busy ptr → floor ≤ ptr ∧ ptr < build.heap.length
  functions : ∀ id func, build.functionOf context id = some func → floor ≤ func ∧ ¬ busy func
  unique : ∀ id other func, build.functionOf context id = some func →
    build.functionOf context other = some func → id = other
  owned : ∀ ptr object, floor ≤ ptr → build.heap.objectAt ptr = some object →
    object.isTemplateFunction = true → busy ptr ∨ ∃ id, build.functionOf context id = some ptr
  built : ∀ (id : Nat) template func, build.table[id]? = some template →
    build.functionOf context id = some func →
      build.Built realm context floor busy id template func

variable {build realm context floor} {next : Build} {busy : Ptr → Prop} {id : Nat} {func : Ptr}

theorem functionOf_congr (hcached : next.cached context = build.cached context) :
    next.functionOf context = build.functionOf context := by
  funext id
  unfold functionOf
  rw [hcached]

theorem Sound.lt_length (hsound : build.Sound context)
    (hfunc : build.functionOf context id = some func) : func < build.heap.length := by
  rw [functionOf_eq_some_iff] at hfunc
  obtain ⟨ptr, object, template, heq, hobject, _⟩ := hsound.functions id _ hfunc
  cases heq
  exact Heap.lt_length_of_objectAt hobject

theorem prototypeObject_eq_some_iff {proto : Ptr} :
    build.prototypeObject context id = some proto ↔
      ∃ func, build.functionOf context id = some func ∧
        build.heap.ownPrototype func = some proto := by
  rw [prototypeObject, Option.bind_eq_some_iff]

theorem exists_template_of_functionOf (hfunc : build.functionOf context id = some func) :
    ∃ template, build.table[id]? = some template := by
  rw [functionOf_eq_some_iff, cached, Option.bind_eq_some_iff] at hfunc
  obtain ⟨template, htemplate, _⟩ := hfunc
  exact ⟨template, htemplate⟩

namespace Derived

variable (hderived : build.Derived realm context floor busy)

include hderived

theorem exists_functionOf (hsome : (build.cached context id).isSome) :
    ∃ ptr, build.functionOf context id = some ptr := by
  obtain ⟨func, hfunc⟩ := Option.isSome_iff_exists.mp hsome
  obtain ⟨ptr, rfl, _⟩ := hderived.sound.isFunction hfunc
  exact ⟨ptr, functionOf_eq_some_iff.mpr hfunc⟩

theorem uses {template : FunctionTemplate} {callee : Nat}
    (htemplate : build.table[id]? = some template) (hsome : (build.cached context id).isSome)
    (huse : callee ∈ template.uses) : (build.cached context callee).isSome := by
  obtain ⟨func, hfunc⟩ := hderived.exists_functionOf hsome
  exact (hderived.built id template func htemplate hfunc).uses callee huse

theorem protos {proto : Ptr} (hproto : build.prototypeObject context id = some proto) :
    floor ≤ proto ∧ proto < build.heap.length ∧ ¬ busy proto := by
  obtain ⟨func, hfunc, hown⟩ := prototypeObject_eq_some_iff.mp hproto
  obtain ⟨template, htemplate⟩ := exists_template_of_functionOf hfunc
  exact (hderived.built id template func htemplate hfunc).proto proto hown

theorem linked {template : FunctionTemplate} {proto : Ptr}
    (htemplate : build.table[id]? = some template) (hlinear : Linear build.table id)
    (hproto : build.prototypeObject context id = some proto) :
    build.Linked realm context template proto := by
  obtain ⟨func, hfunc, hown⟩ := prototypeObject_eq_some_iff.mp hproto
  exact (hderived.built id template func htemplate hfunc).linked proto hown hlinear

end Derived

theorem ownPrototype_congr (hobject : next.heap.objectAt func = build.heap.objectAt func) :
    next.heap.ownPrototype func = build.heap.ownPrototype func := by
  rw [Heap.ownPrototype, Heap.ownPrototype, hobject]

theorem protoOf_congr {ptr : Ptr} (hobject : next.heap.objectAt ptr = build.heap.objectAt ptr) :
    next.heap.protoOf ptr = build.heap.protoOf ptr := by
  rw [Heap.protoOf, Heap.protoOf, hobject]

theorem Linked.of_same {template : FunctionTemplate} {proto : Ptr}
    (hlinked : build.Linked realm context template proto)
    (hprotos : ∀ id above, build.prototypeObject context id = some above →
      next.prototypeObject context id = some above)
    (hproto : next.heap.protoOf proto = build.heap.protoOf proto) :
    next.Linked realm context template proto := by
  unfold Linked at hlinked ⊢
  rw [hproto]
  split at hlinked
  next => exact hlinked
  next parent _ =>
    obtain ⟨above, habove, hlink⟩ := hlinked
    exact ⟨above, hprotos parent above habove, hlink⟩

/-- Templates that are declared alike are furnished alike. -/
theorem Furnished.of_declared {first second : FunctionTemplate}
    (hfurnished : build.Furnished realm context busy first func)
    (hdeclared : first.declared = second.declared) :
    build.Furnished realm context busy second func := by
  obtain ⟨proto, made, link, hfree, hmade, hobjects⟩ := hfurnished
  have hproto := FunctionTemplate.eq_of_declared FunctionTemplate.prototypeTemplate (fun _ => rfl)
    hdeclared
  have htemplate := FunctionTemplate.eq_of_declared FunctionTemplate.toTemplate (fun _ => rfl)
    hdeclared
  have hdata := FunctionTemplate.eq_of_declared FunctionTemplate.funcData (fun _ => rfl) hdeclared
  refine ⟨proto, made, link, hfree, hproto ▸ hmade, fun function hfunction => ?_⟩
  have hboth := hobjects function hfunction
  simp only [Realm.constructorFunction, Realm.constructorPrototype, hproto, htemplate, hdata]
    at hboth
  exact hboth

theorem Linked.of_declared {first second : FunctionTemplate} {proto : Ptr}
    (hlinked : build.Linked realm context first proto)
    (hdeclared : first.declared = second.declared) :
    build.Linked realm context second proto := by
  unfold Linked at hlinked ⊢
  rwa [← FunctionTemplate.eq_of_declared FunctionTemplate.parent (fun _ => rfl) hdeclared]

theorem Furnished.of_steady {wide : Ptr → Prop} {template : FunctionTemplate}
    (hfurnished : build.Furnished realm context busy template func)
    (hsteady : build.Steady context busy next)
    (hfunctions : ∀ id ptr, build.functionOf context id = some ptr →
      next.functionOf context id = some ptr)
    (hfunc : ¬ busy func) (hlt : func < build.heap.length)
    (hwide : ∀ ptr, wide ptr → busy ptr ∨ build.heap.length ≤ ptr) :
    next.Furnished realm context wide template func := by
  obtain ⟨proto, made, link, hfree, hmade, hobjects⟩ := hfurnished
  have hproto := Heap.lt_length_of_objectAt (hobjects _ fun _ _ h => h).2
  refine ⟨proto, made, link, fun h => ?_,
    hmade.imp fun _ _ h => Builder.servesAccessor_later hsteady h, fun function hfunction => ?_⟩
  · exact (hwide proto h).elim hfree (Nat.not_le.mpr hproto)
  · obtain ⟨hfuncObject, hprotoObject⟩ := hobjects function fun id ptr h =>
      hfunction id ptr (hfunctions id ptr h)
    rw [hsteady.frame func hlt hfunc, hsteady.frame proto hproto hfree]
    exact ⟨hfuncObject, hprotoObject⟩

theorem Built.of_declared {first second : FunctionTemplate}
    (hbuilt : build.Built realm context floor busy id first func)
    (hdeclared : first.declared = second.declared) :
    build.Built realm context floor busy id second func where
  owns := by
    rw [← FunctionTemplate.eq_of_declared FunctionTemplate.givesPrototype (fun _ => rfl) hdeclared]
    exact hbuilt.owns
  uses := by
    rw [← FunctionTemplate.eq_of_declared FunctionTemplate.uses (fun _ => rfl) hdeclared]
    exact hbuilt.uses
  furnished hconstrutor := by
    rw [← FunctionTemplate.eq_of_declared FunctionTemplate.isConstrutor (fun _ => rfl) hdeclared]
      at hconstrutor
    exact (hbuilt.furnished hconstrutor).of_declared hdeclared
  proto := hbuilt.proto
  plain := hbuilt.plain
  linked proto hown hlinear := (hbuilt.linked proto hown hlinear).of_declared hdeclared

/-- Other templates have changed. -/
theorem Built.of_heap {template : FunctionTemplate}
    (hbuilt : build.Built realm context floor busy id template func)
    (hheap : next.heap = build.heap) (hcached : next.cached context = build.cached context)
    (hlinear : Linear next.table id → Linear build.table id) :
    next.Built realm context floor busy id template func := by
  have hfunctions : next.functionOf context = build.functionOf context := functionOf_congr hcached
  constructor
  case owns => exact hheap ▸ hbuilt.owns
  case uses => exact hcached ▸ hbuilt.uses
  case furnished =>
    unfold Furnished
    rw [hfunctions, hheap]
    exact hbuilt.furnished
  case proto => exact hheap ▸ hbuilt.proto
  case plain => exact hheap ▸ hbuilt.plain
  case linked =>
    intro proto hown hnext
    rw [hheap] at hown
    refine (hbuilt.linked proto hown (hlinear hnext)).of_same (fun known above habove => ?_) ?_
    · rwa [prototypeObject, hfunctions, hheap]
    · rw [hheap]

/-- Fewer objects are busy. -/
theorem Built.narrow {wide : Ptr → Prop} {template : FunctionTemplate}
    (hbuilt : build.Built realm context floor wide id template func)
    (hnarrow : ∀ ptr, busy ptr → wide ptr) :
    build.Built realm context floor busy id template func where
  owns := hbuilt.owns
  uses := hbuilt.uses
  furnished hconstrutor := by
    obtain ⟨proto, made, link, hfree, hall⟩ := hbuilt.furnished hconstrutor
    exact ⟨proto, made, link, fun h => hfree (hnarrow proto h), hall⟩
  proto proto hown := by
    obtain ⟨hfloor, hlt, hfree⟩ := hbuilt.proto proto hown
    exact ⟨hfloor, hlt, fun h => hfree (hnarrow proto h)⟩
  plain := hbuilt.plain
  linked := hbuilt.linked

/-- Busy objects have changed, and new ones may be busy. -/
theorem Built.of_steady {wide : Ptr → Prop} {template : FunctionTemplate}
    (hbuilt : build.Built realm context floor busy id template func)
    (hcached : next.cached context = build.cached context)
    (hsteady : build.Steady context busy next)
    (hprotos : next.prototypeObject context = build.prototypeObject context)
    (hfunc : ¬ busy func) (hlt : func < build.heap.length)
    (hwide : ∀ ptr, wide ptr → busy ptr ∨ build.heap.length ≤ ptr) :
    next.Built realm context floor wide id template func := by
  have hown : next.heap.ownPrototype func = build.heap.ownPrototype func :=
    ownPrototype_congr (hsteady.frame func hlt hfunc)
  have hframe : ∀ proto, build.heap.ownPrototype func = some proto →
      next.heap.objectAt proto = build.heap.objectAt proto := fun proto h =>
    hsteady.frame proto (hbuilt.proto proto h).2.1 (hbuilt.proto proto h).2.2
  constructor
  case owns =>
    rw [hown]
    exact hbuilt.owns
  case uses =>
    rw [hcached]
    exact hbuilt.uses
  case furnished =>
    intro hconstrutor
    refine (hbuilt.furnished hconstrutor).of_steady hsteady (fun _ _ h => ?_) hfunc hlt hwide
    rwa [functionOf_congr hcached]
  case proto =>
    intro proto h
    rw [hown] at h
    obtain ⟨hfloor, hltProto, hfree⟩ := hbuilt.proto proto h
    refine ⟨hfloor, hltProto.trans_le hsteady.grows, fun hbusy => ?_⟩
    exact (hwide proto hbusy).elim hfree (Nat.not_le.mpr hltProto)
  case plain =>
    intro proto object h hobject
    rw [hown] at h
    rw [hframe proto h] at hobject
    exact hbuilt.plain proto object h hobject
  case linked =>
    intro proto h hlinear
    rw [hown] at h
    have hbefore := hlinear.of_declared fun id => (hsteady.declared id).symm
    refine (hbuilt.linked proto h hbefore).of_same (fun known above habove => ?_)
      (protoOf_congr (hframe proto h))
    rwa [hprotos]

/-- Busy objects have changed, and new ones are busy if they are functions. -/
theorem Derived.widen {wide : Ptr → Prop} (hderived : build.Derived realm context floor busy)
    (hsound : next.Sound context) (hcached : next.cached context = build.cached context)
    (hsteady : build.Steady context busy next)
    (hwide : ∀ ptr, wide ptr → busy ptr ∨ build.heap.length ≤ ptr ∧ ptr < next.heap.length)
    (hnarrow : ∀ ptr, busy ptr → wide ptr)
    (hnew : ∀ ptr object, build.heap.length ≤ ptr → next.heap.objectAt ptr = some object →
      object.isTemplateFunction = true → wide ptr) :
    next.Derived realm context floor wide := by
  have hfunctions : next.functionOf context = build.functionOf context := functionOf_congr hcached
  have hfree : ∀ ptr, ptr < build.heap.length → ¬ busy ptr → ¬ wide ptr := by
    intro ptr hlt hfree h
    rcases hwide ptr h with h | ⟨hle, _⟩
    · exact hfree h
    · exact Nat.not_lt.mpr hle hlt
  have hprotos : next.prototypeObject context = build.prototypeObject context := by
    funext id
    unfold prototypeObject
    rw [hfunctions]
    cases hfunc : build.functionOf context id with
    | none => rfl
    | some func =>
        exact ownPrototype_congr (hsteady.frame func (hderived.sound.lt_length hfunc)
          (hderived.functions id func hfunc).2)
  constructor
  case sound => exact hsound
  case floor_le => exact hderived.floor_le.trans hsteady.grows
  case root => exact hderived.root
  case base =>
    intro ptr proto hlt hproto
    have hfree : ¬ busy ptr := fun h => absurd (hderived.away ptr h).1 (Nat.not_le.mpr hlt)
    have hsame := hsteady.frame ptr (Nat.lt_of_lt_of_le hlt hderived.floor_le) hfree
    rw [protoOf_congr hsame] at hproto
    exact hderived.base ptr proto hlt hproto
  case away =>
    intro ptr h
    rcases hwide ptr h with h | ⟨hle, hlt⟩
    · obtain ⟨hfloor, hlt⟩ := hderived.away ptr h
      exact ⟨hfloor, Nat.lt_of_lt_of_le hlt hsteady.grows⟩
    · exact ⟨hderived.floor_le.trans hle, hlt⟩
  case functions =>
    intro id func hfunc
    rw [hfunctions] at hfunc
    obtain ⟨hfloor, hnot⟩ := hderived.functions id func hfunc
    exact ⟨hfloor, hfree func (hderived.sound.lt_length hfunc) hnot⟩
  case unique =>
    rw [hfunctions]
    exact hderived.unique
  case owned =>
    intro ptr object hfloor hobject htemplate
    rcases Nat.lt_or_ge ptr build.heap.length with hlt | hle
    · by_cases hbusy : busy ptr
      · exact .inl (hnarrow ptr hbusy)
      · rw [hsteady.frame ptr hlt hbusy] at hobject
        rw [hfunctions]
        exact .inr ((hderived.owned ptr object hfloor hobject htemplate).resolve_left hbusy)
    · exact .inl (hnew ptr object hle hobject htemplate)
  case built =>
    intro id template func htemplate hfunc
    obtain ⟨before, hbefore, heq⟩ := exists_of_map_eq (hsteady.declared id).symm htemplate
    rw [hfunctions] at hfunc
    exact ((hderived.built id before func hbefore hfunc).of_steady hcached hsteady hprotos
      (hderived.functions id func hfunc).2 (hderived.sound.lt_length hfunc)
      fun ptr h => (hwide ptr h).imp_right And.left).of_declared heq

/-- Nothing but busy objects has changed, and no function is new. -/
theorem Derived.of_frame (hderived : build.Derived realm context floor busy)
    (hsound : next.Sound context) (htable : next.table = build.table)
    (hsteady : build.Steady context busy next)
    (hnew : ∀ ptr object, build.heap.length ≤ ptr → next.heap.objectAt ptr = some object →
      object.isTemplateFunction = false) : next.Derived realm context floor busy := by
  refine hderived.widen hsound (cached_congr htable) hsteady (fun _ h => .inl h) (fun _ h => h)
    fun ptr object hle hobject h => ?_
  rw [hnew ptr object hle hobject] at h
  cases h

/-- The object that was not there is busy. -/
theorem Derived.withBusy (hderived : build.Derived realm context floor busy)
    (hsound : next.Sound context) (hsteady : build.Steady context (fun _ => False) next)
    (htable : next.table = build.table) (hlength : next.heap.length = build.heap.length + 1) :
    next.Derived realm context floor (fun ptr => busy ptr ∨ ptr = build.heap.length) := by
  refine hderived.widen hsound (cached_congr htable) (hsteady.mono fun _ _ h => h.elim)
    (fun ptr h => ?_) (fun _ h => .inl h) fun ptr object hle hobject _ => .inr ?_
  · refine h.imp_right fun heq => ⟨le_of_eq heq.symm, ?_⟩
    rw [heq, hlength]
    exact Nat.lt_succ_self _
  · have hlt := Heap.lt_length_of_objectAt hobject
    rw [hlength] at hlt
    exact Nat.le_antisymm (Nat.lt_succ_iff.mp hlt) hle

theorem functionOf_cache {template : FunctionTemplate}
    (htemplate : build.table[id]? = some template) (other : Nat) :
    (build.cache context id (.ref .object func)).functionOf context other =
      if other = id then some func else build.functionOf context other := by
  unfold functionOf
  rw [cached_cache htemplate]
  by_cases heq : other = id
  · rw [if_pos heq, if_pos heq]
  · rw [if_neg heq, if_neg heq]

theorem functionOf_cache_of_some {template : FunctionTemplate} {other : Nat} {ptr : Ptr}
    (htemplate : build.table[id]? = some template) (hnone : build.functionOf context id = none)
    (hfunc : build.functionOf context other = some ptr) :
    (build.cache context id (.ref .object func)).functionOf context other = some ptr := by
  rw [functionOf_cache htemplate, if_neg]
  · exact hfunc
  · rintro rfl
    rw [hnone] at hfunc
    cases hfunc

theorem prototypeObject_cache {template : FunctionTemplate}
    (htemplate : build.table[id]? = some template) (other : Nat) :
    (build.cache context id (.ref .object func)).prototypeObject context other =
      if other = id then build.heap.ownPrototype func
      else build.prototypeObject context other := by
  unfold prototypeObject
  rw [functionOf_cache htemplate]
  by_cases heq : other = id
  · rw [if_pos heq, if_pos heq]
    rfl
  · rw [if_neg heq, if_neg heq]
    rfl

/-- The template had no prototype object that others could be linked to. -/
theorem prototypeObject_cache_of_some {template : FunctionTemplate} {other : Nat} {above : Ptr}
    (htemplate : build.table[id]? = some template) (hnone : build.functionOf context id = none)
    (habove : build.prototypeObject context other = some above) :
    (build.cache context id (.ref .object func)).prototypeObject context other = some above := by
  rw [prototypeObject_cache htemplate, if_neg]
  · exact habove
  · rintro rfl
    rw [prototypeObject, hnone] at habove
    cases habove

theorem isSome_cached_cache {template : FunctionTemplate} {known : Nat} {value : JSValue}
    (htemplate : build.table[id]? = some template)
    (hknown : (build.cached context known).isSome) :
    ((build.cache context id value).cached context known).isSome := by
  rw [cached_cache htemplate]
  split
  next => rfl
  next => exact hknown

/-- What is known of a new function and its prototype object before the function is
cached, when they are all that is busy in the wide and not in the narrow sense. -/
structure Finished (build : Build) (realm : Realm) (context floor : Nat) (busy wide : Ptr → Prop)
    (id : Nat) (template : FunctionTemplate) (func : Ptr) : Prop
    extends Built build realm context floor busy id template func where
  narrow : ∀ ptr, busy ptr → wide ptr
  mine : wide func
  free : ¬ busy func
  rest : ∀ ptr object, wide ptr → build.heap.objectAt ptr = some object →
    object.isTemplateFunction = true → busy ptr ∨ ptr = func

/-- One more function is cached. -/
theorem Built.cache {template known : FunctionTemplate} {other : Nat} {found : Ptr}
    (hbuilt : build.Built realm context floor busy other known found)
    (htemplate : build.table[id]? = some template) (hnone : build.functionOf context id = none) :
    (build.cache context id (.ref .object func)).Built realm context floor busy other known
      found where
  owns := hbuilt.owns
  uses callee huse := isSome_cached_cache htemplate (hbuilt.uses callee huse)
  furnished hconstrutor := by
    obtain ⟨proto, made, link, hfree, hmade, hobjects⟩ := hbuilt.furnished hconstrutor
    refine ⟨proto, made, link, hfree, hmade, fun function hfunction => ?_⟩
    exact hobjects function fun known ptr h =>
      hfunction known ptr (functionOf_cache_of_some htemplate hnone h)
  proto := hbuilt.proto
  plain := hbuilt.plain
  linked proto hown hlinear := by
    have hbefore := hlinear.of_declared fun other => (declared_cache other).symm
    exact (hbuilt.linked proto hown hbefore).of_same
      (fun _ _ habove => prototypeObject_cache_of_some htemplate hnone habove) rfl

/-- The new function of a template is cached, and what was built for it is free. -/
theorem Derived.cache {wide : Ptr → Prop} (hderived : build.Derived realm context floor wide)
    {template : FunctionTemplate} {object : JSObject}
    (htemplate : build.table[id]? = some template) (hnone : build.functionOf context id = none)
    (hobject : build.heap.objectAt func = some object)
    (hclass : object.classData = .cFunctionData template.funcData)
    (hfinished : build.Finished realm context floor busy wide id template func) :
    (build.cache context id (.ref .object func)).Derived realm context floor busy := by
  have hdeclared : ∀ other : Nat, (build.table[other]?).map FunctionTemplate.declared =
      ((build.cache context id (.ref .object func)).table[other]?).map FunctionTemplate.declared :=
    fun other => (declared_cache other).symm
  have hfunctions : ∀ other : Nat,
      (build.cache context id (.ref .object func)).functionOf context other =
        if other = id then some func else build.functionOf context other :=
    functionOf_cache htemplate
  have hold : ∀ other, build.functionOf context other ≠ some func := fun other h =>
    (hderived.functions other func h).2 hfinished.mine
  constructor
  case sound => exact hderived.sound.cache htemplate hobject hclass
  case floor_le => exact hderived.floor_le
  case base => exact hderived.base
  case root => exact hderived.root
  case away => exact fun ptr h => hderived.away ptr (hfinished.narrow ptr h)
  case functions =>
    intro other found hfound
    rw [hfunctions] at hfound
    split at hfound
    next =>
      cases hfound
      exact ⟨(hderived.away func hfinished.mine).1, hfinished.free⟩
    next =>
      obtain ⟨hfloor, hnot⟩ := hderived.functions other found hfound
      exact ⟨hfloor, fun h => hnot (hfinished.narrow found h)⟩
  case unique =>
    intro first second found hfirst hsecond
    rw [hfunctions] at hfirst hsecond
    split at hfirst
    next heq =>
      cases hfirst
      split at hsecond
      next hsame => rw [heq, hsame]
      next => exact absurd hsecond (hold second)
    next =>
      split at hsecond
      next =>
        cases hsecond
        exact absurd hfirst (hold first)
      next => exact hderived.unique first second found hfirst hsecond
  case owned =>
    intro ptr found hfloor hfound hfunction
    rcases hderived.owned ptr found hfloor hfound hfunction with hwide | ⟨other, hother⟩
    · refine (hfinished.rest ptr found hwide hfound hfunction).imp_right fun heq => ⟨id, ?_⟩
      rw [hfunctions, if_pos rfl, heq]
    · exact .inr ⟨other, functionOf_cache_of_some htemplate hnone hother⟩
  case built =>
    intro other after found hafter hfound
    obtain ⟨before, hbefore, heq⟩ := exists_of_map_eq (hdeclared other) hafter
    have hbuilt : build.Built realm context floor busy other before found := by
      rw [hfunctions] at hfound
      split at hfound
      next h =>
        subst h
        cases hfound
        cases htemplate.symm.trans hbefore
        exact hfinished.toBuilt
      next => exact (hderived.built other before found hbefore hfound).narrow hfinished.narrow
    exact (hbuilt.cache htemplate hnone).of_declared heq

/-- Objects below the floor, and prototype objects that are linked all the way. -/
def Settled (context floor : Nat) (build : Build) (ptr : Ptr) : Prop :=
  ptr < floor ∨ ∃ id, Linear build.table id ∧ build.prototypeObject context id = some ptr

theorem Derived.settled_protoOf (hderived : build.Derived realm context floor busy)
    {ptr proto : Ptr}
    (hsettled : build.Settled context floor ptr) (hproto : build.heap.protoOf ptr = some proto) :
    build.Settled context floor proto := by
  rcases hsettled with hlt | ⟨id, hlinear, hptr⟩
  · exact .inl (hderived.base ptr proto hlt hproto)
  · cases hlinear with
    | root hthere hgives hparent =>
        have hlinked := hderived.linked hthere (.root hthere hgives hparent) hptr
        rw [Linked, hparent] at hlinked
        cases hproto.symm.trans hlinked
        exact .inl hderived.root
    | child hthere hgives hparent habove =>
        have hlinked := hderived.linked hthere (.child hthere hgives hparent habove) hptr
        rw [Linked, hparent] at hlinked
        obtain ⟨above, hprotoAbove, hlink⟩ := hlinked
        cases hproto.symm.trans hlink
        exact .inr ⟨_, habove, hprotoAbove⟩

/-- What is busy is not among the prototypes of a settled object. -/
theorem Derived.not_mem_protoChain (hderived : build.Derived realm context floor busy)
    {ptr above : Ptr} (hbusy : busy ptr) (habove : build.Settled context floor above) :
    ptr ∉ above :: build.heap.protoChain above := by
  have hnot : ¬ build.Settled context floor ptr := by
    rintro (hlt | ⟨id, _, hproto⟩)
    · exact Nat.not_lt.mpr (hderived.away ptr hbusy).1 hlt
    · exact (hderived.protos hproto).2.2 hbusy
  rw [List.mem_cons, Heap.mem_protoChain_iff]
  rintro (rfl | hmem)
  · exact hnot habove
  · apply hnot
    clear hnot hbusy
    induction hmem with
    | single hlink => exact hderived.settled_protoOf habove hlink
    | tail _ hlink ih => exact hderived.settled_protoOf ih hlink

/-- Nothing but the object is as it was not before `JS_SetPrototype`. -/
theorem steady_back_setPrototype (build : Build) (ptr : Ptr) (proto : JSValue) :
    Steady { build with heap := build.heap.setPrototype ptr proto } context (· = ptr) build := by
  rcases build.heap.setPrototype_cases ptr proto with heq | ⟨change, heq, hclass⟩
  · rw [heq]
    exact Steady.refl build
  · rw [heq]
    refine ⟨le_of_eq (Heap.length_modifyObject change), fun other _ hnot => ?_,
      fun other object hobject => ?_, fun other chars hstring => ?_, fun _ => rfl, fun _ _ h => h⟩
    · exact ((Heap.objectAt_modifyObject change).trans (if_neg hnot)).symm
    · rw [Heap.objectAt_modifyObject] at hobject
      split at hobject
      next h =>
        obtain ⟨found, hfound, rfl⟩ := Option.map_eq_some_iff.mp hobject
        exact ⟨found, h ▸ hfound, (hclass found).symm⟩
      next => exact ⟨object, hobject, rfl⟩
    · unfold Heap.modifyObject at hstring
      split at hstring
      next => exact hstring
      next found hfound =>
        by_cases h : ptr = other
        · subst h
          have hlt := Heap.lt_length_of_objectAt hfound
          rw [List.getElem?_set_self hlt] at hstring
          cases hstring
        · rwa [List.getElem?_set_ne h] at hstring

/-- The object inherits from the prototype object of a template whose function is
cached. -/
theorem Derived.inheritFrom (hderived : build.Derived realm context floor busy) {proto : Ptr}
    {object : JSObject} {func : JSValue} (hbusy : busy proto)
    (hobject : build.heap.objectAt proto = some object) (hlinear : Linear build.table id)
    (hcached : build.cached context id = some func)
    (hnext : next = { build with heap := realm.inheritFrom build.heap proto func }) :
    ∃ above, next.prototypeObject context id = some above ∧
      next.heap.protoOf proto = some above := by
  obtain ⟨ptr, rfl, _⟩ := hderived.sound.isFunction hcached
  have hfunc := functionOf_eq_some_iff.mpr hcached
  obtain ⟨template, htemplate, hgives⟩ : ∃ template, build.table[id]? = some template ∧
      template.givesPrototype = true := by
    cases hlinear with
    | root hthere hgives _ => exact ⟨_, hthere, hgives⟩
    | child hthere hgives _ _ => exact ⟨_, hthere, hgives⟩
  obtain ⟨above, habove⟩ := Option.isSome_iff_exists.mp
    ((hderived.built id template ptr htemplate hfunc).owns.mp hgives)
  have hproperty := realm.getProperty_of_ownPrototype habove
  have hprotoAbove := prototypeObject_eq_some_iff.mpr ⟨ptr, hfunc, habove⟩
  have hnot := hderived.not_mem_protoChain hbusy (.inr ⟨id, hlinear, hprotoAbove⟩)
  have hheap : next.heap =
      build.heap.modifyObject proto fun object => { object with proto := some above } := by
    rw [hnext]
    simp only [Realm.inheritFrom, hproperty, Heap.setPrototype, if_neg hnot]
  have htable : next.table = build.table := by rw [hnext]
  refine ⟨above, prototypeObject_eq_some_iff.mpr ⟨ptr, ?_, ?_⟩, ?_⟩
  · rw [functionOf_congr (cached_congr htable)]
    exact hfunc
  · rw [← habove]
    apply ownPrototype_congr
    rw [hheap, Heap.objectAt_modifyObject, if_neg]
    rintro rfl
    exact (hderived.functions id _ hfunc).2 hbusy
  · rw [Heap.protoOf, hheap, Heap.objectAt_modifyObject, if_pos rfl, hobject]
    rfl

end Build

namespace Builder

variable {realm : Realm} {context floor : Nat} {busy : Ptr → Prop} {get : Nat → Builder JSValue}
  {obj : Ptr}

/-- What `GetFunction` leaves is kept. -/
abbrev Keeps (realm : Realm) (context floor : Nat) (busy : Ptr → Prop) (build next : Build) :
    Prop :=
  build.Derived realm context floor busy → next.Derived realm context floor busy

instance : IsPreorder Build (Keeps realm context floor busy) where
  refl _ := id
  trans _ _ _ hfirst hsecond := hsecond ∘ hfirst

/-- Programs that leave the templates and all but busy objects alone, and make no
function of a template. -/
theorem keeps_of_steady {α : Type} {program : Builder α}
    (hprogram : ∀ build value next, build.Sound context → program build = some (value, next) →
      next.table = build.table ∧ build.Steady context busy next ∧
        ∀ ptr object, build.heap.length ≤ ptr → next.heap.objectAt ptr = some object →
          object.isTemplateFunction = false) :
    program.Moves (Keeps realm context floor busy) := by
  intro build value next hreturns hderived
  obtain ⟨htable, hsteady, hnew⟩ := hprogram build value next hderived.sound hreturns
  exact hderived.of_frame (hderived.sound.of_table hsteady htable) htable hsteady hnew

/-- No object is where the heap has no cell. -/
theorem new_of_length {before after : Heap} (hlength : after.length = before.length)
    (ptr : Ptr) (object : JSObject) (hle : before.length ≤ ptr)
    (hobject : after.objectAt ptr = some object) : object.isTemplateFunction = false := by
  have hlt := Heap.lt_length_of_objectAt hobject
  rw [hlength] at hlt
  exact absurd hlt (Nat.not_lt.mpr hle)

/-- A single object is new. -/
theorem new_of_object {before after : Heap} {made : JSObject}
    (hlength : after.length = before.length + 1) (hmade : after.objectAt before.length = some made)
    (hplain : made.isTemplateFunction = false) (ptr : Ptr) (object : JSObject)
    (hle : before.length ≤ ptr) (hobject : after.objectAt ptr = some object) :
    object.isTemplateFunction = false := by
  have hlt := Heap.lt_length_of_objectAt hobject
  rw [hlength] at hlt
  have heq : ptr = before.length := Nat.le_antisymm (Nat.lt_succ_iff.mp hlt) hle
  subst heq
  cases hmade.symm.trans hobject
  exact hplain

theorem keeps_modifyObject {heaps : Heap → Heap}
    (hobj : busy obj) (hheaps : ∀ heap, heaps heap = heap ∨
      ∃ change : JSObject → JSObject, heaps heap = heap.modifyObject obj change ∧
        ∀ object, (change object).classData = object.classData) :
    (onHeap heaps).Moves (Keeps realm context floor busy) := by
  refine keeps_of_steady fun build value next _ hreturns => ?_
  cases Option.some.inj hreturns
  rcases hheaps build.heap with heq | ⟨change, heq, hclass⟩
  · simp only [heq]
    exact ⟨trivial, Build.Steady.refl build, new_of_length rfl⟩
  · simp only [heq]
    exact ⟨trivial, Build.steady_modifyObject hobj hclass,
      new_of_length (Heap.length_modifyObject change)⟩

theorem keeps_defineProperty (hobj : busy obj) (name : String) (value getter setter : JSValue)
    (flags : DefineFlags) :
    (onHeap fun heap => heap.defineProperty obj name value getter setter flags).Moves
      (Keeps realm context floor busy) :=
  keeps_modifyObject hobj fun _ => .inr ⟨_, rfl, fun _ => rfl⟩

theorem keeps_newString (chars : String) : (newCell (.string chars)).Moves
    (Keeps realm context floor busy) := by
  refine keeps_of_steady fun build value next _ hreturns => ?_
  cases Option.some.inj hreturns
  refine ⟨rfl, Build.steady_append _, fun ptr object hle hobject => ?_⟩
  have hlt := Heap.lt_length_of_objectAt hobject
  rw [List.length_append, List.length_singleton] at hlt
  have heq : ptr = build.heap.length := Nat.le_antisymm (Nat.lt_succ_iff.mp hlt) hle
  rw [heq, Heap.objectAt, List.getElem?_concat_length] at hobject
  cases hobject

theorem keeps_newCFunctionData {funcData : List JSValue} (hlength : funcData.length ≠ 4) :
    (newCFunctionData realm funcData).Moves (Keeps realm context floor busy) := by
  refine keeps_of_steady fun build value next hsound hreturns => ?_
  obtain ⟨rfl, _, hsteady, htable, hgrown, hobject⟩ := newCFunctionData_spec hsound hreturns
  refine ⟨htable, hsteady.mono fun _ _ h => h.elim, new_of_object hgrown hobject ?_⟩
  exact beq_eq_false_iff_ne.mpr hlength

theorem keeps_initAccessors (hobj : busy obj) (object : ObjectTemplate) :
    (initAccessors realm object obj).Moves (Keeps realm context floor busy) := by
  refine Program.Moves.forM _ fun accessor _ => (keeps_newString _).bind fun name => ?_
  refine (Program.Moves.mapM _ fun values hvalues => keeps_newCFunctionData ?_).bind
    fun getter => ?_
  · rw [accessor.2.length_getterData hvalues]
    exact Nat.succ_ne_self 3 ∘ Eq.symm
  refine (Program.Moves.mapM _ fun values hvalues => keeps_newCFunctionData ?_).bind
    fun setter => ?_
  · rw [accessor.2.length_setterData hvalues]
    exact Nat.succ_ne_self 3 ∘ Eq.symm
  exact keeps_defineProperty hobj _ _ _ _ _

section Get

variable (hget : ∀ id, (get id).Moves (Keeps realm context floor busy))

include hget

theorem keeps_initPropertys (hobj : busy obj) (template : Template) :
    (initPropertys get template obj).Moves (Keeps realm context floor busy) := by
  refine Program.Moves.bind ?_ fun _ => ?_
  · refine Program.Moves.forM _ fun field _ => (hget field.2).bind fun func => ?_
    exact keeps_defineProperty hobj _ _ _ _ _
  · refine Program.Moves.forM _ fun property _ => ?_
    refine (Program.Moves.mapM _ fun id _ => hget id).bind fun getter => ?_
    refine (Program.Moves.mapM _ fun id _ => hget id).bind fun setter => ?_
    exact keeps_defineProperty hobj _ _ _ _ _

theorem keeps_initPrototype (hobj : busy obj) (object : Option ObjectTemplate) :
    (initPrototype realm get object obj).Moves (Keeps realm context floor busy) := by
  cases object with
  | none => exact Program.moves_pure PUnit.unit
  | some object =>
      exact (keeps_initPropertys hget hobj _).bind fun _ => keeps_initAccessors hobj object

theorem keeps_inherit (hobj : busy obj) (parent : Option Nat) :
    (inherit realm get parent obj).Moves (Keeps realm context floor busy) := by
  cases parent with
  | none => exact Program.moves_pure PUnit.unit
  | some parent =>
      exact (hget parent).bind fun func => keeps_modifyObject hobj fun heap =>
        heap.setPrototype_cases obj _

end Get

theorem keeps_setConstructorBit {func : Ptr} (hfunc : busy func) :
    (onHeap fun heap => heap.setConstructorBit func true).Moves (Keeps realm context floor busy) :=
  keeps_modifyObject hfunc fun _ => .inr ⟨_, rfl, fun _ => rfl⟩

theorem keeps_setConstructor {func proto : Ptr} (hfunc : busy func) (hproto : busy proto) :
    (onHeap fun heap => heap.setConstructor func proto).Moves (Keeps realm context floor busy) := by
  refine keeps_of_steady fun build value next _ hreturns => ?_
  cases Option.some.inj hreturns
  refine ⟨rfl, ?_, new_of_length ?_⟩
  swap
  · exact (Heap.length_defineProperty ..).trans (Heap.length_defineProperty ..)
  have hfirst : build.Steady context busy { build with
      heap :=
        build.heap.definePropertyValue func "prototype" (.ref .object proto) false false false } :=
    Build.steady_modifyObject hfunc fun _ => rfl
  exact hfirst.trans (Build.steady_modifyObject hproto fun _ => rfl)

/-- The new prototype object is busy as well, until the call returns. -/
theorem derived_initConstructor (hget : ∀ busy id, (get id).Moves (Keeps realm context floor busy))
    {template : FunctionTemplate} {func : Ptr} {build next : Build}
    (hderived : build.Derived realm context floor busy) (hfunc : busy func)
    (hreturns : initConstructor realm get template func build = some (PUnit.unit, next)) :
    next.Derived realm context floor (fun ptr => busy ptr ∨ ptr = build.heap.length) := by
  obtain ⟨_, first, hfirst, hrest⟩ := Program.bind_eq_some.mp hreturns
  obtain ⟨proto, second, hsecond, hrest⟩ := Program.bind_eq_some.mp hrest
  have hone := keeps_setConstructorBit hfunc build _ first hfirst hderived
  have hlength : first.heap.length = build.heap.length := by
    cases Option.some.inj hfirst
    exact Heap.length_modifyObject _
  obtain ⟨hproto, hsound, hsteady, htable, hgrown, _⟩ := newCell_spec hone.sound hsecond
  have htwo := hone.withBusy hsound hsteady htable hgrown
  rw [hlength] at hproto htwo
  subst hproto
  refine Program.Moves.bind (keeps_initPrototype (hget _) (.inr rfl) _) (fun _ => ?_) second _ next
    hrest htwo
  refine (keeps_initPropertys (hget _) (.inl hfunc) _).bind fun _ => ?_
  refine (keeps_setConstructor (.inl hfunc) (.inr rfl)).bind fun _ => ?_
  exact keeps_inherit (hget _) (.inr rfl) _

/-- A template has no function in the cache while the call for it is under way. -/
theorem uncached_of_initFunction {fuel id : Nat} {build first middle next : Build} {func : JSValue}
    {template : FunctionTemplate} {ptr : Ptr} (hclosed : build.Closed)
    (hreturns : getFunction realm context (fuel + 1) id build = some (func, next))
    (htemplate : build.table[id]? = some template) (hnone : build.cached context id = none)
    (htable : first.table = build.table)
    (hmiddle : initFunction realm (getFunction realm context fuel) template ptr first =
      some (PUnit.unit, middle)) : middle.cached context id = none := by
  have hexplored := explores_getFunction (fuel + 1) id build func next hreturns
  have hacc := (hexplored.2 id (List.mem_singleton_self id)).1
  obtain ⟨enough, henough⟩ : ∃ enough, ∀ more ≥ enough, ∀ callee ∈ template.uses,
      ∀ state, build.Extended context state → ∃ func next,
        getFunction realm context more callee state = some (func, next) ∧
          state.Grown context (fun other => ReflTransGen (build.Calls context) other callee) next ∧
          next.cached context callee = some func := by
    apply exists_fuel
    intro callee huse
    have hcall : build.Calls context callee id := ⟨hnone, template, htemplate, huse⟩
    have hlt := hclosed template (List.mem_of_getElem? htemplate) callee huse
    exact returns_of_acc realm hclosed (hacc.inv hcall) hlt
  have hsame : build.Grown context (fun _ => False) first := Build.grown_of_table htable
  have hgrows : Grows context first (fun other => TransGen (build.Calls context) other id)
      (initFunction realm (getFunction realm context (max enough fuel)) template ptr) := by
    apply grows_initFunction
    intro callee huse state hgrown
    have hcall : build.Calls context callee id := ⟨hnone, template, htemplate, huse⟩
    obtain ⟨func, next, hcallee, hnext, _⟩ := henough _ (le_max_left _ _) callee huse state
      (hsame.extended.trans hgrown.extended)
    refine ⟨func, next, hcallee, hgrown.trans (hnext.mono fun other hother => ?_)⟩
    exact TransGen.tail' hother hcall
  obtain ⟨_, last, hlast, hgrown⟩ := hgrows first (Build.grown_of_table rfl)
  have hmore := approximates_initFunction
    (fun other state result h => getFunction_mono (le_max_right enough fuel) h)
    template ptr _ _ hmiddle
  cases hmore.symm.trans hlast
  refine hgrown.uncached ?_ (not_transGen_self_of_acc hacc)
  rw [Build.cached_congr htable]
  exact hnone

/-- The prototype object of a constructor is linked to the one of the parent. -/
theorem linked_of_inherit {fuel id : Nat} {template : FunctionTemplate} {object : JSObject}
    {middle next : Build} (hnext : next.Derived realm context floor busy) (hbusy : busy obj)
    (hsound : middle.Sound context) (hobject : middle.heap.objectAt obj = some object)
    (hproto : object.proto = some realm.objectProto)
    (hdeclared : (next.table[id]?).map FunctionTemplate.declared = some template.declared)
    (hinherit : inherit realm (getFunction realm context fuel) template.parent obj middle =
      some (PUnit.unit, next)) (hlinear : Linear next.table id) :
    next.Linked realm context template obj := by
  obtain ⟨_, _, _, hroot, hparent⟩ :=
    inherit_spec (answers_getFunction fuel) hsound hobject hinherit
  unfold Build.Linked
  cases hcase : template.parent with
  | none =>
      rw [hroot hcase, Heap.protoOf, hobject, Option.bind_some, hproto]
  | some parent =>
      obtain ⟨func, before, hbefore, hquiet, hcached, hheap⟩ := hparent parent hcase
      have habove : Linear next.table parent := hlinear.parent hdeclared hcase
      have hsteadyBack : next.Steady context busy before := by
        rw [hheap]
        exact (Build.steady_back_setPrototype before obj _).mono fun ptr _ h => h ▸ hbusy
      have hback : before.Derived realm context floor busy := by
        refine hnext.of_frame hbefore (by rw [hheap]) hsteadyBack (new_of_length ?_)
        rw [hheap]
        exact (Heap.length_setPrototype ..).symm
      have hobjectBefore : before.heap.objectAt obj = some object :=
        (hquiet.frame obj (Heap.lt_length_of_objectAt hobject) not_false).trans hobject
      rw [hheap] at habove
      exact hback.inheritFrom hbusy hobjectBefore habove hcached hheap

/-- What `GetFunction` does for a constructor. The prototype object is new. -/
theorem built_of_initConstructor {fuel id : Nat} {template : FunctionTemplate} {func : Ptr}
    {build next : Build}
    (hget : ∀ busy id, (getFunction realm context fuel id).Moves (Keeps realm context floor busy))
    (hderived : build.Derived realm context floor fun ptr => busy ptr ∨ ptr = func)
    (hobject : build.heap.objectAt func = some (realm.functionObject template.funcData))
    (htemplate : (build.table[id]?).map FunctionTemplate.declared = some template.declared)
    (hconstrutor : template.isConstrutor = true)
    (huses : ∀ callee ∈ template.uses, (next.cached context callee).isSome)
    (hreturns : initConstructor realm (getFunction realm context fuel) template func build =
      some (PUnit.unit, next)) :
    next.Built realm context floor busy id template func ∧
      ∀ object, next.heap.objectAt build.heap.length = some object →
        object.isTemplateFunction = false := by
  have hnext := derived_initConstructor hget hderived (.inr rfl) hreturns
  obtain ⟨made, middle, hsound, hsteady, hgrown, hserves, hobjects, hinherit⟩ :=
    initConstructor_spec (answers_getFunction fuel) hderived.sound hobject hreturns
  obtain ⟨hfuncMiddle, hprotoMiddle⟩ := hobjects (middle.functionOf context) fun _ _ h => h
  obtain ⟨_, hlast, ⟨link, hprotoNext⟩, _, _⟩ :=
    inherit_spec (answers_getFunction fuel) hsound hprotoMiddle hinherit
  have hlt := Heap.lt_length_of_objectAt hobject
  have hsame := hlast.frame func (hlt.trans hgrown) (Nat.ne_of_lt hlt)
  have hown := Heap.ownPrototype_constructor (hsame.trans hfuncMiddle)
  have hproto : ∀ proto, next.heap.ownPrototype func = some proto → proto = build.heap.length := by
    intro proto h
    rw [hown] at h
    split at h
    next => cases h
    next => exact (Option.some.inj h).symm
  have hfree : ¬ busy build.heap.length := fun h => Nat.lt_irrefl _ (hderived.away _ (.inl h)).2
  have hplain : ∀ object, next.heap.objectAt build.heap.length = some object →
      object.isTemplateFunction = false := by
    intro object hfound
    cases hprotoNext.symm.trans hfound
    rfl
  refine ⟨?_, hplain⟩
  constructor
  case owns =>
    rw [hown, FunctionTemplate.givesPrototype, hconstrutor]
    cases template.keeps "prototype" <;> simp
  case uses => exact huses
  case furnished =>
    intro _
    refine ⟨build.heap.length, made, link, hfree,
      hserves.imp fun _ _ h => servesAccessor_later hlast h, fun function hfunction => ?_⟩
    obtain ⟨hfuncNow, hprotoNow⟩ := hobjects function fun known ptr h => hfunction known ptr (by
      rw [Build.functionOf_eq_some_iff] at h ⊢
      exact hlast.kept known _ h)
    have heq := Option.some.inj (hprotoMiddle.symm.trans hprotoNow)
    rw [heq] at hprotoNext
    exact ⟨hsame.trans hfuncNow, hprotoNext⟩
  case proto =>
    intro proto h
    rw [hproto proto h]
    exact ⟨hderived.floor_le, Heap.lt_length_of_objectAt hprotoNext, hfree⟩
  case plain =>
    intro proto object h hfound
    rw [hproto proto h] at hfound
    exact hplain object hfound
  case linked =>
    intro proto h hlinear
    rw [hproto proto h]
    have hdeclared : (next.table[id]?).map FunctionTemplate.declared = some template.declared := by
      rw [hlast.declared, hsteady.declared, htemplate]
    exact linked_of_inherit hnext (.inr rfl) hsound hprotoMiddle rfl hdeclared hinherit hlinear

/-- What a call leaves of the function it makes, before the function is cached. -/
theorem finished_of_initFunction {fuel id : Nat} {template : FunctionTemplate} {func : Ptr}
    {build next : Build}
    (hget : ∀ busy id, (getFunction realm context fuel id).Moves (Keeps realm context floor busy))
    (hderived : build.Derived realm context floor fun ptr => busy ptr ∨ ptr = func)
    (hfree : ¬ busy func)
    (hobject : build.heap.objectAt func = some (realm.functionObject template.funcData))
    (htemplate : (build.table[id]?).map FunctionTemplate.declared = some template.declared)
    (hreturns : initFunction realm (getFunction realm context fuel) template func build =
      some (PUnit.unit, next)) :
    ∃ wide, next.Derived realm context floor wide ∧
      next.Finished realm context floor busy wide id template func := by
  have huses : ∀ callee ∈ template.uses, (next.cached context callee).isSome := fun callee huse =>
    ((explores_initFunction (explores_getFunction fuel) template func build _ next hreturns).2
      callee huse).2
  unfold initFunction at hreturns
  split at hreturns
  next hconstrutor =>
    obtain ⟨hbuilt, hplain⟩ :=
      built_of_initConstructor hget hderived hobject htemplate hconstrutor huses hreturns
    refine ⟨_, derived_initConstructor hget hderived (.inr rfl) hreturns, hbuilt,
      fun ptr h => .inl (.inl h), .inl (.inr rfl), hfree,
      fun ptr object hwide hfound hfunction => ?_⟩
    rcases hwide with h | rfl
    · exact h
    · rw [hplain object hfound] at hfunction
      cases hfunction
  next hconstrutor =>
    cases Option.some.inj hreturns
    have hown := Heap.ownPrototype_functionObject hobject
    have hnone : ∀ proto, build.heap.ownPrototype func ≠ some proto := by
      intro proto h
      rw [hown] at h
      cases h
    refine ⟨_, hderived, ⟨?_, huses, fun h => absurd h hconstrutor, fun proto h => ?_,
      fun proto _ h => ?_, fun proto h => ?_⟩, fun ptr h => .inl h, .inr rfl, hfree,
      fun ptr object hwide _ _ => hwide⟩
    · rw [hown, FunctionTemplate.givesPrototype]
      simp [hconstrutor]
    · exact absurd h (hnone proto)
    · exact absurd h (hnone proto)
    · exact absurd h (hnone proto)

theorem keeps_getFunction (fuel : Nat) : ∀ busy id,
    (getFunction realm context fuel id).Moves (Keeps realm context floor busy) := by
  induction fuel with
  | zero => exact fun _ _ _ _ _ hreturns => nomatch hreturns
  | succ fuel ih =>
      intro busy id build func next hreturns hderived
      obtain ⟨template, htemplate, ⟨_, rfl⟩ | ⟨hnone, hmade⟩⟩ := exists_of_getFunction hreturns
      · exact hderived
      · obtain ⟨ptr, first, middle, hfirst, hmiddle, rfl, rfl⟩ := exists_of_makeFunction hmade
        obtain ⟨rfl, hsoundFirst, hsteadyFirst, htable, hlength, hobject⟩ :=
          newCFunctionData_spec hderived.sound hfirst
        have hstart := hderived.withBusy hsoundFirst hsteadyFirst htable hlength
        have hthere : first.table[id]? = some template := by rw [htable, htemplate]
        have hfree : ¬ busy build.heap.length := fun h => Nat.lt_irrefl _ (hderived.away _ h).2
        obtain ⟨wide, hwide, hfinished⟩ := finished_of_initFunction ih hstart hfree hobject
          (show (first.table[id]?).map FunctionTemplate.declared = _ by rw [hthere]; rfl) hmiddle
        have hnoneMiddle := uncached_of_initFunction hderived.sound.closed hreturns htemplate hnone
          htable hmiddle
        obtain ⟨_, hsteadyMiddle⟩ :=
          initFunction_spec (answers_getFunction fuel) hsoundFirst hobject
          hmiddle
        obtain ⟨changed, hchanged, hclass⟩ := hsteadyMiddle.classes _ _ hobject
        obtain ⟨known, hknown, heq⟩ := exists_of_map_eq (hsteadyMiddle.declared id) hthere
        have hdata := FunctionTemplate.eq_of_declared FunctionTemplate.funcData (fun _ => rfl) heq
        have hfunctionNone : middle.functionOf context id = none := by
          unfold Build.functionOf
          rw [hnoneMiddle]
        refine hwide.cache hknown hfunctionNone hchanged (hclass.trans ?_)
          { hfinished with toBuilt := hfinished.toBuilt.of_declared heq.symm }
        rw [hdata]
        rfl

end Builder

end QuickjsBackend
