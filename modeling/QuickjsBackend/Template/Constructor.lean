import QuickjsBackend.Template.Shape

/-! # The function and the prototype object

What a call of `GetFunction` that makes a function leaves in the two objects it
makes: the function, and for a constructor its prototype object. All other objects
that were there stay as they are.
-/

namespace QuickjsBackend

open Foundation Relation

/-- A function object as `JS_NewCFunctionData` leaves it. -/
def Realm.functionObject (realm : Realm) (funcData : List JSValue) : JSObject :=
  let bare : JSObject := {
    classData := .cFunctionData funcData
    proto := some realm.functionProto
    isConstructor := false
    property := fun _ => none }
  (bare.define "length" (.int 0) none none (.ofValue true false false)).define "name"
    (.ref .string realm.emptyString) none none (.ofValue true false false)

/-- The functions that are made for an accessor. -/
structure AccessorFunctions where
  getter : Option Ptr
  setter : Option Ptr
  deriving DecidableEq, Repr

/-- The function at the address, if one is wanted, has the data. -/
def Heap.HasFunction (heap : Heap) (ptr : Option Ptr) (funcData : Option (List JSValue)) : Prop :=
  match funcData with
  | none => ptr = none
  | some values => ∃ address object, ptr = some address ∧ heap.objectAt address = some object ∧
      object.classData = .cFunctionData values

/-- Getter and setter call back for the accessor of the name. -/
def Heap.ServesAccessor (heap : Heap) (accessor : String × AccessorInfo)
    (functions : AccessorFunctions) : Prop :=
  ∃ name : Ptr, heap[name]? = some (.string accessor.1) ∧
    heap.HasFunction functions.getter (accessor.2.getterData (.ref .string name)) ∧
    heap.HasFunction functions.setter (accessor.2.setterData (.ref .string name))

/-- The definition of `InitAccessors`. -/
def accessorDefinition (accessor : String × AccessorInfo) (functions : AccessorFunctions) :
    Definition :=
  (accessor.1, fun own =>
    .define own .undefined functions.getter functions.setter
      (accessor.2.attributes.accessorFlags functions.getter.isSome functions.setter.isSome))

/-- The definitions on a prototype object, with the functions made for accessors. -/
def prototypeDefinitions (object : Option ObjectTemplate) (made : List AccessorFunctions)
    (function : Nat → Option Ptr) : List Definition :=
  match object with
  | none => []
  | some object =>
      object.toTemplate.definitions function ++
        List.zipWith accessorDefinition object.accessorInfos made

/-- The accessors declared on a prototype template. -/
def prototypeAccessors (object : Option ObjectTemplate) : List (String × AccessorInfo) :=
  (object.map ObjectTemplate.accessorInfos).getD []

/-- A new object, as the prototype object of a function starts. -/
def Realm.prototypeObject (realm : Realm) : JSObject where
  classData := .object
  proto := some realm.objectProto
  isConstructor := false
  property := fun _ => none

/-- The function of a constructor, with its prototype object and the functions of a
table in the places where their templates are declared. -/
def Realm.constructorFunction (realm : Realm) (template : FunctionTemplate)
    (function : Nat → Option Ptr) (proto : Ptr) : JSObject :=
  JSObject.define
    { realm.functionObject template.funcData with
      isConstructor := true
      property := settle (template.definitions function)
        (realm.functionObject template.funcData).property }
    "prototype" (.ref .object proto) none none (.ofValue false false false)

/-- Its prototype object, likewise, with the functions made for accessors. -/
def Realm.constructorPrototype (realm : Realm) (template : FunctionTemplate)
    (made : List AccessorFunctions) (function : Nat → Option Ptr) (link : Option Ptr)
    (func : Ptr) : JSObject :=
  JSObject.define
    { realm.prototypeObject with
      proto := link
      property := settle (prototypeDefinitions template.prototypeTemplate made function)
        realm.prototypeObject.property }
    "constructor" (.ref .object func) none none (.ofValue true true false)

namespace Builder

variable {context : Nat} {realm : Realm} {obj : Ptr}

theorem newCell_spec {build next : Build} {object : JSObject} {ptr : Ptr}
    (hsound : build.Sound context) (hreturns : newCell (.object object) build = some (ptr, next)) :
    ptr = build.heap.length ∧ next.Sound context ∧ build.Steady context (fun _ => False) next ∧
      next.table = build.table ∧ next.heap.length = build.heap.length + 1 ∧
      next.heap.objectAt ptr = some object := by
  cases Option.some.inj hreturns
  have hsteady : build.Steady context (fun _ => False)
      { build with heap := build.heap ++ [.object object] } := Build.steady_append (.object object)
  exact ⟨rfl, hsound.of_table hsteady rfl, hsteady, rfl, List.length_append,
    Heap.objectAt_append_new object⟩

/-- A property of an object that was not there at the start is defined. -/
theorem defineNew_spec {build middle next : Build} {object : JSObject}
    (hsteady : build.Steady context (fun _ => False) middle) (hsound : middle.Sound context)
    (hnew : build.heap.length ≤ obj) (hobject : middle.heap.objectAt obj = some object)
    {name : String} {value : JSValue} {configurable writable enumerable : Bool}
    (hnext : next = { middle with
      heap := middle.heap.definePropertyValue obj name value configurable writable enumerable }) :
    next.Sound context ∧ build.Steady context (fun _ => False) next ∧ next.table = middle.table ∧
      next.heap.length = middle.heap.length ∧
      next.heap.objectAt obj = some (object.define name value none none
        (.ofValue configurable writable enumerable)) := by
  subst hnext
  obtain ⟨hnextSound, hnextSteady, hnow⟩ := defineProperty_spec hsound hobject name value
    .undefined .undefined (.ofValue configurable writable enumerable)
  refine ⟨hnextSound, ?_, rfl, Heap.length_defineProperty .., hnow⟩
  have hwide : build.Steady context (· = obj) middle := hsteady.mono fun _ _ h => h.elim
  exact (hwide.trans hnextSteady).mono fun ptr hlt heq => by
    change ptr = obj at heq
    omega

theorem newCFunctionData_spec {build next : Build} {funcData : List JSValue} {ptr : Ptr}
    (hsound : build.Sound context)
    (hreturns : newCFunctionData realm funcData build = some (ptr, next)) :
    ptr = build.heap.length ∧ next.Sound context ∧ build.Steady context (fun _ => False) next ∧
      next.table = build.table ∧ next.heap.length = build.heap.length + 1 ∧
      next.heap.objectAt ptr = some (realm.functionObject funcData) := by
  obtain ⟨func, first, hfirst, hrest⟩ := Program.bind_eq_some.mp hreturns
  obtain ⟨_, second, hsecond, hrest⟩ := Program.bind_eq_some.mp hrest
  cases Option.some.inj hsecond
  obtain ⟨_, third, hthird, hrest⟩ := Program.bind_eq_some.mp hrest
  cases Option.some.inj hthird
  cases Option.some.inj hrest
  obtain ⟨rfl, hone, hsteadyOne, htableOne, hlengthOne, hobjectOne⟩ := newCell_spec hsound hfirst
  obtain ⟨htwo, hsteadyTwo, htableTwo, hlengthTwo, hobjectTwo⟩ :=
    defineNew_spec hsteadyOne hone (le_refl _) hobjectOne rfl
  obtain ⟨hthree, hsteadyThree, htableThree, hlengthThree, hobjectThree⟩ :=
    defineNew_spec hsteadyTwo htwo (le_refl _) hobjectTwo rfl
  exact ⟨rfl, hthree, hsteadyThree, htableThree.trans (htableTwo.trans htableOne),
    hlengthThree.trans (hlengthTwo.trans hlengthOne), hobjectThree⟩

theorem hasFunction_later {build next : Build} {mine : Ptr → Prop} {ptr : Option Ptr}
    {funcData : Option (List JSValue)} (hsteady : build.Steady context mine next)
    (hhas : build.heap.HasFunction ptr funcData) : next.heap.HasFunction ptr funcData := by
  cases funcData with
  | none => exact hhas
  | some values =>
      obtain ⟨address, object, rfl, hobject, hclass⟩ := hhas
      obtain ⟨changed, hchanged, hsame⟩ := hsteady.classes address object hobject
      exact ⟨address, changed, rfl, hchanged, hsame.trans hclass⟩

theorem servesAccessor_later {build next : Build} {mine : Ptr → Prop}
    {accessor : String × AccessorInfo} {functions : AccessorFunctions}
    (hsteady : build.Steady context mine next)
    (hserves : build.heap.ServesAccessor accessor functions) :
    next.heap.ServesAccessor accessor functions := by
  obtain ⟨name, hname, hgetter, hsetter⟩ := hserves
  exact ⟨name, hsteady.strings name _ hname, hasFunction_later hsteady hgetter,
    hasFunction_later hsteady hsetter⟩

theorem functionPtr_of_hasFunction {heap : Heap} {ptr : Option Ptr}
    {funcData : Option (List JSValue)} (hhas : heap.HasFunction ptr funcData) :
    heap.functionPtr ((ptr.map (.ref .object)).getD .undefined) = ptr := by
  cases funcData with
  | none =>
      have hnone : ptr = none := hhas
      rw [hnone]
      rfl
  | some values =>
      obtain ⟨address, object, rfl, hobject, hclass⟩ := hhas
      refine Heap.IsFunction.functionPtr_eq ⟨object, hobject, ?_⟩
      rw [JSObject.isFunction, hclass]

theorem functions_mapM {build next : Build} {funcData : Option (List JSValue)} {ptr : Option Ptr}
    (hsound : build.Sound context)
    (hreturns : funcData.mapM (newCFunctionData realm) build = some (ptr, next)) :
    next.Sound context ∧ build.Steady context (fun _ => False) next ∧
      next.heap.HasFunction ptr funcData := by
  cases funcData with
  | none =>
      cases Option.some.inj hreturns
      exact ⟨hsound, Build.Steady.refl build, rfl⟩
  | some values =>
      obtain ⟨address, haddress, rfl⟩ := Program.map_eq_some.mp hreturns
      obtain ⟨_, hnext, hsteady, _, _, hobject⟩ := newCFunctionData_spec hsound haddress
      exact ⟨hnext, hsteady, address, _, rfl, hobject, rfl⟩

theorem initAccessor_spec {build next : Build} {object : JSObject}
    {accessor : String × AccessorInfo} (hsound : build.Sound context)
    (hobject : build.heap.objectAt obj = some object)
    (hreturns : initAccessor realm obj accessor build = some (PUnit.unit, next)) :
    next.Sound context ∧ build.Steady context (· = obj) next ∧ ∃ functions,
      next.heap.ServesAccessor accessor functions ∧
        next.heap.objectAt obj = some
          { object with
            property := settle [accessorDefinition accessor functions] object.property } := by
  obtain ⟨name, first, hfirst, hrest⟩ := Program.bind_eq_some.mp hreturns
  obtain ⟨getter, second, hsecond, hrest⟩ := Program.bind_eq_some.mp hrest
  obtain ⟨setter, third, hthird, hnext⟩ := Program.bind_eq_some.mp hrest
  cases Option.some.inj hfirst
  cases Option.some.inj hnext
  have hone : build.Steady context (fun _ => False)
      { build with heap := build.heap ++ [.string accessor.1] } := Build.steady_append _
  obtain ⟨hsoundTwo, htwo, hgetter⟩ := functions_mapM (hsound.of_table hone rfl) hsecond
  obtain ⟨hsoundThree, hthree, hsetter⟩ := functions_mapM hsoundTwo hthird
  have hall := hone.trans (htwo.trans hthree)
  have hthere : third.heap.objectAt obj = some object := by
    rw [hall.frame obj (Heap.lt_length_of_objectAt hobject) not_false, hobject]
  obtain ⟨hsoundLast, hlast, hnow⟩ := defineProperty_spec hsoundThree hthere accessor.1
    .undefined ((getter.map (.ref .object)).getD .undefined)
    ((setter.map (.ref .object)).getD .undefined)
    (accessor.2.attributes.accessorFlags (getter.map (JSValue.ref .object)).isSome
      (setter.map (JSValue.ref .object)).isSome)
  have hname : (build.heap ++ [HeapCell.string accessor.1])[build.heap.length]? =
      some (.string accessor.1) := List.getElem?_concat_length
  have hserves : third.heap.ServesAccessor accessor ⟨getter, setter⟩ :=
    ⟨build.heap.length, (htwo.trans hthree).strings _ _ hname, hasFunction_later hthree hgetter,
      hsetter⟩
  refine ⟨hsoundLast, (hall.mono fun _ _ h => h.elim).trans hlast, ⟨getter, setter⟩,
    servesAccessor_later hlast hserves, ?_⟩
  obtain ⟨_, _, hgetterThird, hsetterThird⟩ := hserves
  refine hnow.trans ?_
  rw [functionPtr_of_hasFunction hgetterThird, functionPtr_of_hasFunction hsetterThird,
    Option.isSome_map, Option.isSome_map]
  rfl

theorem initAccessors_spec {next : Build} {accessors : List (String × AccessorInfo)} {build : Build}
    {object : JSObject} (hsound : build.Sound context)
    (hobject : build.heap.objectAt obj = some object)
    (hreturns : accessors.forM (initAccessor realm obj) build = some (PUnit.unit, next)) :
    next.Sound context ∧ build.Steady context (· = obj) next ∧ ∃ made,
      List.Forall₂ next.heap.ServesAccessor accessors made ∧
        next.heap.objectAt obj = some { object with
          property :=
            settle (List.zipWith accessorDefinition accessors made) object.property } := by
  induction accessors generalizing build object with
  | nil =>
      cases Option.some.inj hreturns
      exact ⟨hsound, Build.Steady.refl _, [], .nil, hobject⟩
  | cons accessor rest ih =>
      obtain ⟨_, middle, hmiddle, hrest⟩ := Program.bind_eq_some.mp hreturns
      obtain ⟨hsoundMiddle, hsteady, functions, hserves, hnow⟩ :=
        initAccessor_spec hsound hobject hmiddle
      obtain ⟨hsoundNext, hsteadyNext, made, hmade, hlast⟩ := ih hsoundMiddle hnow hrest
      exact ⟨hsoundNext, hsteady.trans hsteadyNext, functions :: made,
        .cons (servesAccessor_later hsteadyNext hserves) hmade, hlast⟩

variable {get : Nat → Builder JSValue} {build next : Build}

theorem initPrototype_spec (hget : Answers context get) {template : Option ObjectTemplate}
    {object : JSObject} (hsound : build.Sound context)
    (hobject : build.heap.objectAt obj = some object)
    (hreturns : initPrototype realm get template obj build = some (PUnit.unit, next)) :
    next.Sound context ∧ build.Steady context (· = obj) next ∧ ∃ made,
      List.Forall₂ next.heap.ServesAccessor (prototypeAccessors template) made ∧
        ∀ function : Nat → Option Ptr,
          (∀ id ptr, next.functionOf context id = some ptr → function id = some ptr) →
          next.heap.objectAt obj = some { object with
            property := settle (prototypeDefinitions template made function) object.property } := by
  cases template with
  | none =>
      cases Option.some.inj hreturns
      exact ⟨hsound, Build.Steady.refl _, [], .nil, fun _ _ => hobject⟩
  | some template =>
      obtain ⟨_, middle, hmiddle, hrest⟩ := Program.bind_eq_some.mp hreturns
      obtain ⟨hsoundMiddle, hsteady, hdefined⟩ :=
        defines_initPropertys hget template.toTemplate build object _ middle hsound hobject hmiddle
      have hnow := hdefined (middle.functionOf context) fun _ _ h => h
      obtain ⟨hsoundNext, hsteadyNext, made, hmade, hlast⟩ :=
        initAccessors_spec hsoundMiddle hnow hrest
      refine ⟨hsoundNext, hsteady.trans hsteadyNext, made, hmade, fun function hfunction => ?_⟩
      have hsame := hdefined function fun id ptr h => by
        apply hfunction
        rw [Build.functionOf_eq_some_iff] at h ⊢
        exact hsteadyNext.kept id _ h
      have heq := Option.some.inj (hnow.symm.trans hsame)
      rw [hlast]
      simp only [prototypeDefinitions, settle_append]
      have hproperty := congrArg JSObject.property heq
      rw [show settle (template.definitions (middle.functionOf context)) object.property =
        settle (template.definitions function) object.property from hproperty]

/-- `JS_SetConstructor` defines one property on each. -/
theorem setConstructor_spec {func proto : Ptr} {function prototype : JSObject}
    (hsound : build.Sound context) (hne : func ≠ proto)
    (hfunction : build.heap.objectAt func = some function)
    (hprototype : build.heap.objectAt proto = some prototype) :
    let next : Build := { build with heap := build.heap.setConstructor func proto }
    next.Sound context ∧ build.Steady context (fun ptr => ptr = func ∨ ptr = proto) next ∧
      next.heap.objectAt func = some (function.define "prototype" (.ref .object proto) none none
        (.ofValue false false false)) ∧
      next.heap.objectAt proto = some (prototype.define "constructor" (.ref .object func) none none
        (.ofValue true true false)) := by
  intro next
  obtain ⟨hsoundFirst, hfirst, hfuncFirst⟩ := defineProperty_spec hsound hfunction "prototype"
    (.ref .object proto) .undefined .undefined (.ofValue false false false)
  have hprotoFirst :=
    (hfirst.frame proto (Heap.lt_length_of_objectAt hprototype) hne.symm).trans hprototype
  obtain ⟨hsoundSecond, hsecond, hprotoSecond⟩ := defineProperty_spec hsoundFirst hprotoFirst
    "constructor" (.ref .object func) .undefined .undefined (.ofValue true true false)
  have hfuncSecond := (hsecond.frame func (Heap.lt_length_of_objectAt hfuncFirst) hne).trans
    hfuncFirst
  exact ⟨hsoundSecond, (hfirst.mono fun _ _ h => .inl h).trans (hsecond.mono fun _ _ h => .inr h),
    hfuncSecond, hprotoSecond⟩

/-- The function may construct, and has a prototype object to come. -/
theorem newPrototype_spec {func proto : Ptr} {function : JSObject} (hsound : build.Sound context)
    (hfunction : build.heap.objectAt func = some function)
    (hreturns : newObject realm { build with heap := build.heap.setConstructorBit func true } =
      some (proto, next)) :
    proto = build.heap.length ∧ next.Sound context ∧ build.Steady context (· = func) next ∧
      next.heap.objectAt func = some { function with isConstructor := true } ∧
      next.heap.objectAt proto = some {
        classData := .object
        proto := some realm.objectProto
        isConstructor := false
        property := fun _ => none } := by
  have hone : build.Steady context (· = func)
      { build with heap := build.heap.setConstructorBit func true } :=
    Build.steady_modifyObject rfl fun _ => rfl
  have hfuncOne : (build.heap.setConstructorBit func true).objectAt func =
      some { function with isConstructor := true } := by
    refine (Heap.objectAt_modifyObject _).trans ?_
    rw [if_pos rfl, hfunction, Option.map_some]
  have hlength : (build.heap.setConstructorBit func true).length = build.heap.length :=
    Heap.length_modifyObject _
  obtain ⟨hproto, hsoundTwo, htwo, _, _, hprotoTwo⟩ :=
    newCell_spec (hsound.of_table hone rfl) hreturns
  have hlt := Heap.lt_length_of_objectAt hfunction
  exact ⟨hproto.trans hlength, hsoundTwo, hone.trans (htwo.mono fun _ _ h => h.elim),
    (htwo.frame func (hlength ▸ hlt) not_false).trans hfuncOne, hprotoTwo⟩

/-- Up to where the parent is asked for its function. -/
theorem initConstructor_spec (hget : Answers context get) {template : FunctionTemplate}
    {func : Ptr} (hsound : build.Sound context)
    (hobject : build.heap.objectAt func = some (realm.functionObject template.funcData))
    (hreturns : initConstructor realm get template func build = some (PUnit.unit, next)) :
    ∃ made middle, middle.Sound context ∧ build.Steady context (· = func) middle ∧
      build.heap.length < middle.heap.length ∧
      List.Forall₂ middle.heap.ServesAccessor (prototypeAccessors template.prototypeTemplate) made ∧
      (∀ function : Nat → Option Ptr,
        (∀ id ptr, middle.functionOf context id = some ptr → function id = some ptr) →
        middle.heap.objectAt func =
          some (realm.constructorFunction template function build.heap.length) ∧
        middle.heap.objectAt build.heap.length =
          some (realm.constructorPrototype template made function (some realm.objectProto) func)) ∧
      inherit realm get template.parent build.heap.length middle = some (PUnit.unit, next) := by
  obtain ⟨_, first, hfirst, hrest⟩ := Program.bind_eq_some.mp hreturns
  obtain ⟨proto, second, hsecond, hrest⟩ := Program.bind_eq_some.mp hrest
  obtain ⟨_, third, hthird, hrest⟩ := Program.bind_eq_some.mp hrest
  obtain ⟨_, fourth, hfourth, hrest⟩ := Program.bind_eq_some.mp hrest
  obtain ⟨_, fifth, hfifth, hrest⟩ := Program.bind_eq_some.mp hrest
  have hlt := Heap.lt_length_of_objectAt hobject
  have hne : func ≠ build.heap.length := Nat.ne_of_lt hlt
  cases Option.some.inj hfirst
  obtain ⟨rfl, hsoundTwo, htwo, hfuncTwo, hprotoTwo⟩ := newPrototype_spec hsound hobject hsecond
  have hgrown : build.heap.length < second.heap.length := Heap.lt_length_of_objectAt hprotoTwo
  obtain ⟨hsoundThree, hthree, made, hmade, hprotoThree⟩ :=
    initPrototype_spec hget hsoundTwo hprotoTwo hthird
  have hfuncThree := (hthree.frame func (hlt.trans hgrown) hne).trans hfuncTwo
  obtain ⟨hsoundFour, hfour, hfuncFour⟩ := defines_initPropertys hget template.toTemplate third _ _
    fourth hsoundThree hfuncThree hfourth
  have hprotoFour : ∀ function : Nat → Option Ptr,
      (∀ id ptr, fourth.functionOf context id = some ptr → function id = some ptr) → _ :=
    fun function hfunction =>
      (hfour.frame build.heap.length (hgrown.trans_le hthree.grows) hne.symm).trans
        (hprotoThree function fun id ptr h => hfunction id ptr (by
          rw [Build.functionOf_eq_some_iff] at h ⊢
          exact hfour.kept id _ h))
  cases Option.some.inj hfifth
  have hfive : ∀ function : Nat → Option Ptr,
      (∀ id ptr, fourth.functionOf context id = some ptr → function id = some ptr) → _ :=
    fun function hfunction => setConstructor_spec hsoundFour hne (hfuncFour function hfunction)
      (hprotoFour function hfunction)
  obtain ⟨hsoundFive, hsteadyFive, _⟩ := hfive (fourth.functionOf context) fun _ _ h => h
  refine ⟨made, _, hsoundFive, ?_, ?_, ?_, fun function hfunction =>
    (hfive function hfunction).2.2, hrest⟩
  · have hwide : build.Steady context (fun ptr => ptr = func ∨ ptr = build.heap.length) _ :=
      (htwo.mono fun _ _ h => .inl h).trans <| (hthree.mono fun _ _ h => .inr h).trans <|
        (hfour.mono fun _ _ h => .inl h).trans hsteadyFive
    exact hwide.mono fun ptr hptr h => h.resolve_right (Nat.ne_of_lt hptr)
  · exact hgrown.trans_le (hthree.grows.trans (hfour.grows.trans hsteadyFive.grows))
  · have hall : third.Steady context (fun _ => True) _ :=
      (hfour.mono fun _ _ _ => trivial).trans (hsteadyFive.mono fun _ _ _ => trivial)
    exact hmade.imp fun _ _ h => servesAccessor_later hall h

theorem inherit_spec (hget : Answers context get) {parent : Option Nat} {object : JSObject}
    (hsound : build.Sound context) (hobject : build.heap.objectAt obj = some object)
    (hreturns : inherit realm get parent obj build = some (PUnit.unit, next)) :
    next.Sound context ∧ build.Steady context (· = obj) next ∧
      (∃ link, next.heap.objectAt obj = some { object with proto := link }) ∧
      (parent = none → next = build) ∧
      ∀ id, parent = some id → ∃ func middle, middle.Sound context ∧
        build.Steady context (fun _ => False) middle ∧ middle.cached context id = some func ∧
        next = { middle with heap := realm.inheritFrom middle.heap obj func } := by
  cases parent with
  | none =>
      cases Option.some.inj hreturns
      exact ⟨hsound, Build.Steady.refl _, ⟨object.proto, hobject⟩, fun _ => rfl,
        fun id h => nomatch h⟩
  | some parent =>
      obtain ⟨func, middle, hmiddle, hnext⟩ := Program.bind_eq_some.mp hreturns
      cases Option.some.inj hnext
      obtain ⟨hsoundMiddle, hsteady, hcached⟩ := hget parent build func middle hsound hmiddle
      have hthere : middle.heap.objectAt obj = some object := by
        rw [hsteady.frame obj (Heap.lt_length_of_objectAt hobject) not_false, hobject]
      obtain ⟨hset, hlink⟩ :
          middle.Steady context (· = obj)
            { middle with heap := realm.inheritFrom middle.heap obj func } ∧
          ∃ link, (realm.inheritFrom middle.heap obj func).objectAt obj =
            some { object with proto := link } := by
        unfold Realm.inheritFrom Heap.setPrototype
        split
        next =>
          refine ⟨Build.steady_modifyObject rfl fun _ => rfl, none, ?_⟩
          rw [Heap.objectAt_modifyObject, if_pos rfl, hthere, Option.map_some]
        next target _ =>
          split
          next => exact ⟨Build.Steady.refl middle, object.proto, hthere⟩
          next =>
            refine ⟨Build.steady_modifyObject rfl fun _ => rfl, some target, ?_⟩
            rw [Heap.objectAt_modifyObject, if_pos rfl, hthere, Option.map_some]
        next => exact ⟨Build.Steady.refl middle, object.proto, hthere⟩
      refine ⟨hsoundMiddle.of_table hset rfl, (hsteady.mono fun _ _ h => h.elim).trans hset, hlink,
        fun h => (by cases h), fun id h => ?_⟩
      cases h
      exact ⟨func, middle, hsoundMiddle, hsteady, hcached, rfl⟩

theorem initFunction_spec (hget : Answers context get) {template : FunctionTemplate} {func : Ptr}
    (hsound : build.Sound context)
    (hobject : build.heap.objectAt func = some (realm.functionObject template.funcData))
    (hreturns : initFunction realm get template func build = some (PUnit.unit, next)) :
    next.Sound context ∧ build.Steady context (· = func) next := by
  unfold initFunction at hreturns
  split at hreturns
  next =>
    obtain ⟨made, middle, hmiddle, hsteady, _, _, hobjects, hinherit⟩ :=
      initConstructor_spec hget hsound hobject hreturns
    obtain ⟨_, hproto⟩ := hobjects (middle.functionOf context) fun _ _ h => h
    obtain ⟨hnext, hlast, _⟩ := inherit_spec hget hmiddle hproto hinherit
    refine ⟨hnext, ?_⟩
    have hwide : build.Steady context (fun ptr => ptr = func ∨ ptr = build.heap.length) next :=
      (hsteady.mono fun _ _ h => .inl h).trans (hlast.mono fun _ _ h => .inr h)
    exact hwide.mono fun ptr hptr h => h.resolve_right (Nat.ne_of_lt hptr)
  next =>
    cases Option.some.inj hreturns
    exact ⟨hsound, Build.Steady.refl _⟩

end Builder

/-- What does not look at the cache is the same for templates that are declared alike. -/
theorem FunctionTemplate.eq_of_declared {α : Type} (tell : FunctionTemplate → α)
    (hblind : ∀ template : FunctionTemplate, tell template.declared = tell template)
    {first second : FunctionTemplate} (hdeclared : first.declared = second.declared) :
    tell first = tell second := by
  rw [← hblind first, ← hblind second, hdeclared]

namespace Build

variable {build next : Build} {context id : Nat} {mine : Ptr → Prop} {func : JSValue}

theorem declared_cache (other : Nat) : ((build.cache context id func).table[other]?).map
    FunctionTemplate.declared = (build.table[other]?).map FunctionTemplate.declared := by
  rw [cache, List.getElem?_modify]
  cases build.table[other]? with
  | none => rfl
  | some template =>
      simp only [Option.map_some]
      split <;> rfl

/-- The new function of a template is cached. -/
theorem Sound.cache (hsound : build.Sound context) {ptr : Ptr} {object : JSObject}
    {template : FunctionTemplate} (htemplate : build.table[id]? = some template)
    (hobject : build.heap.objectAt ptr = some object)
    (hclass : object.classData = .cFunctionData template.funcData) :
    (build.cache context id (.ref .object ptr)).Sound context where
  closed := hsound.closed.of_uses uses_cache
  functions other func hcached := by
    have hthere : ∀ found, build.table[other]? = some found →
        ∃ now, (build.cache context id (.ref .object ptr)).table[other]? = some now ∧
          now.funcData = found.funcData := by
      intro found hfound
      obtain ⟨now, hnow, heq⟩ := exists_of_map_eq (declared_cache other) hfound
      exact ⟨now, hnow,
        FunctionTemplate.eq_of_declared FunctionTemplate.funcData (fun _ => rfl) heq⟩
    rw [cached_cache htemplate] at hcached
    split at hcached
    next heq =>
      subst heq
      cases Option.some.inj hcached
      obtain ⟨now, hnow, hdata⟩ := hthere template htemplate
      exact ⟨ptr, object, now, rfl, hobject, hnow, by rw [hclass, hdata]⟩
    next =>
      obtain ⟨address, found, known, hfunc, hfound, hknown, hknownClass⟩ :=
        hsound.functions other func hcached
      obtain ⟨now, hnow, hdata⟩ := hthere known hknown
      exact ⟨address, found, now, hfunc, hfound, hnow, by rw [hknownClass, hdata]⟩

end Build

namespace Builder

variable {context : Nat} {realm : Realm}

theorem answers_getFunction (fuel : Nat) : Answers context (getFunction realm context fuel) := by
  induction fuel with
  | zero => exact fun id build func next _ hreturns => nomatch hreturns
  | succ fuel ih =>
      intro id build func next hsound hreturns
      obtain ⟨hgrown, hcached⟩ := grown_of_returns hsound.closed hreturns
      obtain ⟨template, htemplate, ⟨_, rfl⟩ | ⟨_, hmade⟩⟩ := exists_of_getFunction hreturns
      · exact ⟨hsound, Build.Steady.refl _, hcached⟩
      · obtain ⟨ptr, first, middle, hfirst, hmiddle, rfl, rfl⟩ := exists_of_makeFunction hmade
        obtain ⟨hptr, hsoundFirst, hsteadyFirst, _, _, hobject⟩ :=
          newCFunctionData_spec hsound hfirst
        obtain ⟨hsoundMiddle, hsteadyMiddle⟩ := initFunction_spec ih hsoundFirst hobject hmiddle
        have hsteady : build.Steady context (fun _ => False) middle :=
          (hsteadyFirst.mono fun _ _ h => h.elim).trans hsteadyMiddle |>.mono
            fun other hlt heq => Nat.ne_of_lt hlt (Eq.trans heq hptr)
        obtain ⟨changed, hchanged, hclass⟩ := hsteadyMiddle.classes ptr _ hobject
        obtain ⟨known, hknown, heq⟩ := exists_of_map_eq (hsteady.declared id) htemplate
        have hdata := FunctionTemplate.eq_of_declared FunctionTemplate.funcData (fun _ => rfl) heq
        have hlast := hsoundMiddle.cache hknown hchanged (hclass.trans (by rw [hdata]; rfl))
        refine ⟨hlast, ?_, hcached⟩
        exact { hsteady with
          declared := fun other => (Build.declared_cache other).trans (hsteady.declared other)
          kept := hgrown.kept }

end Builder

end QuickjsBackend
