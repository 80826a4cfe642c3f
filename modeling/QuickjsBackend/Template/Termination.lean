import QuickjsBackend.Foundation.Acyclic
import QuickjsBackend.Template.GetFunction

/-! # When `GetFunction` returns

A call goes through the templates that its template is made of, and a template
has no function in the cache before its own call returns. A call therefore
returns exactly when no cycle of templates without a function is in its way; then
it makes one function for each template it comes to, and answers with that one.
-/

namespace QuickjsBackend

open Foundation Relation

/-- The templates that `InitPropertys` asks for functions, in this order. -/
def Template.uses (template : Template) : List Nat :=
  template.fields.flatMap (fun field => [field.2]) ++
    template.accessorPropertyInfos.flatMap fun property =>
      property.2.getter.toList ++ property.2.effectiveSetter.toList

/-- The templates that `GetFunction` asks for functions. -/
def FunctionTemplate.uses (template : FunctionTemplate) : List Nat :=
  if template.isConstrutor then
    (template.prototypeTemplate.map fun object => object.toTemplate.uses).getD [] ++
      template.toTemplate.uses ++ template.parent.toList
  else []

theorem FunctionTemplate.mem_uses_of_parent {template : FunctionTemplate} {parent : Nat}
    (hparent : template.parent = some parent) : parent ∈ template.uses := by
  simp [uses, isConstrutor, hparent]

namespace Build

variable (build : Build) (context : Nat)

def cached (id : Nat) : Option JSValue :=
  (build.table[id]?).bind fun template => template.contextToFunction.lookup context

/-- The caller has no function in the cache, and is made of the callee. -/
def Calls (callee caller : Nat) : Prop :=
  build.cached context caller = none ∧
    ∃ template, build.table[caller]? = some template ∧ callee ∈ template.uses

/-- Every template that is used is there. -/
def Closed : Prop :=
  ∀ template ∈ build.table, ∀ id ∈ template.uses, id < build.table.length

/-- The templates are used as before, and those with a function keep one. -/
structure Extended (next : Build) : Prop where
  uses : ∀ id : Nat, (next.table[id]?).map FunctionTemplate.uses =
    (build.table[id]?).map FunctionTemplate.uses
  kept : ∀ id, (build.cached context id).isSome → (next.cached context id).isSome

/-- Functions are added to the cache of the context, under templates that are accessible. -/
structure Explored (next : Build) : Prop extends build.Extended context next where
  acc : ∀ id, (next.cached context id).isSome →
    (build.cached context id).isSome ∨ Acc (build.Calls context) id
  elsewhere : ∀ other, other ≠ context → next.cached other = build.cached other

variable {build context} {next : Build} {id : Nat}

theorem cached_congr (htable : next.table = build.table) :
    next.cached context = build.cached context := by
  funext id
  rw [cached, cached, htable]

theorem calls_iff_of_uses (huses : (next.table[id]?).map FunctionTemplate.uses =
    (build.table[id]?).map FunctionTemplate.uses) (hcached : next.cached context id = none)
    (hbefore : build.cached context id = none) (callee : Nat) :
    next.Calls context callee id ↔ build.Calls context callee id := by
  have hmem : ∀ other : Build, (∃ template, other.table[id]? = some template ∧
      callee ∈ template.uses) ↔ ∃ uses, (other.table[id]?).map FunctionTemplate.uses = some uses ∧
        callee ∈ uses := by
    intro other
    simp only [Option.map_eq_some_iff]
    constructor
    · rintro ⟨template, hthere, huse⟩
      exact ⟨template.uses, ⟨template, hthere, rfl⟩, huse⟩
    · rintro ⟨_, ⟨template, hthere, rfl⟩, huse⟩
      exact ⟨template, hthere, huse⟩
  rw [Calls, Calls, hcached, hbefore, hmem, hmem, huses]

theorem Extended.uncached (hextended : build.Extended context next)
    (hnone : next.cached context id = none) : build.cached context id = none := by
  cases hthere : build.cached context id with
  | none => rfl
  | some func =>
      have hkept := hextended.kept id (by rw [hthere]; rfl)
      rw [hnone] at hkept
      cases hkept

/-- What is accessible once more functions are cached was accessible before. -/
theorem Explored.acc_back (hexplored : build.Explored context next)
    (hacc : Acc (next.Calls context) id) : Acc (build.Calls context) id := by
  induction hacc with
  | intro id _ ih =>
      cases hnow : next.cached context id with
      | some func =>
          rcases hexplored.acc id (by rw [hnow]; rfl) with hbefore | hacc
          · refine Acc.intro id fun callee hcall => ?_
            rw [hcall.1] at hbefore
            cases hbefore
          · exact hacc
      | none =>
          have hbefore := hexplored.toExtended.uncached hnow
          refine Acc.intro id fun callee hcall => ih callee ?_
          exact (calls_iff_of_uses (hexplored.uses id) hnow hbefore callee).mpr hcall

instance : IsPreorder Build (fun build next => build.Explored context next) where
  refl _ := ⟨⟨fun _ => rfl, fun _ h => h⟩, fun _ h => .inl h, fun _ _ => rfl⟩
  trans first second third hfirst hsecond := by
    refine ⟨⟨fun id => (hsecond.uses id).trans (hfirst.uses id),
      fun id h => hsecond.kept id (hfirst.kept id h)⟩, fun id h => ?_, fun other hother =>
      (hsecond.elsewhere other hother).trans (hfirst.elsewhere other hother)⟩
    rcases hsecond.acc id h with hmiddle | hacc
    · exact hfirst.acc id hmiddle
    · exact .inr (hfirst.acc_back hacc)

theorem explored_of_table (htable : next.table = build.table) : build.Explored context next where
  uses id := by rw [htable]
  kept id h := by rwa [cached_congr htable]
  acc id h := by
    rw [cached_congr htable] at h
    exact .inl h
  elsewhere _ _ := cached_congr htable

end Build

namespace Builder

variable {realm : Realm} {context : Nat} {get : Nat → Builder JSValue}

theorem moves_onHeap {change : Heap → Heap} :
    (onHeap change).Moves (fun build next => build.Explored context next) := by
  intro build _ next hreturns
  cases Option.some.inj hreturns
  exact Build.explored_of_table rfl

theorem moves_newCell {cell : HeapCell} :
    (newCell cell).Moves (fun build next => build.Explored context next) := by
  intro build _ next hreturns
  cases Option.some.inj hreturns
  exact Build.explored_of_table rfl

/-- The template is accessible, and has its function in the end. -/
def Found (context : Nat) (build next : Build) (id : Nat) : Prop :=
  Acc (build.Calls context) id ∧ (next.cached context id).isSome

theorem spreads_found (context : Nat) :
    Program.Spreads (fun build next => build.Explored context next) (Found context) where
  back _ _ _ _ hexplored hfound := ⟨hexplored.acc_back hfound.1, hfound.2⟩
  on _ _ _ id hfound hexplored := ⟨hfound.1, hexplored.kept id hfound.2⟩

/-- The program asks for functions of the templates, and caches functions under
accessible ones. -/
def Explores {α : Type} (context : Nat) (ids : List Nat) (program : Builder α) : Prop :=
  program.Visits (fun build next => build.Explored context next) (Found context) ids

section Explores

variable {α β ι : Type} {ids others : List Nat}

theorem Explores.bind {first : Builder α} {rest : α → Builder β}
    (hfirst : Explores context ids first) (hrest : ∀ value, Explores context others (rest value)) :
    Explores context (ids ++ others) (first >>= rest) :=
  Program.Visits.bind (spreads_found context) hfirst hrest

/-- What asks for no function may come first. -/
theorem Explores.after {first : Builder α} {rest : α → Builder β}
    (hfirst : Explores context [] first) (hrest : ∀ value, Explores context ids (rest value)) :
    Explores context ids (first >>= rest) :=
  hfirst.bind hrest

/-- What asks for no function may come last. -/
theorem Explores.before {first : Builder α} {rest : α → Builder β}
    (hfirst : Explores context ids first) (hrest : ∀ value, Explores context [] (rest value)) :
    Explores context ids (first >>= rest) := by
  have hboth := hfirst.bind hrest
  rw [List.append_nil] at hboth
  exact hboth

theorem Explores.forM {program : ι → Builder PUnit} {uses : ι → List Nat}
    (hprogram : ∀ entry, Explores context (uses entry) (program entry)) (entries : List ι) :
    Explores context (entries.flatMap uses) (entries.forM program) :=
  Program.Visits.forM (spreads_found context) hprogram entries

theorem explores_pure (value : α) : Explores context [] (pure value : Builder α) :=
  Program.visits_of_moves (Program.moves_pure value)

theorem explores_onHeap {change : Heap → Heap} : Explores context [] (onHeap change) :=
  Program.visits_of_moves moves_onHeap

theorem explores_newCell {cell : HeapCell} : Explores context [] (newCell cell) :=
  Program.visits_of_moves moves_newCell

theorem explores_newCFunctionData (funcData : List JSValue) :
    Explores context [] (newCFunctionData realm funcData) :=
  explores_newCell.after fun _ => explores_onHeap.after fun _ =>
    explores_onHeap.after fun _ => explores_pure _

theorem explores_defineAccessor (obj : Ptr) (name : String) (getter setter : Option JSValue)
    (attributes : PropertyAttribute) :
    Explores context [] (defineAccessor obj name getter setter attributes) :=
  explores_onHeap

theorem explores_initAccessor (obj : Ptr) (accessor : String × AccessorInfo) :
    Explores context [] (initAccessor realm obj accessor) := by
  have hfunction : ∀ data : Option (List JSValue),
      Explores context [] (data.mapM (newCFunctionData realm)) := by
    intro data
    cases data with
    | none => exact explores_pure none
    | some values =>
        intro build func next hreturns
        obtain ⟨inner, hinner, _⟩ := Program.map_eq_some.mp hreturns
        exact explores_newCFunctionData values build inner next hinner
  exact explores_newCell.after fun _ => (hfunction _).after fun _ => (hfunction _).after fun _ =>
    explores_defineAccessor obj _ _ _ _

theorem explores_initAccessors (object : ObjectTemplate) (obj : Ptr) :
    Explores context [] (initAccessors realm object obj) := by
  have hone : ∀ accessor, Explores context [] (initAccessor realm obj accessor) :=
    explores_initAccessor obj
  have hall := Explores.forM hone object.accessorInfos
  have hnone : object.accessorInfos.flatMap (fun _ => ([] : List Nat)) = [] := by simp
  rw [hnone] at hall
  exact hall

theorem explores_initPropertys (hget : ∀ id, Explores context [id] (get id))
    (template : Template) (obj : Ptr) :
    Explores context template.uses (initPropertys get template obj) := by
  refine Explores.bind (Explores.forM (fun field => ?_) template.fields)
    fun _ => Explores.forM (fun property => ?_) template.accessorPropertyInfos
  · exact (hget field.2).bind fun _ => explores_onHeap
  · have hgetter := Program.Visits.mapM hget property.2.getter
    have hsetter := Program.Visits.mapM hget property.2.effectiveSetter
    exact Explores.bind hgetter fun getter => Explores.before hsetter fun setter =>
      explores_defineAccessor obj property.1 getter setter property.2.attributes

theorem explores_initConstructor (hget : ∀ id, Explores context [id] (get id))
    (template : FunctionTemplate) (func : Ptr) :
    Explores context ((template.prototypeTemplate.map fun object =>
      object.toTemplate.uses).getD [] ++
      template.toTemplate.uses ++ template.parent.toList)
      (initConstructor realm get template func) := by
  have hproto : ∀ proto, Explores context
      ((template.prototypeTemplate.map fun object => object.toTemplate.uses).getD [])
      (initPrototype realm get template.prototypeTemplate proto) := by
    intro proto
    cases template.prototypeTemplate with
    | none => exact explores_pure PUnit.unit
    | some object =>
        exact (explores_initPropertys hget object.toTemplate proto).before fun _ =>
          explores_initAccessors object proto
  have hparent : ∀ proto, Explores context template.parent.toList
      (inherit realm get template.parent proto) := by
    intro proto
    cases template.parent with
    | none => exact explores_pure PUnit.unit
    | some parent =>
        exact (hget parent).before fun _ => explores_onHeap
  rw [List.append_assoc]
  refine explores_onHeap.after fun _ => explores_newCell.after fun proto => ?_
  refine (hproto proto).bind fun _ => (explores_initPropertys hget template.toTemplate func).bind ?_
  exact fun _ => explores_onHeap.after fun _ => hparent proto

theorem explores_initFunction (hget : ∀ id, Explores context [id] (get id))
    (template : FunctionTemplate) (func : Ptr) :
    Explores context template.uses (initFunction realm get template func) := by
  unfold initFunction FunctionTemplate.uses
  split
  next => exact explores_initConstructor hget template func
  next => exact explores_pure PUnit.unit

end Explores

/-- A function is made, the rest of the call is run, and the function is cached. -/
theorem exists_of_makeFunction {id : Nat} {template : FunctionTemplate} {build next : Build}
    {func : JSValue}
    (hreturns : makeFunction realm context get id template build = some (func, next)) :
    ∃ ptr first middle, newCFunctionData realm template.funcData build = some (ptr, first) ∧
      initFunction realm get template ptr first = some (PUnit.unit, middle) ∧
      func = .ref .object ptr ∧ next = middle.cache context id func := by
  obtain ⟨ptr, first, hfirst, hrest⟩ := Program.bind_eq_some.mp hreturns
  obtain ⟨_, middle, hmiddle, hrest⟩ := Program.bind_eq_some.mp hrest
  obtain ⟨_, last, hlast, hrest⟩ := Program.bind_eq_some.mp hrest
  cases Option.some.inj hlast
  cases Option.some.inj hrest
  exact ⟨ptr, first, middle, hfirst, hmiddle, rfl, rfl⟩

/-- A call answers from the cache, or makes the function. -/
theorem exists_of_getFunction {fuel id : Nat} {build next : Build} {func : JSValue}
    (hreturns : getFunction realm context (fuel + 1) id build = some (func, next)) :
    ∃ template, build.table[id]? = some template ∧
      ((build.cached context id = some func ∧ next = build) ∨
        (build.cached context id = none ∧
          makeFunction realm context (getFunction realm context fuel) id template build =
            some (func, next))) := by
  unfold getFunction at hreturns
  split at hreturns
  next => cases hreturns
  next template htemplate =>
    refine ⟨template, htemplate, ?_⟩
    have hcached : build.cached context id = template.contextToFunction.lookup context := by
      rw [Build.cached, htemplate, Option.bind_some]
    split at hreturns
    next found hlookup =>
      cases Option.some.inj hreturns
      exact .inl ⟨hcached.trans hlookup, rfl⟩
    next hlookup => exact .inr ⟨hcached.trans hlookup, hreturns⟩

end Builder

namespace Build

variable {build : Build} {context id : Nat} {func : JSValue}

theorem uses_cache (other : Nat) : ((build.cache context id func).table[other]?).map
    FunctionTemplate.uses = (build.table[other]?).map FunctionTemplate.uses := by
  rw [cache, List.getElem?_modify]
  cases build.table[other]? with
  | none => rfl
  | some template =>
      simp only [Option.map_some]
      split <;> rfl

theorem cached_cache {template : FunctionTemplate} (hthere : build.table[id]? = some template)
    (other : Nat) : (build.cache context id func).cached context other =
      if other = id then some func else build.cached context other := by
  rw [cached, cached, cache, List.getElem?_modify]
  by_cases heq : other = id
  · subst other
    simp [hthere, lookup_assign]
  · have hne : id ≠ other := fun h => heq h.symm
    cases build.table[other]? <;> simp [heq, hne]

/-- The caches of other contexts stay as they are. -/
theorem cached_cache_elsewhere {other : Nat} (hother : other ≠ context) :
    (build.cache context id func).cached other = build.cached other := by
  funext known
  rw [cached, cached, cache, List.getElem?_modify]
  cases build.table[known]? with
  | none => rfl
  | some template =>
      rw [Option.map_eq_map, Option.map_some, Option.bind_some, Option.bind_some]
      split
      next => exact (lookup_assign _).trans (if_neg hother)
      next => rfl

end Build

namespace Builder

variable {realm : Realm} {context : Nat}

/-- A call that returns has found no cycle in its way. -/
theorem explores_getFunction (fuel : Nat) :
    ∀ id, Explores context [id] (getFunction realm context fuel id) := by
  induction fuel with
  | zero => exact fun id build func next hreturns => nomatch hreturns
  | succ fuel ih =>
      intro id build func next hreturns
      obtain ⟨template, htemplate, hhit | ⟨hmissed, hmade⟩⟩ := exists_of_getFunction hreturns
      · obtain ⟨hcached, rfl⟩ := hhit
        refine ⟨Build.explored_of_table rfl, fun other hmem => ?_⟩
        rw [List.mem_singleton.mp hmem]
        refine ⟨Acc.intro id fun callee hcall => ?_, by rw [hcached]; rfl⟩
        rw [hcall.1] at hcached
        cases hcached
      · obtain ⟨ptr, first, middle, hfirst, hmiddle, rfl, rfl⟩ := exists_of_makeFunction hmade
        have hbody : Explores context template.uses (do
            let func ← newCFunctionData realm template.funcData
            initFunction realm (getFunction realm context fuel) template func) :=
          (explores_newCFunctionData _).after fun func => explores_initFunction ih template func
        obtain ⟨hexplored, huses⟩ := hbody build PUnit.unit middle
          (Program.bind_eq_some.mpr ⟨ptr, first, hfirst, hmiddle⟩)
        have hacc : Acc (build.Calls context) id := by
          refine Acc.intro id fun callee hcall => ?_
          obtain ⟨_, found, hfound, huse⟩ := hcall
          cases htemplate.symm.trans hfound
          exact (huses callee huse).1
        obtain ⟨found, hfound, _⟩ := exists_of_map_eq (hexplored.uses id) htemplate
        refine ⟨⟨⟨fun other => ?_, fun other hother => ?_⟩, fun other hother => ?_,
          fun other hother => ?_⟩, ?_⟩
        · exact (Build.uses_cache other).trans (hexplored.uses other)
        · refine (congrArg Option.isSome (Build.cached_cache hfound other)).trans ?_
          split
          next => rfl
          next => exact hexplored.kept other hother
        · have hnow := (congrArg Option.isSome (Build.cached_cache hfound other)).symm.trans hother
          split at hnow
          next heq => exact .inr (heq ▸ hacc)
          next => exact hexplored.acc other hnow
        · exact (Build.cached_cache_elsewhere hother).trans (hexplored.elsewhere other hother)
        · intro other hmem
          rw [List.mem_singleton.mp hmem]
          refine ⟨hacc, ?_⟩
          rw [Build.cached_cache hfound, if_pos rfl]
          rfl

end Builder

end QuickjsBackend
