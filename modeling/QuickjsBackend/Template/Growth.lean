import QuickjsBackend.Template.Termination

/-! # How the cache grows

A call whose way is clear of cycles returns. It caches functions under templates
that had none, and under no others than those it comes to.
-/

namespace QuickjsBackend

open Foundation Relation

namespace Build

variable (build : Build) (context : Nat) (reach : Nat → Prop)

/-- Functions are cached for templates within reach, and those that are there stay. -/
structure Grown (next : Build) : Prop where
  uses : ∀ id : Nat, (next.table[id]?).map FunctionTemplate.uses =
    (build.table[id]?).map FunctionTemplate.uses
  kept : ∀ id func, build.cached context id = some func → next.cached context id = some func
  reached : ∀ id, (next.cached context id).isSome → (build.cached context id).isSome ∨ reach id

variable {build context reach} {middle next : Build} {id : Nat} {func : JSValue}

theorem Grown.trans (hfirst : build.Grown context reach middle)
    (hsecond : middle.Grown context reach next) : build.Grown context reach next where
  uses id := (hsecond.uses id).trans (hfirst.uses id)
  kept id func h := hsecond.kept id func (hfirst.kept id func h)
  reached id h := (hsecond.reached id h).elim (hfirst.reached id) .inr

theorem Grown.mono {wider : Nat → Prop} (hgrown : build.Grown context reach next)
    (hreach : ∀ id, reach id → wider id) : build.Grown context wider next :=
  { hgrown with reached := fun id h => (hgrown.reached id h).imp_right (hreach id) }

/-- The heap alone has changed. -/
theorem grown_of_table (htable : next.table = build.table) : build.Grown context reach next where
  uses id := by rw [htable]
  kept id func h := by rwa [cached_congr htable]
  reached id h := by
    rw [cached_congr htable] at h
    exact .inl h

theorem Grown.extended (hgrown : build.Grown context reach next) : build.Extended context next where
  uses := hgrown.uses
  kept id hsome := by
    obtain ⟨func, hfunc⟩ := Option.isSome_iff_exists.mp hsome
    rw [hgrown.kept id func hfunc]
    rfl

theorem Extended.trans (hfirst : build.Extended context middle)
    (hsecond : middle.Extended context next) : build.Extended context next :=
  ⟨fun id => (hsecond.uses id).trans (hfirst.uses id),
    fun id h => hsecond.kept id (hfirst.kept id h)⟩

/-- A template out of reach of what has been cached has no function yet. -/
theorem Grown.uncached (hgrown : build.Grown context reach next)
    (hnone : build.cached context id = none) (hreach : ¬ reach id) :
    next.cached context id = none := by
  rw [← Option.not_isSome_iff_eq_none]
  intro hsome
  rcases hgrown.reached id hsome with hbefore | hreached
  · rw [hnone] at hbefore
    cases hbefore
  · exact hreach hreached

/-- The function of a template is cached when all it is made of is. -/
theorem Grown.cache (hgrown : build.Grown context reach middle) {template : FunctionTemplate}
    (hthere : build.table[id]? = some template) (hreach : ¬ reach id)
    (hnone : build.cached context id = none) (func : JSValue) :
    build.Grown context (fun other => other = id ∨ reach other) (middle.cache context id func) ∧
      (middle.cache context id func).cached context id = some func := by
  obtain ⟨found, hfound, _⟩ := exists_of_map_eq (hgrown.uses id) hthere
  have hcached : ∀ other, (middle.cache context id func).cached context other =
      if other = id then some func else middle.cached context other := cached_cache hfound
  have hmiddle := hgrown.uncached hnone hreach
  refine ⟨⟨fun other => (uses_cache other).trans (hgrown.uses other), fun other old hold => ?_,
    fun other hother => ?_⟩, by rw [hcached, if_pos rfl]⟩
  · have hkept := hgrown.kept other old hold
    rw [hcached, if_neg]
    · exact hkept
    · rintro rfl
      rw [hmiddle] at hkept
      cases hkept
  · rw [hcached] at hother
    split at hother
    next heq => exact .inr (.inl heq)
    next => exact (hgrown.reached other hother).imp_right .inr

end Build

namespace Builder

variable {realm : Realm} {context : Nat} {get : Nat → Builder JSValue} {base : Build}
  {reach : Nat → Prop} {ids : List Nat}

/-- The program returns wherever the base has grown to, and lets it grow. -/
abbrev Grows {α : Type} (context : Nat) (base : Build) (reach : Nat → Prop)
    (program : Builder α) : Prop :=
  program.Returns (fun build => base.Grown context reach build)
    (fun build => base.Grown context reach build)

theorem Grows.bind {α β : Type} {first : Builder α} {rest : α → Builder β}
    (hfirst : Grows context base reach first)
    (hrest : ∀ value, Grows context base reach (rest value)) :
    Grows context base reach (first >>= rest) :=
  Program.Returns.bind hfirst hrest

theorem grows_of_table {α : Type} {program : Builder α}
    (hprogram : ∀ build, ∃ value next, program build = some (value, next) ∧
      next.table = build.table) : Grows context base reach program := by
  intro build hgrown
  obtain ⟨value, next, hreturns, htable⟩ := hprogram build
  exact ⟨value, next, hreturns, hgrown.trans (Build.grown_of_table htable)⟩

theorem grows_onHeap {change : Heap → Heap} : Grows context base reach (onHeap change) :=
  grows_of_table fun _ => ⟨_, _, rfl, rfl⟩

theorem grows_newCell {cell : HeapCell} : Grows context base reach (newCell cell) :=
  grows_of_table fun _ => ⟨_, _, rfl, rfl⟩

theorem grows_newCFunctionData (funcData : List JSValue) :
    Grows context base reach (newCFunctionData realm funcData) :=
  grows_of_table fun _ => ⟨_, _, rfl, rfl⟩

theorem grows_initAccessors (object : ObjectTemplate) (obj : Ptr) :
    Grows context base reach (initAccessors realm object obj) := by
  refine Program.Returns.forM _ fun accessor _ => ?_
  refine grows_newCell.bind fun name => ?_
  refine (Program.Returns.mapM _ fun values _ => grows_newCFunctionData values).bind
    fun getter => ?_
  refine (Program.Returns.mapM _ fun values _ => grows_newCFunctionData values).bind
    fun setter => ?_
  exact grows_onHeap

theorem grows_initPropertys {template : Template} (obj : Ptr)
    (hget : ∀ id ∈ template.uses, Grows context base reach (get id)) :
    Grows context base reach (initPropertys get template obj) := by
  simp only [Template.uses, List.mem_append, List.mem_flatMap, List.mem_singleton,
    Option.mem_toList] at hget
  refine Grows.bind ?_ fun _ => ?_
  · apply Program.Returns.forM
    intro field hmem
    exact (hget field.2 (.inl ⟨field, hmem, rfl⟩)).bind fun _ => grows_onHeap
  · apply Program.Returns.forM
    intro property hmem
    refine Grows.bind (Program.Returns.mapM _ fun id hid => ?_) fun getter => ?_
    · exact hget id (.inr ⟨property, hmem, .inl hid⟩)
    refine Grows.bind (Program.Returns.mapM _ fun id hid => ?_) fun setter => ?_
    · exact hget id (.inr ⟨property, hmem, .inr hid⟩)
    exact grows_onHeap

theorem grows_initFunction {template : FunctionTemplate} (func : Ptr)
    (hget : ∀ id ∈ template.uses, Grows context base reach (get id)) :
    Grows context base reach (initFunction realm get template func) := by
  unfold initFunction
  unfold FunctionTemplate.uses at hget
  split
  next hconstrutor =>
    rw [if_pos hconstrutor] at hget
    simp only [List.mem_append, Option.mem_toList] at hget
    refine grows_onHeap.bind fun _ => grows_newCell.bind fun proto => ?_
    refine Grows.bind ?_ fun _ => ?_
    · cases hproto : template.prototypeTemplate with
      | none => exact Program.returns_pure PUnit.unit
      | some object =>
          refine (grows_initPropertys proto fun id hid => hget id ?_).bind fun _ =>
            grows_initAccessors object proto
          simp only [hproto, Option.map_some, Option.getD_some]
          exact .inl (.inl hid)
    refine (grows_initPropertys func fun id hid => hget id (.inl (.inr hid))).bind fun _ => ?_
    refine grows_onHeap.bind fun _ => ?_
    cases hparent : template.parent with
    | none => exact Program.returns_pure PUnit.unit
    | some parent =>
        refine (hget parent (.inr ?_)).bind fun _ => grows_onHeap
        exact hparent
  next => exact Program.returns_pure PUnit.unit

/-- Enough fuel for each of finitely many calls is enough for all of them. -/
theorem exists_fuel {enough : Nat → Nat → Prop} (ids : List Nat)
    (heach : ∀ id ∈ ids, ∃ fuel, ∀ more ≥ fuel, enough more id) :
    ∃ fuel, ∀ more ≥ fuel, ∀ id ∈ ids, enough more id := by
  induction ids with
  | nil => exact ⟨0, fun _ _ _ hmem => nomatch hmem⟩
  | cons id rest ih =>
      obtain ⟨first, hfirst⟩ := heach id List.mem_cons_self
      obtain ⟨others, hothers⟩ := ih fun other hmem => heach other (List.mem_cons_of_mem id hmem)
      refine ⟨max first others, fun more hmore other hmem => ?_⟩
      rcases List.mem_cons.mp hmem with rfl | hmem
      · exact hfirst more (le_trans (le_max_left _ _) hmore)
      · exact hothers more (le_trans (le_max_right _ _) hmore) other hmem

theorem makeFunction_of {id : Nat} {template : FunctionTemplate} {build first middle : Build}
    {ptr : Ptr} (hfirst : newCFunctionData realm template.funcData build = some (ptr, first))
    (hmiddle : initFunction realm get template ptr first = some (PUnit.unit, middle)) :
    makeFunction realm context get id template build =
      some (.ref .object ptr, middle.cache context id (.ref .object ptr)) :=
  Program.bind_eq_some.mpr
    ⟨ptr, first, hfirst, Program.bind_eq_some.mpr ⟨PUnit.unit, middle, hmiddle, rfl⟩⟩

/-- A function that is not cached is made, as long as the calls for the templates
below return. -/
theorem makeFunction_returns (realm : Realm) {id : Nat} {template : FunctionTemplate}
    {build : Build} (hcycle : ¬ TransGen (base.Calls context) id id)
    (hextended : base.Extended context build) (htemplate : build.table[id]? = some template)
    (hnone : build.cached context id = none)
    (hget : ∀ callee ∈ template.uses, ∀ state, base.Extended context state →
      ∃ func next, get callee state = some (func, next) ∧
        state.Grown context (fun other => ReflTransGen (base.Calls context) other callee) next) :
    ∃ func next, makeFunction realm context get id template build = some (func, next) ∧
      build.Grown context (fun other => ReflTransGen (base.Calls context) other id) next ∧
      next.cached context id = some func := by
  obtain ⟨ptr, first, hfirst, htable⟩ : ∃ ptr first,
      newCFunctionData realm template.funcData build = some (ptr, first) ∧
        first.table = build.table := ⟨_, _, rfl, rfl⟩
  have hsame : build.Grown context (fun _ => False) first := Build.grown_of_table htable
  have hstart := hextended.trans hsame.extended
  have hgrows : Grows context first (fun other => TransGen (base.Calls context) other id)
      (initFunction realm get template ptr) := by
    apply grows_initFunction
    intro callee huse state hgrown
    obtain ⟨known, hknown, heq⟩ := exists_of_map_eq (hextended.uses id).symm htemplate
    have hcall : base.Calls context callee id :=
      ⟨hextended.uncached hnone, known, hknown, heq ▸ huse⟩
    obtain ⟨func, next, hreturns, hnext⟩ :=
      hget callee huse state (hstart.trans hgrown.extended)
    refine ⟨func, next, hreturns, hgrown.trans (hnext.mono fun other hother => ?_)⟩
    exact TransGen.tail' hother hcall
  obtain ⟨_, middle, hmiddle, hgrown⟩ := hgrows first (Build.grown_of_table rfl)
  have hthere : first.table[id]? = some template := by rw [htable, htemplate]
  have hfirstNone : first.cached context id = none := by
    rw [Build.cached_congr htable, hnone]
  obtain ⟨hlast, hanswer⟩ := hgrown.cache hthere hcycle hfirstNone (.ref .object ptr)
  refine ⟨.ref .object ptr, _, makeFunction_of hfirst hmiddle, ?_, hanswer⟩
  refine (Build.grown_of_table htable).trans (hlast.mono fun other hother => ?_)
  rcases hother with rfl | hother
  · exact .refl
  · exact hother.to_reflTransGen

/-- A call on an accessible template returns, wherever the base has been extended
to; it stays within the templates below. -/
theorem returns_of_acc (realm : Realm) (hclosed : base.Closed) {id : Nat}
    (hacc : Acc (base.Calls context) id)
    (hid : id < base.table.length) :
    ∃ fuel, ∀ more ≥ fuel, ∀ build, base.Extended context build →
      ∃ func next, getFunction realm context more id build = some (func, next) ∧
        build.Grown context (fun other => ReflTransGen (base.Calls context) other id) next ∧
        next.cached context id = some func := by
  induction hacc with
  | intro id hbelow ih =>
      have hcycle := not_transGen_self_of_acc (Acc.intro id hbelow)
      obtain ⟨known, hknown⟩ : ∃ known, base.table[id]? = some known :=
        ⟨_, List.getElem?_eq_getElem hid⟩
      have huses : ∀ build template, base.Extended context build →
          build.table[id]? = some template → template.uses = known.uses := by
        intro build template hextended htemplate
        have hsame := hextended.uses id
        rw [hknown, htemplate] at hsame
        exact Option.some.inj hsame
      -- fuel for the templates that this one is made of, if it is not cached
      obtain ⟨fuel, hfuel⟩ : ∃ fuel, ∀ more ≥ fuel, ∀ callee ∈ known.uses,
          base.cached context id = none → ∀ build, base.Extended context build →
            ∃ func next, getFunction realm context more callee build = some (func, next) ∧
              build.Grown context (fun other => ReflTransGen (base.Calls context) other callee)
                next ∧ next.cached context callee = some func := by
        apply exists_fuel
        intro callee huse
        cases hcached : base.cached context id with
        | some func => exact ⟨0, fun _ _ hnone => nomatch hnone⟩
        | none =>
            have hcall : base.Calls context callee id := ⟨hcached, known, hknown, huse⟩
            have hlt := hclosed known (List.mem_of_getElem? hknown) callee huse
            obtain ⟨fuel, hfuel⟩ := ih callee hcall hlt
            exact ⟨fuel, fun more hmore _ => hfuel more hmore⟩
      refine ⟨fuel + 1, fun more hmore build hextended => ?_⟩
      obtain ⟨rest, rfl⟩ : ∃ rest, more = rest + 1 := ⟨more - 1, by omega⟩
      have hrest : rest ≥ fuel := by omega
      obtain ⟨template, htemplate, _⟩ := exists_of_map_eq (hextended.uses id) hknown
      have hlookup : build.cached context id = template.contextToFunction.lookup context := by
        rw [Build.cached, htemplate, Option.bind_some]
      cases hcached : build.cached context id with
      | some func =>
          refine ⟨func, build, ?_, Build.grown_of_table rfl, hcached⟩
          simp only [getFunction, htemplate, hlookup.symm.trans hcached]
      | none =>
          have hnone := hextended.uncached hcached
          obtain ⟨func, next, hreturns, hnext⟩ := makeFunction_returns realm hcycle hextended
            htemplate hcached fun callee huse state hstate => by
              rw [huses build template hextended htemplate] at huse
              obtain ⟨func, next, hreturns, hgrown, _⟩ :=
                hfuel rest hrest callee huse hnone state hstate
              exact ⟨func, next, hreturns, hgrown⟩
          refine ⟨func, next, ?_, hnext⟩
          simp only [getFunction, htemplate, hlookup.symm.trans hcached]
          exact hreturns

theorem approximates_initPropertys {other : Nat → Builder JSValue}
    (hget : ∀ id, (get id).Approximates (other id)) (template : Template) (obj : Ptr) :
    (initPropertys get template obj).Approximates (initPropertys other template obj) := by
  refine (Program.Approximates.forM (fun field => ?_) _).bind fun _ =>
    Program.Approximates.forM (fun property => ?_) _
  · exact (hget field.2).bind fun _ => .refl _
  · exact (Program.Approximates.mapM hget _).bind fun _ =>
      (Program.Approximates.mapM hget _).bind fun _ => .refl _

theorem approximates_initFunction {other : Nat → Builder JSValue}
    (hget : ∀ id, (get id).Approximates (other id)) (template : FunctionTemplate) (func : Ptr) :
    (initFunction realm get template func).Approximates
      (initFunction realm other template func) := by
  unfold initFunction
  split
  next =>
    refine (Program.Approximates.refl _).bind fun _ => (Program.Approximates.refl _).bind
      fun proto => Program.Approximates.bind ?_ fun _ => ?_
    · cases template.prototypeTemplate with
      | none => exact .refl _
      | some object => exact (approximates_initPropertys hget _ proto).bind fun _ => .refl _
    refine (approximates_initPropertys hget _ func).bind fun _ => ?_
    refine (Program.Approximates.refl _).bind fun _ => ?_
    cases template.parent with
    | none => exact .refl _
    | some parent => exact (hget parent).bind fun _ => .refl _
  next => exact .refl _

/-- A call that returns does so with more fuel. -/
theorem approximates_getFunction (fuel : Nat) : ∀ id,
    (getFunction realm context fuel id).Approximates (getFunction realm context (fuel + 1) id) := by
  induction fuel with
  | zero => exact fun id build result hreturns => nomatch hreturns
  | succ fuel ih =>
      rintro id build ⟨func, next⟩ hreturns
      obtain ⟨template, htemplate, ⟨hcached, rfl⟩ | ⟨hcached, hmade⟩⟩ :=
        exists_of_getFunction hreturns
      · rw [Build.cached, htemplate, Option.bind_some] at hcached
        simp only [getFunction, htemplate, hcached]
      · obtain ⟨ptr, first, middle, hfirst, hmiddle, rfl, rfl⟩ := exists_of_makeFunction hmade
        have hmore : makeFunction realm context (getFunction realm context (fuel + 1)) id template
            build = some (.ref .object ptr, middle.cache context id (.ref .object ptr)) :=
          makeFunction_of hfirst (approximates_initFunction ih template ptr _ _ hmiddle)
        rw [Build.cached, htemplate, Option.bind_some] at hcached
        simp only [getFunction, htemplate, hcached]
        exact hmore

theorem getFunction_mono {fuel more id : Nat} {build : Build} {result : JSValue × Build}
    (hle : fuel ≤ more) (hreturns : getFunction realm context fuel id build = some result) :
    getFunction realm context more id build = some result := by
  induction hle with
  | refl => exact hreturns
  | step _ ih => exact approximates_getFunction _ id build result ih

/-- What is known of a call on an accessible template is known of every call that
returns. -/
theorem grown_of_returns {fuel id : Nat} {func : JSValue} {next : Build} (hclosed : base.Closed)
    (hreturns : getFunction realm context fuel id base = some (func, next)) :
    base.Grown context (fun other => ReflTransGen (base.Calls context) other id) next ∧
      next.cached context id = some func := by
  have hexplored := explores_getFunction fuel id base func next hreturns
  have hid : id < base.table.length := by
    cases fuel with
    | zero => cases hreturns
    | succ fuel =>
        obtain ⟨template, htemplate, _⟩ := exists_of_getFunction hreturns
        exact (List.getElem?_eq_some_iff.mp htemplate).1
  obtain ⟨enough, henough⟩ := returns_of_acc realm hclosed
    (hexplored.2 id (List.mem_singleton_self id)).1 hid
  obtain ⟨other, last, hother, hgrown, hcached⟩ := henough (max enough fuel) (le_max_left _ _) base
    ⟨fun _ => rfl, fun _ h => h⟩
  have hsame := getFunction_mono (le_max_right enough fuel) hreturns
  cases hsame.symm.trans hother
  exact ⟨hgrown, hcached⟩

end Builder

namespace Build

variable {build : Build} {context id : Nat} {realm : Realm}

end Build

end QuickjsBackend
