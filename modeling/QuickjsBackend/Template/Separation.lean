import QuickjsBackend.Template.Linking

/-! # Templates in several contexts

Templates are made and declared as long as they have no function, asked for their
functions in any order and for any context, and objects are constructed. What is
made for one context stays apart from what is made for the others, and in every
run it is what `GetFunction` leaves.
-/

namespace QuickjsBackend

open Foundation Relation

namespace Build

variable (realms : Nat → Realm)

/-- A template is asked for its function, or an object is constructed. -/
inductive Call : Build → Build → Prop
  | getFunction {build next : Build} {context fuel id : Nat} {func : JSValue}
      (hreturns : Builder.getFunction (realms context) context fuel id build = some (func, next)) :
      Call build next
  | construct {build next : Build} {context : Nat} {func : JSValue} {count : Int} {obj : Ptr}
      (hreturns : Builder.construct (realms context) func count build = some (obj, next)) :
      Call build next

/-- A call, a new template, or a declaration on one that has no function yet. -/
inductive Step : Build → Build → Prop
  | call {build next : Build} (hcall : Call realms build next) : Step build next
  | new {build next : Build} {template : FunctionTemplate} (hnew : template.contextToFunction = [])
      (hnext : next = { build with table := build.table ++ [template] }) (hclosed : next.Closed) :
      Step build next
  | declare {build next : Build} {id : Nat} {change : FunctionTemplate → FunctionTemplate}
      (hcache : ∀ template, (change template).contextToFunction = template.contextToFunction)
      (hnone : ∀ context, build.cached context id = none)
      (hnext : next = { build with table := build.table.modify id change })
        (hclosed : next.Closed) :
      Step build next

/-- No function is there yet. -/
structure Fresh (build : Build) : Prop where
  closed : build.Closed
  uncached : ∀ context id, build.cached context id = none
  protos : ∀ ptr proto, build.heap.protoOf ptr = some proto → proto < build.heap.length
  roots : ∀ context, (realms context).objectProto < build.heap.length

/-- The object was made in a call for another context. -/
def Foreign (build : Build) (floor : Nat) (maker : Ptr → Nat) (context : Nat) (ptr : Ptr) : Prop :=
  floor ≤ ptr ∧ ptr < build.heap.length ∧ maker ptr ≠ context

/-- What there is for each context is as `GetFunction` leaves it, and none of it was made
for another context. -/
def Parted (floor : Nat) (maker : Ptr → Nat) (build : Build) : Prop :=
  ∀ context, build.Derived (realms context) context floor (build.Foreign floor maker context)

variable {realms} {build next : Build} {floor context id : Nat} {maker : Ptr → Nat}

theorem Fresh.parted (hfresh : build.Fresh realms) :
    build.Parted realms build.heap.length maker := by
  intro context
  have hfunction : ∀ id, build.functionOf context id = none := by
    intro id
    unfold functionOf
    rw [hfresh.uncached]
  constructor
  case sound =>
    refine ⟨hfresh.closed, fun id func hcached => ?_⟩
    rw [hfresh.uncached] at hcached
    cases hcached
  case floor_le => exact le_refl _
  case base => exact fun ptr proto _ h => hfresh.protos ptr proto h
  case root => exact hfresh.roots context
  case away => exact fun ptr h => ⟨h.1, h.2.1⟩
  case functions | unique =>
    intro id
    simp only [hfunction, reduceCtorEq, false_implies, implies_true]
  case owned =>
    intro ptr object hle hobject _
    exact absurd (Heap.lt_length_of_objectAt hobject) (Nat.not_lt.mpr hle)
  case built =>
    intro id template func _ hfunc
    rw [hfunction] at hfunc
    cases hfunc

/-- What a call for one context does: it keeps what is there for the context, whatever
else is busy, and leaves the rest alone. -/
structure Visited (realms : Nat → Realm) (build next : Build) (context : Nat) : Prop where
  keeps : ∀ floor busy, build.Derived (realms context) context floor busy →
    next.Derived (realms context) context floor busy
  steady : build.Steady context (fun _ => False) next
  elsewhere : ∀ other, other ≠ context → next.cached other = build.cached other

theorem visited_of_getFunction {fuel : Nat} {func : JSValue} (hsound : build.Sound context)
    (hreturns : Builder.getFunction (realms context) context fuel id build = some (func, next)) :
    Visited realms build next context where
  keeps _ busy := Builder.keeps_getFunction fuel busy id build func next hreturns
  steady := (Builder.answers_getFunction fuel id build func next hsound hreturns).2.1
  elsewhere := (Builder.explores_getFunction fuel id build func next hreturns).1.elsewhere

theorem visited_of_construct {func : JSValue} {count : Int} {obj : Ptr}
    (hsound : build.Sound context)
    (hreturns : Builder.construct (realms context) func count build = some (obj, next)) :
    Visited realms build next context := by
  obtain ⟨rfl, hnext, hsteady, htable, hlength, hobject⟩ := Builder.newCell_spec hsound hreturns
  refine ⟨fun floor busy hderived => ?_, hsteady, fun _ _ => cached_congr htable⟩
  exact hderived.of_frame hnext htable (hsteady.mono fun _ _ h => h.elim)
    (Builder.new_of_object hlength hobject rfl)

/-- The caches of a context are steady under the calls for others. -/
theorem Visited.steady_of (hvisited : Visited realms build next context) (other : Nat) :
    build.Steady other (fun _ => False) next := by
  by_cases heq : other = context
  · rw [heq]
    exact hvisited.steady
  · exact { hvisited.steady with
      kept := fun id func h => by rwa [hvisited.elsewhere other heq] }

/-- The new objects are the context's. -/
theorem Visited.parted (hvisited : Visited realms build next context)
    (hparted : build.Parted realms floor maker) :
    next.Parted realms floor fun ptr => if ptr < build.heap.length then maker ptr else context := by
  intro other
  have hgrows := hvisited.steady.grows
  have hforeign : ∀ ptr, next.Foreign floor
      (fun ptr => if ptr < build.heap.length then maker ptr else context) other ptr ↔
      build.Foreign floor maker other ptr ∨
        other ≠ context ∧ build.heap.length ≤ ptr ∧ ptr < next.heap.length := by
    intro ptr
    have hfloor := (hparted context).floor_le
    unfold Foreign
    by_cases hlt : ptr < build.heap.length
    · simp only [if_pos hlt]
      have hnot : ¬ build.heap.length ≤ ptr := Nat.not_le.mpr hlt
      have hnext : ptr < next.heap.length := Nat.lt_of_lt_of_le hlt hgrows
      simp [hlt, hnot, hnext]
    · simp only [if_neg hlt]
      have hle := Nat.not_lt.mp hlt
      have habove := hfloor.trans hle
      simp [hlt, hle, habove, ne_comm, and_comm]
  by_cases heq : other = context
  · subst heq
    have hsame : next.Foreign floor
        (fun ptr => if ptr < build.heap.length then maker ptr else other) other =
        build.Foreign floor maker other := by
      funext ptr
      rw [hforeign]
      simp
    rw [hsame]
    exact hvisited.keeps floor _ (hparted other)
  · have hsteady := hvisited.steady_of other
    refine (hparted other).widen ?_ (hvisited.elsewhere other heq)
      (hsteady.mono fun _ _ h => h.elim) (fun ptr h => ?_) (fun ptr h => ?_)
      fun ptr object hle hobject _ => ?_
    · refine ⟨(hparted other).sound.closed.of_uses (uses_of_declared hsteady.declared),
        fun id func hcached => ?_⟩
      rw [hvisited.elsewhere other heq] at hcached
      exact (hparted other).sound.functions_later hsteady hcached
    · exact ((hforeign ptr).mp h).imp_right And.right
    · exact (hforeign ptr).mpr (.inl h)
    · exact (hforeign ptr).mpr (.inr ⟨heq, hle, Heap.lt_length_of_objectAt hobject⟩)

/-- A call leaves what was there, and keeps what the calls before have left. -/
theorem Parted.call (hparted : build.Parted realms floor maker) (hcall : Call realms build next) :
    (∃ maker, next.Parted realms floor maker) ∧
      ∀ context, build.Steady context (fun _ => False) next := by
  obtain ⟨context, hvisited⟩ : ∃ context, Visited realms build next context := by
    cases hcall with
    | @getFunction context fuel id func hreturns =>
        exact ⟨context, visited_of_getFunction (hparted context).sound hreturns⟩
    | @construct context func count obj hreturns =>
        exact ⟨context, visited_of_construct (hparted context).sound hreturns⟩
  exact ⟨⟨_, hvisited.parted hparted⟩, hvisited.steady_of⟩

theorem Parted.calls (hparted : build.Parted realms floor maker)
    (hcalls : ReflTransGen (Call realms) build next) :
    (∃ maker, next.Parted realms floor maker) ∧
      ∀ context, build.Steady context (fun _ => False) next := by
  induction hcalls with
  | refl => exact ⟨⟨maker, hparted⟩, fun _ => Steady.refl build⟩
  | tail _ hcall ih =>
      obtain ⟨⟨_, hmiddle⟩, hsteady⟩ := ih
      obtain ⟨hlast, hsteadyLast⟩ := hmiddle.call hcall
      exact ⟨hlast, fun context => (hsteady context).trans (hsteadyLast context)⟩

/-- Templates without a function have changed. -/
theorem Derived.of_declared {realm : Realm} {busy : Ptr → Prop}
    (hderived : build.Derived realm context floor busy)
    (hclosed : next.Closed) (hheap : next.heap = build.heap)
    (hcached : ∀ id, next.cached context id = build.cached context id)
    (htable : ∀ id : Nat, (build.cached context id).isSome → next.table[id]? = build.table[id]?) :
    next.Derived realm context floor busy := by
  have hfunction : next.functionOf context = build.functionOf context :=
    functionOf_congr (funext hcached)
  have hsome : ∀ id func, build.functionOf context id = some func →
      (build.cached context id).isSome := by
    intro id func hfunc
    rw [functionOf_eq_some_iff] at hfunc
    rw [hfunc]
    rfl
  -- up from a template that has a function all have one
  have hlinear : ∀ id, Linear next.table id → (build.cached context id).isSome →
      Linear build.table id := by
    intro id hlinear
    induction hlinear with
    | root hthere hgives hparent =>
        intro h
        rw [htable _ h] at hthere
        exact .root hthere hgives hparent
    | child hthere hgives hparent _ ih =>
        intro h
        rw [htable _ h] at hthere
        have huse := FunctionTemplate.mem_uses_of_parent hparent
        exact .child hthere hgives hparent (ih (hderived.uses hthere h huse))
  constructor
  case sound =>
    refine ⟨hclosed, fun id func h => ?_⟩
    rw [hcached] at h
    rw [hheap, htable id (by rw [h]; rfl)]
    exact hderived.sound.functions id func h
  case floor_le => exact hheap ▸ hderived.floor_le
  case base => exact hheap ▸ hderived.base
  case root => exact hderived.root
  case away => exact hheap ▸ hderived.away
  case functions => exact hfunction ▸ hderived.functions
  case unique => exact hfunction ▸ hderived.unique
  case owned =>
    rw [hheap, hfunction]
    exact hderived.owned
  case built =>
    intro id template func htemplate hfunc
    rw [hfunction] at hfunc
    have hthere := hsome id func hfunc
    rw [htable id hthere] at htemplate
    exact (hderived.built id template func htemplate hfunc).of_heap hheap (funext hcached)
      fun h => hlinear id h hthere

theorem Parted.of_declared (hparted : build.Parted realms floor maker) (hclosed : next.Closed)
    (hheap : next.heap = build.heap)
    (hcached : ∀ context, next.cached context = build.cached context)
    (htable : ∀ (context id : Nat), (build.cached context id).isSome →
      next.table[id]? = build.table[id]?) : next.Parted realms floor maker := by
  intro context
  have hsame : next.Foreign floor maker context = build.Foreign floor maker context := by
    unfold Foreign
    rw [hheap]
  rw [hsame]
  exact (hparted context).of_declared hclosed hheap (congrFun (hcached context)) (htable context)

theorem Parted.step (hparted : build.Parted realms floor maker) (hstep : Step realms build next) :
    ∃ maker, next.Parted realms floor maker := by
  cases hstep with
  | call hcall => exact (hparted.call hcall).1
  | @new template hnew hnext hclosed =>
      have htable : ∀ id : Nat, id < build.table.length → next.table[id]? = build.table[id]? := by
        intro id hid
        rw [hnext]
        exact List.getElem?_append_left hid
      refine ⟨maker, hparted.of_declared hclosed (by rw [hnext]) (fun context => ?_)
        fun context id hsome => htable id ?_⟩
      · funext id
        unfold cached
        rcases Nat.lt_or_ge id build.table.length with hid | hid
        · rw [htable id hid]
        · rw [List.getElem?_eq_none hid, hnext, List.getElem?_append_right hid]
          cases hindex : ([template] : List FunctionTemplate)[id - build.table.length]? with
          | none => rfl
          | some found =>
              rw [List.mem_singleton.mp (List.mem_of_getElem? hindex), Option.bind_some, hnew]
              rfl
      · by_contra hlt
        rw [cached, List.getElem?_eq_none (Nat.not_lt.mp hlt)] at hsome
        cases hsome
  | @declare id change hcache hnone hnext hclosed =>
      have htable : ∀ other : Nat, other ≠ id → next.table[other]? = build.table[other]? := by
        intro other hne
        rw [hnext]
        exact List.getElem?_modify_ne _ _ hne.symm
      refine ⟨maker, hparted.of_declared hclosed (by rw [hnext]) (fun context => ?_)
        fun context other hsome => htable other ?_⟩
      · funext other
        by_cases heq : other = id
        · subst heq
          unfold cached
          rw [hnext, List.getElem?_modify_eq]
          cases build.table[other]? with
          | none => rfl
          | some template =>
              change (change template).contextToFunction.lookup context = _
              rw [hcache]
              rfl
        · unfold cached
          rw [htable other heq]
      · rintro rfl
        rw [hnone] at hsome
        cases hsome

theorem Parted.steps (hparted : build.Parted realms floor maker)
    (hsteps : ReflTransGen (Step realms) build next) : ∃ maker, next.Parted realms floor maker := by
  induction hsteps with
  | refl => exact ⟨maker, hparted⟩
  | tail _ hstep ih =>
      obtain ⟨_, hmiddle⟩ := ih
      exact hmiddle.step hstep

end Build

end QuickjsBackend
