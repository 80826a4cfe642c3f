import QuickjsBackend.Template.Cache

/-! # The function of a live context

An entry of the cache outlives the context it was made for, and is found again
under the address of the next context there. An entry that a nested call has made
is overwritten when the outer call returns. Short of these two, the function a
template has for a context is always the same, and is kept by the one reference that
goes with its entry.
-/

namespace QuickjsBackend

open Foundation

namespace Contexts

variable (state : Contexts)

/-- Each cached function is live and in one entry only, and the engine counts a reference
for that entry besides those of handles, functions, calls in progress and other owners. -/
structure OneReferenceEach : Prop where
  counted : state.templates.isolate.others + state.templates.isolate.owned +
    state.templates.kept ≤ state.templates.isolate.runtime.refCount
  live : ∀ id address func, state.templates.cached id address = some func →
    state.templates.isolate.runtime.Live func
  apart : ∀ id address other context func, state.templates.cached id address = some func →
    state.templates.cached other context = some func → id = other ∧ address = context

/-- The counts move by what caches, functions, calls and handles gain or give up. -/
def Balances (next : Contexts) : Prop :=
  next.templates.isolate.runtime.refCount +
      (state.templates.isolate.owned + state.templates.kept + state.templates.isolate.others) =
    state.templates.isolate.runtime.refCount +
      (next.templates.isolate.owned + next.templates.kept + next.templates.isolate.others)

/-- The function returned was made for the context that is at the address, and is
the one returned for that context before. -/
structure Returns (next : Contexts) (id address : Nat) (func : JSValue) : Prop where
  own : ∃ serial, state.contexts address = some serial ∧ next.madeFor func = some serial
  same : ∀ serial earlier, state.contexts address = some serial →
    (id, serial, earlier) ∈ state.returned → earlier = func

/-- What a step on templates owes the cache. -/
structure Keeps (action : TemplateAction) (next : Contexts) : Prop where
  returns : ∀ id address func, state.templates.answer action = some (id, address, func) →
    state.Returns next id address func
  references : next.OneReferenceEach
  -- an operation on templates takes and releases what it has to
  balances : ∀ op, action = .template op → state.Balances next
  -- an entry stays until the destructor of its template
  stays : ∀ id address func, state.templates.cached id address = some func →
    next.templates.cached id address = some func ∨ action.destroys = some id

/-- No function is found that was made for another context, and none is cached
already when a call that has made one returns. -/
structure Fresh (action : TemplateAction) : Prop where
  hit : ∀ id address ptr func, state.templates.call action = some (id, address, ptr) →
    state.templates.cached id address = some func → state.madeFor func = state.contexts address
  finish : ∀ activation, state.templates.finishing action = some activation →
    state.templates.cached activation.template activation.context = none

/-- The invariant of runs whose steps are fresh. -/
structure Tracked : Prop where
  handled : state.templates.Handled
  unique : state.templates.UniqueKeys
  objects : ∀ id address func, state.templates.cached id address = some func →
    ∃ ptr, func = .ref .object ptr
  apart : ∀ id address other context func, state.templates.cached id address = some func →
    state.templates.cached other context = some func → id = other ∧ address = context
  openObjects : ∀ core ∈ state.templates.inProgress, ∃ ptr, core.2.2 = .ref .object ptr
  openApart : ∀ core ∈ state.templates.inProgress, ∀ id address,
    state.templates.cached id address ≠ some core.2.2
  openNodup : (state.templates.inProgress.map fun core => core.2.2).Nodup
  openAllowed : ∀ core ∈ state.templates.inProgress, core.1 ∉ state.dying ∧
    ∃ serial, state.contexts core.2.1 = some serial ∧ state.madeFor core.2.2 = some serial
  serials : ∀ address serial, state.contexts address = some serial → serial < state.created
  serialsApart : ∀ address other serial, state.contexts address = some serial →
    state.contexts other = some serial → address = other
  history : ∀ id serial func, (id, serial, func) ∈ state.returned → serial < state.created ∧
    ∀ address, state.contexts address = some serial → id ∉ state.dying →
      state.templates.cached id address = some func

theorem tracked_new : Contexts.new.Tracked where
  handled := Templates.handled_new
  unique _ _ htemplate := by simp [Contexts.new, Templates.new, Templates.template] at htemplate
  objects _ _ _ h := by simp [Contexts.new, Templates.new, Templates.cached,
    Templates.template] at h
  apart _ _ _ _ _ h := by
    simp [Contexts.new, Templates.new, Templates.cached, Templates.template] at h
  openObjects _ hmem := by simp [Contexts.new, Templates.new, Templates.inProgress] at hmem
  openApart _ hmem := by simp [Contexts.new, Templates.new, Templates.inProgress] at hmem
  openNodup := List.nodup_nil
  openAllowed _ hmem := by simp [Contexts.new, Templates.new, Templates.inProgress] at hmem
  serials _ _ h := by cases h
  serialsApart _ _ _ h := by cases h
  history _ _ _ hmem := by cases hmem

variable {state} {next : Contexts} {action : TemplateAction} {after : Templates}

/-- A function that is made next is not one that is there. -/
theorem Tracked.fresh_ptr (htracked : state.Tracked) {ptr : Ptr}
    (hunused : state.templates.isolate.runtime.cell ptr = .unused) :
    (∀ id address, state.templates.cached id address ≠ some (.ref .object ptr)) ∧
      ∀ core ∈ state.templates.inProgress, core.2.2 ≠ .ref .object ptr := by
  constructor
  · intro id address hcached
    have hlive := (htracked.handled.cached_counted hcached).1
    rw [hunused] at hlive
    cases hlive
  · intro core hmem hcore
    have hlive := htracked.handled.open_live hmem
    rw [hcore, Runtime.live_ref, hunused] at hlive
    cases hlive

theorem Tracked.references (htracked : state.Tracked) : state.OneReferenceEach where
  counted := by
    have howned := htracked.handled.owned_le
    rw [Isolate.held, le_sub_iff_add_le', ← add_assoc] at howned
    exact howned
  live id address func hcached := by
    obtain ⟨template, htemplate, hlookup⟩ := Option.bind_eq_some_iff.mp hcached
    exact htracked.handled.cached_live htemplate hlookup
  apart := htracked.apart

theorem balances_iff : state.Balances next ↔ next.templates.spare = state.templates.spare := by
  constructor
  · intro hbalance
    funext ptr
    have hat := congrFun hbalance ptr
    simp only [Pi.add_apply] at hat
    simp only [Templates.spare, Isolate.held, Pi.sub_apply]
    omega
  · intro hspare
    funext ptr
    have hat := congrFun hspare ptr
    simp only [Templates.spare, Isolate.held, Pi.sub_apply] at hat
    simp only [Pi.add_apply]
    omega

/-- A step that leaves the caches and the calls in progress alone. -/
theorem Tracked.quiet (htracked : state.Tracked) (hhandled : next.templates.Handled)
    (hunique : next.templates.UniqueKeys) (hcached : next.templates.cached = state.templates.cached)
    (hopen : next.templates.inProgress = state.templates.inProgress)
    (hcontexts : next.contexts = state.contexts) (hcreated : next.created = state.created)
    (hdying : ∀ id ∈ state.dying, id ∈ next.dying)
    (hopenDying : ∀ core ∈ state.templates.inProgress, core.1 ∉ next.dying)
    (hmadeFor : next.madeFor = state.madeFor)
    (hreturned : ∀ id serial func, (id, serial, func) ∈ next.returned →
      (id, serial, func) ∈ state.returned ∨ ∃ address, state.contexts address = some serial ∧
        state.templates.cached id address = some func) : next.Tracked where
  handled := hhandled
  unique := hunique
  objects := by
    rw [hcached]
    exact htracked.objects
  apart := by
    rw [hcached]
    exact htracked.apart
  openObjects := by
    rw [hopen]
    exact htracked.openObjects
  openApart := by
    rw [hopen, hcached]
    exact htracked.openApart
  openNodup := by
    rw [hopen]
    exact htracked.openNodup
  openAllowed core hmem := by
    rw [hopen] at hmem
    rw [hcontexts, hmadeFor]
    exact ⟨hopenDying core hmem, (htracked.openAllowed core hmem).2⟩
  serials := by
    rw [hcontexts, hcreated]
    exact htracked.serials
  serialsApart := by
    rw [hcontexts]
    exact htracked.serialsApart
  history id serial func hmem := by
    rw [hcontexts, hcreated, hcached]
    rcases hreturned id serial func hmem with hold | ⟨found, hserial, hfound⟩
    · obtain ⟨hlt, hkept⟩ := htracked.history id serial func hold
      exact ⟨hlt, fun address haddress hnot =>
        hkept address haddress fun hdead => hnot (hdying id hdead)⟩
    · refine ⟨htracked.serials found serial hserial, fun address haddress _ => ?_⟩
      rw [htracked.serialsApart address found serial haddress hserial]
      exact hfound

/-- A step that returns no function and leaves the caches alone. -/
theorem keeps_quiet (hreferences : (state.record action after).OneReferenceEach)
    (hbalances : ∀ op, action = .template op → state.Balances (state.record action after))
    (hanswer : state.templates.answer action = none)
    (hcached : after.cached = state.templates.cached) :
    state.Keeps action (state.record action after) where
  returns id address func hreturned := by
    rw [hanswer] at hreturned
    cases hreturned
  references := hreferences
  balances := hbalances
  stays id address func hfound := by
    left
    change after.cached id address = some func
    rw [hcached]
    exact hfound

/-- Fresh steps keep the cache. -/
theorem Tracked.keeps (htracked : state.Tracked) (hallowed : state.Allowed action)
    (heffect : state.templates.CacheEffect after action)
    (hreferences : (state.record action after).OneReferenceEach)
    (hbalances : ∀ op, action = .template op → state.Balances (state.record action after))
    (hfresh : state.Fresh action) : state.Keeps action (state.record action after) := by
  cases heffect with
  | quiet hcall hfinishing hdestroys hcached hopen =>
      refine keeps_quiet hreferences hbalances ?_ hcached
      simp only [Templates.answer, hfinishing, hcall, Option.bind_none]
  | hit id context ptr func hcall hfinishing hdestroys hfound hcached hopen =>
      have hmade : state.templates.made action = none := by
        simp only [Templates.made, hcall, Option.bind_some, hfound]
      have hmadeFor : (state.record action after).madeFor = state.madeFor := by
        simp only [record, hmade]
      refine ⟨?_, hreferences, hbalances, ?_⟩
      · intro other address returned hanswer
        simp only [Templates.answer, hfinishing, hcall, Option.bind_some, hfound, Option.map_some,
          Option.some.injEq, Prod.mk.injEq] at hanswer
        obtain ⟨rfl, rfl, rfl⟩ := hanswer
        obtain ⟨hthere, halive⟩ := hallowed.1 (id, context, ptr) hcall
        obtain ⟨serial, hserial⟩ := Option.isSome_iff_exists.mp hthere
        refine ⟨⟨serial, hserial, ?_⟩, fun number earlier hnumber hmem => ?_⟩
        · rw [hmadeFor, hfresh.hit id context ptr func hcall hfound, hserial]
        · have hbefore := (htracked.history id number earlier hmem).2 context hnumber halive
          exact Option.some.inj (hbefore.symm.trans hfound)
      · intro other address found hother
        left
        change after.cached other address = some found
        rw [hcached]
        exact hother
  | begin id context ptr hcall hfinishing hdestroys hmissed hunused hcached hopen =>
      refine keeps_quiet hreferences hbalances ?_ hcached
      simp only [Templates.answer, hfinishing, hcall, Option.bind_some, hmissed, Option.map_none]
  | finish activation hcall hfinishing hdestroys hcached hopen =>
      have hnone := hfresh.finish activation hfinishing
      have hcore : activation.core ∈ state.templates.inProgress := by simp [hopen]
      obtain ⟨halive, serial, hserial, hfor⟩ := htracked.openAllowed _ hcore
      refine ⟨?_, hreferences, hbalances, ?_⟩
      · intro id address func hanswer
        simp only [Templates.answer, hfinishing, Option.some.injEq, Prod.mk.injEq] at hanswer
        obtain ⟨rfl, rfl, rfl⟩ := hanswer
        have hmade : state.templates.made action = none := by
          simp only [Templates.made, hcall, Option.bind_none]
        refine ⟨⟨serial, hserial, ?_⟩, fun number earlier hnumber hmem => ?_⟩
        · simp only [record, hmade]
          exact hfor
        · have hbefore := (htracked.history _ number earlier hmem).2 _ hnumber halive
          rw [hnone] at hbefore
          cases hbefore
      · intro id address func hfound
        left
        refine (hcached id address).trans ?_
        rw [if_neg]
        · exact hfound
        · rintro ⟨rfl, rfl⟩
          rw [hnone] at hfound
          cases hfound
  | release id context func hcall hfinishing hdestroys hfound hcached hopen =>
      refine ⟨?_, hreferences, hbalances, ?_⟩
      · intro other address returned hanswer
        simp only [Templates.answer, hfinishing, hcall, Option.bind_none, reduceCtorEq] at hanswer
      · intro other address returned hother
        by_cases hsame : other = id
        · right
          rw [hdestroys, hsame]
        · left
          refine (hcached other address).trans ?_
          rw [if_neg fun h => hsame h.1]
          exact hother
  | destroy id hcall hfinishing hdestroys hcached hopen =>
      refine keeps_quiet hreferences hbalances ?_ hcached
      simp only [Templates.answer, hfinishing, hcall, Option.bind_none]

theorem inProgress_mem {core : Nat × Nat × JSValue} {templates : Templates}
    (hmem : core ∈ templates.inProgress) :
    ∃ activation ∈ templates.activations, activation.core = core :=
  List.mem_map.mp hmem

/-- A call begins to make a function for the context. -/
theorem Tracked.record_begin (htracked : state.Tracked) (hhandled : after.Handled)
    (hunique : after.UniqueKeys) {id context : Nat} {ptr : Ptr}
    (hcall : state.templates.call action = some (id, context, ptr))
    (hallowed : state.Allowed action) (hfinishing : state.templates.finishing action = none)
    (hdestroys : action.destroys = none) (hmissed : state.templates.cached id context = none)
    (hunused : state.templates.isolate.runtime.cell ptr = .unused)
    (hcached : after.cached = state.templates.cached)
    (hopen : after.inProgress = (id, context, .ref .object ptr) :: state.templates.inProgress) :
    (state.record action after).Tracked := by
  obtain ⟨hnotCached, hnotOpen⟩ := htracked.fresh_ptr hunused
  obtain ⟨hthere, halive⟩ := hallowed.1 (id, context, ptr) hcall
  obtain ⟨serial, hserial⟩ := Option.isSome_iff_exists.mp hthere
  have hmadeFor : (state.record action after).madeFor =
      Function.update state.madeFor (.ref .object ptr) (state.contexts context) := by
    simp only [record, Templates.made, hcall, Option.bind_some, hmissed]
  have hreturned : (state.record action after).returned = state.returned := by
    simp only [record, Templates.answer, hfinishing, hcall, Option.bind_some, hmissed,
      Option.map_none]
  have hdying : (state.record action after).dying = state.dying := by
    simp only [record, hdestroys, Option.toList_none, List.nil_append]
  have hcached' : (state.record action after).templates.cached = state.templates.cached := hcached
  have hopen' : (state.record action after).templates.inProgress =
      (id, context, .ref .object ptr) :: state.templates.inProgress := hopen
  refine { htracked with
    handled := hhandled
    unique := hunique
    objects := by rw [hcached']; exact htracked.objects
    apart := by rw [hcached']; exact htracked.apart
    openObjects := ?_, openApart := ?_, openNodup := ?_, openAllowed := ?_, history := ?_ }
  · intro core hmem
    rw [hopen', List.mem_cons] at hmem
    rcases hmem with rfl | hmem
    · exact ⟨ptr, rfl⟩
    · exact htracked.openObjects core hmem
  · intro core hmem
    rw [hopen', List.mem_cons] at hmem
    rw [hcached']
    rcases hmem with rfl | hmem
    · exact hnotCached
    · exact htracked.openApart core hmem
  · rw [hopen', List.map_cons, List.nodup_cons]
    refine ⟨fun hmem => ?_, htracked.openNodup⟩
    obtain ⟨core, hcore, heq⟩ := List.mem_map.mp hmem
    exact hnotOpen core hcore heq
  · intro core hmem
    rw [hopen', List.mem_cons] at hmem
    rw [hdying, hmadeFor]
    rcases hmem with rfl | hmem
    · exact ⟨halive, serial, hserial, by rw [Function.update_self, hserial]⟩
    · obtain ⟨hnot, number, hnumber, hfor⟩ := htracked.openAllowed core hmem
      exact ⟨hnot, number, hnumber, by rw [Function.update_of_ne (hnotOpen core hmem), hfor]⟩
  · rw [hreturned, hdying, hcached']
    exact htracked.history

/-- A call returns, and its function is cached. -/
theorem Tracked.record_finish (htracked : state.Tracked) (hhandled : after.Handled)
    (hunique : after.UniqueKeys) {activation : Activation}
    (hcall : state.templates.call action = none)
    (hfinishing : state.templates.finishing action = some activation)
    (hdestroys : action.destroys = none)
    (hnone : state.templates.cached activation.template activation.context = none)
    (hcached : ∀ id context, after.cached id context =
      if id = activation.template ∧ context = activation.context then some activation.func
      else state.templates.cached id context)
    (hopen : state.templates.inProgress = activation.core :: after.inProgress) :
    (state.record action after).Tracked := by
  have hcore : activation.core ∈ state.templates.inProgress := by simp [hopen]
  have hrest : ∀ core ∈ after.inProgress, core ∈ state.templates.inProgress := by
    intro core hmem
    rw [hopen]
    exact List.mem_cons_of_mem _ hmem
  have hnodup := htracked.openNodup
  rw [hopen, List.map_cons, List.nodup_cons] at hnodup
  obtain ⟨halive, serial, hserial, hfor⟩ := htracked.openAllowed _ hcore
  change state.contexts activation.context = some serial at hserial
  have hmadeFor : (state.record action after).madeFor = state.madeFor := by
    simp only [record, Templates.made, hcall, Option.bind_none]
  have hdying : (state.record action after).dying = state.dying := by
    simp only [record, hdestroys, Option.toList_none, List.nil_append]
  have hnew : ∀ id context func, after.cached id context = some func →
      (id = activation.template ∧ context = activation.context ∧ func = activation.func) ∨
        state.templates.cached id context = some func := by
    intro id context func hfound
    rw [hcached] at hfound
    split at hfound
    next hsame => exact .inl ⟨hsame.1, hsame.2, (Option.some.inj hfound).symm⟩
    next => exact .inr hfound
  refine { htracked with
    handled := hhandled
    unique := hunique
    objects := ?_, apart := ?_, openApart := ?_, openNodup := hnodup.2, history := ?_
    openObjects := fun core hmem => htracked.openObjects core (hrest core hmem)
    openAllowed := ?_ }
  · intro id context func hfound
    rcases hnew id context func hfound with ⟨_, _, rfl⟩ | hold
    · exact htracked.openObjects _ hcore
    · exact htracked.objects id context func hold
  · intro id address other context func hfound hother
    rcases hnew id address func hfound with ⟨rfl, rfl, rfl⟩ | hold
    · rcases hnew other context _ hother with ⟨rfl, rfl, _⟩ | hold
      · exact ⟨rfl, rfl⟩
      · exact absurd hold (htracked.openApart _ hcore other context)
    · rcases hnew other context func hother with ⟨rfl, rfl, rfl⟩ | holdOther
      · exact absurd hold (htracked.openApart _ hcore id address)
      · exact htracked.apart id address other context func hold holdOther
  · intro core hmem id address hfound
    rcases hnew id address core.2.2 hfound with ⟨_, _, hsame⟩ | hold
    · exact hnodup.1 (List.mem_map.mpr ⟨core, hmem, hsame⟩)
    · exact htracked.openApart core (hrest core hmem) id address hold
  · intro core hmem
    rw [hdying, hmadeFor]
    exact htracked.openAllowed core (hrest core hmem)
  · intro id number func hmem
    rw [hdying]
    have hmem' : (id, number, func) ∈ (state.contexts activation.context).toList.map
        (fun serial => (activation.template, serial, activation.func)) ++ state.returned := by
      simpa only [record, Templates.answer, hfinishing] using hmem
    rw [hserial, Option.toList_some, List.map_cons, List.map_nil, List.mem_append,
      List.mem_singleton, Prod.mk.injEq, Prod.mk.injEq] at hmem'
    rcases hmem' with ⟨rfl, rfl, rfl⟩ | hold
    · refine ⟨htracked.serials _ _ hserial, fun address haddress _ => (hcached _ _).trans ?_⟩
      rw [if_pos ⟨rfl, htracked.serialsApart _ _ _ haddress hserial⟩]
    · obtain ⟨hlt, hkept⟩ := htracked.history id number func hold
      refine ⟨hlt, fun address haddress hnot => ?_⟩
      have hbefore := hkept address haddress hnot
      refine (hcached _ _).trans ?_
      rw [if_neg]
      · exact hbefore
      · rintro ⟨rfl, rfl⟩
        rw [hnone] at hbefore
        cases hbefore

/-- The destructor of a template releases an entry. -/
theorem Tracked.record_release (htracked : state.Tracked) (hhandled : after.Handled)
    (hunique : after.UniqueKeys) {id context : Nat} (hallowed : state.Allowed action)
    (hcall : state.templates.call action = none)
    (hfinishing : state.templates.finishing action = none)
    (hdestroys : action.destroys = some id)
    (hcached : ∀ other address, after.cached other address =
      if other = id ∧ address = context then none else state.templates.cached other address)
    (hopen : after.inProgress = state.templates.inProgress) :
    (state.record action after).Tracked := by
  have hbefore : ∀ other address found, after.cached other address = some found →
      state.templates.cached other address = some found := by
    intro other address found hother
    rw [hcached] at hother
    split at hother
    next => cases hother
    next => exact hother
  have hmadeFor : (state.record action after).madeFor = state.madeFor := by
    simp only [record, Templates.made, hcall, Option.bind_none]
  have hdying : (state.record action after).dying = id :: state.dying := by
    simp only [record, hdestroys, Option.toList_some, List.cons_append, List.nil_append]
  have hreturned : (state.record action after).returned = state.returned := by
    simp only [record, Templates.answer, hfinishing, hcall, Option.bind_none]
  have hopen' : (state.record action after).templates.inProgress = state.templates.inProgress :=
    hopen
  refine { htracked with
    handled := hhandled
    unique := hunique
    objects := fun other address found hother =>
      htracked.objects other address found (hbefore other address found hother)
    apart := fun other address another place found hother hanother =>
      htracked.apart other address another place found (hbefore _ _ _ hother)
        (hbefore _ _ _ hanother)
    openObjects := by rw [hopen']; exact htracked.openObjects
    openNodup := by rw [hopen']; exact htracked.openNodup
    openApart := ?_, openAllowed := ?_, history := ?_ }
  · intro core hmem other address hother
    rw [hopen'] at hmem
    exact htracked.openApart core hmem other address (hbefore _ _ _ hother)
  · intro core hmem
    rw [hopen'] at hmem
    rw [hdying, hmadeFor]
    obtain ⟨halive, hfor⟩ := htracked.openAllowed core hmem
    obtain ⟨activation, hactivation, rfl⟩ := inProgress_mem hmem
    have hne := hallowed.2 id hdestroys activation hactivation
    exact ⟨List.not_mem_cons_of_ne_of_not_mem hne halive, hfor⟩
  · intro other serial found hmem
    rw [hreturned] at hmem
    rw [hdying]
    obtain ⟨hlt, hkept⟩ := htracked.history other serial found hmem
    refine ⟨hlt, fun address haddress hnot => (hcached other address).trans ?_⟩
    rw [List.mem_cons, not_or] at hnot
    rw [if_neg fun h => hnot.1 h.1]
    exact hkept address haddress hnot.2

/-- A step that makes and destroys nothing answers, if at all, what is cached. -/
theorem Tracked.record_unchanged (htracked : state.Tracked) (hhandled : after.Handled)
    (hunique : after.UniqueKeys) (hdestroys : action.destroys = none)
    (hcached : after.cached = state.templates.cached)
    (hopen : after.inProgress = state.templates.inProgress)
    (hmade : state.templates.made action = none)
    (hreturned : ∀ id serial func, (id, serial, func) ∈ (state.record action after).returned →
      (id, serial, func) ∈ state.returned ∨ ∃ address, state.contexts address = some serial ∧
        state.templates.cached id address = some func) : (state.record action after).Tracked := by
  refine htracked.quiet hhandled hunique hcached hopen rfl rfl ?_ ?_ ?_ hreturned
  · exact fun id hmem => List.mem_append_right _ hmem
  · intro core hmem
    simp only [Contexts.record, hdestroys, Option.toList_none, List.nil_append]
    exact (htracked.openAllowed core hmem).1
  · simp only [Contexts.record, hmade]

/-- Step lemma of the cache: fresh steps on templates keep the invariant. -/
theorem Tracked.record (htracked : state.Tracked) (hallowed : state.Allowed action)
    (heffect : state.templates.CacheEffect after action) (hhandled : after.Handled)
    (hunique : after.UniqueKeys) (hfresh : state.Fresh action) :
    (state.record action after).Tracked := by
  cases heffect with
  | quiet hcall hfinishing hdestroys hcached hopen =>
      refine htracked.record_unchanged hhandled hunique hdestroys hcached hopen ?_ ?_
      · simp only [Templates.made, hcall, Option.bind_none]
      · intro id serial func hmem
        simp only [Contexts.record, Templates.answer, hfinishing, hcall, Option.bind_none] at hmem
        exact .inl hmem
  | hit id context ptr func hcall hfinishing hdestroys hfound hcached hopen =>
      refine htracked.record_unchanged hhandled hunique hdestroys hcached hopen ?_ ?_
      · simp only [Templates.made, hcall, Option.bind_some, hfound]
      · intro other serial returned hmem
        simp only [Contexts.record, Templates.answer, hfinishing, hcall, Option.bind_some, hfound,
          Option.map_some, List.mem_append, List.mem_map, Option.mem_toList, Prod.mk.injEq] at hmem
        rcases hmem with ⟨number, hnumber, rfl, rfl, rfl⟩ | hold
        · exact .inr ⟨context, hnumber, hfound⟩
        · exact .inl hold
  | begin id context ptr hcall hfinishing hdestroys hmissed hunused hcached hopen =>
      exact htracked.record_begin hhandled hunique hcall hallowed hfinishing hdestroys hmissed
        hunused hcached hopen
  | finish activation hcall hfinishing hdestroys hcached hopen =>
      exact htracked.record_finish hhandled hunique hcall hfinishing hdestroys
        (hfresh.finish activation hfinishing) hcached hopen
  | release id context func hcall hfinishing hdestroys hfound hcached hopen =>
      exact htracked.record_release hhandled hunique hallowed hcall hfinishing hdestroys hcached
        hopen
  | destroy id hcall hfinishing hdestroys hcached hopen =>
      refine htracked.quiet hhandled hunique hcached hopen rfl rfl ?_ ?_ ?_ ?_
      · exact fun id hmem => List.mem_append_right _ hmem
      · intro core hmem
        obtain ⟨activation, hactivation, rfl⟩ := inProgress_mem hmem
        have hne := hallowed.2 id hdestroys activation hactivation
        simp only [Contexts.record, hdestroys, Option.toList_some, List.cons_append,
          List.nil_append]
        exact List.not_mem_cons_of_ne_of_not_mem hne (htracked.openAllowed _ hmem).1
      · simp only [Contexts.record, Templates.made, hcall, Option.bind_none]
      · intro other serial func hmem
        simp only [Contexts.record, Templates.answer, hfinishing, hcall, Option.bind_none] at hmem
        exact .inl hmem

/-- A new context has a serial number of its own. -/
theorem Tracked.newContext (htracked : state.Tracked) {address : Nat}
    (hfree : state.contexts address = none) :
    Tracked { state with
      contexts := Function.update state.contexts address (some state.created)
      created := state.created + 1 } := by
  have hcases : ∀ other serial,
      Function.update state.contexts address (some state.created) other = some serial →
        (other = address ∧ serial = state.created) ∨
          (other ≠ address ∧ state.contexts other = some serial) := by
    intro other serial hserial
    by_cases hother : other = address
    · subst other
      rw [Function.update_self] at hserial
      exact .inl ⟨rfl, (Option.some.inj hserial).symm⟩
    · rw [Function.update_of_ne hother] at hserial
      exact .inr ⟨hother, hserial⟩
  refine { htracked with openAllowed := ?_, serials := ?_, serialsApart := ?_, history := ?_ }
  · intro core hmem
    obtain ⟨halive, serial, hserial, hfor⟩ := htracked.openAllowed core hmem
    refine ⟨halive, serial, ?_, hfor⟩
    have hne : core.2.1 ≠ address := by
      intro heq
      rw [heq, hfree] at hserial
      cases hserial
    exact (Function.update_of_ne hne _ _).trans hserial
  · intro other serial hserial
    change serial < state.created + 1
    rcases hcases other serial hserial with ⟨_, rfl⟩ | ⟨_, hold⟩
    · exact Nat.lt_succ_self _
    · exact Nat.lt_succ_of_lt (htracked.serials other serial hold)
  · intro first second serial hfirst hsecond
    rcases hcases first serial hfirst with ⟨rfl, rfl⟩ | ⟨_, holdFirst⟩
    · rcases hcases second _ hsecond with ⟨rfl, _⟩ | ⟨_, holdSecond⟩
      · rfl
      · exact absurd (htracked.serials _ _ holdSecond) (Nat.lt_irrefl _)
    · rcases hcases second serial hsecond with ⟨rfl, rfl⟩ | ⟨_, holdSecond⟩
      · exact absurd (htracked.serials _ _ holdFirst) (Nat.lt_irrefl _)
      · exact htracked.serialsApart first second serial holdFirst holdSecond
  · intro id serial func hmem
    obtain ⟨hlt, hkept⟩ := htracked.history id serial func hmem
    refine ⟨Nat.lt_succ_of_lt hlt, fun other hother hnot => ?_⟩
    rcases hcases other serial hother with ⟨_, rfl⟩ | ⟨_, hold⟩
    · exact absurd hlt (Nat.lt_irrefl _)
    · exact hkept other hold hnot

/-- What was cached for a deleted context stays in the caches. -/
theorem Tracked.deleteContext (htracked : state.Tracked) {address : Nat}
    (hunused : ∀ activation ∈ state.templates.activations, activation.context ≠ address) :
    Tracked { state with contexts := Function.update state.contexts address none } := by
  have hbefore : ∀ other serial, Function.update state.contexts address none other = some serial →
      state.contexts other = some serial := by
    intro other serial hserial
    by_cases hother : other = address
    · rw [hother, Function.update_self] at hserial
      cases hserial
    · rwa [Function.update_of_ne hother] at hserial
  refine { htracked with openAllowed := ?_, serials := ?_, serialsApart := ?_, history := ?_ }
  · intro core hmem
    obtain ⟨halive, serial, hserial, hfor⟩ := htracked.openAllowed core hmem
    obtain ⟨activation, hactivation, rfl⟩ := inProgress_mem hmem
    exact ⟨halive, serial,
      (Function.update_of_ne (hunused activation hactivation) _ _).trans hserial, hfor⟩
  · exact fun other serial hserial => htracked.serials other serial (hbefore other serial hserial)
  · exact fun first second serial hfirst hsecond =>
      htracked.serialsApart first second serial (hbefore _ _ hfirst) (hbefore _ _ hsecond)
  · intro id serial func hmem
    obtain ⟨hlt, hkept⟩ := htracked.history id serial func hmem
    exact ⟨hlt, fun other hother => hkept other (hbefore other serial hother)⟩

/-- A step on templates that is carried out is fresh. -/
def FreshStep (state : Contexts) (action : ContextAction) : Prop :=
  ∀ next operation, Contexts.step state action = .ok next → action = .template operation →
    state.Fresh operation

theorem step_newContext_ok {address : Nat}
    (hstep : Contexts.step state (.newContext address) = .ok next) :
    state.contexts address = none ∧ next = { state with
      contexts := Function.update state.contexts address (some state.created)
      created := state.created + 1 } := by
  simp only [step] at hstep
  split at hstep
  next hfree => exact ⟨hfree, (Except.ok.inj hstep).symm⟩
  next => cases hstep

theorem step_deleteContext_ok {address : Nat}
    (hstep : Contexts.step state (.deleteContext address) = .ok next) :
    (∀ activation ∈ state.templates.activations, activation.context ≠ address) ∧
      next = { state with contexts := Function.update state.contexts address none } := by
  simp only [step] at hstep
  split at hstep
  next hthere => exact ⟨hthere.2, (Except.ok.inj hstep).symm⟩
  next => cases hstep

theorem step_template_ok (hstep : Contexts.step state (.template action) = .ok next) :
    state.Allowed action ∧ ∃ after, state.templates.Transition action after ∧
      next = state.record action after := by
  simp only [step] at hstep
  split at hstep
  next hallowed =>
    cases hafter : state.templates.step action with
    | error fault =>
        rw [hafter] at hstep
        cases hstep
    | ok after =>
        rw [hafter] at hstep
        exact ⟨hallowed, after, Templates.transition_of_step hafter, (Except.ok.inj hstep).symm⟩
  next => cases hstep

theorem Tracked.step (htracked : state.Tracked) {action : ContextAction}
    (hfresh : state.FreshStep action) (hstep : Contexts.step state action = .ok next) :
    next.Tracked := by
  cases action with
  | newContext address =>
      obtain ⟨hfree, rfl⟩ := step_newContext_ok hstep
      exact htracked.newContext hfree
  | deleteContext address =>
      obtain ⟨hunused, rfl⟩ := step_deleteContext_ok hstep
      exact htracked.deleteContext hunused
  | template action =>
      obtain ⟨hallowed, after, hafter, rfl⟩ := step_template_ok hstep
      have hnow := hfresh _ action hstep rfl
      exact htracked.record hallowed (Templates.cacheEffect_of_transition htracked.unique hafter)
        (htracked.handled.transition hafter) (htracked.unique.transition hafter hnow.finish) hnow

end Contexts

end QuickjsBackend
