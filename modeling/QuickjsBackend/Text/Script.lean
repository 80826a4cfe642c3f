import QuickjsBackend.Handle.Escape
import QuickjsBackend.Handle.Lifetime
import QuickjsBackend.Handle.Liveness
import QuickjsBackend.Text.RoundTrip

/-! # The source and the name of a script

A `Script` keeps the handles given to `Compile` and no references of its own. `Run`
reads them again, in the current context, and passes `JS_Eval` a file name out of a
temporary. What is passed, and whether the name is still there, is followed through the
runs of the handle layer, with scripts that run inside one another.
-/

namespace QuickjsBackend

open Foundation

/-- A string of the engine; the characters of an 8-bit one have 8 bits. -/
structure StringCell where
  str : JSString
  narrow : str.isWideChar = false → ∀ c ∈ str.chars, c < 0x100

/-- The strings of a runtime, which never change, and what `JS_ToString` makes of other
values, nothing when it throws. -/
structure StringTable where
  strings : Ptr → StringCell
  convert : JSValue → Option JSString

/-- What the file name passed to `JS_Eval` points to: the literal, the characters of a
string, or a string that `JS_ToCStringLen` has made and `~Utf8Value` has freed. -/
inductive FileName
  | literal
  | shared (ptr : Ptr)
  | buffer (bytes : List UInt8)

structure KeptHandle where
  handle : Local
  -- proof-facing: the string it denoted at `Compile`
  text : JSString

/-- `v8::Script`. -/
structure CompiledScript where
  source : KeptHandle
  resourceName : Option KeptHandle

/-- A call of `JS_Eval` in progress. -/
structure Evaluation where
  script : CompiledScript
  -- the entries of the C++ stack below it, and the context scopes
  base : Nat
  scopes : Nat
  input : List UInt8
  inputLen : Int
  filename : FileName

structure ScriptState where
  isolate : Isolate
  -- `current_context_`
  currentContext : Option Nat
  -- the `prev_context_` of each open `Context::Scope`, innermost first
  contextScopes : List (Option Nat)
  -- the scripts compiled so far, by their number
  scripts : List CompiledScript
  -- innermost first
  evaluations : List Evaluation

inductive ScriptFault
  | handles (fault : Fault)
  | text (fault : StringFault)

inductive ScriptAction
  | isolate (action : Action)
  | enterContext (context : Nat)
  | leaveContext
  | compile (source : Local) (origin : Option Local)
  | run (id : Nat)
  | finish

/-- The test in `JS_ToCStringLen` on which the characters are passed as they are. -/
def JSString.isAscii (str : JSString) : Bool :=
  !str.isWideChar && (str.chars.map fun c => c >>> 7).sum == 0

/-- The sizes that `JS_ToCStringLen` computes are in range. -/
def JSString.Fits (str : JSString) : Prop :=
  if str.isWideChar then str.chars.length * 3 < 2 ^ 31
  else str.chars.length + (str.chars.map fun c => c >>> 7).sum < 2 ^ 31

/-- What a pointer to a slot reads, in use or not. -/
def Isolate.read (isolate : Isolate) : Local → Option JSValue
  | .slot index => isolate.values[index]?
  | .scopeValue address => (scopeAt address isolate.frames).map HandleScope.scopeValue
  | .outside value => some value

/-- The actions on the entry on top of the stack. -/
def Action.onTop : Action → Bool
  | .handle (.store _) | .handle .beginExit | .handle .releaseSlot | .handle .finishExit
  | .handle .closeScope => true
  | _ => false

namespace FileName

variable (table : StringTable)

def bytes : FileName → List UInt8
  | .literal => [101, 118, 97, 108]
  | .shared ptr => (table.strings ptr).str.chars.map UInt8.ofNat
  | .buffer bytes => bytes

/-- The storage has not been freed. -/
def Referenced (isolate : Isolate) : FileName → Prop
  | .literal => True
  | .shared ptr => isolate.runtime.cell ptr = .live
  | .buffer _ => False

end FileName

namespace StringTable

variable (table : StringTable) (state : ScriptState)

/-- The string that `Utf8Value` makes of what a handle points to, with its cell. It asks
the current context for its `JSContext`. -/
def load (handle : Local) : Except ScriptFault (JSString × Option Ptr) :=
  match state.currentContext with
  | none => .error (.handles .nullDeref)
  | some _ =>
      match state.isolate.read handle with
      | none => .error (.handles .useAfterFree)
      | some (.ref .string ptr) =>
          if state.isolate.runtime.cell ptr = .live then
            .ok ((table.strings ptr).str, some ptr)
          else .error (.handles .useAfterFree)
      | some value =>
          match table.convert value with
          | some str => .ok (str, none)
          | none => .error (.handles .nullDeref)

/-- `String::Utf8Value`, its bytes and its length. -/
def utf8Bytes (str : JSString) : Except ScriptFault (List UInt8 × Int) :=
  match utf8Value str with
  | .ok passed => .ok passed
  | .error fault => .error (.text fault)

/-- `*String::Utf8Value(isolate, name)` after the temporary is gone. -/
def temporaryName (handle : Local) : Except ScriptFault FileName := do
  let (name, cell) ← table.load state handle
  let (bytes, _) ← utf8Bytes name
  match cell with
  | some ptr => return if name.isAscii then .shared ptr else .buffer bytes
  | none => return .buffer bytes

/-- `Script::Run` up to `JS_Eval`. -/
def evaluate (script : CompiledScript) : Except ScriptFault Evaluation := do
  let (source, _) ← table.load state script.source.handle
  let (input, inputLen) ← utf8Bytes source
  let filename ←
    match script.resourceName with
    | none => .ok .literal
    | some name => table.temporaryName state name.handle
  return ⟨script, state.isolate.frames.length, state.contextScopes.length, input, inputLen,
    filename⟩

/-- A `Local<String>` as the caller of `Compile` has it. -/
def keep (handle : Local) : Except ScriptFault KeptHandle :=
  match state.isolate.deref handle with
  | some (.ref .string ptr) =>
      if state.isolate.runtime.cell ptr = .live then .ok ⟨handle, (table.strings ptr).str⟩
      else .error (.handles .misuse)
  | _ => .error (.handles .misuse)

/-- `Script::Compile`. -/
def compile (source : Local) (origin : Option Local) : Except ScriptFault CompiledScript := do
  let source ← table.keep state source
  match origin with
  | none => return ⟨source, none⟩
  | some name => return ⟨source, some (← table.keep state name)⟩

/-- One step of the embedder or the engine. What runs inside an evaluation leaves the
entries below it on the C++ stack, context scopes among them. -/
def step : StepFn ScriptState ScriptAction ScriptFault := fun state action =>
  match action with
  | .isolate action =>
      if action.onTop ∧ ∃ e ∈ state.evaluations.head?, state.isolate.frames.length ≤ e.base then
        .error (.handles .misuse)
      else
        match state.isolate.step action with
        | .ok isolate => .ok { state with isolate }
        | .error fault => .error (.handles fault)
  | .enterContext context =>
      .ok { state with
        currentContext := some context
        contextScopes := state.currentContext :: state.contextScopes }
  | .leaveContext =>
      match state.contextScopes with
      | [] => .error (.handles .misuse)
      | prevContext :: outer =>
          if ∃ e ∈ state.evaluations.head?, state.contextScopes.length ≤ e.scopes then
            .error (.handles .misuse)
          else .ok { state with currentContext := prevContext, contextScopes := outer }
  | .compile source origin => do
      let script ← table.compile state source origin
      return { state with scripts := state.scripts ++ [script] }
  | .run id =>
      match state.scripts[id]? with
      | none => .error (.handles .misuse)
      | some script => do
          let evaluation ← table.evaluate state script
          return { state with evaluations := evaluation :: state.evaluations }
  | .finish =>
      match state.evaluations with
      | [] => .error (.handles .misuse)
      | evaluation :: outer =>
          if state.isolate.frames.length = evaluation.base ∧
              state.contextScopes.length = evaluation.scopes then
            .ok { state with evaluations := outer }
          else .error (.handles .misuse)

end StringTable

/-- A new isolate and no script. -/
def ScriptState.new : ScriptState := ⟨.new, none, [], [], []⟩

/-! ### What `Run` should pass and what it takes -/

namespace Evaluation

variable (table : StringTable)

/-- The source is passed as its UTF-8 bytes with their number, and the name as its UTF-8
bytes. -/
structure Correct (evaluation : Evaluation) : Prop where
  source : ∀ chars, evaluation.script.source.text.chars = utf16 chars →
    evaluation.input = utf8 chars ∧ evaluation.inputLen = (utf8 chars).length
  literal : evaluation.script.resourceName = none → evaluation.filename = .literal
  name : ∀ name ∈ evaluation.script.resourceName, ∀ chars, name.text.chars = utf16 chars →
    evaluation.filename.bytes table = utf8 chars

end Evaluation

/-- The handle owns storage in use, or the storage is another's, and the value is in it. -/
def Isolate.Owns (isolate : Isolate) (value : JSValue) : Local → Prop
  | .slot index => index ∈ isolate.liveSlots ∧ isolate.values[index]? = some value
  | .scopeValue address => ∃ handleScope, scopeAt address isolate.frames = some handleScope ∧
      handleScope.phase ≠ .closing ∧ handleScope.scopeValue = value
  | .outside other => other = value ∧ isolate.runtime.Live value

namespace ScriptState

variable (table : StringTable) (state : ScriptState)

/-- The handle still denotes the string it denoted at `Compile`. -/
def Stands (kept : KeptHandle) : Prop :=
  ∃ ptr, (table.strings ptr).str = kept.text ∧
    state.isolate.Owns (.ref .string ptr) kept.handle

/-- What a step needs: scripts are run while a context is current, and have their handles
and, if they have a name, an ASCII one; and the owner of a name outside the handle layer
keeps it while the script runs. -/
def Supports : ScriptAction → Prop
  | .run id => ∀ script, state.scripts[id]? = some script →
      state.currentContext ≠ none ∧ state.Stands table script.source ∧ script.source.text.Fits ∧
        ∀ name ∈ script.resourceName, state.Stands table name ∧ name.text.isAscii = true
  | .isolate action => ∀ evaluation ∈ state.evaluations,
      ∀ name ∈ evaluation.script.resourceName, ∀ value ptr, name.handle = .outside value →
        evaluation.filename = .shared ptr → ¬state.isolate.Frees action ptr
  | _ => True

end ScriptState

/-! ### Handles below an evaluation -/

/-- The scope a slot in use belongs to. -/
def slotScope (slot : Nat) : List Frame → Option Nat
  | [] => none
  | .slot _ :: below => slotScope slot below
  | .scope handleScope :: below =>
      if handleScope.prevPos ≤ slot ∧ handleScope.phase ≠ .closing then some below.length
      else slotScope slot below

theorem belongs_slotScope (slot : Nat) (frames : List Frame) :
    Belongs slot (slotScope slot frames) frames := by
  induction frames with
  | nil => rfl
  | cons frame below ih =>
      cases frame with
      | slot reserved => exact ih
      | scope handleScope =>
          by_cases hown : handleScope.prevPos ≤ slot ∧ handleScope.phase ≠ .closing
          · rw [slotScope, if_pos hown]
            simp only [Belongs, if_true]
            exact hown
          · simp only [slotScope, hown, if_false, Belongs]
            split
            next heq => exact absurd (heq ▸ ih : Belongs slot (some _) _).lt_length (lt_irrefl _)
            next => exact ⟨fun hopen => by by_contra hge; exact hown ⟨by omega, hopen⟩, ih⟩

namespace Isolate

variable {isolate next : Isolate} {action : Action} {base : Nat} {value : JSValue}

/-- A handle to a value, in storage that the entries above the base cannot release. -/
def Anchored (isolate : Isolate) (base : Nat) (value : JSValue) : Local → Prop
  | .slot index => index ∈ isolate.liveSlots ∧ isolate.values[index]? = some value ∧
      ∃ owner, Belongs index owner isolate.frames ∧ ∀ address ∈ owner, address < base
  | .scopeValue address => address < base ∧
      ∃ handleScope, scopeAt address isolate.frames = some handleScope ∧
        handleScope.phase ≠ .closing ∧
          (handleScope.scopeValue = value ∨ value.refs ≤ isolate.held - isolate.owned)
  | .outside _ => isolate.runtime.Live value

theorem Owns.anchored {handle : Local} (howns : isolate.Owns value handle) :
    isolate.Anchored isolate.frames.length value handle := by
  cases handle with
  | slot index =>
      refine ⟨howns.1, howns.2, _, belongs_slotScope index isolate.frames, fun address hown => ?_⟩
      have hbelongs := belongs_slotScope index isolate.frames
      rw [Option.mem_def.mp hown] at hbelongs
      exact hbelongs.lt_length
  | scopeValue address =>
      obtain ⟨handleScope, hscope, hphase, hvalue⟩ := howns
      exact ⟨lt_length_of_scopeAt hscope, handleScope, hscope, hphase, Or.inl hvalue⟩
  | outside other => exact howns.2

theorem Anchored.live {handle : Local} (hanchored : isolate.Anchored base value handle)
    (hwell : isolate.WellFormed) : isolate.runtime.Live value := by
  cases handle with
  | slot index =>
      refine (hwell.toCounted.of_refs_le ?_).1
      have hone : value.refs ≤
          ∑ slot ∈ isolate.liveSlots, (isolate.values.getD slot .undefined).refs := by
        have hget : isolate.values.getD index .undefined = value := by
          rw [List.getD_eq_getElem?_getD, hanchored.2.1, Option.getD_some]
        rw [← hget]
        exact Finset.single_le_sum
          (fun slot _ => (isolate.values.getD slot .undefined).refs_nonneg) hanchored.1
      exact hone.trans (hwell.toInOrder.sum_liveSlots_le.trans hwell.owned_le)
  | scopeValue address =>
      obtain ⟨_, handleScope, hscope, hphase, hparked⟩ := hanchored
      refine (hwell.toCounted.of_refs_le ?_).1
      rcases hparked with rfl | hslack
      · calc handleScope.scopeValue.refs
            ≤ parkedRefs isolate.frames := refs_le_parkedRefs hscope hphase
          _ ≤ isolate.owned := le_add_of_nonneg_left (liveRefs_nonneg _)
          _ ≤ isolate.held := hwell.owned_le
      · exact hslack.trans (sub_le_self _ isolate.owned_nonneg)
  | outside other => exact hanchored

/-- The stack loses at most the entry on top. -/
theorem length_transition (hnext : Transition isolate action next) :
    isolate.frames.length ≤ next.frames.length + (if action.onTop then 1 else 0) := by
  cases hnext with
  | openScope escapable =>
      simp only [Isolate.openScope, List.length_cons]
      omega
  | alloc =>
      simp only [Isolate.alloc, List.length_cons]
      omega
  | store index below value hframes => simp [hframes, Isolate.store, Action.onTop]
  | escape address handle handleScope parent value => simp [escapeValue, setScopeValue_length]
  | enterLoop handleScope below hframes => simp [hframes]
  | skipLoop handleScope below hframes => simp [hframes, releaseScopeValue]
  | releaseSlot handleScope index stop below hframes => simp [hframes, Isolate.releaseSlot]
  | finishExit handleScope i stop below hframes =>
      simp [hframes, Isolate.finishExit, releaseScopeValue]
  | closeScope handleScope below hframes => simp [hframes, Isolate.closeScope, Action.onTop]
  | _ => exact Nat.le_add_right _ _

/-- Above the base no scope below it comes to its end. -/
theorem not_endsScope (habove : action.onTop = true → base < isolate.frames.length)
    {owner : Option Nat} (howner : ∀ address ∈ owner, address < base) :
    ¬isolate.EndsScope owner action := by
  intro hends
  unfold EndsScope at hends
  split at hends
  · split at hends
    · exact hends
    next top below hframes =>
      have hlt := howner _ (Option.mem_def.mpr hends)
      have hbase := habove rfl
      rw [hframes, List.length_cons] at hbase
      omega
  · exact hends

theorem not_releasesSlot (habove : action.onTop = true → base < isolate.frames.length)
    {owner : Option Nat} (howner : ∀ address ∈ owner, address < base) (slot : Nat) :
    ¬isolate.ReleasesSlot owner slot action := by
  intro hreleases
  unfold ReleasesSlot at hreleases
  split at hreleases
  · split at hreleases
    next handleScope below hframes =>
      have hlt := howner _ (Option.mem_def.mpr hreleases.1)
      have hbase := habove rfl
      rw [hframes, List.length_cons] at hbase
      omega
    · exact hreleases
  · exact hreleases

/-- A slot that its own scope neither releases nor gives up stays as it is. -/
theorem liveSlot_transition {index : Nat} {owner : Option Nat} (horder : isolate.InOrder)
    (hmem : index ∈ isolate.liveSlots) (hbelongs : Belongs index owner isolate.frames)
    (hopen : ¬isolate.EndsScope owner action) (hkept : ¬isolate.ReleasesSlot owner index action)
    (hnext : Transition isolate action next) :
    index ∈ next.liveSlots ∧ next.values[index]? = isolate.values[index]? ∧
      Belongs index owner next.frames := by
  obtain ⟨hinUse, hwithheld⟩ := mem_liveSlots.mp hmem
  obtain ⟨hreserved, hreleased⟩ := not_or.mp hwithheld
  have hstill := Belongs.transition hbelongs hinUse hopen hnext
  refine ⟨mem_liveSlots.mpr ⟨hstill.2, not_or.mpr ⟨?_, ?_⟩⟩, ?_, hstill.1⟩
  · exact fun hnow => hreserved (reserved_transition hinUse hnext hnow)
  · exact fun hnow => hreleased (released_transition hbelongs hinUse hkept hnext hnow)
  · exact value_transition horder hinUse hnext fun hframes =>
      hreserved (hframes ▸ List.mem_cons_self)

theorem Anchored.slot_transition {index : Nat}
    (hanchored : isolate.Anchored base value (.slot index)) (horder : isolate.InOrder)
    (habove : action.onTop = true → base < isolate.frames.length)
    (hnext : Transition isolate action next) : next.Anchored base value (.slot index) := by
  obtain ⟨hmem, hvalue, owner, hbelongs, howner⟩ := hanchored
  obtain ⟨hlive, hsame, hstill⟩ := liveSlot_transition horder hmem hbelongs
    (not_endsScope habove howner) (not_releasesSlot habove howner index) hnext
  exact ⟨hlive, hsame.trans hvalue, owner, hstill, howner⟩

/-- A scope below the base stays, and is open as before. -/
theorem scopeAt_below {address : Nat} {was : HandleScope} (hlt : address < base)
    (habove : action.onTop = true → base < isolate.frames.length)
    (hscope : scopeAt address isolate.frames = some was)
    (hnext : Transition isolate action next) :
    ∃ now, scopeAt address next.frames = some now ∧ now.phase = was.phase := by
  -- the entry on top is not the one at the address
  have hbelow : ∀ top below, isolate.frames = top :: below → action.onTop = true →
      scopeAt address below = some was := by
    intro top below hframes htop
    have hbase := habove htop
    rw [hframes] at hscope hbase
    rw [List.length_cons] at hbase
    rcases scopeAt_cons_cases hscope with ⟨heq, _⟩ | hbelow
    · omega
    · exact hbelow
  cases hnext with
  | openScope escapable => exact ⟨was, scopeAt_cons hscope, rfl⟩
  | alloc => exact ⟨was, scopeAt_cons hscope, rfl⟩
  | store index below value hframes => exact ⟨was, hbelow _ below hframes rfl, rfl⟩
  | escape _ handle handleScope target value =>
      refine ⟨if address = target then { was with scopeValue := value } else was, ?_, ?_⟩
      · simp only [escapeValue, scopeAt_setScopeValue, hscope, Option.map_some]
      · split <;> rfl
  | enterLoop handleScope below hframes =>
      exact ⟨was, scopeAt_cons (hbelow _ below hframes rfl), rfl⟩
  | skipLoop handleScope below hframes =>
      exact ⟨was, scopeAt_cons (hbelow _ below hframes rfl), rfl⟩
  | releaseSlot handleScope index stop below hframes =>
      exact ⟨was, scopeAt_cons (hbelow _ below hframes rfl), rfl⟩
  | finishExit handleScope i stop below hframes =>
      exact ⟨was, scopeAt_cons (hbelow _ below hframes rfl), rfl⟩
  | closeScope handleScope below hframes => exact ⟨was, hbelow _ below hframes rfl, rfl⟩
  | _ => exact ⟨was, hscope, rfl⟩

theorem lost_of_escapesInto {address : Nat} {other : JSValue}
    (hinto : isolate.escapesInto address action = some other) :
    isolate.lost action = displacedRefs address other isolate.frames := by
  unfold escapesInto at hinto
  split at hinto
  next target handle =>
    split at hinto
    next hparent => simp only [lost, hparent, hinto]
    next => cases hinto
  next => cases hinto

/-- What another escape displaces keeps its reference for good. -/
theorem Anchored.scopeValue_transition {address : Nat}
    (hanchored : isolate.Anchored base value (.scopeValue address)) (hwell : isolate.WellFormed)
    (habove : action.onTop = true → base < isolate.frames.length)
    (hnext : Transition isolate action next) : next.Anchored base value (.scopeValue address) := by
  obtain ⟨hlt, was, hwas, hphase, hparked⟩ := hanchored
  obtain ⟨now, hnow, hsame⟩ := scopeAt_below hlt habove hwas hnext
  refine ⟨hlt, now, hnow, hsame ▸ hphase, ?_⟩
  rcases hparked with rfl | hslack
  · cases hinto : isolate.escapesInto address action with
    | none =>
        left
        rw [Isolate.scopeValue_transition hnext hwas hnow, hinto, Option.getD_none]
    | some other =>
        right
        have hlost : isolate.lost action = was.scopeValue.refs := by
          rw [lost_of_escapesInto hinto]
          simp only [displacedRefs, hwas, if_neg hphase]
        have hbalance := held_add_owned hwell.toInOrder hnext
        rw [hlost] at hbalance
        intro ptr
        have hptr := congrFun hbalance ptr
        have howned : isolate.owned ptr ≤ isolate.held ptr := hwell.owned_le ptr
        simp only [Pi.add_apply] at hptr
        simp only [Pi.sub_apply]
        omega
  · exact Or.inr (hslack.trans (hwell.toInOrder.slack_le hnext))

/-- Step lemma of a name: whatever runs above the base leaves it where it is. -/
theorem Anchored.transition {handle : Local} {kind : RefTag} {ptr : Ptr}
    (hanchored : isolate.Anchored base (.ref kind ptr) handle) (hwell : isolate.WellFormed)
    (habove : action.onTop = true → base < isolate.frames.length)
    (howner : ∀ other, handle = .outside other → ¬isolate.Frees action ptr)
    (hnext : Transition isolate action next) : next.Anchored base (.ref kind ptr) handle := by
  cases handle with
  | slot index => exact hanchored.slot_transition hwell.toInOrder habove hnext
  | scopeValue address => exact hanchored.scopeValue_transition hwell habove hnext
  | outside other =>
      have hlive : isolate.runtime.cell ptr = .live := Runtime.live_ref.mp hanchored
      exact Runtime.live_ref.mpr ((live_next_iff hnext hlive).mpr (howner other rfl))

end Isolate

/-! ### What is passed -/

section Conversion

variable {str : JSString} {chars : List Char}

theorem utf8_length_le (chars : List Char) :
    (utf8 chars).length ≤ (utf16 chars).length * 3 := by
  induction chars with
  | nil => rfl
  | cons c rest ih =>
      have hchar : (String.utf8EncodeChar c).length ≤ (utf16Char c).length * 3 := by
        rw [length_utf8EncodeChar_eq, utf16Char]
        split_ifs <;> simp
      rw [utf8_cons, utf16_cons, List.length_append, List.length_append]
      omega

theorem exists_utf8Bytes (hfits : str.Fits) : ∃ passed, StringTable.utf8Bytes str = .ok passed := by
  have hbytes : ∃ bytes, toCStringLen str = .ok bytes := by
    unfold JSString.Fits at hfits
    unfold toCStringLen
    cases hwide : str.isWideChar with
    | true =>
        rw [hwide, if_pos rfl] at hfits
        exact ⟨_, by rw [if_pos rfl, if_neg (Nat.not_le.mpr hfits)]⟩
    | false =>
        rw [hwide, if_neg Bool.false_ne_true] at hfits
        simp only [Bool.false_eq_true, if_false]
        split
        · exact ⟨_, rfl⟩
        · exact ⟨_, if_neg (Nat.not_le.mpr hfits)⟩
  obtain ⟨bytes, hbytes⟩ := hbytes
  refine ⟨(bytes.1, intOfSize bytes.2), ?_⟩
  simp only [StringTable.utf8Bytes, utf8Value, hbytes, bind, Except.bind, pure, Except.pure]

/-- ASCII characters need no buffer. -/
theorem exists_utf8Bytes_of_isAscii (hascii : str.isAscii = true) :
    ∃ passed, StringTable.utf8Bytes str = .ok passed := by
  simp only [JSString.isAscii, Bool.and_eq_true, Bool.not_eq_true', beq_iff_eq] at hascii
  refine ⟨(str.chars.map UInt8.ofNat, intOfSize str.chars.length), ?_⟩
  simp only [StringTable.utf8Bytes, utf8Value, toCStringLen, hascii.1, hascii.2,
    Bool.false_eq_true, if_false, if_true, bind, Except.bind, pure, Except.pure]

/-- The units of an 8-bit string are its scalar values. -/
theorem StringCell.narrow_chars {cell : StringCell} (hwide : cell.str.isWideChar = false)
    (hchars : cell.str.chars = utf16 chars) : ∀ c ∈ chars, c.toNat < 0x100 := by
  intro c hc
  by_contra hlarge
  obtain ⟨unit, hmem, hunit⟩ := (isWide_utf16_iff chars).mpr ⟨c, hc, by omega⟩
  have hlt := cell.narrow hwide unit (hchars ▸ hmem)
  omega

/-- Any text whose sizes are in range is passed as its UTF-8. -/
theorem utf8Bytes_of_fits {cell : StringCell} (hfits : cell.str.Fits)
    (hchars : cell.str.chars = utf16 chars) :
    StringTable.utf8Bytes cell.str = .ok (utf8 chars, (utf8 chars).length) := by
  have hlength : (utf8 chars).length < 2 ^ 31 ∧
      toCStringLen cell.str = .ok (utf8 chars, (utf8 chars).length) := by
    have hstr : cell.str = ⟨cell.str.isWideChar, utf16 chars⟩ := by rw [← hchars]
    unfold JSString.Fits at hfits
    cases hwide : cell.str.isWideChar with
    | true =>
        rw [hwide, if_pos rfl, hchars] at hfits
        have hle := utf8_length_le chars
        have hlt : (utf8 chars).length < 2 ^ 31 := by omega
        exact ⟨hlt, by rw [hstr, hwide, toCStringLen_wide hlt, if_neg (Nat.not_le.mpr hfits)]⟩
    | false =>
        have hnarrow := StringCell.narrow_chars hwide hchars
        rw [hwide, if_neg Bool.false_ne_true, hchars, length_add_count hnarrow] at hfits
        exact ⟨hfits, by rw [hstr, hwide, toCStringLen_narrow hnarrow hfits]⟩
  rw [StringTable.utf8Bytes, (gives_back hlength.1 hlength.2).2.2]

/-- The characters of an ASCII string are its UTF-8. -/
theorem map_ofNat_of_isAscii {cell : StringCell} (hascii : cell.str.isAscii = true)
    (hchars : cell.str.chars = utf16 chars) : cell.str.chars.map UInt8.ofNat = utf8 chars := by
  simp only [JSString.isAscii, Bool.and_eq_true, Bool.not_eq_true', beq_iff_eq] at hascii
  rw [hchars] at hascii ⊢
  exact map_ofNat_utf16 (StringCell.narrow_chars hascii.1 hchars) hascii.2

end Conversion

/-! ### Runs -/

namespace StringTable

variable {table : StringTable} {state : ScriptState} {kept : KeptHandle} {script : CompiledScript}

theorem load_of_owns (table : StringTable) {ptr : Ptr} (hcontext : state.currentContext ≠ none)
    (hwell : state.isolate.WellFormed)
    (howns : state.isolate.Owns (.ref .string ptr) kept.handle) :
    table.load state kept.handle = .ok ((table.strings ptr).str, some ptr) := by
  obtain ⟨context, hcurrent⟩ := Option.ne_none_iff_exists'.mp hcontext
  have hlive : state.isolate.runtime.cell ptr = .live :=
    Runtime.live_ref.mp (howns.anchored.live hwell)
  have hread : state.isolate.read kept.handle = some (.ref .string ptr) := by
    cases hhandle : kept.handle with
    | slot index =>
        rw [hhandle] at howns
        exact howns.2
    | scopeValue address =>
        rw [hhandle] at howns
        obtain ⟨handleScope, hscope, _, hvalue⟩ := howns
        rw [Isolate.read, hscope, Option.map_some, hvalue]
    | outside other =>
        rw [hhandle] at howns
        rw [Isolate.read, howns.1]
  simp only [load, hcurrent, hread, hlive, if_true]

/-- A name that stands is passed in its own storage. -/
theorem temporaryName_of_owns {ptr : Ptr} (hcontext : state.currentContext ≠ none)
    (hwell : state.isolate.WellFormed)
    (howns : state.isolate.Owns (.ref .string ptr) kept.handle)
    (htext : (table.strings ptr).str = kept.text) (hascii : kept.text.isAscii = true) :
    table.temporaryName state kept.handle = .ok (.shared ptr) := by
  obtain ⟨passed, hpassed⟩ := exists_utf8Bytes_of_isAscii hascii
  simp only [temporaryName, load_of_owns table hcontext hwell howns, htext, hpassed, hascii, bind,
    Except.bind, if_true]
  rfl

end StringTable

namespace Evaluation

/-- The name is the literal or in storage that the handle of the script keeps. -/
def Anchored (evaluation : Evaluation) (isolate : Isolate) : Prop :=
  match evaluation.filename with
  | .literal => True
  | .shared ptr => ∃ name ∈ evaluation.script.resourceName,
      isolate.Anchored evaluation.base (.ref .string ptr) name.handle
  | .buffer _ => False

variable {evaluation : Evaluation} {isolate next : Isolate} {action : Action}

theorem Anchored.referenced (hanchored : evaluation.Anchored isolate)
    (hwell : isolate.WellFormed) : evaluation.filename.Referenced isolate := by
  unfold Anchored at hanchored
  cases hname : evaluation.filename with
  | literal => trivial
  | shared ptr =>
      rw [hname] at hanchored
      obtain ⟨name, _, hname⟩ := hanchored
      exact Runtime.live_ref.mp (hname.live hwell)
  | buffer bytes =>
      rw [hname] at hanchored
      exact hanchored

theorem Anchored.transition (hanchored : evaluation.Anchored isolate) (hwell : isolate.WellFormed)
    (habove : action.onTop = true → evaluation.base < isolate.frames.length)
    (howner : ∀ name ∈ evaluation.script.resourceName, ∀ value ptr, name.handle = .outside value →
      evaluation.filename = .shared ptr → ¬isolate.Frees action ptr)
    (hnext : Isolate.Transition isolate action next) : evaluation.Anchored next := by
  unfold Anchored at hanchored ⊢
  cases hname : evaluation.filename with
  | literal => trivial
  | shared ptr =>
      rw [hname] at hanchored
      obtain ⟨name, hmem, hkept⟩ := hanchored
      exact ⟨name, hmem, hkept.transition hwell habove
        (fun value hvalue => howner name hmem value ptr hvalue hname) hnext⟩
  | buffer bytes =>
      rw [hname] at hanchored
      exact hanchored

end Evaluation

namespace StringTable

variable {table : StringTable} {state next : ScriptState} {script : CompiledScript}

/-- A script whose handles stand is passed as it was compiled, with a name that stays. -/
theorem evaluate_of_stands (hcontext : state.currentContext ≠ none)
    (hwell : state.isolate.WellFormed) (hsource : state.Stands table script.source)
    (hfits : script.source.text.Fits)
    (hnames : ∀ name ∈ script.resourceName,
      state.Stands table name ∧ name.text.isAscii = true) :
    ∃ evaluation, table.evaluate state script = .ok evaluation ∧
      evaluation.script = script ∧ evaluation.base = state.isolate.frames.length ∧
        evaluation.Correct table ∧ evaluation.Anchored state.isolate := by
  obtain ⟨ptr, htext, howns⟩ := hsource
  rw [← htext] at hfits
  obtain ⟨passed, hpassed⟩ := exists_utf8Bytes hfits
  have hload := load_of_owns table hcontext hwell howns
  have hcorrect : ∀ chars, script.source.text.chars = utf16 chars →
      passed.1 = utf8 chars ∧ passed.2 = (utf8 chars).length := by
    intro chars hchars
    rw [← htext] at hchars
    have hsame := utf8Bytes_of_fits hfits hchars
    rw [hpassed, Except.ok.injEq] at hsame
    rw [hsame]
    exact ⟨rfl, rfl⟩
  cases hname : script.resourceName with
  | none =>
      refine ⟨⟨script, _, state.contextScopes.length, passed.1, passed.2, .literal⟩, ?_, rfl, rfl,
        ⟨hcorrect, fun _ => rfl, ?_⟩, trivial⟩
      · simp only [evaluate, hload, hpassed, hname, bind, Except.bind]
        rfl
      · intro name hmem
        rw [hname] at hmem
        cases hmem
  | some name =>
      obtain ⟨⟨cell, hcell, hkept⟩, hascii⟩ := hnames name hname
      have htemporary := temporaryName_of_owns hcontext hwell hkept hcell hascii
      refine ⟨⟨script, _, state.contextScopes.length, passed.1, passed.2, .shared cell⟩, ?_, rfl,
        rfl, ⟨hcorrect, ?_, ?_⟩, ⟨name, hname, hkept.anchored⟩⟩
      · simp only [evaluate, hload, hpassed, hname, htemporary, bind, Except.bind]
        rfl
      · intro hnone
        rw [hname] at hnone
        cases hnone
      · intro other hother chars hchars
        cases hname.symm.trans hother
        rw [← hcell] at hchars hascii
        exact map_ofNat_of_isAscii hascii hchars

end StringTable

namespace ScriptState

variable (table : StringTable) (state : ScriptState)

/-- The invariant of runs. -/
structure Safe : Prop where
  wellFormed : state.isolate.WellFormed
  nested : state.evaluations.Pairwise fun inner outer => outer.base ≤ inner.base
  below : ∀ evaluation ∈ state.evaluations, evaluation.base ≤ state.isolate.frames.length
  anchored : ∀ evaluation ∈ state.evaluations, evaluation.Anchored state.isolate

variable {table state} {next : ScriptState} {action : ScriptAction}

/-- What a step does. -/
theorem step_cases (hstep : table.step state action = .ok next) :
    (∃ inner isolate, action = .isolate inner ∧
      ¬(inner.onTop ∧ ∃ e ∈ state.evaluations.head?, state.isolate.frames.length ≤ e.base) ∧
        state.isolate.step inner = .ok isolate ∧ next = { state with isolate }) ∨
    (∃ context, action = .enterContext context ∧ next = { state with
      currentContext := some context
      contextScopes := state.currentContext :: state.contextScopes }) ∨
    (∃ prevContext outer, action = .leaveContext ∧ state.contextScopes = prevContext :: outer ∧
      next = { state with currentContext := prevContext, contextScopes := outer }) ∨
    (∃ source origin script, action = .compile source origin ∧
      next = { state with scripts := state.scripts ++ [script] }) ∨
    (∃ id script evaluation, action = .run id ∧ state.scripts[id]? = some script ∧
      table.evaluate state script = .ok evaluation ∧
        next = { state with evaluations := evaluation :: state.evaluations }) ∨
    (∃ evaluation outer, action = .finish ∧ state.evaluations = evaluation :: outer ∧
      next = { state with evaluations := outer }) := by
  cases action with
  | isolate inner =>
      simp only [StringTable.step] at hstep
      split at hstep
      · cases hstep
      next hallowed =>
        cases hinner : state.isolate.step inner with
        | error fault =>
            rw [hinner] at hstep
            cases hstep
        | ok isolate =>
            rw [hinner] at hstep
            cases hstep
            exact Or.inl ⟨inner, isolate, rfl, hallowed, hinner, rfl⟩
  | enterContext context =>
      cases hstep
      exact Or.inr (Or.inl ⟨context, rfl, rfl⟩)
  | leaveContext =>
      simp only [StringTable.step] at hstep
      cases hscopes : state.contextScopes with
      | nil => simp only [hscopes, reduceCtorEq] at hstep
      | cons prevContext outer =>
          simp only [hscopes] at hstep
          split at hstep
          · cases hstep
          · cases hstep
            exact Or.inr (Or.inr (Or.inl ⟨prevContext, outer, rfl, rfl, rfl⟩))
  | compile source origin =>
      obtain ⟨script, _, hnext⟩ := bind_eq_ok.mp hstep
      cases hnext
      exact Or.inr (Or.inr (Or.inr (Or.inl ⟨source, origin, script, rfl, rfl⟩)))
  | run id =>
      simp only [StringTable.step] at hstep
      cases hscript : state.scripts[id]? with
      | none => simp only [hscript, reduceCtorEq] at hstep
      | some script =>
          simp only [hscript] at hstep
          obtain ⟨evaluation, heval, hnext⟩ := bind_eq_ok.mp hstep
          cases hnext
          exact Or.inr (Or.inr (Or.inr (Or.inr (Or.inl
            ⟨id, script, evaluation, rfl, hscript, heval, rfl⟩))))
  | finish =>
      simp only [StringTable.step] at hstep
      cases hevaluations : state.evaluations with
      | nil => simp only [hevaluations, reduceCtorEq] at hstep
      | cons evaluation outer =>
          simp only [hevaluations] at hstep
          split at hstep
          · cases hstep
            exact Or.inr (Or.inr (Or.inr (Or.inr (Or.inr ⟨evaluation, outer, rfl, rfl, rfl⟩))))
          · cases hstep

/-- Only the handle layer and the engine change the isolate. -/
theorem isolate_of_step (hstep : table.step state action = .ok next) :
    next.isolate = state.isolate ∨
      ∃ inner, action = .isolate inner ∧ state.isolate.step inner = .ok next.isolate := by
  rcases step_cases hstep with ⟨inner, isolate, rfl, _, hinner, rfl⟩ | ⟨_, _, rfl⟩ |
    ⟨_, _, _, _, rfl⟩ | ⟨_, _, _, _, rfl⟩ | ⟨_, _, _, _, _, _, rfl⟩ | ⟨_, _, _, _, rfl⟩
  · exact Or.inr ⟨inner, rfl, hinner⟩
  · exact Or.inl rfl
  · exact Or.inl rfl
  · exact Or.inl rfl
  · exact Or.inl rfl
  · exact Or.inl rfl

/-- What acts on the entry on top acts above all evaluations. -/
theorem Safe.above (hsafe : state.Safe) {inner : Action}
    (hallowed : ¬(inner.onTop ∧
      ∃ e ∈ state.evaluations.head?, state.isolate.frames.length ≤ e.base))
    (htop : inner.onTop = true) :
    ∀ evaluation ∈ state.evaluations, evaluation.base < state.isolate.frames.length := by
  have hnested := hsafe.nested
  cases hevaluations : state.evaluations with
  | nil => simp
  | cons first rest =>
      rw [hevaluations] at hnested hallowed
      have hfirst : first.base < state.isolate.frames.length := by
        by_contra hge
        exact hallowed ⟨htop, first, rfl, Nat.le_of_not_lt hge⟩
      intro evaluation hmem
      rcases List.mem_cons.mp hmem with rfl | hrest
      · exact hfirst
      · exact lt_of_le_of_lt ((List.pairwise_cons.mp hnested).1 evaluation hrest) hfirst

theorem Safe.isolate_step (hsafe : state.Safe) {inner : Action} {isolate : Isolate}
    (hsupports : state.Supports table (.isolate inner))
    (hallowed : ¬(inner.onTop ∧
      ∃ e ∈ state.evaluations.head?, state.isolate.frames.length ≤ e.base))
    (hstep : state.isolate.step inner = .ok isolate) : Safe { state with isolate } := by
  have hnext := Isolate.transition_of_step hstep
  have habove := hsafe.above hallowed
  refine ⟨hsafe.wellFormed.step hstep, hsafe.nested, fun evaluation hmem => ?_,
    fun evaluation hmem => ?_⟩
  · have hlength := Isolate.length_transition hnext
    have hbelow := hsafe.below evaluation hmem
    change evaluation.base ≤ isolate.frames.length
    by_cases htop : inner.onTop = true
    · have hlt := habove htop evaluation hmem
      rw [if_pos htop] at hlength
      omega
    · rw [if_neg htop] at hlength
      omega
  · exact (hsafe.anchored evaluation hmem).transition hsafe.wellFormed
      (fun htop => habove htop evaluation hmem) (hsupports evaluation hmem) hnext

theorem Safe.run_step (hsafe : state.Safe) {evaluation : Evaluation}
    (hbase : evaluation.base = state.isolate.frames.length)
    (hanchored : evaluation.Anchored state.isolate) :
    Safe { state with evaluations := evaluation :: state.evaluations } where
  wellFormed := hsafe.wellFormed
  nested := List.pairwise_cons.mpr
    ⟨fun outer hmem => hbase ▸ hsafe.below outer hmem, hsafe.nested⟩
  below := List.forall_mem_cons.mpr ⟨le_of_eq hbase, hsafe.below⟩
  anchored := List.forall_mem_cons.mpr ⟨hanchored, hsafe.anchored⟩

/-- The innermost script is done. -/
theorem Safe.finish_step (hsafe : state.Safe) {evaluation : Evaluation}
    {outer : List Evaluation} (hevaluations : state.evaluations = evaluation :: outer) :
    Safe { state with evaluations := outer } := by
  obtain ⟨hwell, hnested, hbelow, hanchored⟩ := hsafe
  rw [hevaluations] at hnested hbelow hanchored
  exact ⟨hwell, (List.pairwise_cons.mp hnested).2, (List.forall_mem_cons.mp hbelow).2,
    (List.forall_mem_cons.mp hanchored).2⟩

/-- Step lemma. -/
theorem Safe.step (hsafe : state.Safe) (hsupports : state.Supports table action)
    (hstep : table.step state action = .ok next) : next.Safe := by
  rcases step_cases hstep with ⟨inner, isolate, rfl, hallowed, hinner, rfl⟩ |
    ⟨context, rfl, rfl⟩ | ⟨prevContext, scopes, rfl, _, rfl⟩ |
    ⟨source, origin, script, rfl, rfl⟩ | ⟨id, script, evaluation, rfl, hscript, heval, rfl⟩ |
    ⟨evaluation, outer, rfl, hevaluations, rfl⟩
  · exact hsafe.isolate_step hsupports hallowed hinner
  · exact ⟨hsafe.wellFormed, hsafe.nested, hsafe.below, hsafe.anchored⟩
  · exact ⟨hsafe.wellFormed, hsafe.nested, hsafe.below, hsafe.anchored⟩
  · exact ⟨hsafe.wellFormed, hsafe.nested, hsafe.below, hsafe.anchored⟩
  · obtain ⟨hcontext, hsource, hfits, hnames⟩ := hsupports script hscript
    obtain ⟨passed, hpassed, _, hbase, _, hanchored⟩ :=
      StringTable.evaluate_of_stands hcontext hsafe.wellFormed hsource hfits hnames
    rw [hpassed, Except.ok.injEq] at heval
    exact heval ▸ hsafe.run_step hbase hanchored
  · exact hsafe.finish_step hevaluations

/-- The action comes to the slot, or to the end of `Exit`, in the scope of the slot. -/
def Closes (state : ScriptState) (index : Nat) : ScriptAction → Prop
  | .isolate action =>
      state.isolate.EndsScope (slotScope index state.isolate.frames) action ∨
        state.isolate.ReleasesSlot (slotScope index state.isolate.frames) index action
  | _ => False

theorem Stands.step {kept : KeptHandle} {index : Nat} (hstands : state.Stands table kept)
    (hhandle : kept.handle = .slot index) (hwell : state.isolate.WellFormed)
    (hopen : ¬state.Closes index action) (hstep : table.step state action = .ok next) :
    next.Stands table kept := by
  obtain ⟨ptr, htext, howns⟩ := hstands
  refine ⟨ptr, htext, ?_⟩
  rw [hhandle] at howns ⊢
  rcases isolate_of_step hstep with hsame | ⟨inner, rfl, hinner⟩
  · rwa [hsame]
  · obtain ⟨hends, hreleases⟩ := not_or.mp hopen
    obtain ⟨hlive, hvalue, _⟩ := Isolate.liveSlot_transition hwell.toInOrder howns.1
      (belongs_slotScope index _) hends hreleases (Isolate.transition_of_step hinner)
    exact ⟨hlive, hvalue.trans howns.2⟩

/-- The string of a script is there for as long as the scope of its handle is open,
whatever else is opened, closed and run. -/
theorem stands_of_run {kept : KeptHandle} {index : Nat} {actions : List ScriptAction}
    (hstands : state.Stands table kept) (hhandle : kept.handle = .slot index)
    (hwell : state.isolate.WellFormed)
    (hopen : table.step.Always (fun state action _ => ¬state.Closes index action) state actions)
    (hrun : table.step.run state actions = .ok next) : next.Stands table kept := by
  have hfinal := table.step.run_invariant (fun state action => ¬state.Closes index action)
    (fun state => state.isolate.WellFormed ∧ state.Stands table kept) ?_ ⟨hwell, hstands⟩ hopen hrun
  · exact hfinal.2
  · rintro state action next ⟨hwell, hstands⟩ hopen hstep
    refine ⟨?_, hstands.step hhandle hwell hopen hstep⟩
    rcases isolate_of_step hstep with hsame | ⟨inner, rfl, hinner⟩
    · rwa [hsame]
    · exact hwell.step hinner

end ScriptState

end QuickjsBackend
