import QuickjsBackend.Engine.Value

/-! # Property access through the engine

The operations of the layer that read or write a property, a prototype or a map
entry, or convert a value, each with its own reading of what the engine answers.
The engine is a parameter: its entry points act on a state of their own, which
also holds the exception it keeps and what the `TryCatch` objects caught. The
slot a result is stored in, and `Escape` of a stored value, are the business of
the handle scopes and left out here.
-/

namespace QuickjsBackend

/-- `JSAtom`; a failed conversion answers `JS_ATOM_NULL`. -/
abbrev JSAtom := Nat

/-- `JS_ATOM_NULL`. -/
def atomNull : JSAtom := 0

/-- `JS_IsNumber`. -/
def JSValue.isNumber : JSValue → Bool
  | .int _ => true
  | .float64 _ => true
  | _ => false

/-- `JS_IsString`. -/
def JSValue.isString : JSValue → Bool
  | .ref .string _ => true
  | _ => false

/-- The entry points property access calls, and what can be seen of a state. -/
structure Engine (State Contents : Type) where
  valueToAtom : JSValue → State → JSAtom × State
  setProperty : JSValue → JSAtom → JSValue → State → Int × State
  setPropertyUint32 : JSValue → BitVec 32 → JSValue → State → Int × State
  getProperty : JSValue → JSAtom → State → JSValue × State
  getPropertyUint32 : JSValue → BitVec 32 → State → JSValue × State
  getOwnPropertyNamesAsArray : JSValue → State → JSValue × State
  getOwnProperty : JSValue → JSAtom → State → Int × State
  setPrototype : JSValue → JSValue → State → Int × State
  toString : JSValue → State → JSValue × State
  /-- `JS_ToFloat64`, with the double it writes through its pointer. -/
  toFloat64 : JSValue → State → (Int × BitVec 64) × State
  mapGet : JSValue → JSValue → State → JSValue × State
  mapSet : JSValue → JSValue → JSValue → State → JSValue × State
  mapDelete : JSValue → JSValue → State → JSValue × State
  /-- `Uint32Value` of a number, for which `JS_ToFloat64` never fails. -/
  uint32Value : JSValue → BitVec 32
  /-- The exception thrown and not yet taken by `JS_GetException`; a thrown
  `null` is pending like any other. -/
  pending : State → Option JSValue
  /-- `catched_` of the open `TryCatch` objects, innermost first. -/
  tryCatches : State → List JSValue
  /-- What the engine holds for an object. -/
  contents : State → JSValue → Contents

variable {State Contents : Type} (engine : Engine State Contents)

/-- `Object::Set` with a value as key. The answer -1 converts to `true`, and
`JS_SetProperty` is called with the atom of a failed conversion as with another. -/
def Object.set (this key value : JSValue) (state : State) : Option Bool × State :=
  if key.isNumber then
    let ok := engine.setPropertyUint32 this (engine.uint32Value key) value state
    (some (ok.1 != 0), ok.2)
  else
    let atom := engine.valueToAtom key state
    let ok := engine.setProperty this atom.1 value atom.2
    (some (ok.1 != 0), ok.2)

/-- `Object::Set` with an index. -/
def Object.setIndex (this : JSValue) (index : BitVec 32) (value : JSValue) (state : State) :
    Option Bool × State :=
  let ok := engine.setPropertyUint32 this index value state
  (some (ok.1 != 0), ok.2)

/-- `Object::Get` with a value as key. The handle is returned whatever it holds. -/
def Object.get (this key : JSValue) (state : State) : Option JSValue × State :=
  if key.isNumber then
    let ret := engine.getPropertyUint32 this (engine.uint32Value key) state
    (some ret.1, ret.2)
  else
    let atom := engine.valueToAtom key state
    let ret := engine.getProperty this atom.1 atom.2
    (some ret.1, ret.2)

/-- `Object::Get` with an index. -/
def Object.getIndex (this : JSValue) (index : BitVec 32) (state : State) :
    Option JSValue × State :=
  let ret := engine.getPropertyUint32 this index state
  (some ret.1, ret.2)

/-- The branch shared by what tests its answer with `JS_IsException`. -/
def unlessException (answer : JSValue × State) : Option JSValue × State :=
  if answer.1.isException then (none, answer.2) else (some answer.1, answer.2)

/-- `Object::GetOwnPropertyNames`. -/
def Object.getOwnPropertyNames (this : JSValue) (state : State) : Option JSValue × State :=
  unlessException (engine.getOwnPropertyNamesAsArray this state)

/-- `Object::HasOwnProperty`. -/
def Object.hasOwnProperty (this key : JSValue) (state : State) : Option Bool × State :=
  let atom := engine.valueToAtom key state
  let ret := engine.getOwnProperty this atom.1 atom.2
  if ret.1 < 0 then (none, ret.2) else (some (ret.1 != 0), ret.2)

/-- `Object::SetPrototype`. -/
def Object.setPrototype (this prototype : JSValue) (state : State) : Option Bool × State :=
  let ret := engine.setPrototype this prototype state
  if ret.1 < 0 then (some false, ret.2) else (some true, ret.2)

/-- `Value::ToString`; a string answers for itself. -/
def Value.toString (this : JSValue) (state : State) : Option JSValue × State :=
  if this.isString then
    (some this, state)
  else
    let str := engine.toString this state
    (some str.1, str.2)

/-- `Number::Value`: the code `JS_ToFloat64` returns is dropped. -/
def Number.value (this : JSValue) (state : State) : BitVec 64 × State :=
  let ret := engine.toFloat64 this state
  (ret.1.2, ret.2)

/-- `Value::NumberValue`. -/
def Value.numberValue (this : JSValue) (state : State) : Option (BitVec 64) × State :=
  let number := Number.value engine this state
  (some number.1, number.2)

/-- `Map::Get`. -/
def Map.get (this key : JSValue) (state : State) : Option JSValue × State :=
  unlessException (engine.mapGet this key state)

/-- `Map::Set`. -/
def Map.set (this key value : JSValue) (state : State) : Option JSValue × State :=
  unlessException (engine.mapSet this key value state)

/-- `Map::Delete`. -/
def Map.delete (this key : JSValue) (state : State) : Option JSValue × State :=
  unlessException (engine.mapDelete this key state)

/-- One call of the interface, with its arguments but for the receiver. -/
inductive Access
  | set (key value : JSValue)
  | setIndex (index : BitVec 32) (value : JSValue)
  | get (key : JSValue)
  | getIndex (index : BitVec 32)
  | getOwnPropertyNames
  | hasOwnProperty (key : JSValue)
  | setPrototype (prototype : JSValue)
  | toString
  | numberValue
  | mapGet (key : JSValue)
  | mapSet (key value : JSValue)
  | mapDelete (key : JSValue)
  deriving DecidableEq, Repr

/-- `Maybe<bool>`, `MaybeLocal` with the value in the handle, `Maybe<double>`. -/
inductive AccessResult
  | bool (maybe : Option Bool)
  | handle (maybe : Option JSValue)
  | number (maybe : Option (BitVec 64))
  deriving DecidableEq, Repr

namespace AccessResult

/-- `Nothing`, or an empty handle. -/
def isEmpty : AccessResult → Bool
  | .bool maybe => maybe.isNone
  | .handle maybe => maybe.isNone
  | .number maybe => maybe.isNone

/-- `Just(true)`, a handle that is not empty, or a number. -/
def isSuccess : AccessResult → Bool
  | .bool maybe => maybe == some true
  | .handle maybe => maybe.isSome
  | .number maybe => maybe.isSome

end AccessResult

/-- The operation called on a receiver. -/
def Access.perform (this : JSValue) (access : Access) (state : State) : AccessResult × State :=
  match access with
  | .set key value => (Object.set engine this key value state).map .bool id
  | .setIndex index value => (Object.setIndex engine this index value state).map .bool id
  | .get key => (Object.get engine this key state).map .handle id
  | .getIndex index => (Object.getIndex engine this index state).map .handle id
  | .getOwnPropertyNames => (Object.getOwnPropertyNames engine this state).map .handle id
  | .hasOwnProperty key => (Object.hasOwnProperty engine this key state).map .bool id
  | .setPrototype prototype => (Object.setPrototype engine this prototype state).map .bool id
  | .toString => (Value.toString engine this state).map .handle id
  | .numberValue => (Value.numberValue engine this state).map .number id
  | .mapGet key => (Map.get engine this key state).map .handle id
  | .mapSet key value => (Map.set engine this key value state).map .handle id
  | .mapDelete key => (Map.delete engine this key state).map .handle id

end QuickjsBackend
