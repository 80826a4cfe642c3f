import QuickjsBackend.Collection.Key

/-! # The hash table of a map

Records lie in the list of the map, in the order of insertion, and linked into one
bucket of its hash table. A record that iterators still count outlives its deletion
as an empty one. Addresses of freed records are not used again here, so that any
access to one shows as a fault.
-/

namespace QuickjsBackend

open Foundation

/-- Ways in which the code leaves the memory it owns. A link that was taken out of its
list is null. -/
inductive MapFault
  | useAfterFree
  | nullLink
  | assertion
  deriving DecidableEq, Repr

/-- `JSMapRecord`. -/
structure MapRecord where
  refCount : Nat
  empty : Bool
  key : JSValue
  value : JSValue
  deriving DecidableEq

/-- `JSMapState`, the hash table as long as `hash_size` says. `held` counts the
references that the map took to keys and values and has not given back. -/
structure MapState where
  memory : List (Option MapRecord)
  records : List Nat
  hashTable : List (List Nat)
  recordCount : Nat
  recordCountThreshold : Nat
  held : Ptr → Int

namespace MapState

/-- `JS_NewMap`. -/
def new : MapState where
  memory := []
  records := []
  hashTable := [[]]
  recordCount := 0
  recordCountThreshold := 4
  held := 0

variable (store : KeyStore) (s : MapState)

def hashSize : Nat := s.hashTable.length

def peek (id : Nat) : Option MapRecord := s.memory.getD id none

/-- An access to the record at an address. -/
def record (id : Nat) : Except MapFault MapRecord :=
  match s.peek id with
  | some mr => .ok mr
  | none => .error .useAfterFree

def write (id : Nat) (mr : MapRecord) : MapState :=
  { s with memory := s.memory.set id (some mr) }

/-- The map without a record. -/
def without (id : Nat) : MapState :=
  { s with records := s.records.erase id, memory := s.memory.set id none }

/-- `list_del(&mr->link)` and `js_free_rt`. -/
def freeRecord (id : Nat) : Except MapFault MapState :=
  if id ∈ s.records then .ok (s.without id) else .error .nullLink

/-- `list_add_tail(&mr->hash_link, &hash_table[h])`. -/
def linkTail (hashTable : List (List Nat)) (h id : Nat) : List (List Nat) :=
  hashTable.set h (hashTable.getD h [] ++ [id])

/-- The walk over a bucket. -/
def findIn (key : JSValue) : List Nat → Except MapFault (Option Nat)
  | [] => .ok none
  | id :: rest => do
      let mr ← s.record id
      if store.jsSameValueZero mr.key key then return some id else findIn key rest

/-- `map_find_record`. -/
def mapFindRecord (key : JSValue) : Except MapFault (Option Nat) :=
  s.findIn store key (s.hashTable.getD (store.bucket s.hashSize key) [])

/-- The walk of `map_hash_resize` over the records. -/
def relink (size : Nat) :
    List (List Nat) → List Nat → Except MapFault (List (List Nat))
  | hashTable, [] => .ok hashTable
  | hashTable, id :: rest => do
      let mr ← s.record id
      if mr.empty then relink size hashTable rest
      else relink size (linkTail hashTable (store.bucket size mr.key) id) rest

/-- `map_hash_resize`. The allocator refuses, or gives room for some more buckets. -/
def mapHashResize (slack : Option Nat) : Except MapFault MapState :=
  match slack with
  | none => .ok s
  | some extra => do
      let size := (if s.hashSize = 1 then 4 else s.hashSize * 2) + extra
      let hashTable ← s.relink store size (List.replicate size []) s.records
      return { s with hashTable, recordCountThreshold := size * 2 }

/-- `map_add_record` up to the test of the threshold: the new record at the end of the
memory is still without a value. -/
def linkRecord (key : JSValue) : MapState where
  memory := s.memory ++ [some { refCount := 1, empty := false, key, value := .uninitialized }]
  records := s.records ++ [s.memory.length]
  hashTable := linkTail s.hashTable (store.bucket s.hashSize key) s.memory.length
  recordCount := s.recordCount + 1
  recordCountThreshold := s.recordCountThreshold
  held := s.held + key.refs

/-- `map_add_record`, where there is memory for the record. -/
def mapAddRecord (key : JSValue) (slack : Option Nat) : Except MapFault (Nat × MapState) := do
  let linked := s.linkRecord store key
  if linked.recordCountThreshold ≤ linked.recordCount then
    let grown ← linked.mapHashResize store slack
    return (s.memory.length, grown)
  else return (s.memory.length, linked)

/-- `JS_FreeValue(mr->value)`: the record keeps the bits of the value. -/
def releaseValue (id : Nat) : Except MapFault MapState := do
  let mr ← s.record id
  return { s with held := s.held - mr.value.refs }

/-- `mr->value = JS_DupValue(value)`. -/
def storeValue (id : Nat) (value : JSValue) : Except MapFault MapState := do
  let mr ← s.record id
  return { s.write id { mr with value } with held := s.held + value.refs }

/-- `list_del(&mr->hash_link)`. -/
def unlinkHash (id : Nat) : Except MapFault MapState :=
  if ∃ bucket ∈ s.hashTable, id ∈ bucket then
    .ok { s with hashTable := s.hashTable.map (·.erase id) }
  else .error .nullLink

/-- `map_delete_record` of a record that is not empty, up to `JS_FreeValueRT(mr->key)`. -/
def beginDelete (id : Nat) : Except MapFault MapState := do
  let mr ← s.record id
  let s ← s.unlinkHash id
  return { s with held := s.held - mr.key.refs }

/-- The end of `map_delete_record`, from `--mr->ref_count`. -/
def finishDelete (id : Nat) : Except MapFault MapState := do
  let mr ← s.record id
  let s ← if mr.refCount - 1 = 0 then s.freeRecord id
    else pure (s.write id
      { refCount := mr.refCount - 1, empty := true, key := .undefined, value := .undefined })
  return { s with recordCount := s.recordCount - 1 }

/-- `map_delete_record`. -/
def mapDeleteRecord (id : Nat) : Except MapFault MapState := do
  let mr ← s.record id
  if mr.empty then return s
  let s ← s.beginDelete id
  let s ← s.releaseValue id
  s.finishDelete id

/-- `mr->ref_count++`. -/
def lockRecord (id : Nat) : Except MapFault MapState := do
  let mr ← s.record id
  return s.write id { mr with refCount := mr.refCount + 1 }

/-- `map_decref_record`. -/
def mapDecrefRecord (id : Nat) : Except MapFault MapState := do
  let mr ← s.record id
  if mr.refCount - 1 = 0 then
    if mr.empty then s.freeRecord id else .error .assertion
  else return s.write id { mr with refCount := mr.refCount - 1 }

/-- The records that come after one in the list of the map. -/
def following (id : Nat) : List Nat := (s.records.dropWhile (· ≠ id)).tail

end MapState

end QuickjsBackend
