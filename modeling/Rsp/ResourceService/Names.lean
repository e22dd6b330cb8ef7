import Mathlib.Order.Defs.LinearOrder
import Rsp.Lib.Machine
import Rsp.Proto.Names

/-!
# The name service

`NameService` keeps its records in a map under name, owner and type. Requests are handled one after the other by the worker of the node's input queue; a thread removes expired records every minute, and another one pings the former owner of a name when somebody else creates a record for it, and lets the old record expire if there is no answer.

A step is one critical section. Times are only compared; the clock is read by the step. What is outside of the service is chosen by the step as well: the requests, the times, whether a ping is answered.
-/

namespace Rsp

open Proto

/-- `RecordKey`: name, owner and type, as bytes. -/
structure RecordKey where
  name : Bytes
  owner : Bytes
  type : Bytes
deriving DecidableEq, Repr

namespace RecordKey

/-- The order of `std::tuple`. -/
instance : Ord RecordKey := ⟨compareLex (compareOn name) (compareLex (compareOn owner) (compareOn type))⟩

instance : Std.TransOrd RecordKey :=
  inferInstanceAs (Std.TransCmp (compareLex (compareOn name) (compareLex (compareOn owner) (compareOn type))))

instance : Std.LawfulEqOrd RecordKey where
  eq_of_compare {a b} hcompare := by
    have hparts : (compare a.name b.name).then ((compare a.owner b.owner).then (compare a.type b.type)) = .eq := hcompare
    simp only [Ordering.then_eq_eq, Std.compare_eq_iff_eq] at hparts
    cases a
    cases b
    simp_all

end RecordKey

structure StoredRecord (Time : Type) where
  name : Bytes
  ownerBytes : Bytes
  typeBytes : Bytes
  valueBytes : Bytes
  expiresAt : Time
deriving DecidableEq, Repr

def StoredRecord.key {Time : Type} (stored : StoredRecord Time) : RecordKey :=
  ⟨stored.name, stored.ownerBytes, stored.typeBytes⟩

def expiryMilliseconds (record : NameRecord) : UInt64 := (record.expiresAt.getD {}).millisecondsSinceEpoch

/-- What the service takes from its platform: the times it sets, and `std::sort` by falling expiry, which may put records of equal expiry in any order. -/
structure NamePlatform (Time : Type) where
  /-- `kRecordTtlSeconds` after a time. -/
  expiry : Time → Time
  /-- `DateTime(0.0)`. -/
  past : Time
  milliseconds : Time → UInt64
  sortByExpiresAtDescending : List NameRecord → List NameRecord
  sort_perm : ∀ records, (sortByExpiresAtDescending records).Perm records
  sort_sorted : ∀ records,
    (sortByExpiresAtDescending records).Pairwise fun a b => expiryMilliseconds b ≤ expiryMilliseconds a

/-- The records; each is under its own key. -/
structure NameRecords (Time : Type) where
  map : Std.TreeMap RecordKey (StoredRecord Time)
  keyed : ∀ (key : RecordKey) (stored : StoredRecord Time), map[key]? = some stored → stored.key = key

namespace NameRecords

variable {Time : Type}

def empty : NameRecords Time := ⟨∅, by simp⟩

def find (records : NameRecords Time) (key : RecordKey) : Option (StoredRecord Time) := records.map[key]?

def insert (records : NameRecords Time) (stored : StoredRecord Time) : NameRecords Time where
  map := records.map.insert stored.key stored
  keyed key found h := by
    rw [Std.TreeMap.getElem?_insert] at h
    split at h
    · cases h
      exact Std.LawfulEqCmp.eq_of_compare ‹_›
    · exact records.keyed key found h

/-- A record is changed, but not its key. -/
def modify (records : NameRecords Time) (key : RecordKey) (f : StoredRecord Time → StoredRecord Time)
    (hkey : ∀ stored, (f stored).key = stored.key) : NameRecords Time where
  map := records.map.modify key f
  keyed other found h := by
    rw [Std.TreeMap.getElem?_modify] at h
    split at h
    · rename_i heq
      obtain ⟨stored, hstored, rfl⟩ := Option.map_eq_some_iff.mp h
      rw [hkey, records.keyed key stored hstored]
      exact Std.LawfulEqCmp.eq_of_compare heq
    · exact records.keyed other found h

def setValue (records : NameRecords Time) (key : RecordKey) (valueBytes : Bytes) : NameRecords Time :=
  records.modify key (fun stored => { stored with valueBytes := valueBytes }) fun _ => rfl

def setExpiry (records : NameRecords Time) (key : RecordKey) (expiresAt : Time) : NameRecords Time :=
  records.modify key (fun stored => { stored with expiresAt := expiresAt }) fun _ => rfl

def erase (records : NameRecords Time) (key : RecordKey) : NameRecords Time where
  map := records.map.erase key
  keyed other found h := by
    rw [Std.TreeMap.getElem?_erase] at h
    split at h
    · cases h
    · exact records.keyed other found h

def filter (records : NameRecords Time) (keep : StoredRecord Time → Bool) : NameRecords Time where
  map := records.map.filter fun _ stored => keep stored
  keyed other found h := by
    rw [Std.TreeMap.getElem?_filter'] at h
    exact records.keyed other found (Option.filter_eq_some_iff.mp h).1

/-- The records in the order of their keys. -/
def toList (records : NameRecords Time) : List (StoredRecord Time) := records.map.toList.map Prod.snd

theorem mem_toList {records : NameRecords Time} {stored : StoredRecord Time} :
    stored ∈ records.toList ↔ records.find stored.key = some stored := by
  rw [toList, List.mem_map]
  constructor
  · rintro ⟨⟨key, found⟩, hmem, rfl⟩
    rw [Std.TreeMap.mem_toList_iff_getElem?_eq_some] at hmem
    rw [find, records.keyed key found hmem]
    exact hmem
  · exact fun h => ⟨(stored.key, stored), Std.TreeMap.mem_toList_iff_getElem?_eq_some.mpr h, rfl⟩

variable {records : NameRecords Time} {key other : RecordKey}

theorem find_insert (stored : StoredRecord Time) :
    (records.insert stored).find key = if stored.key = key then some stored else records.find key := by
  change (records.map.insert stored.key stored)[key]? = _
  rw [Std.TreeMap.getElem?_insert]
  simp only [Std.compare_eq_iff_eq]
  rfl

theorem find_modify (f : StoredRecord Time → StoredRecord Time) (hkey : ∀ stored, (f stored).key = stored.key) :
    (records.modify key f hkey).find other = if key = other then (records.find other).map f else records.find other := by
  change (records.map.modify key f)[other]? = _
  rw [Std.TreeMap.getElem?_modify]
  simp only [Std.compare_eq_iff_eq]
  split_ifs with heq
  · rw [heq]
    rfl
  · rfl

theorem find_setValue (key : RecordKey) (valueBytes : Bytes) :
    (records.setValue key valueBytes).find other =
      if key = other then (records.find other).map fun stored => { stored with valueBytes := valueBytes }
      else records.find other :=
  find_modify _ _

theorem find_setExpiry (key : RecordKey) (expiresAt : Time) :
    (records.setExpiry key expiresAt).find other =
      if key = other then (records.find other).map fun stored => { stored with expiresAt := expiresAt }
      else records.find other :=
  find_modify _ _

end NameRecords

/-- A ping check: whose record it is for, and, beside what the code stores, whether the record was refreshed or created again since the check was enqueued. -/
structure PingCheckItem where
  oldRecordKey : RecordKey
  oldOwnerBytes : Bytes
  renewed : Bool := false
deriving DecidableEq, Repr

structure NameService (Time : Type) where
  records : NameRecords Time := .empty
  pingCheckQueue : List PingCheckItem := []
  /-- The check of a create request that has sent its reply but not enqueued the check. -/
  enqueuing : Option PingCheckItem := none
  /-- The check whose ping is under way. -/
  checking : Option PingCheckItem := none

namespace NameService

section

variable {Time : Type}

/-! ### Requests -/

def ownerValue (owner : Option NodeId) : Bytes := (owner.getD {}).value

def uuidValue (id : Option Uuid) : Bytes := (id.getD {}).value

def makeKey (name : Bytes) (owner : Option NodeId) (type : Option Uuid) : RecordKey :=
  ⟨name, ownerValue owner, uuidValue type⟩

def toProto (platform : NamePlatform Time) (stored : StoredRecord Time) : NameRecord where
  name := stored.name
  owner := some ⟨stored.ownerBytes⟩
  type := some ⟨stored.typeBytes⟩
  value := some ⟨stored.valueBytes⟩
  expiresAt := some ⟨platform.milliseconds stored.expiresAt⟩

/-- The record with this key is renewed, as seen by the checks that are enqueued. -/
def PingCheckItem.renew (key : RecordKey) (item : PingCheckItem) : PingCheckItem :=
  { item with renewed := item.renewed || item.oldRecordKey == key }

def renew (sys : NameService Time) (key : RecordKey) : NameService Time :=
  { sys with
    pingCheckQueue := sys.pingCheckQueue.map (PingCheckItem.renew key)
    checking := sys.checking.map (PingCheckItem.renew key) }

/-- The record of the one other owner of a name and type. -/
def otherOwner (sys : NameService Time) (record : NameRecord) : Option PingCheckItem :=
  match sys.records.toList.filter fun stored =>
      stored.name = record.name ∧ stored.typeBytes = uuidValue record.type ∧
        stored.ownerBytes ≠ ownerValue record.owner with
  | [stored] => some ⟨stored.key, stored.ownerBytes, false⟩
  | _ => none

/-- The reply of a request for a record that is not there. -/
def noMatchingRecord : NameStatusReply := { status := .notFound, message := some (utf8 "no matching record") }

/-- With the check that is enqueued after the reply, unless the sender of the request is unknown. -/
def handleCreateRequest (platform : NamePlatform Time) (sys : NameService Time) (now : Time) (sender : Option NodeID)
    (request : NameCreateRequest) : NameService Time × NameStatusReply :=
  let record := request.record.getD {}
  let key := makeKey record.name record.owner record.type
  if (sys.records.find key).isSome then
    (sys, { status := .duplicate, message := some (utf8 "record with (name, owner, type) already exists") })
  else
    let stored : StoredRecord Time :=
      { name := record.name
        ownerBytes := ownerValue record.owner
        typeBytes := uuidValue record.type
        valueBytes := uuidValue record.value
        expiresAt := platform.expiry now }
    ({ sys.renew key with
        records := sys.records.insert stored
        enqueuing := if sender.isSome then sys.otherOwner record else none },
      { status := .success })

def handleUpdateRequest (sys : NameService Time) (request : NameUpdateRequest) : NameService Time × NameStatusReply :=
  let key := makeKey request.name request.owner request.type
  if (sys.records.find key).isSome then
    ({ sys with records := sys.records.setValue key (uuidValue request.newValue) }, { status := .success })
  else
    (sys, noMatchingRecord)

def handleDeleteRequest (sys : NameService Time) (request : NameDeleteRequest) : NameService Time × NameStatusReply :=
  let key := makeKey request.name request.owner request.type
  if (sys.records.find key).isSome then
    ({ sys with records := sys.records.erase key }, { status := .success })
  else
    (sys, noMatchingRecord)

def handleRefreshRequest (platform : NamePlatform Time) (sys : NameService Time) (now : Time)
    (request : NameRefreshRequest) : NameService Time × NameStatusReply :=
  let key := makeKey request.name request.owner request.type
  if (sys.records.find key).isSome then
    ({ sys.renew key with records := sys.records.setExpiry key (platform.expiry now) }, { status := .success })
  else
    (sys, noMatchingRecord)

end

section

variable {Time : Type} [LinearOrder Time]

def readMatches (now : Time) (request : NameReadRequest) (stored : StoredRecord Time) : Bool :=
  stored.name = request.name ∧ request.owner.all (stored.ownerBytes == ·.value) ∧
    request.type.all (stored.typeBytes == ·.value) ∧ now < stored.expiresAt

def handleReadRequest (platform : NamePlatform Time) (sys : NameService Time) (now : Time) (request : NameReadRequest) :
    NameReadReply :=
  let found := sys.records.toList.filter (readMatches now request)
  { status := if found.isEmpty then .notFound else .success
    records := platform.sortByExpiresAtDescending (found.map (toProto platform)) }

def queryMatches (now : Time) (request : NameQueryRequest) (stored : StoredRecord Time) : Bool :=
  request.namePrefix.all (·.isPrefixOf stored.name) ∧ request.owner.all (stored.ownerBytes == ·.value) ∧
    request.type.all (stored.typeBytes == ·.value) ∧ now < stored.expiresAt

/-- The first `maxRecords` records are taken in the order of the keys, and sorted then. -/
def handleQueryRequest (platform : NamePlatform Time) (sys : NameService Time) (now : Time)
    (request : NameQueryRequest) : NameQueryReply :=
  let found := sys.records.toList.filter (queryMatches now request)
  let taken := if request.maxRecords = 0 then found else found.take request.maxRecords.toNat
  { records := platform.sortByExpiresAtDescending (taken.map (toProto platform)) }

def handleRequest (platform : NamePlatform Time) (sys : NameService Time) (now : Time) (sender : Option NodeID) :
    NameRequest → NameService Time × NameReply
  | .create request =>
    let (sys', reply) := sys.handleCreateRequest platform now sender request
    (sys', .create reply)
  | .read request => (sys, .read (sys.handleReadRequest platform now request))
  | .update request =>
    let (sys', reply) := sys.handleUpdateRequest request
    (sys', .update reply)
  | .delete request =>
    let (sys', reply) := sys.handleDeleteRequest request
    (sys', .delete reply)
  | .query request => (sys, .query (sys.handleQueryRequest platform now request))
  | .refresh request =>
    let (sys', reply) := sys.handleRefreshRequest platform now request
    (sys', .refresh reply)

/-! ### Threads -/

def sweep (sys : NameService Time) (now : Time) : NameService Time :=
  { sys with records := sys.records.filter fun stored => !decide (stored.expiresAt < now) }

/-- The handler of a create request enqueues its check. -/
def enqueueCheck (sys : NameService Time) : Option (NameService Time) := do
  let item ← sys.enqueuing
  return { sys with pingCheckQueue := sys.pingCheckQueue ++ [item], enqueuing := none }

def startCheck (sys : NameService Time) : Option (NameService Time) :=
  match sys.checking, sys.pingCheckQueue with
  | none, item :: rest => some { sys with pingCheckQueue := rest, checking := some item }
  | _, _ => none

/-- An owner that is not an identifier is replaced by a drawn one, and no ping is sent to the owner if it is the identifier drawn for the comparison. -/
def ownerAnswers (item : PingCheckItem) (drawnOwner drawn : NodeID) (answered : Bool) : Bool :=
  (GUID.ofNative item.oldOwnerBytes).getD drawnOwner != drawn && answered

def finishCheck (platform : NamePlatform Time) (sys : NameService Time) (drawnOwner drawn : NodeID) (answered : Bool) :
    Option (NameService Time) := do
  let item ← sys.checking
  let sys := { sys with checking := none }
  if ownerAnswers item drawnOwner drawn answered then
    return sys
  else
    return { sys with records := sys.records.setExpiry item.oldRecordKey platform.past }

/-! ### Steps -/

inductive Step (Time : Type)
  | request (now : Time) (sender : Option NodeID) (request : NameRequest)
  | enqueueCheck
  | sweep (now : Time)
  | startCheck
  | finishCheck (drawnOwner drawn : NodeID) (answered : Bool)

/-- The next request is handled when the last one has enqueued its check. -/
def next (platform : NamePlatform Time) (sys : NameService Time) : Step Time → Option (NameService Time)
  | .request now sender request =>
    if sys.enqueuing.isSome then none else some (sys.handleRequest platform now sender request).1
  | .enqueueCheck => sys.enqueueCheck
  | .sweep now => some (sys.sweep now)
  | .startCheck => sys.startCheck
  | .finishCheck drawnOwner drawn answered => sys.finishCheck platform drawnOwner drawn answered

def machine (platform : NamePlatform Time) : Machine (NameService Time) (Step Time) where
  init sys := sys = {}
  next := next platform

end

end NameService

end Rsp
