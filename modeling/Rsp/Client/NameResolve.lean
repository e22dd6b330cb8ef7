import Rsp.Client.NameCalls
import Rsp.ResourceService.NameLiveness

/-!
# Resolving a name

`nameResolve` asks the name service with a query and pings the owners of the records it gets, in their order, until one answers. The query takes the name as a prefix, so that the records of longer names come back as well.
-/

namespace Rsp

open Proto

namespace RSPClient

/-- The loop of `nameResolve`: `answered` says which of the pings are answered. -/
def pingOwners (answered : Nat → Bool) : (index : Nat) → List NameRecord → Option NodeID
  | _, [] => none
  | index, record :: rest => if answered index then some record.owner else pingOwners answered (index + 1) rest

/-- `nameResolve`, with the result of its query. -/
def nameResolve (result : Option NameResult) (answered : Nat → Bool) : Option NodeID :=
  match result with
  | none => none
  | some result => pingOwners answered 0 result.records

theorem exists_of_pingOwners {answered : Nat → Bool} {index : Nat} {records : List NameRecord} {node : NodeID}
    (h : pingOwners answered index records = some node) :
    ∃ (place : Nat) (record : NameRecord), records[place]? = some record ∧ record.owner = node := by
  induction records generalizing index with
  | nil => cases h
  | cons record rest ih =>
    rw [pingOwners] at h
    split at h
    · exact ⟨0, record, rfl, Option.some.inj h⟩
    · obtain ⟨place, found, hfound, howner⟩ := ih h
      exact ⟨place + 1, found, hfound, howner⟩

/-- If only one ping is answered, the owner of that record is returned. -/
theorem pingOwners_of_one {index place : Nat} {records : List NameRecord} :
    pingOwners (· == index + place) index records = (records[place]?).map (·.owner) := by
  induction records generalizing index place with
  | nil => rfl
  | cons record rest ih =>
    rw [pingOwners]
    cases place with
    | zero => simp
    | succ place =>
      have hne : (index == index + (place + 1)) = false := by simp
      have hshift : index + (place + 1) = index + 1 + place := by omega
      rw [hne, hshift, ih]
      simp

section

variable {Time : Type} [LinearOrder Time]

/-- The result of the query that `nameResolve` makes, when the service answers it in this state at this time. -/
def queryForName (platform : NamePlatform Time) (sys : NameService Time) (now : Time) (nsNodeId : NodeID) (name : Bytes)
    (type : Option GUID) (sender : Option NodeID) (drawn : Nat → DrawnRecord) : NameResult :=
  nameResultFromReply drawn (sys.handleRequest platform now sender (nameQuery nsNodeId name none type 0).body).2

/-- The type of a record is the wanted one, if one is wanted. -/
def HasType (type : Option GUID) (stored : StoredRecord Time) : Prop :=
  ∀ wanted ∈ type, stored.typeBytes = (toProtoUuid wanted).value

/-- A live record of exactly this name and type belongs to the node. -/
def Resolves (sys : NameService Time) (now : Time) (name : Bytes) (type : Option GUID) (node : NodeID) : Prop :=
  ∃ stored ∈ sys.records.toList, stored.name = name ∧ HasType type stored ∧
    GUID.ofNative stored.ownerBytes = some node ∧ now < stored.expiresAt

variable {platform : NamePlatform Time} {sys : NameService Time} {now : Time} {nsNodeId : NodeID} {name : Bytes}
  {type : Option GUID} {sender : Option NodeID}

/-- The records that the query finds. -/
def Found (sys : NameService Time) (now : Time) (name : Bytes) (type : Option GUID) (stored : StoredRecord Time) : Prop :=
  stored ∈ sys.records.toList ∧ name <+: stored.name ∧ HasType type stored ∧ now < stored.expiresAt

/-- The request of `nameResolve`. -/
def resolveRequest (name : Bytes) (type : Option GUID) : NameQueryRequest where
  namePrefix := if name.isEmpty then none else some name
  type := type.map toProtoUuid

theorem queryMatches_resolveRequest {stored : StoredRecord Time} :
    NameService.queryMatches now (resolveRequest name type) stored ↔
      name <+: stored.name ∧ HasType type stored ∧ now < stored.expiresAt := by
  cases name <;> cases type <;> simp [NameService.queryMatches, resolveRequest, HasType]

/-- The records of the result are those of the service in some order. -/
theorem mem_queried_iff {record : Proto.NameRecord} :
    record ∈ (sys.handleQueryRequest platform now (resolveRequest name type)).records ↔
      ∃ stored, Found sys now name type stored ∧ NameService.toProto platform stored = record := by
  have hmax : (resolveRequest name type).maxRecords = 0 := rfl
  rw [NameService.handleQueryRequest]
  simp only [if_pos hmax]
  rw [(platform.sort_perm _).mem_iff, List.mem_map]
  simp only [List.mem_filter, queryMatches_resolveRequest, Found]

omit [LinearOrder Time] in
theorem owner_of_toProto (drawn : DrawnRecord) (stored : StoredRecord Time) :
    (nameRecordFromProto drawn (NameService.toProto platform stored)).owner =
      (GUID.ofNative stored.ownerBytes).getD drawn.owner := rfl

theorem getElem?_queryForName {drawn : Nat → DrawnRecord} {place : Nat} :
    (queryForName platform sys now nsNodeId name type sender drawn).records[place]? =
      ((sys.handleQueryRequest platform now (resolveRequest name type)).records[place]?).map
        (nameRecordFromProto (drawn place)) := by
  change (nameRecords drawn (sys.handleQueryRequest platform now (resolveRequest name type)).records)[place]? = _
  rw [nameRecords, List.getElem?_mapIdx]

/-- Whatever the pings are, the resolved node has a live record of exactly the name and type: this holds if and only if it does for the owner of every live record that the name is a prefix of. -/
theorem resolves_exactly_iff (platform : NamePlatform Time) (sys : NameService Time) (now : Time) (nsNodeId : NodeID)
    (name : Bytes) (type : Option GUID) (sender : Option NodeID) :
    (∀ (drawn : Nat → DrawnRecord) (answered : Nat → Bool) (node : NodeID),
        nameResolve (some (queryForName platform sys now nsNodeId name type sender drawn)) answered = some node →
          Resolves sys now name type node) ↔
      ∀ stored, Found sys now name type stored →
        ∀ drawnOwner, Resolves sys now name type ((GUID.ofNative stored.ownerBytes).getD drawnOwner) := by
  constructor
  · intro h stored hfound drawnOwner
    have hmem : NameService.toProto platform stored ∈
        (sys.handleQueryRequest platform now (resolveRequest name type)).records := mem_queried_iff.mpr ⟨stored, hfound, rfl⟩
    obtain ⟨place, hplace⟩ := List.mem_iff_getElem?.mp hmem
    refine h (fun _ => { owner := drawnOwner }) (· == 0 + place) _ ?_
    rw [nameResolve, pingOwners_of_one, getElem?_queryForName, hplace]
    rfl
  · intro h drawn answered node hnode
    obtain ⟨place, record, hrecord, rfl⟩ := exists_of_pingOwners hnode
    rw [getElem?_queryForName] at hrecord
    obtain ⟨found, hplace, rfl⟩ := Option.map_eq_some_iff.mp hrecord
    obtain ⟨stored, hfound, rfl⟩ := mem_queried_iff.mp (List.mem_of_getElem? hplace)
    rw [owner_of_toProto]
    exact h stored hfound _

end

/-- The record of the name `ab` at node 1. -/
def longerKey : RecordKey := ⟨[97, 98], (⟨1, 1⟩ : NodeID).toNative, [2]⟩

/-- A record of the name `ab` is found for the name `a`. -/
theorem longer_name_resolved :
    ∃ sys : NameService Nat, (NameService.machine NameService.secondsPlatform).Reaches sys ∧
      nameResolve (some (queryForName NameService.secondsPlatform sys 1 ⟨9, 9⟩ [97] none none fun _ => {}))
        (fun _ => true) = some ⟨1, 1⟩ ∧
      ¬ Resolves sys 1 [97] none ⟨1, 1⟩ := by
  have hrun : ((NameService.machine NameService.secondsPlatform).run {}
      [.request 0 none (.create (NameService.createOf longerKey none))]).any (fun sys =>
        nameResolve (some (queryForName NameService.secondsPlatform sys 1 ⟨9, 9⟩ [97] none none fun _ => {}))
            (fun _ => true) == some ⟨1, 1⟩ &&
          sys.records.toList.all (·.name != [97])) = true := by
    decide +kernel
  obtain ⟨sys, hreaches, hsys⟩ := Machine.exists_reaches_of_run rfl hrun
  obtain ⟨hresolved, hnames⟩ := Bool.and_eq_true_iff.mp hsys
  refine ⟨sys, hreaches, eq_of_beq hresolved, ?_⟩
  rintro ⟨stored, hmem, hname, -, -, -⟩
  have hother := List.all_eq_true.mp hnames stored hmem
  simp [hname] at hother

end RSPClient

end Rsp
