import Rsp.Lib.ReplySlot
import Rsp.Proto.Names
import Rsp.Signing.KeyPair

/-!
# Name and resource calls of a client

The six calls to a name service go through `sendNameRequestImpl`, which keeps one pending flag and one result for all of them; `resourceList` does the same with a flag and a result of its own. Application threads and the refresh thread, which creates and refreshes records, make these calls at any time. The handlers of the replies look neither at the sender nor at the request.
-/

namespace Rsp

open Proto

namespace RSPClient

/-! ### Requests -/

def toProtoUuid (id : GUID) : Uuid := ⟨id.toNative⟩

/-- A request and the node it is sent to. -/
structure Addressed (Body : Type) where
  destination : NodeID
  body : Body
deriving DecidableEq, Repr

def nameCreate (nodeId : NodeID) (name : Bytes) (owner : NodeID) (type value : GUID) : Addressed NameRequest where
  destination := nodeId
  body := .create
    { record := some
        { name := name
          owner := some (toProtoNodeId owner)
          type := some (toProtoUuid type)
          value := some (toProtoUuid value) } }

def nameRead (nodeId : NodeID) (name : Bytes) (owner : Option NodeID) (type : Option GUID) : Addressed NameRequest where
  destination := nodeId
  body := .read { name := name, owner := owner.map toProtoNodeId, type := type.map toProtoUuid }

def nameUpdate (nodeId : NodeID) (name : Bytes) (owner : NodeID) (type newValue : GUID) : Addressed NameRequest where
  destination := nodeId
  body := .update
    { name := name
      owner := some (toProtoNodeId owner)
      type := some (toProtoUuid type)
      newValue := some (toProtoUuid newValue) }

def nameDelete (nodeId : NodeID) (name : Bytes) (owner : NodeID) (type : GUID) : Addressed NameRequest where
  destination := nodeId
  body := .delete { name := name, owner := some (toProtoNodeId owner), type := some (toProtoUuid type) }

/-- An empty name is not sent as a prefix. -/
def nameQuery (nodeId : NodeID) (namePrefix : Bytes) (owner : Option NodeID) (type : Option GUID)
    (maxRecords : UInt32) : Addressed NameRequest where
  destination := nodeId
  body := .query
    { namePrefix := if namePrefix.isEmpty then none else some namePrefix
      owner := owner.map toProtoNodeId
      type := type.map toProtoUuid
      maxRecords := maxRecords }

def nameRefresh (nodeId : NodeID) (name : Bytes) (owner : NodeID) (type : GUID) : Addressed NameRequest where
  destination := nodeId
  body := .refresh { name := name, owner := some (toProtoNodeId owner), type := some (toProtoUuid type) }

def queryResources (nodeId : NodeID) (query : Bytes) (maxRecords : UInt32) : Addressed ResourceQuery where
  destination := nodeId
  body := { query := query, maxRecords := maxRecords }

/-- The calls that share the slot of the names. -/
inductive NameCall
  | create (nodeId : NodeID) (name : Bytes) (owner : NodeID) (type value : GUID)
  | read (nodeId : NodeID) (name : Bytes) (owner : Option NodeID) (type : Option GUID)
  | update (nodeId : NodeID) (name : Bytes) (owner : NodeID) (type newValue : GUID)
  | delete (nodeId : NodeID) (name : Bytes) (owner : NodeID) (type : GUID)
  | query (nodeId : NodeID) (namePrefix : Bytes) (owner : Option NodeID) (type : Option GUID) (maxRecords : UInt32)
  | refresh (nodeId : NodeID) (name : Bytes) (owner : NodeID) (type : GUID)
deriving DecidableEq, Repr

def NameCall.request : NameCall → Addressed NameRequest
  | .create nodeId name owner type value => nameCreate nodeId name owner type value
  | .read nodeId name owner type => nameRead nodeId name owner type
  | .update nodeId name owner type newValue => nameUpdate nodeId name owner type newValue
  | .delete nodeId name owner type => nameDelete nodeId name owner type
  | .query nodeId namePrefix owner type maxRecords => nameQuery nodeId namePrefix owner type maxRecords
  | .refresh nodeId name owner type => nameRefresh nodeId name owner type

/-! ### Results -/

/-- A record as the client sees it; the time is absent when the reply has none. -/
structure NameRecord where
  name : Bytes
  owner : NodeID
  type : GUID
  value : GUID
  expiresAt : Option UInt64 := none
deriving DecidableEq, Repr

/-- The random identifiers of a new `NameRecord`; they stay where a field is absent or has not 16 bytes. -/
structure DrawnRecord where
  owner : NodeID := default
  type : GUID := default
  value : GUID := default
deriving DecidableEq, Repr

def nameRecordFromProto (drawn : DrawnRecord) (record : Proto.NameRecord) : NameRecord where
  name := record.name
  owner := (record.owner.bind (GUID.ofNative ·.value)).getD drawn.owner
  type := (record.type.bind (GUID.ofNative ·.value)).getD drawn.type
  value := (record.value.bind (GUID.ofNative ·.value)).getD drawn.value
  expiresAt := record.expiresAt.map (·.millisecondsSinceEpoch)

structure NameResult where
  status : NameStatus := .success
  message : Bytes := []
  records : List NameRecord := []
deriving DecidableEq, Repr

/-- The records of a reply; `drawn` has the random identifiers of each. -/
def nameRecords (drawn : Nat → DrawnRecord) (records : List Proto.NameRecord) : List NameRecord :=
  records.mapIdx fun index record => nameRecordFromProto (drawn index) record

def nameStatusResult (reply : NameStatusReply) : NameResult where
  status := reply.status
  message := reply.message.getD []

/-- The result that `handleNameServiceReply` builds. -/
def nameResultFromReply (drawn : Nat → DrawnRecord) : NameReply → NameResult
  | .create reply => nameStatusResult reply
  | .read reply => { status := reply.status, records := nameRecords drawn reply.records }
  | .update reply => nameStatusResult reply
  | .delete reply => nameStatusResult reply
  | .query reply => { status := .success, records := nameRecords drawn reply.records }
  | .refresh reply => nameStatusResult reply

structure DiscoveredService where
  nodeId : NodeID
  protoFileName : Bytes := []
  acceptedTypeUrls : List Bytes := []
deriving DecidableEq, Repr

def discoveredServiceFromProto (drawn : NodeID) (service : Proto.DiscoveredService) : DiscoveredService where
  nodeId := (service.nodeId.bind (GUID.ofNative ·.value)).getD drawn
  protoFileName := (service.schema.map (·.protoFileName)).getD []
  acceptedTypeUrls := (service.schema.map (·.acceptedTypeUrls)).getD []

structure ResourceQueryResult where
  success : Bool := false
  services : List DiscoveredService := []
deriving DecidableEq, Repr

def resourceQueryResultFromReply (drawn : Nat → NodeID) (reply : ResourceQueryReply) : ResourceQueryResult where
  success := true
  services := reply.services.mapIdx fun index service => discoveredServiceFromProto (drawn index) service

/-! ### Calls in progress -/

structure Requests where
  names : ReplySlot.Slot (Addressed NameRequest) NameResult := {}
  resources : ReplySlot.Slot (Addressed ResourceQuery) ResourceQueryResult := {}
  pendingResourceQueryReplies : List ResourceQueryResult := []

namespace Requests

/-- `answers` is the number of the request to which the node that it was addressed to has sent this reply; there is none for anything else. -/
def handleNameServiceReply (sys : Requests) (reply : NameReply) (drawn : Nat → DrawnRecord) (answers : Option Nat) :
    Requests :=
  { sys with names := sys.names.receive ⟨nameResultFromReply drawn reply, answers⟩ }

/-- A reply that no `resourceList` waits for is kept for `tryDequeueResourceQueryReply`. -/
def handleResourceQueryReply (sys : Requests) (reply : ResourceQueryReply) (drawn : Nat → NodeID)
    (answers : Option Nat) : Requests :=
  let result := resourceQueryResultFromReply drawn reply
  if sys.resources.pending then
    { sys with resources := sys.resources.receive ⟨result, answers⟩ }
  else
    { sys with pendingResourceQueryReplies := sys.pendingResourceQueryReplies ++ [result] }

inductive Step
  | beginName (call : NameCall)
  | sendName (index : Nat) (taken : Bool)
  | nameReply (reply : NameReply) (drawn : Nat → DrawnRecord) (answers : Option Nat)
  | finishName (index : Nat) (stopping : Bool)
  | beginList (nodeId : NodeID) (query : Bytes) (maxRecords : UInt32)
  | sendList (index : Nat) (taken : Bool)
  | queryReply (reply : ResourceQueryReply) (drawn : Nat → NodeID) (answers : Option Nat)
  | finishList (index : Nat) (stopping : Bool)

def next (sys : Requests) : Step → Option Requests
  | .beginName call => some { sys with names := sys.names.begin call.request }
  | .sendName index taken => (sys.names.send index taken).map fun names => { sys with names := names }
  | .nameReply reply drawn answers => some (sys.handleNameServiceReply reply drawn answers)
  | .finishName index stopping => (sys.names.finish index stopping).map fun names => { sys with names := names }
  | .beginList nodeId query maxRecords =>
    some { sys with resources := sys.resources.begin (queryResources nodeId query maxRecords) }
  | .sendList index taken =>
    (sys.resources.send index taken).map fun resources => { sys with resources := resources }
  | .queryReply reply drawn answers => some (sys.handleResourceQueryReply reply drawn answers)
  | .finishList index stopping =>
    (sys.resources.finish index stopping).map fun resources => { sys with resources := resources }

def machine : Machine Requests Step where
  init sys := sys = {}
  next := next

/-- Every name call and every `resourceList` that has returned a result has returned the one made from the reply to its request. -/
def OwnReplies (sys : Requests) : Prop := sys.names.OwnReplies ∧ sys.resources.OwnReplies

/-- No two name calls and no two `resourceList` overlap, and no late or foreign reply comes while one of them waits. -/
def separate (sys : Requests) : Step → Bool
  | .beginName call => sys.names.separate (.begin call.request)
  | .nameReply reply drawn answers => sys.names.separate (.receive ⟨nameResultFromReply drawn reply, answers⟩)
  | .beginList nodeId query maxRecords => sys.resources.separate (.begin (queryResources nodeId query maxRecords))
  | .queryReply reply drawn answers =>
    sys.resources.separate (.receive ⟨resourceQueryResultFromReply drawn reply, answers⟩)
  | _ => true

def separateMachine : Machine Requests Step := machine.restrict fun sys step => sys.separate step

/-- A step of the client is a step of one of its slots, or of none. -/
theorem next_cases {sys sys' : Requests} {step : Step} (h : sys.next step = some sys') (hseparate : sys.separate step) :
    (∃ slotStep, sys.names.separate slotStep ∧ sys.names.next slotStep = some sys'.names ∧
        sys'.resources = sys.resources) ∨
      (∃ slotStep, sys.resources.separate slotStep ∧ sys.resources.next slotStep = some sys'.resources ∧
        sys'.names = sys.names) ∨
      (sys'.names = sys.names ∧ sys'.resources = sys.resources) := by
  cases step with
  | beginName call =>
    cases h
    exact .inl ⟨.begin call.request, hseparate, rfl, rfl⟩
  | sendName index taken =>
    obtain ⟨names, hnames, rfl⟩ := Option.map_eq_some_iff.mp h
    exact .inl ⟨.send index taken, rfl, hnames, rfl⟩
  | nameReply reply drawn answers =>
    cases h
    exact .inl ⟨.receive ⟨nameResultFromReply drawn reply, answers⟩, hseparate, rfl, rfl⟩
  | finishName index stopping =>
    obtain ⟨names, hnames, rfl⟩ := Option.map_eq_some_iff.mp h
    exact .inl ⟨.finish index stopping, rfl, hnames, rfl⟩
  | beginList nodeId query maxRecords =>
    cases h
    exact .inr (.inl ⟨.begin (queryResources nodeId query maxRecords), hseparate, rfl, rfl⟩)
  | sendList index taken =>
    obtain ⟨resources, hresources, rfl⟩ := Option.map_eq_some_iff.mp h
    exact .inr (.inl ⟨.send index taken, rfl, hresources, rfl⟩)
  | queryReply reply drawn answers =>
    cases h
    rw [handleResourceQueryReply]
    split
    · exact .inr (.inl ⟨.receive ⟨resourceQueryResultFromReply drawn reply, answers⟩, hseparate, rfl, rfl⟩)
    · exact .inr (.inr ⟨rfl, rfl⟩)
  | finishList index stopping =>
    obtain ⟨resources, hresources, rfl⟩ := Option.map_eq_some_iff.mp h
    exact .inr (.inl ⟨.finish index stopping, rfl, hresources, rfl⟩)

theorem separate_of_reaches {sys : Requests} (h : separateMachine.Reaches sys) :
    sys.names.Separate ∧ sys.resources.Separate := by
  refine h.invariant (I := fun sys => sys.names.Separate ∧ sys.resources.Separate) (fun sys hinit => ?_)
    fun sys step sys' hinv hstep => ?_
  · cases hinit
    exact ⟨ReplySlot.Slot.separate_initial, ReplySlot.Slot.separate_initial⟩
  · obtain ⟨hseparate, hnext⟩ := Machine.restrict_next hstep
    rcases next_cases hnext hseparate with ⟨slotStep, hallowed, hslot, hother⟩ | ⟨slotStep, hallowed, hslot, hother⟩ |
      ⟨hnames, hresources⟩
    · exact ⟨hinv.1.next hallowed hslot, hother ▸ hinv.2⟩
    · exact ⟨hother ▸ hinv.1, hinv.2.next hallowed hslot⟩
    · exact ⟨hnames ▸ hinv.1, hresources ▸ hinv.2⟩

/-- Calls that do not overlap and get no reply but their own return their own reply. -/
theorem calls_return_own_reply (sys : Requests) (h : separateMachine.Reaches sys) : sys.OwnReplies :=
  ⟨(separate_of_reaches h).1.own, (separate_of_reaches h).2.own⟩

/-- A record is created and then read. -/
def separateRun : List Step :=
  [.beginName (.create ⟨1, 1⟩ [97] ⟨5, 5⟩ ⟨6, 6⟩ ⟨7, 7⟩), .sendName 0 true, .nameReply (.create {}) (fun _ => {}) (some 0),
    .finishName 0 false, .beginName (.read ⟨1, 1⟩ [97] none none), .sendName 0 true,
    .nameReply (.read {}) (fun _ => {}) (some 1), .finishName 0 false]

theorem calls_return_own_reply_twice :
    ∃ sys : Requests, (sys.names.returned.map fun entry => entry.2.bind (·.answers)) = [some 0, some 1] ∧
      sys.OwnReplies := by
  have hrun : (separateMachine.run {} separateRun).any (fun sys =>
      (sys.names.returned.map fun entry => entry.2.bind (·.answers)) == [some 0, some 1]) = true := by
    decide +kernel
  obtain ⟨sys, hreaches, hsys⟩ := Machine.exists_reaches_of_run rfl hrun
  exact ⟨sys, eq_of_beq hsys, calls_return_own_reply sys hreaches⟩

/-- The refresh thread refreshes a record at one node while the application reads one at another; the reply to the read comes first and the refresh thread takes it. -/
def overlappingRun : List Step :=
  [.beginName (.read ⟨1, 1⟩ [97] none none), .sendName 0 true, .beginName (.refresh ⟨2, 2⟩ [98] ⟨5, 5⟩ ⟨6, 6⟩),
    .sendName 1 true, .nameReply (.read { status := .notFound }) (fun _ => {}) (some 0), .finishName 1 false]

theorem call_returns_foreign_reply : ∃ sys, machine.Reaches sys ∧ ¬ sys.OwnReplies := by
  have hrun : (machine.run {} overlappingRun).any (fun sys =>
      sys.names.returned == [(⟨1, nameRefresh ⟨2, 2⟩ [98] ⟨5, 5⟩ ⟨6, 6⟩, true⟩, some ⟨{ status := .notFound }, some 0⟩)]) =
      true := by
    decide +kernel
  obtain ⟨sys, hreaches, hsys⟩ := Machine.exists_reaches_of_run rfl hrun
  refine ⟨sys, hreaches, fun hown => ?_⟩
  have hanswers := hown.1 ⟨1, nameRefresh ⟨2, 2⟩ [98] ⟨5, 5⟩ ⟨6, 6⟩, true⟩ ⟨{ status := .notFound }, some 0⟩
    (by simp [eq_of_beq hsys])
  cases hanswers

end Requests

end RSPClient

end Rsp
