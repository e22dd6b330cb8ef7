import Rsp.Signing.KeyPair

/-!
# Lifecycle callbacks of the client

`RSPClient::handleLogRecord` on the connect and disconnect events that a resource manager publishes. Boot ids are kept in two maps. One is for name services that the client has registered names with: a connect event with the boot id that is known there needs no new registration, and the handler returns. The other is for the lifecycle callbacks: `onConnected` fires for a boot id that is new, and a disconnect event makes it forget the last one, so that the next connect event fires whatever its boot id.
-/

namespace Rsp

open Proto

/-! ### Events -/

structure NodeConnectedEvent where
  nodeId : Option NodeId := none
  identity : Option Identity := none
deriving DecidableEq, Repr

structure NodeDisconnectedEvent where
  nodeId : Option NodeId := none
deriving DecidableEq, Repr

/-- `ParseFromString` for the two events. -/
structure EventParser where
  connected : Bytes → Option NodeConnectedEvent
  disconnected : Bytes → Option NodeDisconnectedEvent

namespace EventParser

variable (parser : EventParser)

/-- The payload of a log record, if it is of the given type. -/
def payloadOf (typeUrl : Bytes) (m : RSPMessage) : Option Bytes :=
  match m.coreMessage with
  | .logRecord record => (record.payload.filter (·.typeUrl = typeUrl)).map (·.value)
  | _ => none

/-- Node and boot id of a well-formed connect event. -/
def connectedNode (m : RSPMessage) : Option (NodeID × Bytes) := do
  let event ← (payloadOf (ascii "type.rsp/rsp.proto.NodeConnectedEvent") m).bind parser.connected
  let nodeId ← nodeIdFromSourceField (event.nodeId.getD {})
  return (nodeId, ((event.identity.bind (·.bootId)).getD {}).value)

def disconnectedNode (m : RSPMessage) : Option NodeID := do
  let event ← (payloadOf (ascii "type.rsp/rsp.proto.NodeDisconnectedEvent") m).bind parser.disconnected
  nodeIdFromSourceField (event.nodeId.getD {})

end EventParser

/-! ### The client -/

structure RefreshEntry where
  nsNodeId : NodeID
  name : Bytes
  owner : NodeID
  type : GUID
  value : GUID
deriving DecidableEq, Repr

/-- Which of the callbacks are set. -/
structure NodeLifecycleCallbacks where
  onConnected : Bool := true
  onDisconnected : Bool := true
deriving DecidableEq, Repr

/-- A callback that is called. -/
inductive LifecycleCall where
  | nodeConnected (nodeId : NodeID)
  | onConnected (nodeId : NodeID)
  | onDisconnected (nodeId : NodeID)
deriving DecidableEq, Repr

/-- What `refreshMutex_` guards. -/
structure LifecycleState where
  refreshRegistrations : List RefreshEntry := []
  nsBootIds : Std.TreeMap NodeID Bytes := {}
  pendingReregistrations : List NodeID := []
  nodeConnectedCallback : Bool := false
  lifecycleCallbacks : Option NodeLifecycleCallbacks := none
  lifecycleBootIds : Std.TreeMap NodeID Bytes := {}

namespace LifecycleState

def isKnownNS (state : LifecycleState) (nodeId : NodeID) : Bool :=
  state.refreshRegistrations.any fun entry => entry.nsNodeId = nodeId

/-- The client has registered names with the node, which has connected before with this boot id. -/
def isTransportReconnect (state : LifecycleState) (nodeId : NodeID) (newBootId : Bytes) : Bool :=
  state.isKnownNS nodeId && state.nsBootIds[nodeId]? = some newBootId && !newBootId.isEmpty

/-- A first connect event of a node, one without boot id, or one with another boot id than the last. -/
def isNewBoot (state : LifecycleState) (nodeId : NodeID) (newBootId : Bytes) : Bool :=
  state.lifecycleBootIds[nodeId]?.all (fun bootId => bootId ≠ newBootId) || newBootId.isEmpty

def noteNameService (state : LifecycleState) (nodeId : NodeID) (newBootId : Bytes) : LifecycleState :=
  if state.isKnownNS nodeId then
    { state with
      nsBootIds := state.nsBootIds.insert nodeId newBootId
      pendingReregistrations := state.pendingReregistrations.insert nodeId }
  else state

/-- The callback for connecting nodes that are no registered name services. -/
def unknownNodeCalls (state : LifecycleState) (nodeId : NodeID) : List LifecycleCall :=
  if !state.isKnownNS nodeId && state.nodeConnectedCallback then [.nodeConnected nodeId] else []

def handleConnected (state : LifecycleState) (nodeId : NodeID) (newBootId : Bytes) : LifecycleState × List LifecycleCall :=
  if state.isTransportReconnect nodeId newBootId then (state, [])
  else
    let noted := state.noteNameService nodeId newBootId
    if state.lifecycleCallbacks.any (·.onConnected) && state.isNewBoot nodeId newBootId then
      ({ noted with lifecycleBootIds := state.lifecycleBootIds.insert nodeId newBootId }, state.unknownNodeCalls nodeId ++ [.onConnected nodeId])
    else (noted, state.unknownNodeCalls nodeId)

/-- The boot id is forgotten, so that the next connect event fires `onConnected`. -/
def handleDisconnected (state : LifecycleState) (nodeId : NodeID) : LifecycleState × List LifecycleCall :=
  ({ state with lifecycleBootIds := state.lifecycleBootIds.erase nodeId },
    if state.lifecycleCallbacks.any (·.onDisconnected) then [.onDisconnected nodeId] else [])

def handleLogRecord (parser : EventParser) (state : LifecycleState) (m : RSPMessage) : LifecycleState × List LifecycleCall :=
  match parser.connectedNode m with
  | some (nodeId, newBootId) => state.handleConnected nodeId newBootId
  | none =>
    match parser.disconnectedNode m with
    | some nodeId => state.handleDisconnected nodeId
    | none => (state, [])

/-- `created` says whether the create request of the registration has succeeded. -/
def registerNameWithRefresh (state : LifecycleState) (entry : RefreshEntry) (created : Bool) : LifecycleState :=
  { state with
    refreshRegistrations := state.refreshRegistrations ++ [entry]
    pendingReregistrations :=
      if created then state.pendingReregistrations else state.pendingReregistrations.insert entry.nsNodeId }

inductive Step where
  | logRecord (m : RSPMessage)
  | registerName (entry : RefreshEntry) (created : Bool)

def next (parser : EventParser) (state : LifecycleState) : Step → LifecycleState
  | .logRecord m => (state.handleLogRecord parser m).1
  | .registerName entry created => state.registerNameWithRefresh entry created

def run (parser : EventParser) (state : LifecycleState) (steps : List Step) : LifecycleState := steps.foldl (next parser) state

/-! ### What a step keeps -/

variable {parser : EventParser} {state : LifecycleState} {nodeId : NodeID}

theorem noteNameService_lifecycle (other : NodeID) (bootId : Bytes) :
    (state.noteNameService other bootId).lifecycleBootIds = state.lifecycleBootIds ∧
      (state.noteNameService other bootId).lifecycleCallbacks = state.lifecycleCallbacks := by
  unfold noteNameService
  split_ifs
  · exact ⟨rfl, rfl⟩
  · exact ⟨rfl, rfl⟩

theorem handleConnected_callbacks (other : NodeID) (bootId : Bytes) :
    (state.handleConnected other bootId).1.lifecycleCallbacks = state.lifecycleCallbacks := by
  simp only [handleConnected]
  split_ifs
  · rfl
  · exact (noteNameService_lifecycle other bootId).2
  · exact (noteNameService_lifecycle other bootId).2

/-- A connect event enters a boot id for its own node only. -/
theorem handleConnected_bootIds {other : NodeID} (hne : other ≠ nodeId) (bootId : Bytes) :
    (state.handleConnected other bootId).1.lifecycleBootIds[nodeId]? = state.lifecycleBootIds[nodeId]? := by
  simp only [handleConnected]
  split_ifs
  · rfl
  · change (state.lifecycleBootIds.insert other bootId)[nodeId]? = _
    rw [Std.TreeMap.getElem?_insert, if_neg]
    rwa [Std.compare_eq_iff_eq]
  · rw [(noteNameService_lifecycle other bootId).1]

theorem next_callbacks (step : Step) : (state.next parser step).lifecycleCallbacks = state.lifecycleCallbacks := by
  cases step with
  | registerName entry created => rfl
  | logRecord m =>
    simp only [next, handleLogRecord]
    split
    · exact handleConnected_callbacks _ _
    · split
      · rfl
      · rfl

theorem run_callbacks (steps : List Step) : (state.run parser steps).lifecycleCallbacks = state.lifecycleCallbacks := by
  induction steps generalizing state with
  | nil => rfl
  | cons step steps ih =>
    rw [run, List.foldl_cons]
    exact ih.trans (next_callbacks step)

variable (parser nodeId) in
/-- The step handles a well-formed connect event for the node. -/
def connects : Step → Bool
  | .logRecord m => (parser.connectedNode m).any fun event => event.1 = nodeId
  | .registerName _ _ => false

theorem next_forgotten {step : Step} (hstep : connects parser nodeId step = false)
    (h : state.lifecycleBootIds[nodeId]? = none) : (state.next parser step).lifecycleBootIds[nodeId]? = none := by
  cases step with
  | registerName entry created => exact h
  | logRecord m =>
    simp only [next, handleLogRecord]
    split
    · next other bootId hevent =>
      have hne : other ≠ nodeId := by simpa [connects, hevent] using hstep
      rw [handleConnected_bootIds hne]
      exact h
    · split
      · next other _ =>
        change (state.lifecycleBootIds.erase other)[nodeId]? = none
        rw [Std.TreeMap.getElem?_erase, h, ite_self]
      · exact h

/-- Once forgotten, the boot id of a node stays so until its next connect event. -/
theorem run_forgotten {steps : List Step} (hsteps : ∀ step ∈ steps, connects parser nodeId step = false)
    (h : state.lifecycleBootIds[nodeId]? = none) : (state.run parser steps).lifecycleBootIds[nodeId]? = none := by
  induction steps generalizing state with
  | nil => exact h
  | cons step steps ih =>
    rw [run, List.foldl_cons]
    exact ih (fun other hother => hsteps other (List.mem_cons_of_mem _ hother)) (next_forgotten (hsteps step List.mem_cons_self) h)

/-! ### The first connect event after a disconnect event -/

/-- A payload has one type. -/
theorem payloadOf_of_ne {m : RSPMessage} {typeUrl other value : Bytes} (h : EventParser.payloadOf typeUrl m = some value)
    (hne : typeUrl ≠ other) : EventParser.payloadOf other m = none := by
  unfold EventParser.payloadOf at h ⊢
  split at h
  · next record hcore =>
    obtain ⟨payload, hpayload, -⟩ := Option.map_eq_some_iff.mp h
    obtain ⟨hpayload, htype⟩ := Option.filter_eq_some_iff.mp hpayload
    have hother : payload.typeUrl ≠ other := fun heq => hne ((of_decide_eq_true htype).symm.trans heq)
    simp [hpayload, hother]
  · cases h

theorem connectedNode_of_disconnected {m : RSPMessage} (h : parser.disconnectedNode m = some nodeId) :
    parser.connectedNode m = none := by
  obtain ⟨event, hevent, -⟩ := Option.bind_eq_some_iff.mp h
  obtain ⟨value, hvalue, -⟩ := Option.bind_eq_some_iff.mp hevent
  rw [EventParser.connectedNode, payloadOf_of_ne hvalue (by decide)]
  rfl

theorem next_disconnected {m : RSPMessage} (h : parser.disconnectedNode m = some nodeId) :
    (state.next parser (.logRecord m)).lifecycleBootIds[nodeId]? = none := by
  simp only [next, handleLogRecord, connectedNode_of_disconnected h, h]
  change (state.lifecycleBootIds.erase nodeId)[nodeId]? = none
  rw [Std.TreeMap.getElem?_erase_self]

theorem onConnected_mem_iff {bootId : Bytes} (hinstalled : state.lifecycleCallbacks.any (·.onConnected) = true)
    (hforgotten : state.lifecycleBootIds[nodeId]? = none) :
    LifecycleCall.onConnected nodeId ∈ (state.handleConnected nodeId bootId).2 ↔ state.isTransportReconnect nodeId bootId = false := by
  have hnew : state.isNewBoot nodeId bootId = true := by
    rw [isNewBoot, hforgotten]
    rfl
  simp only [handleConnected, hinstalled, hnew]
  cases state.isTransportReconnect nodeId bootId with
  | true => simp
  | false => simp

/-- The first connect event for a node after a disconnect event for it, in any run of a client with the callback installed, fires the callback exactly if it is not taken for a transport reconnect of a registered name service. -/
theorem reconnect_reported_iff (before between : List Step) {disconnect connect : RSPMessage} {bootId : Bytes}
    (hinstalled : state.lifecycleCallbacks.any (·.onConnected) = true)
    (hdisconnect : parser.disconnectedNode disconnect = some nodeId)
    (hbetween : ∀ step ∈ between, connects parser nodeId step = false)
    (hconnect : parser.connectedNode connect = some (nodeId, bootId)) :
    LifecycleCall.onConnected nodeId ∈
        ((state.run parser (before ++ .logRecord disconnect :: between)).handleLogRecord parser connect).2 ↔
      ¬ ((state.run parser (before ++ .logRecord disconnect :: between)).isKnownNS nodeId = true ∧
        (state.run parser (before ++ .logRecord disconnect :: between)).nsBootIds[nodeId]? = some bootId ∧ bootId ≠ []) := by
  have hrun : state.run parser (before ++ .logRecord disconnect :: between) =
      ((state.run parser before).next parser (.logRecord disconnect)).run parser between := by
    rw [run, List.foldl_append, List.foldl_cons]
    rfl
  have hforgotten : (state.run parser (before ++ .logRecord disconnect :: between)).lifecycleBootIds[nodeId]? = none := by
    rw [hrun]
    exact run_forgotten hbetween (next_disconnected hdisconnect)
  have hcallbacks : (state.run parser (before ++ .logRecord disconnect :: between)).lifecycleCallbacks =
      state.lifecycleCallbacks := run_callbacks _
  rw [← hcallbacks] at hinstalled
  rw [handleLogRecord, hconnect]
  refine (onConnected_mem_iff hinstalled hforgotten).trans ?_
  rw [← Bool.not_eq_true, not_iff_not, isTransportReconnect, Bool.and_eq_true, Bool.and_eq_true, decide_eq_true_eq, and_assoc]
  simp

/-! ### A name service that comes back with its boot id -/

/-- Events of one node, with the payload of a connect event as its boot id. -/
def sampleParser : EventParser where
  connected value := some { nodeId := some (toProtoNodeId ⟨0, 5⟩), identity := some { bootId := some ⟨value⟩ } }
  disconnected _ := some { nodeId := some (toProtoNodeId ⟨0, 5⟩) }

def connectRecord (bootId : Bytes) : RSPMessage where
  coreMessage := .logRecord { payload := some ⟨ascii "type.rsp/rsp.proto.NodeConnectedEvent", bootId⟩ }

def disconnectRecord : RSPMessage where
  coreMessage := .logRecord { payload := some ⟨ascii "type.rsp/rsp.proto.NodeDisconnectedEvent", []⟩ }

/-- A client that watches lifecycles. -/
def watching : LifecycleState where
  lifecycleCallbacks := some {}

def sampleEntry : RefreshEntry := ⟨⟨0, 5⟩, ascii "name", ⟨0, 1⟩, ⟨0, 2⟩, ⟨0, 3⟩⟩

theorem connectedNode_connectRecord (bootId : Bytes) :
    sampleParser.connectedNode (connectRecord bootId) = some (⟨0, 5⟩, bootId) := by
  have hpayload : EventParser.payloadOf (ascii "type.rsp/rsp.proto.NodeConnectedEvent") (connectRecord bootId) = some bootId := rfl
  have hid : nodeIdFromSourceField (toProtoNodeId ⟨0, 5⟩) = some ⟨0, 5⟩ := GUID.ofNative_toNative _
  simp [EventParser.connectedNode, hpayload, sampleParser, hid]

theorem disconnectedNode_disconnectRecord : sampleParser.disconnectedNode disconnectRecord = some ⟨0, 5⟩ :=
  GUID.ofNative_toNative _

theorem reconnect_reported_iff_restarted :
    LifecycleCall.onConnected ⟨0, 5⟩ ∈ ((watching.run sampleParser
      [.registerName sampleEntry true, .logRecord (connectRecord [7]), .logRecord disconnectRecord]).handleLogRecord
        sampleParser (connectRecord [8])).2 := by
  have hknown : (watching.run sampleParser
      [.registerName sampleEntry true, .logRecord (connectRecord [7]), .logRecord disconnectRecord]).nsBootIds[(⟨0, 5⟩ : NodeID)]? =
        some [7] := by
    decide +kernel
  refine (reconnect_reported_iff [.registerName sampleEntry true, .logRecord (connectRecord [7])] [] rfl
    disconnectedNode_disconnectRecord (fun _ hstep => nomatch hstep) (connectedNode_connectRecord [8])).mpr ?_
  rintro ⟨-, hbootId, -⟩
  exact absurd (hknown.symm.trans hbootId) (by decide)

/-- The name service has connected and disconnected, and connects again with the same boot id: no callback is called. -/
theorem reconnect_not_reported :
    ((watching.run sampleParser
      [.registerName sampleEntry true, .logRecord (connectRecord [7]), .logRecord disconnectRecord]).handleLogRecord
        sampleParser (connectRecord [7])).2 = [] := by
  decide +kernel

end LifecycleState

end Rsp
