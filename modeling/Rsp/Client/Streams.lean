import Rsp.Lib.Machine
import Rsp.Proto.Streams

/-!
# Streams of a client

`RSPClient` keeps, behind one mutex, the node of every stream, the connects and listens it waits for, the replies that arrived for a stream, the streams a call waits for, and the sockets that stand for a stream (native bridges). Replies come in on one thread, `handleStreamReply`; any number of application threads call `streamSend`, `streamRecvEx`, `streamClose` and `acceptTCPEx`, attach bridges and take results with `tryDequeueStreamResult`.

A step is one critical section or one write to a bridge socket. What is outside of the client is chosen by the step: the replies and their sender, whether `send` takes a request, how many bytes a socket takes, whether a wait is broken off. Replies are numbered as they arrive, so that a result can be told from another one with the same contents.
-/

namespace Rsp

open Proto

/-- What the application gets to see of a reply. A new stream identifier that is not valid is left out. -/
structure StreamResult where
  status : StreamStatus := .streamError
  streamId : GUID
  newStreamId : Option GUID := none
  data : Bytes := []
  message : Bytes := []
  errorCode : Int32 := 0
deriving DecidableEq, Repr

def streamResultFromReply (reply : StreamReply) (fallbackStreamId : GUID) : StreamResult where
  status := reply.error
  streamId := (reply.streamId.bind fromProtoStreamId).getD fallbackStreamId
  newStreamId := reply.newStreamId.bind fromProtoStreamId
  data := reply.data.getD []
  message := reply.message.getD []
  errorCode := reply.streamErrorCode.getD 0

/-- A result and the number of the reply it was made from. -/
structure Received where
  number : Nat
  result : StreamResult
deriving DecidableEq, Repr

/-- The results that `removeBufferedReply` takes for the same one. -/
def Received.matches (result : StreamResult) (other : Received) : Bool :=
  other.result.streamId == result.streamId && other.result.status == result.status

def removeBufferedReply (pendingResults : List Received) (reply : Received) : List Received :=
  pendingResults.eraseP (Received.matches reply.result)

/-! ### Native bridges -/

/-- `NativeStreamBridgeState`, with what its socket has taken and whether the client has closed it. -/
structure NativeStreamBridge where
  written : Bytes := []
  closed : Bool := false
  stopping : Bool := false
  remoteClosed : Bool := false
deriving DecidableEq, Repr, Inhabited

namespace NativeStreamBridge

/-- The bytes of `data` that go through when the socket takes `took` of them; a closed one takes none. -/
def sent (bridge : NativeStreamBridge) (data : Bytes) (took : Nat) : Bytes :=
  if bridge.closed then [] else data.take took

/-- The result of `sendAllToSocket`. -/
def sends (bridge : NativeStreamBridge) (data : Bytes) (took : Nat) : Bool := (bridge.sent data took).length == data.length

/-- `sendAllToSocket`, with what its callers do when it fails. -/
def sendAllToSocket (bridge : NativeStreamBridge) (data : Bytes) (took : Nat) : NativeStreamBridge :=
  { bridge with
    written := bridge.written ++ bridge.sent data took
    closed := bridge.closed || !bridge.sends data took
    stopping := bridge.stopping || !bridge.sends data took }

def markRemoteClosed (bridge : NativeStreamBridge) : NativeStreamBridge :=
  { bridge with remoteClosed := true, stopping := true }

def close (bridge : NativeStreamBridge) : NativeStreamBridge := { bridge with closed := true }

/-- What `handleStreamReply` does after its critical section. -/
def takeReply (reply : StreamReply) (took : Nat) (bridge : NativeStreamBridge) : NativeStreamBridge :=
  match reply.data with
  | some data => if reply.error = .streamData then bridge.sendAllToSocket data took else bridge.close
  | none => bridge.close

end NativeStreamBridge

/-- The bridges that were ever attached, and which stream has which; every one was made for one stream. -/
structure NativeStreamBridges where
  bridges : List NativeStreamBridge
  table : Std.TreeMap GUID Nat
  valid : ∀ (id : GUID) (index : Nat), table[id]? = some index → index < bridges.length
  distinct : ∀ (id other : GUID) (index : Nat), table[id]? = some index → table[other]? = some index → id = other

namespace NativeStreamBridges

def empty : NativeStreamBridges := ⟨[], ∅, by simp, by simp⟩

def find (all : NativeStreamBridges) (id : GUID) : Option Nat := all.table[id]?

/-- The bridge of a stream. -/
def bridgeOf (all : NativeStreamBridges) (id : GUID) : Option NativeStreamBridge :=
  (all.find id).bind fun index => all.bridges[index]?

def update (all : NativeStreamBridges) (index : Nat) (f : NativeStreamBridge → NativeStreamBridge) :
    NativeStreamBridges where
  bridges := all.bridges.modify index f
  table := all.table
  valid id other h := by
    rw [List.length_modify]
    exact all.valid id other h
  distinct := all.distinct

def attach (all : NativeStreamBridges) (id : GUID) : NativeStreamBridges where
  bridges := all.bridges ++ [{}]
  table := all.table.insert id all.bridges.length
  valid other index h := by
    rw [Std.TreeMap.getElem?_insert] at h
    rw [List.length_append, List.length_singleton]
    split at h
    · exact (Option.some.inj h).ge.trans_lt (Nat.lt_succ_self _)
    · exact (all.valid other index h).trans (Nat.lt_succ_self _)
  distinct first second index hfirst hsecond := by
    rw [Std.TreeMap.getElem?_insert] at hfirst hsecond
    -- an old stream cannot have the index of the new bridge
    split at hfirst <;> split at hsecond
    · rename_i h h'
      exact (Std.LawfulEqCmp.eq_of_compare h).symm.trans (Std.LawfulEqCmp.eq_of_compare h')
    · exact absurd (all.valid second index hsecond) (Option.some.inj hfirst).le.not_gt
    · exact absurd (all.valid first index hfirst) (Option.some.inj hsecond).le.not_gt
    · exact all.distinct first second index hfirst hsecond

end NativeStreamBridges

/-! ### The client -/

inductive StreamCallKind
  | send | recv | close | accept
deriving DecidableEq, Repr

/-- A call of `streamSend`, `streamRecvEx`, `streamClose` or `acceptTCPEx` that has found the node of its stream. -/
structure StreamCall where
  kind : StreamCallKind
  streamId : GUID
  destination : NodeID
  sent : Bool := false
deriving DecidableEq, Repr

/-- A call of `attachNativeStreamBridge` after its critical section: its bridge and what it still has to write. -/
structure Attachment where
  bridge : Nat
  bufferedReplies : List Received
deriving DecidableEq, Repr

/-- A call of `handleStreamReply` after its critical section, when the reply is for a bridge. -/
structure BridgeWrite where
  bridge : Nat
  number : Nat
  reply : StreamReply
deriving DecidableEq, Repr

structure ClientStreams where
  streamRoutes : Std.TreeMap GUID NodeID := ∅
  /-- The result is there when the request is completed. -/
  pendingConnects : Std.TreeMap GUID (Option StreamResult) := ∅
  pendingListens : Std.TreeMap GUID (Option StreamResult) := ∅
  streamReplyQueues : Std.TreeMap GUID (List Received) := ∅
  awaitedStreamReplies : Std.TreeSet GUID := ∅
  nativeStreamBridges : NativeStreamBridges := .empty
  pendingStreamResults : List Received := []
  calls : List StreamCall := []
  attaching : List Attachment := []
  /-- The receive thread, while it has a bridge to write to. -/
  writing : Option BridgeWrite := none
  /-- The replies that have arrived; the number of a reply is its place. -/
  received : List StreamReply := []
  /-- The numbers of the replies that a call has taken or a bridge was given. -/
  handed : List Nat := []
  /-- The calls that have returned, with the last reply they took. -/
  returned : List (StreamCall × Option Received) := []

namespace ClientStreams

def completesConnect (status : StreamStatus) : Bool :=
  status ∈ [.success, .connectRefused, .connectTimeout, .streamError, .streamInUse, .invalidFlags]

def completesListen (status : StreamStatus) : Bool :=
  status ∈ [.success, .streamError, .streamInUse, .invalidFlags]

def isDataOrClose (status : StreamStatus) : Bool := status ∈ [.streamData, .streamClosed, .streamError]

/-! ### Replies -/

def updateBridge (sys : ClientStreams) (index : Nat) (f : NativeStreamBridge → NativeStreamBridge) : ClientStreams :=
  { sys with nativeStreamBridges := sys.nativeStreamBridges.update index f }

/-- A reply that names a new stream sets the node of that stream. -/
def noteNewStream (sys : ClientStreams) (sender : Option NodeID) (reply : StreamReply) : ClientStreams :=
  match reply.newStreamId.bind fromProtoStreamId, sender with
  | some newStreamId, some sourceNodeId => { sys with streamRoutes := sys.streamRoutes.insert newStreamId sourceNodeId }
  | _, _ => sys

/-- A reply that no bridge takes is put into the queue of its stream, and unless a call waits for it into the common queue as well. -/
def queueReply (sys : ClientStreams) (id : GUID) (reply : Received) : ClientStreams :=
  let sys' := { sys with
    streamReplyQueues := sys.streamReplyQueues.insert id ((sys.streamReplyQueues[id]?).getD [] ++ [reply]) }
  if sys.awaitedStreamReplies.contains id then
    { sys' with awaitedStreamReplies := sys.awaitedStreamReplies.erase id }
  else
    { sys' with pendingStreamResults := sys.pendingStreamResults ++ [reply] }

/-- The bridge that takes a reply of this stream and status. A close or an error goes to a waiting call first. -/
def bridgeFor (sys : ClientStreams) (id : GUID) (status : StreamStatus) : Option Nat :=
  if isDataOrClose status && (status == .streamData || !sys.awaitedStreamReplies.contains id) then
    sys.nativeStreamBridges.find id
  else
    none

def deliverReply (sys : ClientStreams) (id : GUID) (reply : Received) : ClientStreams × Option Nat :=
  match sys.bridgeFor id reply.result.status with
  | some bridge =>
    if reply.result.status = .streamData then
      (sys, some bridge)
    else
      (sys.updateBridge bridge .markRemoteClosed, some bridge)
  | none => (sys.queueReply id reply, none)

/-- The reply answers a connect or a listen that waits for it. -/
def completesPending (sys : ClientStreams) (id : GUID) (status : StreamStatus) : Bool :=
  (sys.pendingConnects[id]? == some none && completesConnect status) ||
    (sys.pendingListens[id]? == some none && completesListen status)

/-- A completed connect or listen gets its result; a connect goes first. -/
def completePending (sys : ClientStreams) (id : GUID) (result : StreamResult) : ClientStreams :=
  if sys.pendingConnects[id]? == some none && completesConnect result.status then
    { sys with pendingConnects := sys.pendingConnects.insert id (some result) }
  else
    { sys with pendingListens := sys.pendingListens.insert id (some result) }

/-- The critical section of `handleStreamReply`, with the bridge that the reply is for. `drawn` is the identifier of a result without a valid one. -/
def routeReply (sys : ClientStreams) (sender : Option NodeID) (reply : StreamReply) (drawn : GUID) :
    ClientStreams × Option Nat :=
  match reply.streamId.bind fromProtoStreamId with
  | none =>
    let result : Received := ⟨sys.received.length, streamResultFromReply reply drawn⟩
    ({ sys with pendingStreamResults := sys.pendingStreamResults ++ [result] }, none)
  | some id =>
    let result := streamResultFromReply reply id
    if sys.completesPending id reply.error then
      (sys.completePending id result, none)
    else
      (sys.noteNewStream sender reply).deliverReply id ⟨sys.received.length, result⟩

/-- The whole of `handleStreamReply`; the socket of a bridge takes `took` bytes. -/
def handleStreamReply (sys : ClientStreams) (sender : Option NodeID) (reply : StreamReply) (drawn : GUID) (took : Nat) :
    ClientStreams :=
  match sys.routeReply sender reply drawn with
  | (sys', some bridge) => sys'.updateBridge bridge (.takeReply reply took)
  | (sys', none) => sys'

/-! ### Calls -/

/-- The first critical section of a call. -/
def beginCall (sys : ClientStreams) (kind : StreamCallKind) (id : GUID) : ClientStreams :=
  match sys.streamRoutes[id]? with
  | none => sys
  | some destination =>
    { sys with
      awaitedStreamReplies := sys.awaitedStreamReplies.insert id
      calls := sys.calls ++ [⟨kind, id, destination, false⟩] }

/-- The call at `index` returns. -/
def returnCall (sys : ClientStreams) (index : Nat) (call : StreamCall) (reply : Option Received) : ClientStreams :=
  { sys with calls := sys.calls.eraseIdx index, returned := sys.returned ++ [(call, reply)] }

def eraseRoute (sys : ClientStreams) (id : GUID) : ClientStreams :=
  { sys with streamRoutes := sys.streamRoutes.erase id }

/-- What the calls do when `send` has not taken their request. -/
def failCall (sys : ClientStreams) (index : Nat) (call : StreamCall) : ClientStreams :=
  match call.kind with
  | .send | .recv => sys.returnCall index call none
  | .close => (sys.eraseRoute call.streamId).returnCall index call none
  | .accept =>
    { sys with awaitedStreamReplies := sys.awaitedStreamReplies.erase call.streamId }.returnCall index call none

/-- `waitForStreamReply` after the wait; it goes without a reply if the queue has stayed empty or the client is stopping. -/
def waitForStreamReply (sys : ClientStreams) (id : GUID) (stopping : Bool) : ClientStreams × Option Received :=
  let sys' := { sys with awaitedStreamReplies := sys.awaitedStreamReplies.erase id }
  match sys.streamReplyQueues[id]? with
  | some (reply :: rest) =>
    if stopping then
      (sys', none)
    else
      ({ sys' with
        streamReplyQueues :=
          if rest.isEmpty then sys.streamReplyQueues.erase id else sys.streamReplyQueues.insert id rest
        pendingStreamResults := removeBufferedReply sys.pendingStreamResults reply
        handed := sys.handed ++ [reply.number] }, some reply)
  | _ => (sys', none)

/-- What the calls do with the outcome of the wait. `streamClose` goes on waiting after a reply that belongs to something else, until its deadline. -/
def finishCall (sys : ClientStreams) (index : Nat) (call : StreamCall) (reply : Option Received) (again : Bool) :
    ClientStreams :=
  match call.kind, reply with
  | .close, none => (sys.eraseRoute call.streamId).returnCall index call none
  | .close, some taken =>
    if taken.result.status ∈ [.success, .streamClosed] then
      (sys.eraseRoute call.streamId).returnCall index call reply
    else if taken.result.status ∈ [.streamData, .asyncStream, .newConnection] then
      if again then sys else (sys.eraseRoute call.streamId).returnCall index call reply
    else
      sys.returnCall index call reply
  | .accept, some taken =>
    match taken.result.newStreamId with
    | some newStreamId =>
      if taken.result.status ∈ [.success, .newConnection] then
        { sys with streamRoutes := sys.streamRoutes.insert newStreamId call.destination }.returnCall index call reply
      else
        sys.returnCall index call reply
    | none => sys.returnCall index call reply
  | _, _ => sys.returnCall index call reply

def tryDequeueStreamResult (sys : ClientStreams) : ClientStreams :=
  match sys.pendingStreamResults with
  | [] => sys
  | reply :: rest => { sys with pendingStreamResults := rest, handed := sys.handed ++ [reply.number] }

/-- The critical section of `attachNativeStreamBridge`. -/
def attachNativeStreamBridge (sys : ClientStreams) (id : GUID) : ClientStreams :=
  let bufferedReplies := (sys.streamReplyQueues[id]?).getD []
  { sys with
    nativeStreamBridges := sys.nativeStreamBridges.attach id
    streamReplyQueues := sys.streamReplyQueues.erase id
    pendingStreamResults := bufferedReplies.foldl removeBufferedReply sys.pendingStreamResults
    attaching := sys.attaching ++ [⟨sys.nativeStreamBridges.bridges.length, bufferedReplies⟩] }

/-- One round of the loop after it, or its end. -/
def writeBuffered (sys : ClientStreams) (index : Nat) (took : Nat) : Option ClientStreams := do
  let attachment ← sys.attaching[index]?
  let bridge ← sys.nativeStreamBridges.bridges[attachment.bridge]?
  match attachment.bufferedReplies with
  | [] => return { sys with attaching := sys.attaching.eraseIdx index }
  | reply :: rest =>
    let sys := { sys with handed := sys.handed ++ [reply.number] }
    if reply.result.status = .streamData ∧ reply.result.data ≠ [] then
      let sys := sys.updateBridge attachment.bridge fun bridge => bridge.sendAllToSocket reply.result.data took
      if bridge.sends reply.result.data took then
        return { sys with attaching := sys.attaching.set index { attachment with bufferedReplies := rest } }
      else
        return { sys with attaching := sys.attaching.eraseIdx index }
    else
      return { sys.updateBridge attachment.bridge fun bridge => bridge.markRemoteClosed.close with
        attaching := sys.attaching.eraseIdx index }

/-- `connectTCPEx` and `listenTCPEx` register their request. -/
def beginOpen (sys : ClientStreams) (listens : Bool) (id : GUID) : ClientStreams :=
  if listens then
    { sys with pendingListens := sys.pendingListens.insert id none }
  else
    { sys with pendingConnects := sys.pendingConnects.insert id none }

/-- They return, with the result if there is one by then. -/
def finishOpen (sys : ClientStreams) (listens : Bool) (id : GUID) (nodeId : NodeID) : ClientStreams :=
  let result := (if listens then sys.pendingListens[id]? else sys.pendingConnects[id]?).join
  let sys :=
    if listens then
      { sys with pendingListens := sys.pendingListens.erase id }
    else
      { sys with pendingConnects := sys.pendingConnects.erase id }
  if result.any (·.status == .success) then
    { sys with streamRoutes := sys.streamRoutes.insert id nodeId }
  else
    sys

/-! ### Steps -/

inductive Step
  | receive (sender : Option NodeID) (reply : StreamReply) (drawn : GUID)
  | writeBridge (took : Nat)
  | beginOpen (listens : Bool) (id : GUID)
  | finishOpen (listens : Bool) (id : GUID) (nodeId : NodeID)
  | beginCall (kind : StreamCallKind) (id : GUID)
  | send (index : Nat) (taken : Bool)
  | finishCall (index : Nat) (stopping again : Bool)
  | tryDequeue
  | attach (id : GUID)
  | writeBuffered (index took : Nat)
  /-- The worker of a bridge ends and closes the socket. -/
  | endBridge (bridge : Nat)
deriving DecidableEq

/-- The receive thread takes the next reply when it has written the last one. -/
def receive (sys : ClientStreams) (sender : Option NodeID) (reply : StreamReply) (drawn : GUID) : Option ClientStreams :=
  if sys.writing.isSome then
    none
  else
    let (sys', bridge) := sys.routeReply sender reply drawn
    some { sys' with
      received := sys.received ++ [reply]
      writing := bridge.map fun bridge => ⟨bridge, sys.received.length, reply⟩ }

def writeBridge (sys : ClientStreams) (took : Nat) : Option ClientStreams := do
  let write ← sys.writing
  return { sys.updateBridge write.bridge (.takeReply write.reply took) with
    writing := none
    handed := sys.handed ++ [write.number] }

def send (sys : ClientStreams) (index : Nat) (taken : Bool) : Option ClientStreams := do
  let call ← sys.calls[index]?
  if call.sent then
    none
  else if taken then
    return { sys with calls := sys.calls.set index { call with sent := true } }
  else
    return sys.failCall index call

def waitCall (sys : ClientStreams) (index : Nat) (stopping again : Bool) : Option ClientStreams := do
  let call ← sys.calls[index]?
  if call.sent then
    let (sys', reply) := sys.waitForStreamReply call.streamId stopping
    return sys'.finishCall index call reply again
  else
    none

def next (sys : ClientStreams) : Step → Option ClientStreams
  | .receive sender reply drawn => sys.receive sender reply drawn
  | .writeBridge took => sys.writeBridge took
  | .beginOpen listens id => some (sys.beginOpen listens id)
  | .finishOpen listens id nodeId => some (sys.finishOpen listens id nodeId)
  | .beginCall kind id => some (sys.beginCall kind id)
  | .send index taken => sys.send index taken
  | .finishCall index stopping again => sys.waitCall index stopping again
  | .tryDequeue => some sys.tryDequeueStreamResult
  | .attach id => some (sys.attachNativeStreamBridge id)
  | .writeBuffered index took => sys.writeBuffered index took
  | .endBridge bridge => some (sys.updateBridge bridge fun bridge => { bridge with stopping := true }.close)

def machine : Machine ClientStreams Step where
  init sys := sys = {}
  next := next

/-! ### What the critical section of the handler does -/

/-- The four ways a reply can go. -/
inductive Routed (sys : ClientStreams) (sender : Option NodeID) (reply : StreamReply) (drawn : GUID) :
    ClientStreams × Option Nat → Prop
  | unnamed (hid : reply.streamId.bind fromProtoStreamId = none) :
    Routed sys sender reply drawn ({ sys with
      pendingStreamResults := sys.pendingStreamResults ++ [⟨sys.received.length, streamResultFromReply reply drawn⟩] }, none)
  | completes (id : GUID) (hid : reply.streamId.bind fromProtoStreamId = some id)
    (hpending : sys.completesPending id reply.error) :
    Routed sys sender reply drawn (sys.completePending id (streamResultFromReply reply id), none)
  | bridged (id : GUID) (bridge : Nat) (hid : reply.streamId.bind fromProtoStreamId = some id)
    (hpending : ¬ sys.completesPending id reply.error) (hbridge : sys.bridgeFor id reply.error = some bridge) :
    Routed sys sender reply drawn
      (if reply.error = .streamData then sys.noteNewStream sender reply
        else (sys.noteNewStream sender reply).updateBridge bridge .markRemoteClosed, some bridge)
  | queued (id : GUID) (hid : reply.streamId.bind fromProtoStreamId = some id)
    (hpending : ¬ sys.completesPending id reply.error) (hbridge : sys.bridgeFor id reply.error = none) :
    Routed sys sender reply drawn
      ((sys.noteNewStream sender reply).queueReply id ⟨sys.received.length, streamResultFromReply reply id⟩, none)

/-- Only routes change. -/
theorem exists_noteNewStream (sys : ClientStreams) (sender : Option NodeID) (reply : StreamReply) :
    ∃ routes, sys.noteNewStream sender reply = { sys with streamRoutes := routes } := by
  unfold noteNewStream
  split
  · exact ⟨_, rfl⟩
  · exact ⟨sys.streamRoutes, rfl⟩

/-- Only the queues and the mark of the stream change. -/
theorem exists_queueReply (sys : ClientStreams) (id : GUID) (reply : Received) :
    ∃ awaited results, sys.queueReply id reply =
      { sys with
        streamReplyQueues := sys.streamReplyQueues.insert id ((sys.streamReplyQueues[id]?).getD [] ++ [reply])
        awaitedStreamReplies := awaited
        pendingStreamResults := results } := by
  rw [queueReply]
  split
  · exact ⟨_, _, rfl⟩
  · exact ⟨_, _, rfl⟩

theorem bridgeFor_noteNewStream (sys : ClientStreams) (sender : Option NodeID) (reply : StreamReply) (id : GUID)
    (status : StreamStatus) : (sys.noteNewStream sender reply).bridgeFor id status = sys.bridgeFor id status := by
  obtain ⟨routes, hnoted⟩ := sys.exists_noteNewStream sender reply
  rw [hnoted]
  rfl

theorem routed (sys : ClientStreams) (sender : Option NodeID) (reply : StreamReply) (drawn : GUID) :
    Routed sys sender reply drawn (sys.routeReply sender reply drawn) := by
  rw [routeReply]
  cases hid : reply.streamId.bind fromProtoStreamId with
  | none => exact .unnamed hid
  | some id =>
    dsimp only
    split
    · exact .completes id hid ‹_›
    · have hstatus : (streamResultFromReply reply id).status = reply.error := rfl
      rw [deliverReply, bridgeFor_noteNewStream, hstatus]
      cases hbridge : sys.bridgeFor id reply.error with
      | none => exact .queued id hid ‹_› hbridge
      | some bridge =>
        have hbridged : Routed sys sender reply drawn _ := .bridged id bridge hid ‹_› hbridge
        dsimp only
        by_cases hdata : reply.error = .streamData
        · rwa [if_pos hdata] at hbridged ⊢
        · rwa [if_neg hdata] at hbridged ⊢

theorem find_of_bridgeFor {sys : ClientStreams} {id : GUID} {status : StreamStatus} {bridge : Nat}
    (h : sys.bridgeFor id status = some bridge) : sys.nativeStreamBridges.find id = some bridge := by
  rw [bridgeFor] at h
  split at h
  · exact h
  · cases h

/-! ### What the bookkeeping of the calls does -/

/-- Nothing has changed but the routes, the requests that wait and the calls. -/
def CallsOnly (sys sys' : ClientStreams) : Prop :=
  ∃ routes connects listens awaited calls returned, sys' =
    { sys with
      streamRoutes := routes
      pendingConnects := connects
      pendingListens := listens
      awaitedStreamReplies := awaited
      calls := calls
      returned := returned }

theorem CallsOnly.refl (sys : ClientStreams) : CallsOnly sys sys := ⟨_, _, _, _, _, _, rfl⟩

theorem callsOnly_finishCall (sys : ClientStreams) (index : Nat) (call : StreamCall) (reply : Option Received)
    (again : Bool) : CallsOnly sys (sys.finishCall index call reply again) := by
  unfold finishCall
  split
  · exact ⟨_, _, _, _, _, _, rfl⟩
  · split
    · exact ⟨_, _, _, _, _, _, rfl⟩
    · split
      · split
        · exact .refl sys
        · exact ⟨_, _, _, _, _, _, rfl⟩
      · exact ⟨_, _, _, _, _, _, rfl⟩
  · split
    · split <;> exact ⟨_, _, _, _, _, _, rfl⟩
    · exact ⟨_, _, _, _, _, _, rfl⟩
  · exact ⟨_, _, _, _, _, _, rfl⟩

theorem callsOnly_send {sys sys' : ClientStreams} {index : Nat} {taken : Bool} (h : sys.send index taken = some sys') :
    CallsOnly sys sys' := by
  obtain ⟨call, -, h⟩ := Option.bind_eq_some_iff.mp h
  split at h
  · cases h
  · split at h
    · cases h
      exact ⟨_, _, _, _, _, _, rfl⟩
    · cases h
      unfold failCall
      split <;> exact ⟨_, _, _, _, _, _, rfl⟩

theorem callsOnly_beginCall (sys : ClientStreams) (kind : StreamCallKind) (id : GUID) :
    CallsOnly sys (sys.beginCall kind id) := by
  rw [beginCall]
  split
  · exact .refl sys
  · exact ⟨_, _, _, _, _, _, rfl⟩

theorem callsOnly_beginOpen (sys : ClientStreams) (listens : Bool) (id : GUID) :
    CallsOnly sys (sys.beginOpen listens id) := by
  rw [beginOpen]
  split <;> exact ⟨_, _, _, _, _, _, rfl⟩

theorem callsOnly_finishOpen (sys : ClientStreams) (listens : Bool) (id : GUID) (nodeId : NodeID) :
    CallsOnly sys (sys.finishOpen listens id nodeId) := by
  rw [finishOpen]
  split_ifs <;> exact ⟨_, _, _, _, _, _, rfl⟩

/-! ### Sample runs -/

def dataReply (id : GUID) (data : Bytes) : StreamReply where
  streamId := some (toProtoStreamId id)
  error := .streamData
  data := some data

/-- A stream is connected at a node, which answers. -/
def openStream (id : GUID) (nodeId : NodeID) : List Step :=
  [.beginOpen false id, .receive (some nodeId) { streamId := some (toProtoStreamId id) } ⟨0, 0⟩, .finishOpen false id nodeId]

end ClientStreams

end Rsp
