import Rsp.Lib.Counting
import Rsp.Lib.Machine
import Rsp.Proto.Streams
import Rsp.Signing.KeyPair

/-!
# The socket service

`BsdSocketsResourceService` keeps two tables, of connected and of listening sockets, behind one mutex. Three kinds of threads work on them: eight workers of the connect queue, the one worker of the node's input queue for all other requests, and one accept thread for every listening socket.

A step is one critical section or the return of one blocking call, together with the local code around it. What is outside of the service is chosen by the step: the requests, whether a connection is made or a port is bound, which identifier is drawn, whether `send` takes a reply. The threads that read asynchronous sockets leave the tables alone and are not part of the model.
-/

namespace Rsp

open Proto

namespace BsdSockets

/-- A connection handle. -/
abbrev Connection := Nat

/-- The fields of `ManagedSocketState` that do not change once the socket is registered. -/
structure ManagedSocketState where
  connection : Connection
  requesterNodeId : NodeId
  socketId : GUID
  remoteEndpoint : Bytes := []
  asyncData : Bool := false
  shareSocket : Bool := false
  traceEnabled : Bool := false
deriving DecidableEq, Repr

structure ManagedListenerState where
  requesterNodeId : NodeId
  socketId : GUID
  bindEndpoint : Bytes
  asyncAccept : Bool
  shareListeningSocket : Bool
  shareChildSockets : Bool
  childrenAsyncData : Bool
  traceEnabled : Bool
  /-- Whether the transport listens. -/
  listening : Bool := false
  stopping : Bool := false
  acceptedConnections : List Connection := []
deriving DecidableEq, Repr

/-! ### Requests and replies -/

inductive StreamRequest where
  | connect (request : ConnectTCPRequest)
  | listen (request : ListenTCPRequest)
  | accept (request : AcceptTCP)
  | send (request : StreamSend)
  | recv (request : StreamRecv)
  | close (request : StreamClose)
deriving DecidableEq, Repr

/-- What the handlers read of a message: its sender, its trace flag and the unpacked request. -/
structure Request where
  sender : Option NodeID
  trace : Option Bool := none
  body : StreamRequest
deriving DecidableEq, Repr

def Request.traceEnabled (request : Request) : Bool := request.trace.getD false

/-- The identifier of a field that may be absent; an absent field reads as an empty one. -/
def streamIdField (id : Option StreamID) : Option GUID := fromProtoStreamId (id.getD {})

/-- The part of an outgoing message that the service sets. -/
structure Reply where
  destination : Option NodeId := none
  trace : Option Bool := none
  streamReply : Option StreamReply := none
deriving DecidableEq, Repr

/-- The overload of `makeStreamReplyMessage` with an explicit destination. -/
def makeStreamReplyTo (destination : NodeId) (status : StreamStatus) (errorMessage : String) (socketId : Option GUID)
    (traceEnabled : Bool) : Reply where
  destination := some destination
  trace := if traceEnabled then some true else none
  streamReply := some
    { streamId := socketId.map toProtoStreamId
      error := status
      message := if errorMessage.isEmpty then none else some (ascii errorMessage)
      newStreamId := socketId.map toProtoStreamId }

/-- The identifier a reply takes from the request when the handler gives none. -/
def StreamRequest.derivedSocketId : StreamRequest → Option GUID
  | .connect request => request.streamId.bind fromProtoStreamId
  | .listen request => request.streamId.bind fromProtoStreamId
  | .accept request => streamIdField request.listenStreamId
  | .send request => streamIdField request.streamId
  | .recv request => streamIdField request.streamId
  | .close request => streamIdField request.streamId

/-- `makeStreamReplyMessage`: a message without a sender is answered by an empty message. -/
def makeStreamReplyMessage (request : Request) (status : StreamStatus) (errorMessage : String)
    (socketId : Option GUID) : Reply :=
  match request.sender with
  | none => {}
  | some sender =>
    { makeStreamReplyTo (toProtoNodeId sender) status errorMessage (socketId <|> request.body.derivedSocketId) false with
      trace := request.trace }

/-- A reply that also names a new stream. -/
def Reply.withNewStream (reply : Reply) (id : GUID) : Reply :=
  { reply with streamReply := some { reply.streamReply.getD {} with newStreamId := some (toProtoStreamId id) } }

/-! ### The state -/

/-- What the service has done to the world: replies with the result of `send`, and calls on connections. -/
inductive Effect where
  | reply (reply : Reply) (sent : Bool)
  | write (connection : Connection) (data : Bytes) (ok : Bool)
  | read (connection : Connection)
  | close (connection : Connection)
deriving DecidableEq, Repr

/-- Where a worker of the connect queue is. -/
inductive ConnectCall where
  | connecting (request : Request) (body : ConnectTCPRequest) (requester : NodeID) (socketId : GUID)
  /-- The connection is made; the socket is registered next. -/
  | registering (request : Request) (socket : ManagedSocketState)
  | acknowledging (request : Request) (socket : ManagedSocketState)
deriving DecidableEq, Repr

/-- Where the worker of the input queue is. A listener is named by its number. -/
inductive HandlerCall where
  /-- The identifier was free; the port is bound next. -/
  | listenOpening (request : Request) (listener : ManagedListenerState)
  | listenRegistering (request : Request) (listener : Nat) (socketId : GUID)
  | listenAcknowledging (request : Request) (listener : Nat) (socketId : GUID)
  | accepting (request : Request) (body : AcceptTCP) (listenSocketId : GUID) (listener : Nat)
  | acceptRegistering (request : Request) (listenSocketId : GUID) (socket : ManagedSocketState)
  | acceptAcknowledging (request : Request) (listenSocketId : GUID) (socket : ManagedSocketState)
  | sending (request : Request) (socket : ManagedSocketState) (data : Bytes)
  | receiving (request : Request) (socket : ManagedSocketState) (maxBytes : Nat)
  /-- The listener is out of its table; its owner is checked next. -/
  | closingListener (request : Request) (socketId : GUID) (listener : Nat)
  /-- There was no listener with the identifier. -/
  | closeFinding (request : Request) (socketId : GUID)
  | closingSocket (request : Request) (socketId : GUID) (socket : ManagedSocketState)
deriving DecidableEq, Repr

/-- A connection in `handleAcceptedConnection` of an asynchronous listener. -/
inductive AcceptCallback where
  | registering (listener : Nat) (connection : Connection)
  | acknowledging (listener : Nat) (socket : ManagedSocketState)
deriving DecidableEq, Repr

def AcceptCallback.listener : AcceptCallback → Nat
  | .registering listener _ | .acknowledging listener _ => listener

end BsdSockets

open BsdSockets

structure BsdSockets where
  managedSockets : Std.TreeMap GUID ManagedSocketState := {}
  /-- The listeners are shared with their accept threads: the table holds their numbers. -/
  managedListeningSockets : Std.TreeMap GUID Nat := {}
  listeners : List ManagedListenerState := []
  connects : List ConnectCall := []
  handler : Option HandlerCall := none
  callbacks : List AcceptCallback := []
  nextConnection : Connection := 0
  effects : List Effect := []

namespace BsdSockets

def connectWorkers : Nat := 8

variable (sys : BsdSockets)

def emit (effects : List Effect) : BsdSockets := { sys with effects := sys.effects ++ effects }

/-- The handler answers its request and returns. -/
def answer (request : Request) (status : StreamStatus) (errorMessage : String) (socketId : Option GUID) (sent : Bool) :
    BsdSockets :=
  { sys.emit [.reply (makeStreamReplyMessage request status errorMessage socketId) sent] with handler := none }

def isInUse (id : GUID) : Bool := sys.managedSockets.contains id || sys.managedListeningSockets.contains id

def validateAccess (request : Request) (shared : Bool) (owner : NodeId) : Bool :=
  shared || request.sender.any fun sender => toProtoNodeId sender = owner

def validateSocketAccess (request : Request) (socket : ManagedSocketState) : Bool :=
  validateAccess request socket.shareSocket socket.requesterNodeId

def validateListeningSocketAccess (request : Request) (listener : ManagedListenerState) : Bool :=
  validateAccess request listener.shareListeningSocket listener.requesterNodeId

/-- Closes the connection of a socket; its reading thread is not part of the model. -/
def stopManagedSocket (socket : ManagedSocketState) : BsdSockets := sys.emit [.close socket.connection]

/-- No connection of the listener is being handled by its accept thread. -/
def acceptThreadIdle (listener : Nat) : Bool := sys.callbacks.all fun callback => callback.listener != listener

/-- Stopping the transport joins the accept thread, and so it waits until that thread is idle. -/
def stopManagedListener (index : Nat) (listener : ManagedListenerState) : Option BsdSockets :=
  if sys.acceptThreadIdle index then
    some { sys.emit (listener.acceptedConnections.map .close) with
      listeners := sys.listeners.set index
        { listener with stopping := true, listening := false, acceptedConnections := [] } }
  else none

theorem eq_of_stopManagedListener {sys sys' : BsdSockets} {index : Nat} {listener : ManagedListenerState}
    (h : sys.stopManagedListener index listener = some sys') :
    sys' = { sys.emit (listener.acceptedConnections.map .close) with
      listeners := sys.listeners.set index
        { listener with stopping := true, listening := false, acceptedConnections := [] } } := by
  simp only [stopManagedListener] at h
  split_ifs at h
  exact (Option.some.inj h).symm

/-! ### ConnectTCP -/

/-- The checks of a connect request: the identifier, or the answer that refuses it. -/
def checkConnect (body : ConnectTCPRequest) : Except (StreamStatus × String × Option GUID) GUID := do
  let some streamId := body.streamId | throw (.invalidFlags, "socket_number is required", none)
  let some socketId := fromProtoStreamId streamId | throw (.invalidFlags, "invalid socket_number", none)
  if body.hostPort.isEmpty then throw (.streamError, "host_port is required", some socketId)
  if body.shareSocket.getD false then
    if body.asyncData.getD false then
      throw (.invalidFlags, "share_socket cannot be combined with async_data", some socketId)
    if body.useSocket.getD false then
      throw (.invalidFlags, "share_socket cannot be combined with use_socket", some socketId)
  return socketId

/-- A worker takes a request from the queue. -/
def startConnect (request : Request) (sent : Bool) : Option BsdSockets :=
  match request.body with
  | .connect body =>
    if sys.connects.length < connectWorkers then
      match request.sender with
      | none => some sys
      | some requester =>
        match checkConnect body with
        | .error (status, errorMessage, socketId) =>
          some (sys.emit [.reply (makeStreamReplyMessage request status errorMessage socketId) sent])
        | .ok socketId =>
          some { sys with connects := sys.connects ++ [.connecting request body requester socketId] }
    else none
  | _ => none

/-- `createTCPConnection` returns. -/
def finishConnect (worker : Nat) (connected sent : Bool) : Option BsdSockets :=
  match sys.connects[worker]? with
  | some (.connecting request body requester socketId) =>
    if connected then
      let socket : ManagedSocketState :=
        { connection := sys.nextConnection, requesterNodeId := toProtoNodeId requester, socketId,
          remoteEndpoint := body.hostPort, asyncData := body.asyncData.getD false,
          shareSocket := body.shareSocket.getD false, traceEnabled := request.traceEnabled }
      some { sys with
        connects := sys.connects.set worker (.registering request socket), nextConnection := sys.nextConnection + 1 }
    else
      let reply := makeStreamReplyMessage request .connectRefused "tcp connect failed" (some socketId)
      some { sys.emit [.reply reply sent] with connects := sys.connects.eraseIdx worker }
  | _ => none

/-- The first critical section of `registerConnectedSocket`. There is no look at either table. -/
def registerConnect (worker : Nat) : Option BsdSockets :=
  match sys.connects[worker]? with
  | some (.registering request socket) =>
    some { sys with
      managedSockets := sys.managedSockets.insertIfNew socket.socketId socket
      connects := sys.connects.set worker (.acknowledging request socket) }
  | _ => none

def acknowledgeConnect (worker : Nat) (sent : Bool) : Option BsdSockets :=
  match sys.connects[worker]? with
  | some (.acknowledging request socket) =>
    let replied := { sys.emit [.reply (makeStreamReplyMessage request .success "" (some socket.socketId)) sent] with
      connects := sys.connects.eraseIdx worker }
    if sent then some replied
    else some { replied.stopManagedSocket socket with managedSockets := sys.managedSockets.erase socket.socketId }
  | _ => none

/-! ### ListenTCP -/

def checkListen (body : ListenTCPRequest) : Except (StreamStatus × String × Option GUID) GUID := do
  let some streamId := body.streamId | throw (.invalidFlags, "socket_number is required", none)
  let some socketId := fromProtoStreamId streamId | throw (.invalidFlags, "invalid socket_number", none)
  if body.hostPort.isEmpty then throw (.streamError, "host_port is required", some socketId)
  unless body.asyncAccept.getD false do
    if body.shareChildSockets.getD false then
      throw (.invalidFlags, "share_child_sockets requires async_accept", some socketId)
    if body.childrenUseSocket.getD false then
      throw (.invalidFlags, "children_use_socket requires async_accept", some socketId)
    if body.childrenAsyncData.getD false then
      throw (.invalidFlags, "children_async_data requires async_accept", some socketId)
  return socketId

/-- Up to the check that the identifier is free. -/
def startListen (request : Request) (body : ListenTCPRequest) (sent : Bool) : BsdSockets :=
  match request.sender with
  | none => sys
  | some requester =>
    match checkListen body with
    | .error (status, errorMessage, socketId) => sys.answer request status errorMessage socketId sent
    | .ok socketId =>
      if sys.isInUse socketId then
        sys.answer request .streamInUse "socket id already exists" (some socketId) sent
      else
        { sys with
          handler := some (.listenOpening request
            { requesterNodeId := toProtoNodeId requester, socketId, bindEndpoint := body.hostPort,
              asyncAccept := body.asyncAccept.getD false,
              shareListeningSocket := body.shareListeningSocket.getD false,
              shareChildSockets := body.shareChildSockets.getD false,
              childrenAsyncData := body.childrenAsyncData.getD false, traceEnabled := request.traceEnabled }) }

/-- `TcpTransport::listen` returns; from now on connections are accepted. -/
def openListener (opened sent : Bool) : Option BsdSockets :=
  match sys.handler with
  | some (.listenOpening request listener) =>
    if opened then
      some { sys with
        listeners := sys.listeners ++ [{ listener with listening := true }]
        handler := some (.listenRegistering request sys.listeners.length listener.socketId) }
    else some (sys.answer request .streamError "tcp listen failed" (some listener.socketId) sent)
  | _ => none

def registerListener : Option BsdSockets :=
  match sys.handler with
  | some (.listenRegistering request index socketId) =>
    some { sys with
      managedListeningSockets := sys.managedListeningSockets.insertIfNew socketId index
      handler := some (.listenAcknowledging request index socketId) }
  | _ => none

def acknowledgeListener (sent : Bool) : Option BsdSockets :=
  match sys.handler with
  | some (.listenAcknowledging request index socketId) =>
    let replied := sys.answer request .success "" (some socketId) sent
    if sent then some replied
    else
      (sys.listeners[index]?).bind fun listener =>
        { replied with managedListeningSockets := sys.managedListeningSockets.erase socketId }.stopManagedListener index
          listener
  | _ => none

/-! ### AcceptTCP -/

/-- Up to the checks of the listener. -/
def startAccept (request : Request) (body : AcceptTCP) (sent : Bool) : Option BsdSockets :=
  match streamIdField body.listenStreamId with
  | none => some (sys.answer request .streamError "invalid listen socket id" none sent)
  | some listenSocketId =>
    match sys.managedListeningSockets[listenSocketId]? with
    | none => some (sys.answer request .streamClosed "listen socket not found" (some listenSocketId) sent)
    | some index =>
      (sys.listeners[index]?).map fun listener =>
        if ¬ validateListeningSocketAccess request listener then
          sys.answer request .nodeIdMismatch "listen socket is owned by a different node id" (some listenSocketId) sent
        else if listener.asyncAccept then
          sys.answer request .asyncStream "accept_tcp is ignored when async_accept is enabled" (some listenSocketId) sent
        else { sys with handler := some (.accepting request body listenSocketId index) }

/-- The wait for a connection, and taking it. Without a new identifier in the request one is drawn. The sender is dereferenced unchecked; without one the behaviour is undefined, and there is no step. -/
def takeAccepted (timedOut : Bool) (drawn : GUID) (sent : Bool) : Option BsdSockets :=
  match sys.handler with
  | some (.accepting request body listenSocketId index) =>
    (sys.listeners[index]?).bind fun listener =>
      if listener.stopping then
        some (sys.answer request .streamClosed "listen socket closed" (some listenSocketId) sent)
      else
        match listener.acceptedConnections with
        | [] =>
          if timedOut then some (sys.answer request .timedOut "accept timed out" (some listenSocketId) sent) else none
        | connection :: acceptedConnections =>
          let taken := { sys with listeners := sys.listeners.set index { listener with acceptedConnections } }
          match body.newStreamId.elim (some drawn) fromProtoStreamId with
          | none =>
            some ((taken.emit [.close connection]).answer request .invalidFlags "invalid new_socket_number"
              (some listenSocketId) sent)
          | some childSocketId =>
            request.sender.map fun sender =>
              { taken with
                handler := some (.acceptRegistering request listenSocketId
                  { connection, requesterNodeId := toProtoNodeId sender, socketId := childSocketId,
                    asyncData := body.childAsyncData.getD false, shareSocket := body.shareChildSocket.getD false }) }
  | _ => none

def registerAccepted (sent : Bool) : Option BsdSockets :=
  match sys.handler with
  | some (.acceptRegistering request listenSocketId socket) =>
    if sys.isInUse socket.socketId then
      some ((sys.emit [.close socket.connection]).answer request .streamInUse "socket id already exists"
        (some listenSocketId) sent)
    else
      some { sys with
        managedSockets := sys.managedSockets.insertIfNew socket.socketId socket
        handler := some (.acceptAcknowledging request listenSocketId socket) }
  | _ => none

def acknowledgeAccepted (sent : Bool) : Option BsdSockets :=
  match sys.handler with
  | some (.acceptAcknowledging request listenSocketId socket) =>
    let reply := makeStreamReplyMessage request .success "" (some listenSocketId)
    let replied := { sys.emit [.reply (reply.withNewStream socket.socketId) sent] with handler := none }
    if sent then some replied
    else some { replied.stopManagedSocket socket with managedSockets := sys.managedSockets.erase socket.socketId }
  | _ => none

/-! ### StreamSend and StreamRecv -/

def startSend (request : Request) (body : StreamSend) (sent : Bool) : BsdSockets :=
  match streamIdField body.streamId with
  | none => sys.answer request .streamError "invalid socket id" none sent
  | some socketId =>
    match sys.managedSockets[socketId]? with
    | none => sys.answer request .streamClosed "socket not found" none sent
    | some socket =>
      if validateSocketAccess request socket then { sys with handler := some (.sending request socket body.data) }
      else sys.answer request .nodeIdMismatch "socket is owned by a different node id" none sent

/-- `sendAll` on the connection returns. -/
def finishSend (ok sent : Bool) : Option BsdSockets :=
  match sys.handler with
  | some (.sending request socket data) =>
    let written := sys.emit [.write socket.connection data ok]
    some (if ok then written.answer request .success "" none sent
      else written.answer request .streamError "socket send failed" none sent)
  | _ => none

def startRecv (request : Request) (body : StreamRecv) (sent : Bool) : BsdSockets :=
  match streamIdField body.streamId with
  | none => sys.answer request .streamError "invalid socket id" none sent
  | some socketId =>
    match sys.managedSockets[socketId]? with
    | none => sys.answer request .streamClosed "socket not found" none sent
    | some socket =>
      if ¬ validateSocketAccess request socket then
        sys.answer request .nodeIdMismatch "socket is owned by a different node id" none sent
      else if socket.asyncData then
        sys.answer request .asyncStream "socket_recv is ignored when async_data is enabled" none sent
      else
        let maxBytes := (body.maxBytes.filter (0 < ·)).elim 4096 UInt32.toNat
        { sys with handler := some (.receiving request socket maxBytes) }

/-- `recv` on the connection returns: no data is the end of the stream, and `none` a failure. -/
def finishRecv (result : Option Bytes) (sent : Bool) : Option BsdSockets :=
  match sys.handler with
  | some (.receiving request socket maxBytes) =>
    let read := sys.emit [.read socket.connection]
    match result with
    | none => some (read.answer request .streamError "socket recv failed" none sent)
    | some [] => some (read.answer request .streamClosed "socket closed" none sent)
    | some data =>
      if data.length ≤ maxBytes then
        let reply := makeStreamReplyMessage request .streamData "" none
        let withData := { reply with streamReply := some { reply.streamReply.getD {} with data := some data } }
        some { read.emit [.reply withData sent] with handler := none }
      else none
  | _ => none

/-! ### StreamClose -/

/-- The first critical section: a listener is taken out of the table before its owner is checked. -/
def startClose (request : Request) (body : StreamClose) (sent : Bool) : BsdSockets :=
  match streamIdField body.streamId with
  | none => sys.answer request .streamError "invalid socket id" none sent
  | some socketId =>
    match sys.managedListeningSockets[socketId]? with
    | some index =>
      { sys with
        managedListeningSockets := sys.managedListeningSockets.erase socketId
        handler := some (.closingListener request socketId index) }
    | none => { sys with handler := some (.closeFinding request socketId) }

def finishCloseListener (sent : Bool) : Option BsdSockets :=
  match sys.handler with
  | some (.closingListener request socketId index) =>
    (sys.listeners[index]?).bind fun listener =>
      if validateListeningSocketAccess request listener then
        (sys.stopManagedListener index listener).map fun stopped =>
          stopped.answer request .success "" (some socketId) sent
      else
        some { sys.answer request .nodeIdMismatch "listen socket is owned by a different node id" (some socketId) sent with
          managedListeningSockets := sys.managedListeningSockets.insertIfNew socketId index }
  | _ => none

def findClosing (sent : Bool) : Option BsdSockets :=
  match sys.handler with
  | some (.closeFinding request socketId) =>
    match sys.managedSockets[socketId]? with
    | none => some (sys.answer request .streamClosed "socket not found" none sent)
    | some socket =>
      some { sys with
        managedSockets := sys.managedSockets.erase socketId
        handler := some (.closingSocket request socketId socket) }
  | _ => none

def finishCloseSocket (sent : Bool) : Option BsdSockets :=
  match sys.handler with
  | some (.closingSocket request socketId socket) =>
    if validateSocketAccess request socket then
      some ((sys.stopManagedSocket socket).answer request .success "" none sent)
    else
      some { sys.answer request .nodeIdMismatch "socket is owned by a different node id" none sent with
        managedSockets := sys.managedSockets.insertIfNew socketId socket }
  | _ => none

/-! ### Accepted connections -/

/-- The accept thread of a listener calls `handleAcceptedConnection`. -/
def acceptConnection (index : Nat) : Option BsdSockets :=
  (sys.listeners[index]?).bind fun listener =>
    if listener.listening && sys.acceptThreadIdle index then
      let connection := sys.nextConnection
      let accepted := { sys with nextConnection := sys.nextConnection + 1 }
      if listener.stopping then some (accepted.emit [.close connection])
      else if listener.asyncAccept then
        some { accepted with callbacks := sys.callbacks ++ [.registering index connection] }
      else
        some { accepted with
          listeners := sys.listeners.set index
            { listener with acceptedConnections := listener.acceptedConnections ++ [connection] } }
    else none

/-- Identifiers are drawn inside of the critical section until one is free. -/
def registerCallback (callback : Nat) (drawn : GUID) : Option BsdSockets :=
  match sys.callbacks[callback]? with
  | some (.registering index connection) =>
    (sys.listeners[index]?).bind fun listener =>
      if sys.isInUse drawn then none
      else
        let socket : ManagedSocketState :=
          { connection, requesterNodeId := listener.requesterNodeId, socketId := drawn,
            remoteEndpoint := listener.bindEndpoint, asyncData := listener.childrenAsyncData,
            shareSocket := listener.shareChildSockets, traceEnabled := listener.traceEnabled }
        some { sys with
          managedSockets := sys.managedSockets.insertIfNew drawn socket
          callbacks := sys.callbacks.set callback (.acknowledging index socket) }
  | _ => none

def acknowledgeCallback (callback : Nat) (sent : Bool) : Option BsdSockets :=
  match sys.callbacks[callback]? with
  | some (.acknowledging index socket) =>
    (sys.listeners[index]?).bind fun listener =>
      let reply := makeStreamReplyTo listener.requesterNodeId .newConnection "" (some listener.socketId)
        listener.traceEnabled
      let replied := { sys.emit [.reply (reply.withNewStream socket.socketId) sent] with
        callbacks := sys.callbacks.eraseIdx callback }
      if sent then some replied
      else some { replied.stopManagedSocket socket with managedSockets := sys.managedSockets.erase socket.socketId }
  | _ => none

/-! ### Runs -/

inductive Step where
  | startConnect (request : Request) (sent : Bool)
  | finishConnect (worker : Nat) (connected sent : Bool)
  | registerConnect (worker : Nat)
  | acknowledgeConnect (worker : Nat) (sent : Bool)
  /-- `handleNodeSpecificMessage` with any other request. -/
  | receive (request : Request) (sent : Bool)
  | openListener (opened sent : Bool)
  | registerListener
  | acknowledgeListener (sent : Bool)
  | takeAccepted (timedOut : Bool) (drawn : GUID) (sent : Bool)
  | registerAccepted (sent : Bool)
  | acknowledgeAccepted (sent : Bool)
  | finishSend (ok sent : Bool)
  | finishRecv (result : Option Bytes) (sent : Bool)
  | finishCloseListener (sent : Bool)
  | findClosing (sent : Bool)
  | finishCloseSocket (sent : Bool)
  | acceptConnection (listener : Nat)
  | registerCallback (callback : Nat) (drawn : GUID)
  | acknowledgeCallback (callback : Nat) (sent : Bool)

/-- The worker of the input queue takes a request once it has finished the last one. -/
def receive (request : Request) (sent : Bool) : Option BsdSockets :=
  match sys.handler, request.body with
  | none, .listen body => some (sys.startListen request body sent)
  | none, .accept body => sys.startAccept request body sent
  | none, .send body => some (sys.startSend request body sent)
  | none, .recv body => some (sys.startRecv request body sent)
  | none, .close body => some (sys.startClose request body sent)
  | _, _ => none

def next (sys : BsdSockets) : Step → Option BsdSockets
  | .startConnect request sent => sys.startConnect request sent
  | .finishConnect worker connected sent => sys.finishConnect worker connected sent
  | .registerConnect worker => sys.registerConnect worker
  | .acknowledgeConnect worker sent => sys.acknowledgeConnect worker sent
  | .receive request sent => sys.receive request sent
  | .openListener opened sent => sys.openListener opened sent
  | .registerListener => sys.registerListener
  | .acknowledgeListener sent => sys.acknowledgeListener sent
  | .takeAccepted timedOut drawn sent => sys.takeAccepted timedOut drawn sent
  | .registerAccepted sent => sys.registerAccepted sent
  | .acknowledgeAccepted sent => sys.acknowledgeAccepted sent
  | .finishSend ok sent => sys.finishSend ok sent
  | .finishRecv result sent => sys.finishRecv result sent
  | .finishCloseListener sent => sys.finishCloseListener sent
  | .findClosing sent => sys.findClosing sent
  | .finishCloseSocket sent => sys.finishCloseSocket sent
  | .acceptConnection listener => sys.acceptConnection listener
  | .registerCallback callback drawn => sys.registerCallback callback drawn
  | .acknowledgeCallback callback sent => sys.acknowledgeCallback callback sent

def machine : Machine BsdSockets Step where
  init sys := sys = {}
  next := next

end BsdSockets

end Rsp
