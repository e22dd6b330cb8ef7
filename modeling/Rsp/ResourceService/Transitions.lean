import Rsp.ResourceService.BsdSockets

/-!
# What the steps of the socket service do

One relation lists what every step can do to the state. The invariants of the service are proved from it, so that its functions are taken apart only here.
-/

namespace Rsp

namespace BsdSockets

open Proto

variable {sys sys' : BsdSockets} {step : Step}

/-- The request on whose behalf a step is made; accepted connections are not requested. -/
def actingRequest (sys : BsdSockets) : Step → Option Request
  | .startConnect request _ | .receive request _ => some request
  | .finishConnect worker _ _ | .registerConnect worker | .acknowledgeConnect worker _ =>
    (sys.connects[worker]?).map fun
      | .connecting request _ _ _ | .registering request _ | .acknowledging request _ => request
  | .acceptConnection _ | .registerCallback _ _ | .acknowledgeCallback _ _ => none
  | _ =>
    sys.handler.map fun
      | .listenOpening request _ | .listenRegistering request _ _ | .listenAcknowledging request _ _
      | .accepting request _ _ _ | .acceptRegistering request _ _ | .acceptAcknowledging request _ _
      | .sending request _ _ | .receiving request _ _ | .closingListener request _ _ | .closeFinding request _
      | .closingSocket request _ _ => request

/-- What the handler has found out before it goes on with a request. -/
inductive Admits (sys : BsdSockets) (request : Request) : HandlerCall → Prop
  | listen {requester listener} (hsender : request.sender = some requester)
    (howner : listener.requesterNodeId = toProtoNodeId requester) (hfree : sys.isInUse listener.socketId = false)
    (hempty : listener.acceptedConnections = []) : Admits sys request (.listenOpening request listener)
  | accept {index : Nat} {listener} (hlistener : sys.listeners[index]? = some listener)
    (hvalid : validateListeningSocketAccess request listener = true) (body : AcceptTCP) (listenSocketId : GUID) :
    Admits sys request (.accepting request body listenSocketId index)
  | send {id : GUID} {socket} (hfound : sys.managedSockets[id]? = some socket)
    (hvalid : validateSocketAccess request socket = true) (data : Bytes) : Admits sys request (.sending request socket data)
  | recv {id : GUID} {socket} (hfound : sys.managedSockets[id]? = some socket)
    (hvalid : validateSocketAccess request socket = true) (maxBytes : Nat) :
    Admits sys request (.receiving request socket maxBytes)
  | close {socketId : GUID} (hfree : sys.managedListeningSockets[socketId]? = none) :
    Admits sys request (.closeFinding request socketId)

/-- The handler's calls between whose steps nothing is out of its table. -/
def HandlerCall.isOpen : HandlerCall → Bool
  | .closingListener _ _ _ | .closingSocket _ _ _ => false
  | _ => true

/-- What the handler does with the connection that it holds before it answers. -/
inductive HandlerCall.Acts (request : Request) : HandlerCall → Step → Effect → Prop
  | write {socket data ok sent} : Acts request (.sending request socket data) (.finishSend ok sent)
      (.write socket.connection data ok)
  | read {socket maxBytes result sent} : Acts request (.receiving request socket maxBytes) (.finishRecv result sent)
      (.read socket.connection)
  | close {listenSocketId socket sent} : Acts request (.acceptRegistering request listenSocketId socket)
      (.registerAccepted sent) (.close socket.connection)

inductive Transition (sys : BsdSockets) : Step → BsdSockets → Prop
  | ignoresConnect {request sent} : Transition sys (.startConnect request sent) sys
  | refusesConnect {request sent reply} : Transition sys (.startConnect request sent) (sys.emit [.reply reply sent])
  | startsConnect {request sent requester} (hsender : request.sender = some requester) (body : ConnectTCPRequest)
    (socketId : GUID) : Transition sys (.startConnect request sent)
      { sys with connects := sys.connects ++ [.connecting request body requester socketId] }
  | connects {worker : Nat} {connected sent request body requester socketId socket}
    (hworker : sys.connects[worker]? = some (.connecting request body requester socketId))
    (hconnection : socket.connection = sys.nextConnection) (howner : socket.requesterNodeId = toProtoNodeId requester) :
    Transition sys (.finishConnect worker connected sent)
      { sys with
        connects := sys.connects.set worker (.registering request socket), nextConnection := sys.nextConnection + 1 }
  | failsConnect {worker : Nat} {connected sent request body requester socketId reply}
    (hworker : sys.connects[worker]? = some (.connecting request body requester socketId)) :
    Transition sys (.finishConnect worker connected sent)
      { sys.emit [.reply reply sent] with connects := sys.connects.eraseIdx worker }
  | registersConnect {worker : Nat} {request socket} (hworker : sys.connects[worker]? = some (.registering request socket)) :
    Transition sys (.registerConnect worker)
      { sys with
        managedSockets := sys.managedSockets.insertIfNew socket.socketId socket
        connects := sys.connects.set worker (.acknowledging request socket) }
  | acknowledgesConnect {worker : Nat} {request socket reply}
    (hworker : sys.connects[worker]? = some (.acknowledging request socket)) :
    Transition sys (.acknowledgeConnect worker true)
      { sys.emit [.reply reply true] with connects := sys.connects.eraseIdx worker }
  | takesBackConnect {worker : Nat} {request socket reply}
    (hworker : sys.connects[worker]? = some (.acknowledging request socket)) :
    Transition sys (.acknowledgeConnect worker false)
      { (sys.emit [.reply reply false]).stopManagedSocket socket with
        connects := sys.connects.eraseIdx worker, managedSockets := sys.managedSockets.erase socket.socketId }
  | ignores {request sent} (hidle : sys.handler = none) : Transition sys (.receive request sent) sys
  | proceeds {request sent call} (hidle : sys.handler = none) (hadmits : sys.Admits request call) :
    Transition sys (.receive request sent) { sys with handler := some call }
  | takesListener {request sent} {socketId : GUID} {index} (hidle : sys.handler = none)
    (hfound : sys.managedListeningSockets[socketId]? = some index) : Transition sys (.receive request sent)
      { sys with
        managedListeningSockets := sys.managedListeningSockets.erase socketId
        handler := some (.closingListener request socketId index) }
  | answers {step request reply sent} (hacting : sys.actingRequest step = some request)
    (hstep : step matches .receive .. | .openListener .. | .acknowledgeListener _ | .takeAccepted ..)
    (hopen : ∀ call, sys.handler = some call → call.isOpen = true) :
    Transition sys step { sys.emit [.reply reply sent] with handler := none }
  | opensListener {opened sent request listener} (hhandler : sys.handler = some (.listenOpening request listener)) :
    Transition sys (.openListener opened sent)
      { sys with
        listeners := sys.listeners ++ [{ listener with listening := true }]
        handler := some (.listenRegistering request sys.listeners.length listener.socketId) }
  | registersListener {request index socketId} (hhandler : sys.handler = some (.listenRegistering request index socketId)) :
    Transition sys .registerListener
      { sys with
        managedListeningSockets := sys.managedListeningSockets.insertIfNew socketId index
        handler := some (.listenAcknowledging request index socketId) }
  | takesBackListener {request index socketId sent reply} {listener : ManagedListenerState}
    (hhandler : sys.handler = some (.listenAcknowledging request index socketId))
    (hlistener : sys.listeners[index]? = some listener) : Transition sys (.acknowledgeListener sent)
      { (sys.emit [.reply reply sent]).emit (listener.acceptedConnections.map .close) with
        managedListeningSockets := sys.managedListeningSockets.erase socketId, handler := none
        listeners := sys.listeners.set index
          { listener with stopping := true, listening := false, acceptedConnections := [] } }
  | refusesAccepted {request body listenSocketId index timedOut drawn sent connection rest reply}
    {listener : ManagedListenerState} (hhandler : sys.handler = some (.accepting request body listenSocketId index))
    (hlistener : sys.listeners[index]? = some listener) (haccepted : listener.acceptedConnections = connection :: rest) :
    Transition sys (.takeAccepted timedOut drawn sent)
      { (sys.emit [.close connection]).emit [.reply reply sent] with
        handler := none, listeners := sys.listeners.set index { listener with acceptedConnections := rest } }
  | takesAccepted {request body listenSocketId index timedOut drawn sent rest sender} {listener : ManagedListenerState}
    {socket : ManagedSocketState} (hhandler : sys.handler = some (.accepting request body listenSocketId index))
    (hlistener : sys.listeners[index]? = some listener)
    (haccepted : listener.acceptedConnections = socket.connection :: rest) (hsender : request.sender = some sender)
    (howner : socket.requesterNodeId = toProtoNodeId sender) : Transition sys (.takeAccepted timedOut drawn sent)
      { sys with
        listeners := sys.listeners.set index { listener with acceptedConnections := rest }
        handler := some (.acceptRegistering request listenSocketId socket) }
  | registersAccepted {request listenSocketId socket sent}
    (hhandler : sys.handler = some (.acceptRegistering request listenSocketId socket))
    (hfree : sys.isInUse socket.socketId = false) : Transition sys (.registerAccepted sent)
      { sys with
        managedSockets := sys.managedSockets.insertIfNew socket.socketId socket
        handler := some (.acceptAcknowledging request listenSocketId socket) }
  | acknowledgesAccepted {request listenSocketId socket reply}
    (hhandler : sys.handler = some (.acceptAcknowledging request listenSocketId socket)) :
    Transition sys (.acknowledgeAccepted true) { sys.emit [.reply reply true] with handler := none }
  | takesBackAccepted {request listenSocketId socket reply}
    (hhandler : sys.handler = some (.acceptAcknowledging request listenSocketId socket)) :
    Transition sys (.acknowledgeAccepted false)
      { (sys.emit [.reply reply false]).stopManagedSocket socket with
        handler := none, managedSockets := sys.managedSockets.erase socket.socketId }
  | acts {step request call effect reply sent} (hhandler : sys.handler = some call)
    (hacts : HandlerCall.Acts request call step effect) :
    Transition sys step { (sys.emit [effect]).emit [.reply reply sent] with handler := none }
  | closesListener {request socketId index sent reply} {listener : ManagedListenerState}
    (hhandler : sys.handler = some (.closingListener request socketId index))
    (hlistener : sys.listeners[index]? = some listener) (hvalid : validateListeningSocketAccess request listener = true) :
    Transition sys (.finishCloseListener sent)
      { (sys.emit (listener.acceptedConnections.map .close)).emit [.reply reply sent] with
        handler := none
        listeners := sys.listeners.set index
          { listener with stopping := true, listening := false, acceptedConnections := [] } }
  | returnsListener {request socketId index sent reply} {listener : ManagedListenerState}
    (hhandler : sys.handler = some (.closingListener request socketId index))
    (hlistener : sys.listeners[index]? = some listener) (hvalid : ¬ validateListeningSocketAccess request listener = true) :
    Transition sys (.finishCloseListener sent)
      { sys.emit [.reply reply sent] with
        handler := none, managedListeningSockets := sys.managedListeningSockets.insertIfNew socketId index }
  | findsNothing {request socketId sent reply} (hhandler : sys.handler = some (.closeFinding request socketId))
    (hfound : sys.managedSockets[socketId]? = none) :
    Transition sys (.findClosing sent) { sys.emit [.reply reply sent] with handler := none }
  | takesSocket {request socketId sent socket} (hhandler : sys.handler = some (.closeFinding request socketId))
    (hfound : sys.managedSockets[socketId]? = some socket) : Transition sys (.findClosing sent)
      { sys with
        managedSockets := sys.managedSockets.erase socketId, handler := some (.closingSocket request socketId socket) }
  | closesSocket {request socketId socket sent reply}
    (hhandler : sys.handler = some (.closingSocket request socketId socket))
    (hvalid : validateSocketAccess request socket = true) : Transition sys (.finishCloseSocket sent)
      { (sys.stopManagedSocket socket).emit [.reply reply sent] with handler := none }
  | returnsSocket {request socketId socket sent reply}
    (hhandler : sys.handler = some (.closingSocket request socketId socket))
    (hvalid : ¬ validateSocketAccess request socket = true) : Transition sys (.finishCloseSocket sent)
      { sys.emit [.reply reply sent] with
        handler := none, managedSockets := sys.managedSockets.insertIfNew socketId socket }
  | closesAccepted {index} : Transition sys (.acceptConnection index)
      { sys.emit [.close sys.nextConnection] with nextConnection := sys.nextConnection + 1 }
  | queuesCallback {index} : Transition sys (.acceptConnection index)
      { sys with
        callbacks := sys.callbacks ++ [.registering index sys.nextConnection], nextConnection := sys.nextConnection + 1 }
  | queuesAccepted {index : Nat} {listener} (hlistener : sys.listeners[index]? = some listener) :
    Transition sys (.acceptConnection index)
      { sys with
        nextConnection := sys.nextConnection + 1
        listeners := sys.listeners.set index
          { listener with acceptedConnections := listener.acceptedConnections ++ [sys.nextConnection] } }
  | registersCallback {callback : Nat} {drawn index} {socket : ManagedSocketState}
    (hcallback : sys.callbacks[callback]? = some (.registering index socket.connection))
    (hfree : sys.isInUse drawn = false) : Transition sys (.registerCallback callback drawn)
      { sys with
        managedSockets := sys.managedSockets.insertIfNew drawn socket
        callbacks := sys.callbacks.set callback (.acknowledging index socket) }
  | acknowledgesCallback {callback : Nat} {index socket reply}
    (hcallback : sys.callbacks[callback]? = some (.acknowledging index socket)) :
    Transition sys (.acknowledgeCallback callback true)
      { sys.emit [.reply reply true] with callbacks := sys.callbacks.eraseIdx callback }
  | takesBackCallback {callback : Nat} {index socket reply}
    (hcallback : sys.callbacks[callback]? = some (.acknowledging index socket)) :
    Transition sys (.acknowledgeCallback callback false)
      { (sys.emit [.reply reply false]).stopManagedSocket socket with
        callbacks := sys.callbacks.eraseIdx callback, managedSockets := sys.managedSockets.erase socket.socketId }

/-! ### Every step takes one of them -/

theorem transition_receive {request : Request} {sent : Bool} (h : sys.receive request sent = some sys') :
    Transition sys (.receive request sent) sys' := by
  have hanswer {status : StreamStatus} {errorMessage : String} {id : Option GUID} (hidle : sys.handler = none) :
      Transition sys (.receive request sent) (sys.answer request status errorMessage id sent) := by
    refine .answers rfl rfl fun call hcall => ?_
    rw [hidle] at hcall
    cases hcall
  simp only [receive] at h
  split at h
  · next hidle _ =>
    cases h
    rw [startListen]
    split
    · exact .ignores hidle
    · next requester hsender =>
      split
      · exact hanswer hidle
      · split_ifs with hused
        · exact hanswer hidle
        · exact .proceeds hidle (.listen hsender rfl (Bool.eq_false_iff.mpr hused) rfl)
  · next hidle _ =>
    simp only [startAccept] at h
    split at h
    · cases h
      exact hanswer hidle
    · split at h
      · cases h
        exact hanswer hidle
      · obtain ⟨listener, hlistener, rfl⟩ := Option.map_eq_some_iff.mp h
        split_ifs with hvalid
        · exact hanswer hidle
        · exact .proceeds hidle (.accept hlistener hvalid _ _)
        · exact hanswer hidle
  · next hidle _ =>
    cases h
    rw [startSend]
    split
    · exact hanswer hidle
    · split
      · exact hanswer hidle
      · next hfound =>
        split_ifs with hvalid
        · exact .proceeds hidle (.send hfound hvalid _)
        · exact hanswer hidle
  · next hidle _ =>
    cases h
    rw [startRecv]
    split
    · exact hanswer hidle
    · split
      · exact hanswer hidle
      · next hfound =>
        split_ifs with hvalid
        · exact hanswer hidle
        · exact .proceeds hidle (.recv hfound hvalid _)
        · exact hanswer hidle
  · next hidle _ =>
    cases h
    rw [startClose]
    split
    · exact hanswer hidle
    · split
      · next hfound => exact .takesListener hidle hfound
      · next hfree => exact .proceeds hidle (.close hfree)
  · cases h

/-- A step of the handler that only answers. -/
theorem transition_answer (request : Request) {call : HandlerCall} {reply : Reply} {sent : Bool}
    (hhandler : sys.handler = some call) (hcall : call.isOpen = true) (hacting : sys.actingRequest step = some request)
    (hstep : step matches .receive .. | .openListener .. | .acknowledgeListener _ | .takeAccepted ..) :
    Transition sys step { sys.emit [.reply reply sent] with handler := none } := by
  refine .answers hacting hstep fun found hfound => ?_
  rw [← Option.some.inj (hhandler.symm.trans hfound)]
  exact hcall

theorem transition_takeAccepted {timedOut sent : Bool} {drawn : GUID}
    (h : sys.takeAccepted timedOut drawn sent = some sys') : Transition sys (.takeAccepted timedOut drawn sent) sys' := by
  simp only [takeAccepted] at h
  split at h
  · next request _ _ _ hhandler =>
    have hacting : sys.actingRequest (.takeAccepted timedOut drawn sent) = some request := by
      simp [actingRequest, hhandler]
    obtain ⟨listener, hlistener, hafter⟩ := Option.bind_eq_some_iff.mp h
    split at hafter
    · cases hafter
      exact transition_answer request hhandler rfl hacting rfl
    · split at hafter
      · split_ifs at hafter
        cases hafter
        exact transition_answer request hhandler rfl hacting rfl
      · next haccepted =>
        split at hafter
        · cases hafter
          exact .refusesAccepted hhandler hlistener haccepted
        · obtain ⟨sender, hsender, rfl⟩ := Option.map_eq_some_iff.mp hafter
          exact .takesAccepted hhandler hlistener haccepted hsender rfl
  · cases h

theorem transition_of_next (h : sys.next step = some sys') : Transition sys step sys' := by
  cases step with
  | receive request sent => exact transition_receive h
  | takeAccepted timedOut drawn sent => exact transition_takeAccepted h
  | startConnect request sent =>
    simp only [next, startConnect] at h
    split at h
    · split_ifs at h
      split at h
      · cases h
        exact .ignoresConnect
      · next requester hsender =>
        split at h
        · cases h
          exact .refusesConnect
        · cases h
          exact .startsConnect hsender _ _
    · cases h
  | finishConnect worker connected sent =>
    simp only [next, finishConnect] at h
    split at h
    · next hworker =>
      split_ifs at h
      · cases h
        exact .connects hworker rfl rfl
      · cases h
        exact .failsConnect hworker
    · cases h
  | registerConnect worker =>
    simp only [next, registerConnect] at h
    split at h
    · next hworker =>
      cases h
      exact .registersConnect hworker
    · cases h
  | acknowledgeConnect worker sent =>
    simp only [next, acknowledgeConnect] at h
    split at h
    · next hworker =>
      cases sent <;> cases h
      · exact .takesBackConnect hworker
      · exact .acknowledgesConnect hworker
    · cases h
  | openListener opened sent =>
    simp only [next, openListener] at h
    split at h
    · next request _ hhandler =>
      split_ifs at h
      · cases h
        exact .opensListener hhandler
      · cases h
        exact transition_answer request hhandler rfl (by simp [actingRequest, hhandler]) rfl
    · cases h
  | registerListener =>
    simp only [next, registerListener] at h
    split at h
    · next hhandler =>
      cases h
      exact .registersListener hhandler
    · cases h
  | acknowledgeListener sent =>
    simp only [next, acknowledgeListener] at h
    split at h
    · next request _ _ hhandler =>
      split_ifs at h
      · cases h
        exact transition_answer request hhandler rfl (by simp [actingRequest, hhandler]) rfl
      · obtain ⟨listener, hlistener, hstop⟩ := Option.bind_eq_some_iff.mp h
        obtain rfl := eq_of_stopManagedListener hstop
        exact .takesBackListener hhandler hlistener
    · cases h
  | registerAccepted sent =>
    simp only [next, registerAccepted] at h
    split at h
    · next hhandler =>
      split_ifs at h with hused
      · cases h
        exact .acts hhandler .close
      · cases h
        exact .registersAccepted hhandler (Bool.eq_false_iff.mpr hused)
    · cases h
  | acknowledgeAccepted sent =>
    simp only [next, acknowledgeAccepted] at h
    split at h
    · next hhandler =>
      cases sent <;> cases h
      · exact .takesBackAccepted hhandler
      · exact .acknowledgesAccepted hhandler
    · cases h
  | finishSend ok sent =>
    simp only [next, finishSend] at h
    split at h
    · next hhandler =>
      cases h
      split_ifs <;> exact .acts hhandler .write
    · cases h
  | finishRecv result sent =>
    simp only [next, finishRecv] at h
    split at h
    · next hhandler =>
      split at h
      · cases h
        exact .acts hhandler .read
      · cases h
        exact .acts hhandler .read
      · split_ifs at h
        cases h
        exact .acts hhandler .read
    · cases h
  | finishCloseListener sent =>
    simp only [next, finishCloseListener] at h
    split at h
    · next hhandler =>
      obtain ⟨listener, hlistener, hafter⟩ := Option.bind_eq_some_iff.mp h
      split_ifs at hafter with hvalid
      · obtain ⟨stopped, hstop, rfl⟩ := Option.map_eq_some_iff.mp hafter
        obtain rfl := eq_of_stopManagedListener hstop
        exact .closesListener hhandler hlistener hvalid
      · cases hafter
        exact .returnsListener hhandler hlistener hvalid
    · cases h
  | findClosing sent =>
    simp only [next, findClosing] at h
    split at h
    · next hhandler =>
      split at h
      · next hfound =>
        cases h
        exact .findsNothing hhandler hfound
      · next hfound =>
        cases h
        exact .takesSocket hhandler hfound
    · cases h
  | finishCloseSocket sent =>
    simp only [next, finishCloseSocket] at h
    split at h
    · next hhandler =>
      split_ifs at h with hvalid
      · cases h
        exact .closesSocket hhandler hvalid
      · cases h
        exact .returnsSocket hhandler hvalid
    · cases h
  | acceptConnection index =>
    obtain ⟨listener, hlistener, hafter⟩ := Option.bind_eq_some_iff.mp h
    split_ifs at hafter
    · cases hafter
      exact .closesAccepted
    · cases hafter
      exact .queuesCallback
    · cases hafter
      exact .queuesAccepted hlistener
  | registerCallback callback drawn =>
    simp only [next, registerCallback] at h
    split at h
    · next hcallback =>
      obtain ⟨listener, -, hafter⟩ := Option.bind_eq_some_iff.mp h
      split_ifs at hafter with hused
      cases hafter
      exact .registersCallback hcallback (Bool.eq_false_iff.mpr hused)
    · cases h
  | acknowledgeCallback callback sent =>
    simp only [next, acknowledgeCallback] at h
    split at h
    · next hcallback =>
      obtain ⟨listener, -, hafter⟩ := Option.bind_eq_some_iff.mp h
      cases sent <;> cases hafter
      · exact .takesBackCallback hcallback
      · exact .acknowledgesCallback hcallback
    · cases h

/-! ### Replies -/

def Effect.isReply : Effect → Bool
  | .reply _ _ => true
  | _ => false

/-- The replies that were handed to `send`. -/
def replies (sys : BsdSockets) : Nat := sys.effects.countP Effect.isReply

variable {request : Request} {sent : Bool}

end BsdSockets

end Rsp
