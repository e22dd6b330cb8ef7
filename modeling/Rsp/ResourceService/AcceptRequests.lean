import Rsp.ResourceService.StreamIds

/-!
# Accept requests that are refused

`handleAcceptTCP` as one call, with nothing else going on: a connection that comes in while it waits is in the queue of the listener beforehand. Most refusals come before a connection is taken. The two that concern the identifier of the new stream come after it; they close the connection.
-/

namespace Rsp

namespace BsdSockets

open Proto

variable {sys sys' : BsdSockets} {request : Request} {body : AcceptTCP} {timedOut sent : Bool} {drawn : GUID}

/-- The steps of an accept request, one after the other, up to its answer. -/
def handleAcceptTCP (sys : BsdSockets) (request : Request) (body : AcceptTCP) (timedOut : Bool) (drawn : GUID) (sent : Bool) :
    Option BsdSockets :=
  (sys.startAccept request body sent).bind fun sys =>
    if sys.handler.isNone then some sys
    else (sys.takeAccepted timedOut drawn sent).bind fun sys =>
      if sys.handler.isNone then some sys
      else (sys.registerAccepted sent).bind fun sys =>
        if sys.handler.isNone then some sys else sys.acknowledgeAccepted sent

/-- The request is answered with the status by the new effects. -/
def Answers (effects : List Effect) (status : StreamStatus) : Prop :=
  ∃ reply sent, .reply reply sent ∈ effects ∧ reply.streamReply.map StreamReply.error = some status

/-- The call is a run of the service. -/
theorem exists_run_handleAcceptTCP (hidle : sys.handler = none) (hbody : request.body = .accept body)
    (h : sys.handleAcceptTCP request body timedOut drawn sent = some sys') : ∃ steps, machine.run sys steps = some sys' := by
  obtain ⟨started, hstart, h⟩ := Option.bind_eq_some_iff.mp h
  have hreceive : machine.next sys (.receive request sent) = some started := by
    change sys.receive request sent = some started
    rw [receive, hidle, hbody]
    exact hstart
  split_ifs at h
  · cases h
    exact ⟨[.receive request sent], by rw [Machine.run, hreceive]; rfl⟩
  obtain ⟨taken, htake, h⟩ := Option.bind_eq_some_iff.mp h
  have htake' : machine.next started (.takeAccepted timedOut drawn sent) = some taken := htake
  split_ifs at h
  · cases h
    refine ⟨[.receive request sent, .takeAccepted timedOut drawn sent], ?_⟩
    rw [Machine.run, hreceive, Option.bind_some, Machine.run, htake']
    rfl
  obtain ⟨registered, hregister, h⟩ := Option.bind_eq_some_iff.mp h
  have hregister' : machine.next taken (.registerAccepted sent) = some registered := hregister
  split_ifs at h
  · cases h
    refine ⟨[.receive request sent, .takeAccepted timedOut drawn sent, .registerAccepted sent], ?_⟩
    rw [Machine.run, hreceive, Option.bind_some, Machine.run, htake', Option.bind_some, Machine.run, hregister']
    rfl
  · have hacknowledge : machine.next registered (.acknowledgeAccepted sent) = some sys' := h
    refine ⟨[.receive request sent, .takeAccepted timedOut drawn sent, .registerAccepted sent, .acknowledgeAccepted sent], ?_⟩
    rw [Machine.run, hreceive, Option.bind_some, Machine.run, htake', Option.bind_some, Machine.run, hregister',
      Option.bind_some, Machine.run, hacknowledge]
    rfl

/-! ### The ways the call can end -/

/-- The queue of the listener without its first connection. -/
def withoutFirst (sys : BsdSockets) (index : Nat) (listener : ManagedListenerState) (rest : List Connection) : BsdSockets :=
  { sys with listeners := sys.listeners.set index { listener with acceptedConnections := rest } }

inductive AcceptOutcome (sys : BsdSockets) (request : Request) (body : AcceptTCP) (sent : Bool) : BsdSockets → Prop
  /-- No connection was taken. -/
  | refuses {status : StreamStatus} (hstatus : status ∉ [.success, .invalidFlags, .streamInUse]) (errorMessage : String)
    (id : Option GUID) : AcceptOutcome sys request body sent (sys.answer request status errorMessage id sent)
  /-- The new identifier is not valid or in use. -/
  | closes {status : StreamStatus} (hstatus : status = .invalidFlags ∨ status = .streamInUse) (errorMessage : String)
    {listenSocketId : GUID} {index : Nat} {listener : ManagedListenerState} {connection : Connection} {rest : List Connection}
    (hid : streamIdField body.listenStreamId = some listenSocketId)
    (hindex : sys.managedListeningSockets[listenSocketId]? = some index) (hlistener : sys.listeners[index]? = some listener)
    (hqueue : listener.acceptedConnections = connection :: rest) :
    AcceptOutcome sys request body sent (((sys.withoutFirst index listener rest).emit [.close connection]).answer request
      status errorMessage (some listenSocketId) sent)
  | accepts {sys' : BsdSockets} {requester : NodeID} (hsender : request.sender = some requester) (listenSocketId child : GUID)
    (closed : List Connection)
    (heffects : sys'.effects = sys.effects ++
      .reply ((makeStreamReplyMessage request .success "" (some listenSocketId)).withNewStream child) sent :: closed.map .close) :
    AcceptOutcome sys request body sent sys'

/-- The part after a connection was taken. -/
theorem acceptOutcome_registerAccepted {listenSocketId : GUID} {index : Nat} {listener : ManagedListenerState}
    {connection : Connection} {rest : List Connection} {socket : ManagedSocketState} {requester : NodeID}
    (hid : streamIdField body.listenStreamId = some listenSocketId)
    (hindex : sys.managedListeningSockets[listenSocketId]? = some index) (hlistener : sys.listeners[index]? = some listener)
    (hqueue : listener.acceptedConnections = connection :: rest) (hsocket : socket.connection = connection)
    (hsender : request.sender = some requester)
    (h : ({ sys.withoutFirst index listener rest with
        handler := some (.acceptRegistering request listenSocketId socket) }.registerAccepted sent).bind (fun sys =>
      if sys.handler.isNone then some sys else sys.acknowledgeAccepted sent) = some sys') :
    AcceptOutcome sys request body sent sys' := by
  obtain ⟨registered, hregister, h⟩ := Option.bind_eq_some_iff.mp h
  simp only [registerAccepted] at hregister
  split_ifs at hregister with hused
  · cases hregister
    cases h
    rw [hsocket]
    exact .closes (.inr rfl) _ hid hindex hlistener hqueue
  · cases hregister
    simp only [acknowledgeAccepted, Option.isNone_some, Bool.false_eq_true, if_false] at h
    cases sent with
    | true =>
      cases h
      exact .accepts hsender listenSocketId socket.socketId [] rfl
    | false =>
      cases h
      refine .accepts hsender listenSocketId socket.socketId [socket.connection] ?_
      simp [stopManagedSocket, emit, withoutFirst]

theorem acceptOutcome_takeAccepted {listenSocketId : GUID} {index : Nat}
    (hid : streamIdField body.listenStreamId = some listenSocketId)
    (hindex : sys.managedListeningSockets[listenSocketId]? = some index)
    (h : ({ sys with handler := some (.accepting request body listenSocketId index) }.takeAccepted timedOut drawn sent).bind
      (fun sys =>
        if sys.handler.isNone then some sys
        else (sys.registerAccepted sent).bind fun sys =>
          if sys.handler.isNone then some sys else sys.acknowledgeAccepted sent) = some sys') :
    AcceptOutcome sys request body sent sys' := by
  obtain ⟨taken, htake, h⟩ := Option.bind_eq_some_iff.mp h
  simp only [takeAccepted] at htake
  obtain ⟨listener, hlistener, htake⟩ := Option.bind_eq_some_iff.mp htake
  split at htake
  · cases htake
    cases h
    exact .refuses (by decide) _ _
  · split at htake
    · split_ifs at htake
      cases htake
      cases h
      exact .refuses (by decide) _ _
    · next connection rest hqueue =>
      split at htake
      · cases htake
        cases h
        exact .closes (.inl rfl) _ hid hindex hlistener hqueue
      · obtain ⟨requester, hsender, rfl⟩ := Option.map_eq_some_iff.mp htake
        exact acceptOutcome_registerAccepted hid hindex hlistener hqueue rfl hsender h

theorem acceptOutcome_handleAcceptTCP (h : sys.handleAcceptTCP request body timedOut drawn sent = some sys') :
    AcceptOutcome sys request body sent sys' := by
  obtain ⟨started, hstart, h⟩ := Option.bind_eq_some_iff.mp h
  simp only [startAccept] at hstart
  split at hstart
  · cases hstart
    cases h
    exact .refuses (by decide) _ _
  · next listenSocketId hid =>
    split at hstart
    · cases hstart
      cases h
      exact .refuses (by decide) _ _
    · next index hindex =>
      obtain ⟨listener, hlistener, hstart⟩ := Option.map_eq_some_iff.mp hstart
      split_ifs at hstart
      · subst hstart
        cases h
        exact .refuses (by decide) _ _
      · subst hstart
        exact acceptOutcome_takeAccepted hid hindex h
      · subst hstart
        cases h
        exact .refuses (by decide) _ _

theorem error_makeStreamReplyMessage {status other : StreamStatus} {errorMessage : String} {id : Option GUID}
    (h : (makeStreamReplyMessage request status errorMessage id).streamReply.map StreamReply.error = some other) :
    status = other := by
  unfold makeStreamReplyMessage at h
  split at h
  · cases h
  · exact Option.some.inj h

/-- An accept request that is answered with a status other than SUCCESS leaves both tables alone. If the new identifier was refused the first connection of the queue is taken out and closed; otherwise no queue changes and nothing is closed. -/
theorem rejected_accept_effect (sys sys' : BsdSockets) (request : Request) (body : AcceptTCP) (timedOut : Bool) (drawn : GUID)
    (sent : Bool) (new : List Effect) (status : StreamStatus)
    (h : sys.handleAcceptTCP request body timedOut drawn sent = some sys') (hnew : sys'.effects = sys.effects ++ new)
    (hanswer : Answers new status) (hstatus : status ≠ .success) :
    sys'.managedSockets = sys.managedSockets ∧ sys'.managedListeningSockets = sys.managedListeningSockets ∧
      (status ≠ .invalidFlags ∧ status ≠ .streamInUse →
        sys'.listeners = sys.listeners ∧ ∀ connection, .close connection ∉ new) ∧
      (status = .invalidFlags ∨ status = .streamInUse →
        ∃ listenSocketId index listener connection rest, streamIdField body.listenStreamId = some listenSocketId ∧
          sys.managedListeningSockets[listenSocketId]? = some index ∧ sys.listeners[index]? = some listener ∧
          listener.acceptedConnections = connection :: rest ∧
          sys'.listeners = sys.listeners.set index { listener with acceptedConnections := rest } ∧
          ∀ other, .close other ∈ new ↔ other = connection) := by
  obtain ⟨reply, answered, hreply, herror⟩ := hanswer
  cases acceptOutcome_handleAcceptTCP h with
  | refuses hother errorMessage id =>
    obtain rfl := List.append_cancel_left hnew
    simp only [List.mem_singleton, Effect.reply.injEq] at hreply
    obtain rfl := error_makeStreamReplyMessage (hreply.1 ▸ herror)
    refine ⟨rfl, rfl, fun _ => ⟨rfl, ?_⟩, fun hrefused => absurd ?_ hother⟩
    · intro connection hmem
      cases List.mem_singleton.mp hmem
    · rcases hrefused with rfl | rfl <;> decide
  | @closes refusal hrefused errorMessage listenSocketId index listener connection rest hid hindex hlistener hqueue =>
    have heffects : [.close connection,
        .reply (makeStreamReplyMessage request refusal errorMessage (some listenSocketId)) sent] = new := by
      have hemitted : sys.effects ++ [.close connection] ++
          [.reply (makeStreamReplyMessage request refusal errorMessage (some listenSocketId)) sent] = sys.effects ++ new := hnew
      rw [List.append_assoc] at hemitted
      exact List.append_cancel_left hemitted
    subst heffects
    simp only [List.mem_cons, reduceCtorEq, Effect.reply.injEq, List.not_mem_nil, or_false, false_or] at hreply
    obtain rfl := error_makeStreamReplyMessage (hreply.1 ▸ herror)
    refine ⟨rfl, rfl, fun hother => ?_, fun _ => ?_⟩
    · exact absurd hrefused (not_or.mpr hother)
    · exact ⟨_, index, listener, connection, rest, hid, hindex, hlistener, hqueue, rfl, by simp⟩
  | accepts hsender listenSocketId child closed heffects =>
    obtain rfl := List.append_cancel_left (hnew.symm.trans heffects)
    rcases List.mem_cons.mp hreply with hfirst | hclose
    · cases hfirst
      rw [makeStreamReplyMessage, hsender] at herror
      exact absurd (Option.some.inj herror).symm hstatus
    · obtain ⟨connection, -, hclose⟩ := List.mem_map.mp hclose
      cases hclose

/-! ### An accept request on a listener -/

def sampleListener : List Step :=
  [.receive (sampleListen ⟨0, 1⟩ sampleId) true, .openListener true true, .registerListener, .acknowledgeListener true]

/-- The owner of the listener accepts a connection and names the new stream. -/
def sampleAccept (id : Option GUID) : AcceptTCP :=
  { listenStreamId := some (toProtoStreamId sampleId), newStreamId := id.map toProtoStreamId }

def sampleAcceptRequest (id : Option GUID) : Request := { sender := some ⟨0, 1⟩, body := .accept (sampleAccept id) }

def refusal (id : Option GUID) (status : StreamStatus) (errorMessage : String) : Effect :=
  .reply (makeStreamReplyMessage (sampleAcceptRequest id) status errorMessage (some sampleId)) true

/-- Nobody connects before the timeout, and nothing changes. -/
theorem rejected_accept_effect_timedOut : ∃ sys sys', machine.Reaches sys ∧
    sys.handleAcceptTCP (sampleAcceptRequest none) (sampleAccept none) true ⟨0, 0⟩ true = some sys' ∧
    sys'.effects = sys.effects ++ [refusal none .timedOut "accept timed out"] ∧ sys'.listeners = sys.listeners := by
  have hrun : ((machine.run {} sampleListener).any fun sys =>
      (sys.handleAcceptTCP (sampleAcceptRequest none) (sampleAccept none) true ⟨0, 0⟩ true).any fun sys' =>
        sys'.effects == sys.effects ++ [refusal none .timedOut "accept timed out"]) = true := by
    decide +kernel
  obtain ⟨sys, hreaches, hsys⟩ := Machine.exists_reaches_of_run rfl hrun
  obtain ⟨sys', haccept, heffects⟩ := (Option.any_eq_true ..).mp hsys
  have hnew := eq_of_beq heffects
  have heffect := rejected_accept_effect sys sys' _ _ _ _ _ _ .timedOut haccept hnew
    ⟨_, _, List.mem_singleton.mpr rfl, rfl⟩ (by decide)
  exact ⟨sys, sys', hreaches, haccept, hnew, (heffect.2.2.1 (by decide)).1⟩

/-- A connection waits. The owner wants it under an identifier that is in use; the request is refused, and the connection is closed. -/
theorem rejected_accept_loses_connection : ∃ sys sys', machine.Reaches sys ∧
    sys.handleAcceptTCP (sampleAcceptRequest (some sampleId)) (sampleAccept (some sampleId)) false ⟨0, 0⟩ true = some sys' ∧
    sys'.effects = sys.effects ++ [.close 0, refusal (some sampleId) .streamInUse "socket id already exists"] ∧
    sys.listeners.map ManagedListenerState.acceptedConnections = [[0]] ∧
    sys'.listeners.map ManagedListenerState.acceptedConnections = [[]] := by
  have hrun : ((machine.run {} (sampleListener ++ [.acceptConnection 0])).any fun sys =>
      sys.listeners.map ManagedListenerState.acceptedConnections == [[0]] &&
      (sys.handleAcceptTCP (sampleAcceptRequest (some sampleId)) (sampleAccept (some sampleId)) false ⟨0, 0⟩ true).any fun sys' =>
        sys'.effects == sys.effects ++ [.close 0, refusal (some sampleId) .streamInUse "socket id already exists"] &&
          sys'.listeners.map ManagedListenerState.acceptedConnections == [[]]) = true := by
    decide +kernel
  obtain ⟨sys, hreaches, hsys⟩ := Machine.exists_reaches_of_run rfl hrun
  rw [Bool.and_eq_true, beq_iff_eq] at hsys
  obtain ⟨sys', haccept, hsys'⟩ := (Option.any_eq_true ..).mp hsys.2
  simp only [Bool.and_eq_true, beq_iff_eq] at hsys'
  exact ⟨sys, sys', hreaches, haccept, hsys'.1, hsys.1, hsys'.2⟩

end BsdSockets

end Rsp
