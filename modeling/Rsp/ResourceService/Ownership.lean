import Rsp.ResourceService.Connections
import Rsp.ResourceService.StreamIds

/-!
# Ownership of sockets

A socket belongs to the node that asked for it, and unless it is shared no request of another node should read from it, write to it, close it or take it out of its table. Every handler checks the owner by itself, and three places work by identifier instead: the two that take a socket back whose acknowledgement could not be sent, and the one that puts back a socket a stranger wanted to close.

`Isolates` says what a step must not do to foreign sockets, `sparesForeign` what those three places have to meet. That the other steps need no condition rests on two invariants: a connection belongs to one socket (`Accounts`), and a thread works only on sockets whose owner it has checked (`Owned`).
-/

namespace Rsp

namespace BsdSockets

open Proto

variable {sys sys' : BsdSockets} {step : Step} {request : Request}

/-! ### Foreign sockets -/

/-- The request comes from another node than the owner, and the socket is not shared. -/
def Foreign (request : Request) (owner : NodeId) (shared : Bool) : Prop :=
  shared = false ∧ request.sender.map toProtoNodeId ≠ some owner

theorem foreign_iff {owner : NodeId} {shared : Bool} :
    Foreign request owner shared ↔ validateAccess request shared owner = false := by
  cases hsender : request.sender <;> cases shared <;> simp [Foreign, validateAccess, hsender]

abbrev ForeignSocket (request : Request) (socket : ManagedSocketState) : Prop :=
  Foreign request socket.requesterNodeId socket.shareSocket

abbrev ForeignListener (request : Request) (listener : ManagedListenerState) : Prop :=
  Foreign request listener.requesterNodeId listener.shareListeningSocket

theorem foreignSocket_iff {socket : ManagedSocketState} :
    ForeignSocket request socket ↔ ¬ validateSocketAccess request socket = true := by
  rw [ForeignSocket, foreign_iff, validateSocketAccess, Bool.not_eq_true]

theorem foreignListener_iff {listener : ManagedListenerState} :
    ForeignListener request listener ↔ ¬ validateListeningSocketAccess request listener = true := by
  rw [ForeignListener, foreign_iff, validateListeningSocketAccess, Bool.not_eq_true]

def Effect.connection : Effect → Option Connection
  | .reply _ _ => none
  | .write connection _ _ | .read connection | .close connection => some connection

/-- The socket is in the table, or the request has taken it out and not yet put it back. -/
def Entry (sys : BsdSockets) (request : Request) (id : GUID) (socket : ManagedSocketState) : Prop :=
  sys.managedSockets[id]? = some socket ∨ sys.handler = some (.closingSocket request id socket)

/-- What a step of a request has to leave of the sockets of other nodes. A close request may take a socket or a listener out as long as it puts it back. -/
structure Isolates (request : Request) (sys sys' : BsdSockets) : Prop where
  sockets : ∀ (id : GUID) socket, sys.managedSockets[id]? = some socket → ForeignSocket request socket →
    sys'.managedSockets[id]? = some socket ∨
      sys.handler = some (.closeFinding request id) ∧ sys'.handler = some (.closingSocket request id socket)
  restored : ∀ id socket, sys.handler = some (.closingSocket request id socket) → ForeignSocket request socket →
    sys'.handler = sys.handler ∨ sys'.managedSockets[id]? = some socket
  listeners : ∀ (index : Nat) listener, sys.listeners[index]? = some listener → ForeignListener request listener →
    sys'.listeners[index]? = some listener ∧ ∀ id : GUID, sys.managedListeningSockets[id]? = some index →
      sys'.managedListeningSockets[id]? = some index ∨
        sys.handler = none ∧ sys'.handler = some (.closingListener request id index)
  restoredListener : ∀ id (index : Nat) listener, sys.handler = some (.closingListener request id index) →
    sys.listeners[index]? = some listener → ForeignListener request listener →
      sys'.handler = sys.handler ∨ sys'.managedListeningSockets[id]? = some index
  connections : ∃ new, sys'.effects = sys.effects ++ new ∧ ∀ effect ∈ new, ∀ id socket, sys.Entry request id socket →
    ForeignSocket request socket → effect.connection ≠ some socket.connection

/-- A socket that is taken back, since its acknowledgement could not be sent, must not have been replaced by a foreign one; and while a foreign socket is out of the table its identifier must not be taken. -/
def sparesForeign (sys : BsdSockets) : Step → Bool
  | .acknowledgeConnect worker false =>
    match sys.connects[worker]? with
    | some (.acknowledging request socket) =>
      (sys.managedSockets[socket.socketId]?).all (validateSocketAccess request)
    | _ => true
  | .acknowledgeAccepted false =>
    match sys.handler with
    | some (.acceptAcknowledging request _ socket) =>
      (sys.managedSockets[socket.socketId]?).all (validateSocketAccess request)
    | _ => true
  | .finishCloseSocket _ =>
    match sys.handler with
    | some (.closingSocket request socketId socket) =>
      validateSocketAccess request socket || !sys.managedSockets.contains socketId
    | _ => true
  | _ => true

/-! ### What the threads have checked -/

def ConnectCall.Owned : ConnectCall → Prop
  | .connecting request _ requester _ => request.sender = some requester
  | .registering request socket => validateSocketAccess request socket = true
  | .acknowledging request socket => validateSocketAccess request socket = true

/-- The listener with the number exists and the request may use it. -/
def MayUse (sys : BsdSockets) (request : Request) (index : Nat) : Prop :=
  ∃ listener, sys.listeners[index]? = some listener ∧ validateListeningSocketAccess request listener = true

def HandlerCall.Owned (sys : BsdSockets) : HandlerCall → Prop
  | .listenOpening request listener =>
    validateListeningSocketAccess request listener = true ∧ listener.socketId ∉ sys.managedListeningSockets
  | .listenRegistering request index socketId => sys.MayUse request index ∧ socketId ∉ sys.managedListeningSockets
  | .listenAcknowledging request index socketId =>
    sys.MayUse request index ∧ sys.managedListeningSockets[socketId]? = some index
  | .accepting request _ _ index => sys.MayUse request index
  | .acceptRegistering request _ socket => validateSocketAccess request socket = true
  | .acceptAcknowledging request _ socket => validateSocketAccess request socket = true
  | .sending request socket _ => validateSocketAccess request socket = true
  | .receiving request socket _ => validateSocketAccess request socket = true
  | .closingListener _ socketId _ => socketId ∉ sys.managedListeningSockets
  | .closeFinding _ _ => True
  | .closingSocket _ socketId socket => sys.managedSockets[socketId]? ≠ some socket

structure Owned (sys : BsdSockets) : Prop where
  connects : ∀ call ∈ sys.connects, call.Owned
  handler : ∀ call, sys.handler = some call → call.Owned sys

/-- Listeners are not taken away, and their owners do not change. -/
def KeepsOwners (sys sys' : BsdSockets) : Prop :=
  ∀ (index : Nat) listener, sys.listeners[index]? = some listener → ∃ listener' : ManagedListenerState, sys'.listeners[index]? = some listener' ∧
    listener'.requesterNodeId = listener.requesterNodeId ∧
    listener'.shareListeningSocket = listener.shareListeningSocket

theorem MayUse.of_keepsOwners {index : Nat} (h : sys.MayUse request index) (hkeeps : KeepsOwners sys sys') :
    sys'.MayUse request index := by
  obtain ⟨listener, hlistener, hvalid⟩ := h
  obtain ⟨listener', hlistener', howner, hshared⟩ := hkeeps index listener hlistener
  refine ⟨listener', hlistener', ?_⟩
  rw [validateListeningSocketAccess, howner, hshared]
  exact hvalid

theorem keepsOwners_of_eq (h : sys'.listeners = sys.listeners) : KeepsOwners sys sys' :=
  fun _ listener hlistener => ⟨listener, h ▸ hlistener, rfl, rfl⟩

theorem keepsOwners_set {index : Nat} {old new : ManagedListenerState} (hold : sys.listeners[index]? = some old)
    (h : sys'.listeners = sys.listeners.set index new) (howner : new.requesterNodeId = old.requesterNodeId)
    (hshared : new.shareListeningSocket = old.shareListeningSocket) : KeepsOwners sys sys' := by
  intro other listener hlistener
  by_cases heq : index = other
  · subst heq
    obtain rfl := Option.some.inj (hold.symm.trans hlistener)
    obtain ⟨hlt, -⟩ := List.getElem?_eq_some_iff.mp hold
    exact ⟨new, by rw [h, List.getElem?_set_self hlt], howner, hshared⟩
  · exact ⟨listener, by rw [h, List.getElem?_set_ne heq, hlistener], rfl, rfl⟩

/-- A step of another thread keeps what the handler has checked. -/
theorem HandlerCall.Owned.frame {call : HandlerCall} (h : call.Owned sys)
    (hlistening : sys'.managedListeningSockets = sys.managedListeningSockets) (hkeeps : KeepsOwners sys sys')
    (hsockets : ∀ (id : GUID) socket, call.registered = some socket → sys'.managedSockets[id]? = some socket →
      sys.managedSockets[id]? = some socket) : call.Owned sys' := by
  cases call with
  | listenOpening request listener => exact ⟨h.1, hlistening ▸ h.2⟩
  | listenRegistering request index socketId => exact ⟨h.1.of_keepsOwners hkeeps, hlistening ▸ h.2⟩
  | listenAcknowledging request index socketId => exact ⟨h.1.of_keepsOwners hkeeps, hlistening ▸ h.2⟩
  | accepting request body listenSocketId index => exact MayUse.of_keepsOwners h hkeeps
  | acceptRegistering request listenSocketId socket => exact h
  | acceptAcknowledging request listenSocketId socket => exact h
  | sending request socket data => exact h
  | receiving request socket maxBytes => exact h
  | closingListener request socketId index =>
    rw [HandlerCall.Owned, hlistening]
    exact h
  | closeFinding request socketId => trivial
  | closingSocket request socketId socket => exact fun hfound => h (hsockets socketId socket rfl hfound)

/-! ### The checks are kept -/

variable {socketOf : Connection → Option ManagedSocketState}

/-- A step of a worker or of an accept thread keeps what the handler has checked. -/
theorem Owned.of_other (howned : Owned sys) (hconnects : ∀ call ∈ sys'.connects, call.Owned)
    (hhandler : sys'.handler = sys.handler) (hlistening : sys'.managedListeningSockets = sys.managedListeningSockets)
    (hkeeps : KeepsOwners sys sys')
    (hsockets : ∀ (id : GUID) socket, Registered sys socket → sys'.managedSockets[id]? = some socket →
      sys.managedSockets[id]? = some socket) : Owned sys' := by
  refine ⟨hconnects, fun call hcall => ?_⟩
  rw [hhandler] at hcall
  exact (howned.handler call hcall).frame hlistening hkeeps fun id socket hsocket hfound =>
    hsockets id socket (.handler hcall hsocket) hfound

theorem validateSocketAccess_of_sender {sender : NodeID} {socket : ManagedSocketState} (hsender : request.sender = some sender)
    (howner : socket.requesterNodeId = toProtoNodeId sender) : validateSocketAccess request socket = true := by
  simp [validateSocketAccess, validateAccess, hsender, howner]

/-- The handler goes on with the next call. -/
theorem Owned.of_handler (howned : Owned sys) (hconnects : sys'.connects = sys.connects)
    (hhandler : ∀ call, sys'.handler = some call → call.Owned sys') : Owned sys' :=
  ⟨fun call hcall => howned.connects call (hconnects ▸ hcall), hhandler⟩

theorem owned_admits {call : HandlerCall} (h : sys.Admits request call) :
    call.Owned { sys with handler := some call } := by
  cases h with
  | listen hsender howner hfree =>
    exact ⟨by simp [validateListeningSocketAccess, validateAccess, hsender, howner], (isInUse_eq_false.mp hfree).2⟩
  | accept hlistener hvalid => exact ⟨_, hlistener, hvalid⟩
  | send _ hvalid => exact hvalid
  | recv _ hvalid => exact hvalid
  | close => trivial

theorem owned_of_next (howned : Owned sys) (haccounts : Accounts sys socketOf) (h : sys.next step = some sys') :
    Owned sys' := by
  have herased {worker : Nat} (call : ConnectCall) (hcall : call ∈ sys.connects.eraseIdx worker) : call.Owned :=
    howned.connects call (List.mem_of_mem_eraseIdx hcall)
  cases transition_of_next h with
  | ignoresConnect | ignores => exact howned
  | startsConnect hsender =>
    refine howned.of_other (fun call hcall => ?_) rfl rfl (keepsOwners_of_eq rfl) fun _ _ _ hfound => hfound
    rcases List.mem_append.mp hcall with hold | hnew
    · exact howned.connects call hold
    · obtain rfl := List.mem_singleton.mp hnew
      exact hsender
  | connects hworker _ howner =>
    refine howned.of_other (fun call hcall => ?_) rfl rfl (keepsOwners_of_eq rfl) fun _ _ _ hfound => hfound
    rcases mem_connects_set hworker hcall with rfl | hold
    · exact validateSocketAccess_of_sender (howned.connects _ (List.mem_of_getElem? hworker)) howner
    · exact howned.connects call hold
  | failsConnect | acknowledgesConnect =>
    exact howned.of_other herased rfl rfl (keepsOwners_of_eq rfl) fun _ _ _ hfound => hfound
  | registersConnect hworker =>
    have hmem := List.mem_of_getElem? hworker
    have hvalid := howned.connects _ hmem
    refine howned.of_other (fun call hcall => ?_) rfl rfl (keepsOwners_of_eq rfl) fun id other hregistered hfound => ?_
    · rcases mem_connects_set hworker hcall with rfl | hold
      · exact hvalid
      · exact howned.connects call hold
    · rcases getElem?_of_insertIfNew hfound with rfl | hold
      · exact absurd rfl (haccounts.ne_of_waiting (waiting_pos_of_connect hmem (List.mem_singleton_self _)) hregistered)
      · exact hold
  | takesBackConnect =>
    exact howned.of_other herased rfl rfl (keepsOwners_of_eq rfl) fun _ _ _ hfound => getElem?_of_erase hfound
  | proceeds _ hadmits =>
    refine howned.of_handler rfl fun call hcall => ?_
    obtain rfl := Option.some.inj hcall
    exact owned_admits hadmits
  | takesListener =>
    refine howned.of_handler rfl fun call hcall => ?_
    cases hcall
    simp [HandlerCall.Owned]
  | @opensListener _ _ _ listener hhandler =>
    obtain ⟨hvalid, hfree⟩ := howned.handler _ hhandler
    refine howned.of_handler rfl fun call hcall => ?_
    cases hcall
    exact ⟨⟨{ listener with listening := true }, List.getElem?_concat_length, hvalid⟩, hfree⟩
  | registersListener hhandler =>
    obtain ⟨huse, hfree⟩ := howned.handler _ hhandler
    refine howned.of_handler rfl fun call hcall => ?_
    cases hcall
    refine ⟨huse, ?_⟩
    rw [Std.TreeMap.getElem?_insertIfNew, if_pos ⟨Std.ReflCmp.compare_self, hfree⟩]
  | takesAccepted _ _ _ hsender howner =>
    refine howned.of_handler rfl fun call hcall => ?_
    cases hcall
    exact validateSocketAccess_of_sender hsender howner
  | registersAccepted hhandler =>
    have hvalid := howned.handler _ hhandler
    refine howned.of_handler rfl fun call hcall => ?_
    cases hcall
    exact hvalid
  | takesSocket =>
    refine howned.of_handler rfl fun call hcall => ?_
    cases hcall
    intro hfound
    rw [Std.TreeMap.getElem?_erase_self] at hfound
    cases hfound
  | refusesConnect | closesAccepted | queuesCallback | acknowledgesCallback =>
    exact howned.of_other howned.connects rfl rfl (keepsOwners_of_eq rfl) fun _ _ _ hfound => hfound
  | queuesAccepted hlistener =>
    exact howned.of_other howned.connects rfl rfl (keepsOwners_set hlistener rfl rfl rfl) fun _ _ _ hfound => hfound
  | registersCallback hcallback =>
    refine howned.of_other howned.connects rfl rfl (keepsOwners_of_eq rfl) fun id other hregistered hfound => ?_
    rcases getElem?_of_insertIfNew hfound with rfl | hold
    · have hwaiting := waiting_pos_of_callback (List.mem_of_getElem? hcallback) (List.mem_singleton_self _)
      exact absurd rfl (haccounts.ne_of_waiting hwaiting hregistered)
    · exact hold
  | takesBackCallback =>
    exact howned.of_other howned.connects rfl rfl (keepsOwners_of_eq rfl) fun _ _ _ hfound => getElem?_of_erase hfound
  -- the handler has returned
  | _ => exact howned.of_handler rfl fun _ hcall => by cases hcall

theorem owned_of_reaches (h : machine.Reaches sys) : Owned sys ∧ ∃ socketOf, Accounts sys socketOf := by
  refine h.invariant (I := fun sys => Owned sys ∧ ∃ socketOf, Accounts sys socketOf) (fun sys hinit => ?_)
    fun sys step sys' ⟨howned, socketOf, haccounts⟩ hstep => ?_
  · refine ⟨?_, exists_accounts (.start hinit)⟩
    obtain rfl : sys = {} := hinit
    exact ⟨fun _ hcall => (by cases hcall), fun _ hcall => (by cases hcall)⟩
  · exact ⟨owned_of_next howned haccounts hstep, exists_accounts_of_move haccounts (connectionMove_of_next hstep)⟩

/-- Whatever the threads do, a connection has at most one registered socket, and none while it waits to be registered. -/
theorem connections_unshared {sys : BsdSockets} {socket other : ManagedSocketState} (h : machine.Reaches sys)
    (hsocket : Registered sys socket) (hother : Registered sys other) (hsame : socket.connection = other.connection) :
    socket = other ∧ sys.waiting socket.connection = 0 := by
  obtain ⟨socketOf, haccounts⟩ := exists_accounts h
  have hfirst := haccounts.registered socket hsocket
  constructor
  · rw [hsame, haccounts.registered other hother] at hfirst
    exact (Option.some.inj hfirst).symm
  · by_contra hpos
    rw [haccounts.waiting _ (Nat.pos_of_ne_zero hpos)] at hfirst
    cases hfirst

theorem connections_unshared_connect :
    ∃ sys socket, machine.Reaches sys ∧ Registered sys socket ∧ sys.waiting socket.connection = 0 := by
  have hrun : ((machine.run {} listenAndConnect).any fun sys => sys.managedSockets[sampleId]?.isSome) = true := by
    decide +kernel
  obtain ⟨sys, hreaches, hsys⟩ := Machine.exists_reaches_of_run rfl hrun
  obtain ⟨socket, hsocket⟩ := Option.isSome_iff_exists.mp hsys
  exact ⟨sys, socket, hreaches, .table hsocket, (connections_unshared hreaches (.table hsocket) (.table hsocket) rfl).2⟩

/-! ### Isolation, step by step -/

/-- No close request is between its steps. -/
def NotClosing (sys : BsdSockets) : Prop :=
  (∀ request id socket, sys.handler ≠ some (.closingSocket request id socket)) ∧
    ∀ request id index, sys.handler ≠ some (.closingListener request id index)

theorem notClosing_of_open (h : ∀ call, sys.handler = some call → call.isOpen = true) : NotClosing sys :=
  ⟨fun _ _ _ hhandler => (by cases h _ hhandler), fun _ _ _ hhandler => (by cases h _ hhandler)⟩

theorem notClosing_of_handler {call : HandlerCall} (h : sys.handler = some call) (hopen : call.isOpen = true) :
    NotClosing sys :=
  notClosing_of_open fun _ hother => Option.some.inj (h.symm.trans hother) ▸ hopen

/-- The new effects leave the connections of foreign sockets alone. -/
def SparesConnections (request : Request) (sys : BsdSockets) (new : List Effect) : Prop :=
  ∀ effect ∈ new, ∀ id socket, sys.Entry request id socket → ForeignSocket request socket →
    effect.connection ≠ some socket.connection

theorem Entry.registered {id : GUID} {socket : ManagedSocketState} (h : sys.Entry request id socket) :
    Registered sys socket := by
  rcases h with htable | hhandler
  · exact .table htable
  · exact .handler hhandler rfl

theorem sparesConnections_nil : SparesConnections request sys [] := fun _ hmem => by cases hmem

theorem sparesConnections_reply {reply : Reply} {sent : Bool} : SparesConnections request sys [.reply reply sent] := by
  intro effect hmem id socket _ _
  obtain rfl := List.mem_singleton.mp hmem
  exact (Option.some_ne_none _).symm

theorem SparesConnections.append {new new' : List Effect} (h : SparesConnections request sys new)
    (h' : SparesConnections request sys new') : SparesConnections request sys (new ++ new') :=
  fun effect hmem => (List.mem_append.mp hmem).elim (h effect) (h' effect)

/-- A connection that waits to be registered is no socket's. -/
theorem sparesConnections_waiting (haccounts : Accounts sys socketOf) {connection : Connection}
    (hwaiting : 0 < sys.waiting connection) {effect : Effect} (heffect : effect.connection = some connection) :
    SparesConnections request sys [effect] := by
  intro other hmem id socket hentry _ heq
  obtain rfl := List.mem_singleton.mp hmem
  rw [heffect] at heq
  exact haccounts.ne_of_waiting hwaiting hentry.registered (Option.some.inj heq).symm

/-- The connection of a socket whose owner was checked is not a foreign one. -/
theorem sparesConnections_valid (haccounts : Accounts sys socketOf) {own : ManagedSocketState}
    (hown : Registered sys own) (hvalid : validateSocketAccess request own = true) {effect : Effect}
    (heffect : effect.connection = some own.connection) : SparesConnections request sys [effect] := by
  intro other hmem id socket hentry hforeign heq
  obtain rfl := List.mem_singleton.mp hmem
  rw [heffect] at heq
  obtain rfl := haccounts.eq_of_registered hentry.registered hown (Option.some.inj heq).symm
  exact foreignSocket_iff.mp hforeign hvalid

/-- A step that leaves foreign sockets and listeners where they are. -/
theorem Isolates.of_tables
    (hsockets : ∀ (id : GUID) socket, sys.managedSockets[id]? = some socket → ForeignSocket request socket →
      sys'.managedSockets[id]? = some socket)
    (hlistening : ∀ (id : GUID) (index : Nat) listener, sys.managedListeningSockets[id]? = some index →
      sys.listeners[index]? = some listener → ForeignListener request listener →
        sys'.managedListeningSockets[id]? = some index)
    (hlisteners : ∀ (index : Nat) listener, sys.listeners[index]? = some listener → ForeignListener request listener →
      sys'.listeners[index]? = some listener)
    (hhandler : sys'.handler = sys.handler ∨ sys.NotClosing) {new : List Effect}
    (heffects : sys'.effects = sys.effects ++ new) (hnew : SparesConnections request sys new) :
    Isolates request sys sys' where
  sockets id socket hsocket hforeign := .inl (hsockets id socket hsocket hforeign)
  restored _ _ hclosing _ := hhandler.elim .inl fun hnot => absurd hclosing (hnot.1 _ _ _)
  listeners index listener hlistener hforeign :=
    ⟨hlisteners index listener hlistener hforeign, fun id hid => .inl (hlistening id index listener hid hlistener hforeign)⟩
  restoredListener _ _ _ hclosing _ _ := hhandler.elim .inl fun hnot => absurd hclosing (hnot.2 _ _ _)
  connections := ⟨new, heffects, hnew⟩

/-- A step that changes no table and no listener. -/
theorem Isolates.of_same (hsockets : sys'.managedSockets = sys.managedSockets)
    (hlistening : sys'.managedListeningSockets = sys.managedListeningSockets) (hlisteners : sys'.listeners = sys.listeners)
    (hhandler : sys'.handler = sys.handler ∨ sys.NotClosing) {new : List Effect}
    (heffects : sys'.effects = sys.effects ++ new) (hnew : SparesConnections request sys new) :
    Isolates request sys sys' :=
  .of_tables (fun _ _ hsocket _ => hsockets ▸ hsocket) (fun _ _ _ hid _ _ => hlistening ▸ hid)
    (fun _ _ hlistener _ => hlisteners ▸ hlistener) hhandler heffects hnew

theorem isolates_refl : Isolates request sys sys :=
  .of_same rfl rfl rfl (.inl rfl) (List.append_nil _).symm sparesConnections_nil

/-- Inserting under a free identifier, or an occupied one, replaces nothing. -/
theorem getElem?_insertIfNew_of_some {α : Type} {table : Std.TreeMap GUID α} {id other : GUID} {new value : α}
    (h : table[other]? = some value) : (table.insertIfNew id new)[other]? = some value := by
  rw [Std.TreeMap.getElem?_insertIfNew, if_neg, h]
  rintro ⟨heq, hfree⟩
  obtain rfl := Std.LawfulEqCmp.eq_of_compare heq
  rw [Std.TreeMap.mem_iff_isSome_getElem?, h] at hfree
  exact hfree rfl

theorem getElem?_erase_of_ne {α : Type} {table : Std.TreeMap GUID α} {id other : GUID} (hne : id ≠ other) :
    (table.erase id)[other]? = table[other]? := by
  rw [Std.TreeMap.getElem?_erase, if_neg]
  exact fun heq => hne (Std.LawfulEqCmp.eq_of_compare heq)

/-- Only a listener that the request may use is changed. -/
theorem getElem?_listeners_set {index other : Nat} {old new listener : ManagedListenerState}
    (hold : sys.listeners[index]? = some old) (hvalid : validateListeningSocketAccess request old = true)
    (hlistener : sys.listeners[other]? = some listener) (hforeign : ForeignListener request listener) :
    (sys.listeners.set index new)[other]? = some listener := by
  have hne : index ≠ other := by
    rintro rfl
    obtain rfl := Option.some.inj (hold.symm.trans hlistener)
    exact foreignListener_iff.mp hforeign hvalid
  rw [List.getElem?_set_ne hne, hlistener]

/-- Closing the connections a listener has accepted. -/
theorem sparesConnections_accepted (haccounts : Accounts sys socketOf) {index : Nat} {listener : ManagedListenerState}
    (hlistener : sys.listeners[index]? = some listener) :
    SparesConnections request sys (listener.acceptedConnections.map .close) := by
  intro effect hmem
  obtain ⟨connection, hconnection, rfl⟩ := List.mem_map.mp hmem
  exact sparesConnections_waiting haccounts (waiting_pos_of_listener hlistener hconnection) rfl _
    (List.mem_singleton_self _)

/-! ### The steps that work by identifier -/

/-- Taking a socket back spares foreign sockets just if there is none under its identifier. -/
theorem isolates_takeBack_iff (haccounts : Accounts sys socketOf) {socket : ManagedSocketState}
    (hregistered : Registered sys socket) (hvalid : validateSocketAccess request socket = true)
    (htable : sys'.managedSockets = sys.managedSockets.erase socket.socketId)
    (hlistening : sys'.managedListeningSockets = sys.managedListeningSockets) (hlisteners : sys'.listeners = sys.listeners)
    (hhandler : sys'.handler = sys.handler ∨ sys'.handler = none ∧ sys.NotClosing) {reply : Reply} {sent : Bool}
    (heffects : sys'.effects = sys.effects ++ [.reply reply sent, .close socket.connection]) :
    Isolates request sys sys' ↔
      (sys.managedSockets[socket.socketId]?).all (validateSocketAccess request) = true := by
  constructor
  · intro hisolates
    cases hfound : sys.managedSockets[socket.socketId]? with
    | none => rfl
    | some other =>
      by_contra hinvalid
      rcases hisolates.sockets _ _ hfound (foreignSocket_iff.mpr hinvalid) with hkept | ⟨hfinding, hclosing⟩
      · rw [htable, Std.TreeMap.getElem?_erase_self] at hkept
        cases hkept
      · rcases hhandler with hsame | ⟨hnone, -⟩
        · rw [hsame, hfinding] at hclosing
          cases hclosing
        · rw [hnone] at hclosing
          cases hclosing
  · intro hspares
    refine .of_tables (fun id other hother hforeign => ?_) (fun _ _ _ hid _ _ => hlistening ▸ hid)
      (fun _ _ hlistener _ => hlisteners ▸ hlistener) (hhandler.imp id And.right) heffects
      (sparesConnections_reply.append (sparesConnections_valid haccounts hregistered hvalid rfl))
    have hne : socket.socketId ≠ id := by
      rintro rfl
      rw [hother, Option.all_some] at hspares
      exact foreignSocket_iff.mp hforeign hspares
    rw [htable, getElem?_erase_of_ne hne, hother]

theorem isolates_returnsSocket_iff {socketId : GUID} {socket : ManagedSocketState} {reply : Reply} {sent : Bool}
    (hhandler : sys.handler = some (.closingSocket request socketId socket))
    (hvalid : ¬ validateSocketAccess request socket = true) (hout : sys.managedSockets[socketId]? ≠ some socket) :
    Isolates request sys { sys.emit [.reply reply sent] with
        handler := none, managedSockets := sys.managedSockets.insertIfNew socketId socket } ↔
      socketId ∉ sys.managedSockets := by
  constructor
  · intro hisolates htaken
    rcases hisolates.restored socketId socket hhandler (foreignSocket_iff.mpr hvalid) with hsame | hback
    · rw [hhandler] at hsame
      cases hsame
    · refine hout ((Std.TreeMap.getElem?_insertIfNew.symm.trans hback) ▸ (if_neg ?_).symm)
      exact fun hnew => hnew.2 htaken
  · intro hfree
    refine ⟨fun _ _ hsocket _ => .inl (getElem?_insertIfNew_of_some hsocket), fun id other hclosing _ => .inr ?_,
      fun _ _ hlistener _ => ⟨hlistener, fun _ hid => .inl hid⟩, fun _ _ _ hclosing _ _ => ?_, _, rfl, sparesConnections_reply⟩
    · obtain ⟨rfl, rfl⟩ : socketId = id ∧ socket = other := by simpa using hhandler.symm.trans hclosing
      exact Std.TreeMap.getElem?_insertIfNew.trans (if_pos ⟨Std.ReflCmp.compare_self, hfree⟩)
    · rw [hhandler] at hclosing
      cases hclosing

theorem isolates_iff_of_transition (howned : Owned sys) (haccounts : Accounts sys socketOf) (h : Transition sys step sys')
    (hacting : sys.actingRequest step = some request) : Isolates request sys sys' ↔ sys.sparesForeign step = true := by
  cases h with
  | ignoresConnect | ignores => exact iff_of_true isolates_refl rfl
  | refusesConnect | failsConnect | acknowledgesConnect =>
    exact iff_of_true (.of_same rfl rfl rfl (.inl rfl) rfl sparesConnections_reply) rfl
  | startsConnect | connects =>
    exact iff_of_true (.of_same rfl rfl rfl (.inl rfl) (List.append_nil _).symm sparesConnections_nil) rfl
  | registersConnect =>
    refine iff_of_true ?_ rfl
    exact .of_tables (fun _ _ hsocket _ => getElem?_insertIfNew_of_some hsocket) (fun _ _ _ hid _ _ => hid)
      (fun _ _ hlistener _ => hlistener) (.inl rfl) (List.append_nil _).symm sparesConnections_nil
  | @takesBackConnect worker acting socket _ hworker =>
    obtain rfl : acting = request := by simpa [actingRequest, hworker] using hacting
    have hmem := List.mem_of_getElem? hworker
    simp only [sparesForeign, hworker]
    exact isolates_takeBack_iff haccounts (.connect hmem) (howned.connects _ hmem) rfl rfl rfl (.inl rfl)
      (List.append_assoc ..)
  | proceeds hidle =>
    have hnot : sys.NotClosing := by simp [NotClosing, hidle]
    exact iff_of_true (.of_same rfl rfl rfl (.inr hnot) (List.append_nil _).symm sparesConnections_nil) rfl
  | @takesListener _ _ socketId index hidle hfound =>
    have hnot : sys.NotClosing := by simp [NotClosing, hidle]
    obtain rfl := Option.some.inj hacting
    -- the listener is in the hands of this request now
    refine iff_of_true ⟨fun id socket hsocket _ => .inl hsocket,
      fun id socket hclosing _ => absurd hclosing (hnot.1 _ _ _), fun other listener hlistener _ => ⟨hlistener, fun id hid => ?_⟩,
      fun id other listener hclosing _ _ => absurd hclosing (hnot.2 _ _ _),
      [], (List.append_nil _).symm, sparesConnections_nil⟩ rfl
    by_cases heq : socketId = id
    · subst heq
      obtain rfl := Option.some.inj (hfound.symm.trans hid)
      exact .inr ⟨hidle, rfl⟩
    · exact .inl ((getElem?_erase_of_ne heq).trans hid)
  | answers _ hstep hopen =>
    exact iff_of_true (.of_same rfl rfl rfl (.inr (notClosing_of_open hopen)) rfl sparesConnections_reply)
      (by cases step <;> first | rfl | cases hstep)
  | @opensListener _ _ _ _ hhandler =>
    refine iff_of_true (.of_tables (fun _ _ hsocket _ => hsocket) (fun _ _ _ hid _ _ => hid)
      (fun index listener hlistener _ => ?_) (.inr (notClosing_of_handler hhandler rfl)) (List.append_nil _).symm
      sparesConnections_nil) rfl
    obtain ⟨hlt, -⟩ := List.getElem?_eq_some_iff.mp hlistener
    exact (List.getElem?_append_left hlt).trans hlistener
  | registersListener hhandler =>
    refine iff_of_true ?_ rfl
    exact .of_tables (fun _ _ hsocket _ => hsocket) (fun _ _ _ hid _ _ => getElem?_insertIfNew_of_some hid)
      (fun _ _ hlistener _ => hlistener) (.inr (notClosing_of_handler hhandler rfl)) (List.append_nil _).symm
      sparesConnections_nil
  | @takesBackListener acting index socketId _ _ own hhandler hlistener =>
    obtain rfl : acting = request := by simpa [actingRequest, hhandler] using hacting
    obtain ⟨⟨other, hown, hvalid⟩, hregistered⟩ := howned.handler _ hhandler
    obtain rfl := Option.some.inj (hown.symm.trans hlistener)
    refine iff_of_true (.of_tables (fun _ _ hsocket _ => hsocket) (fun id index' listener hid hlistener' hforeign => ?_)
      (fun _ _ hother hforeign => getElem?_listeners_set hown hvalid hother hforeign)
      (.inr (notClosing_of_handler hhandler rfl)) (List.append_assoc ..)
      (sparesConnections_reply.append (sparesConnections_accepted haccounts hown))) rfl
    -- the identifier that is erased is that of the request's own listener
    have hne : socketId ≠ id := by
      rintro rfl
      obtain rfl := Option.some.inj (hregistered.symm.trans hid)
      obtain rfl := Option.some.inj (hown.symm.trans hlistener')
      exact foreignListener_iff.mp hforeign hvalid
    exact (getElem?_erase_of_ne hne).trans hid
  | @refusesAccepted acting _ _ index _ _ _ connection _ _ listener hhandler hlistener haccepted =>
    obtain rfl : acting = request := by simpa [actingRequest, hhandler] using hacting
    obtain ⟨own, hown, hvalid⟩ : sys.MayUse acting index := howned.handler _ hhandler
    obtain rfl := Option.some.inj (hown.symm.trans hlistener)
    have hwaiting : 0 < sys.waiting connection := waiting_pos_of_listener hown (haccepted ▸ List.mem_cons_self)
    exact iff_of_true (.of_tables (fun _ _ hsocket _ => hsocket) (fun _ _ _ hid _ _ => hid)
      (fun _ _ hother hforeign => getElem?_listeners_set hown hvalid hother hforeign)
      (.inr (notClosing_of_handler hhandler rfl)) (List.append_assoc ..)
      ((sparesConnections_waiting haccounts hwaiting rfl).append sparesConnections_reply)) rfl
  | @takesAccepted acting _ _ index _ _ _ _ _ listener _ hhandler hlistener =>
    obtain rfl : acting = request := by simpa [actingRequest, hhandler] using hacting
    obtain ⟨own, hown, hvalid⟩ : sys.MayUse acting index := howned.handler _ hhandler
    obtain rfl := Option.some.inj (hown.symm.trans hlistener)
    exact iff_of_true (.of_tables (fun _ _ hsocket _ => hsocket) (fun _ _ _ hid _ _ => hid)
      (fun _ _ hother hforeign => getElem?_listeners_set hown hvalid hother hforeign)
      (.inr (notClosing_of_handler hhandler rfl)) (List.append_nil _).symm sparesConnections_nil) rfl
  | registersAccepted hhandler =>
    refine iff_of_true ?_ rfl
    exact .of_tables (fun _ _ hsocket _ => getElem?_insertIfNew_of_some hsocket) (fun _ _ _ hid _ _ => hid)
      (fun _ _ hlistener _ => hlistener) (.inr (notClosing_of_handler hhandler rfl)) (List.append_nil _).symm
      sparesConnections_nil
  | acknowledgesAccepted hhandler | findsNothing hhandler =>
    exact iff_of_true (.of_same rfl rfl rfl (.inr (notClosing_of_handler hhandler rfl)) rfl sparesConnections_reply) rfl
  | @takesBackAccepted acting _ socket _ hhandler =>
    obtain rfl : acting = request := by simpa [actingRequest, hhandler] using hacting
    simp only [sparesForeign, hhandler]
    exact isolates_takeBack_iff haccounts (.handler hhandler rfl) (howned.handler _ hhandler) rfl rfl rfl
      (.inr ⟨rfl, notClosing_of_handler hhandler rfl⟩) (List.append_assoc ..)
  | @acts _ acting _ effect _ _ hhandler hacts =>
    have hspares : SparesConnections request sys [effect] := by
      cases hacts with
      | write | read =>
        obtain rfl : acting = request := by simpa [actingRequest, hhandler] using hacting
        exact sparesConnections_valid haccounts (.handler hhandler rfl) (howned.handler _ hhandler) rfl
      | close => exact sparesConnections_waiting haccounts (waiting_pos_of_handler hhandler (List.mem_singleton_self _)) rfl
    refine iff_of_true (.of_same rfl rfl rfl (.inr (notClosing_of_handler hhandler ?_)) (List.append_assoc ..)
      (hspares.append sparesConnections_reply)) ?_
    · cases hacts <;> rfl
    · cases hacts <;> rfl
  | @closesListener acting socketId index _ _ listener hhandler hlistener hvalid =>
    obtain rfl : acting = request := by simpa [actingRequest, hhandler] using hacting
    refine iff_of_true ⟨fun _ _ hsocket _ => .inl hsocket, fun _ _ hclosing _ => ?_,
      fun _ _ hother hforeign => ⟨getElem?_listeners_set hlistener hvalid hother hforeign, fun _ hid => .inl hid⟩,
      fun id other foreign hclosing hother hforeign => ?_, _, List.append_assoc ..,
      (sparesConnections_accepted haccounts hlistener).append sparesConnections_reply⟩ rfl
    · rw [hhandler] at hclosing
      cases hclosing
    · obtain ⟨-, rfl, rfl⟩ : acting = acting ∧ socketId = id ∧ index = other := by
        simpa using hhandler.symm.trans hclosing
      obtain rfl := Option.some.inj (hlistener.symm.trans hother)
      exact absurd hvalid (foreignListener_iff.mp hforeign)
  | @returnsListener acting socketId index _ _ _ hhandler =>
    obtain rfl : acting = request := by simpa [actingRequest, hhandler] using hacting
    have hfree : socketId ∉ sys.managedListeningSockets := howned.handler _ hhandler
    -- its place in the table is still free
    refine iff_of_true ⟨fun _ _ hsocket _ => .inl hsocket, fun _ _ hclosing _ => ?_,
      fun _ _ hother _ => ⟨hother, fun _ hid => .inl (getElem?_insertIfNew_of_some hid)⟩,
      fun id other foreign hclosing _ _ => .inr ?_, _, rfl, sparesConnections_reply⟩ rfl
    · rw [hhandler] at hclosing
      cases hclosing
    · obtain ⟨-, rfl, rfl⟩ : acting = acting ∧ socketId = id ∧ index = other := by
        simpa using hhandler.symm.trans hclosing
      exact Std.TreeMap.getElem?_insertIfNew.trans (if_pos ⟨Std.ReflCmp.compare_self, hfree⟩)
  | @takesSocket acting socketId _ socket hhandler hfound =>
    obtain rfl : acting = request := by simpa [actingRequest, hhandler] using hacting
    have hnot := notClosing_of_handler hhandler rfl
    refine iff_of_true ⟨fun id other hother _ => ?_, fun _ _ hclosing _ => absurd hclosing (hnot.1 _ _ _),
      fun _ _ hlistener _ => ⟨hlistener, fun _ hid => .inl hid⟩,
      fun _ _ _ hclosing _ _ => absurd hclosing (hnot.2 _ _ _), [], (List.append_nil _).symm, sparesConnections_nil⟩ rfl
    by_cases heq : socketId = id
    · subst heq
      obtain rfl := Option.some.inj (hfound.symm.trans hother)
      exact .inr ⟨hhandler, rfl⟩
    · exact .inl ((getElem?_erase_of_ne heq).trans hother)
  | @closesSocket acting socketId socket _ _ hhandler hvalid =>
    obtain rfl : acting = request := by simpa [actingRequest, hhandler] using hacting
    refine iff_of_true ⟨fun _ _ hsocket _ => .inl hsocket, fun id other hclosing hforeign => ?_,
      fun _ _ hlistener _ => ⟨hlistener, fun _ hid => .inl hid⟩, fun _ _ _ hclosing _ _ => ?_, _, List.append_assoc ..,
      (sparesConnections_valid haccounts (.handler hhandler rfl) hvalid rfl).append sparesConnections_reply⟩ ?_
    · obtain ⟨rfl, rfl⟩ : socketId = id ∧ socket = other := by simpa using hhandler.symm.trans hclosing
      exact absurd hvalid (foreignSocket_iff.mp hforeign)
    · rw [hhandler] at hclosing
      cases hclosing
    · simp [sparesForeign, hhandler, hvalid]
  | @returnsSocket acting socketId socket _ _ hhandler hvalid =>
    obtain rfl : acting = request := by simpa [actingRequest, hhandler] using hacting
    rw [isolates_returnsSocket_iff hhandler hvalid (howned.handler _ hhandler)]
    simp [sparesForeign, hhandler, hvalid, ← Std.TreeMap.contains_iff_mem]
  | closesAccepted | queuesCallback | queuesAccepted | registersCallback | acknowledgesCallback | takesBackCallback =>
    cases hacting

end BsdSockets

open BsdSockets

/-- In every run a request leaves the sockets of other nodes alone, except that the three steps that work by identifier do so just if they meet their condition. -/
theorem sockets_isolated_iff {sys sys' : BsdSockets} {step : Step} {request : Request} (h : machine.Reaches sys)
    (hstep : sys.next step = some sys') (hacting : sys.actingRequest step = some request) :
    Isolates request sys sys' ↔ sys.sparesForeign step = true := by
  obtain ⟨howned, socketOf, haccounts⟩ := owned_of_reaches h
  exact isolates_iff_of_transition howned haccounts (transition_of_next hstep) hacting

namespace BsdSockets

/-- A node has a socket, and another node connects with the same identifier. -/
def sameIdTwice : List Step :=
  [.startConnect (sampleConnect ⟨0, 1⟩ sampleId) true, .finishConnect 0 true true, .registerConnect 0,
    .acknowledgeConnect 0 true, .startConnect (sampleConnect ⟨0, 2⟩ sampleId) true, .finishConnect 0 true true,
    .registerConnect 0]

/-- The socket of the first node. -/
def sampleSocket : ManagedSocketState :=
  { connection := 0, requesterNodeId := toProtoNodeId ⟨0, 1⟩, socketId := sampleId, remoteEndpoint := ascii "10.0.0.1:80" }

end BsdSockets

/-- The second node's reply cannot be sent: the socket of the first node is erased. -/
theorem foreign_socket_removed : ∃ sys sys', machine.Reaches sys ∧ sys.next (.acknowledgeConnect 0 false) = some sys' ∧
    sys.actingRequest (.acknowledgeConnect 0 false) = some (sampleConnect ⟨0, 2⟩ sampleId) ∧
    sys.managedSockets[sampleId]? = some sampleSocket ∧ sampleSocket.shareSocket = false ∧
    sys'.managedSockets[sampleId]? = none := by
  have hrun : ((machine.run {} sameIdTwice).any fun sys =>
      sys.actingRequest (.acknowledgeConnect 0 false) == some (sampleConnect ⟨0, 2⟩ sampleId) &&
        sys.managedSockets[sampleId]? == some sampleSocket &&
        (sys.next (.acknowledgeConnect 0 false)).any fun sys' => sys'.managedSockets[sampleId]? == none) = true := by
    decide +kernel
  obtain ⟨sys, hreaches, hsys⟩ := Machine.exists_reaches_of_run rfl hrun
  simp only [Bool.and_eq_true, Option.any_eq_true, beq_iff_eq] at hsys
  obtain ⟨⟨hacting, hsocket⟩, sys', hnext, hgone⟩ := hsys
  exact ⟨sys, sys', hreaches, hnext, hacting, hsocket, rfl, hgone⟩

/-- If the reply is sent, the socket of the first node stays as it is. -/
theorem sockets_isolated_iff_connect : ∃ sys sys', machine.Reaches sys ∧
    sys.next (.acknowledgeConnect 0 true) = some sys' ∧ sys.managedSockets[sampleId]? = some sampleSocket ∧
    Isolates (sampleConnect ⟨0, 2⟩ sampleId) sys sys' := by
  have hrun : ((machine.run {} sameIdTwice).any fun sys =>
      sys.actingRequest (.acknowledgeConnect 0 true) == some (sampleConnect ⟨0, 2⟩ sampleId) &&
        sys.managedSockets[sampleId]? == some sampleSocket &&
        (sys.next (.acknowledgeConnect 0 true)).isSome) = true := by
    decide +kernel
  obtain ⟨sys, hreaches, hsys⟩ := Machine.exists_reaches_of_run rfl hrun
  simp only [Bool.and_eq_true, Option.isSome_iff_exists, beq_iff_eq] at hsys
  obtain ⟨⟨hacting, hsocket⟩, sys', hnext⟩ := hsys
  exact ⟨sys, sys', hreaches, hnext, hsocket, (sockets_isolated_iff hreaches hnext hacting).mpr rfl⟩

end Rsp
