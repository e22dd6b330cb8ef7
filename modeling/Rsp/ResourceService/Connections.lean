import Rsp.ResourceService.Transitions

/-!
# Connections of the socket service

A connection handle belongs to one socket: it waits in one place to be registered, and after that every socket that holds it, in the table or in the hands of a thread, is the same one. So whoever reads from, writes to or closes a connection acts on the one socket it belongs to.
-/

namespace Rsp

namespace BsdSockets

open Proto

variable {sys sys' : BsdSockets} {step : Step}

/-! ### Connections that wait to be registered -/

def ConnectCall.waiting : ConnectCall → List Connection
  | .registering _ socket => [socket.connection]
  | _ => []

def HandlerCall.waiting : HandlerCall → List Connection
  | .listenOpening _ listener => listener.acceptedConnections
  | .acceptRegistering _ _ socket => [socket.connection]
  | _ => []

def AcceptCallback.waiting : AcceptCallback → List Connection
  | .registering _ connection => [connection]
  | _ => []

/-- How often a connection waits to be registered. -/
def waiting (sys : BsdSockets) (connection : Connection) : Nat :=
  (sys.connects.flatMap ConnectCall.waiting).count connection +
    (sys.listeners.flatMap ManagedListenerState.acceptedConnections).count connection +
    (sys.callbacks.flatMap AcceptCallback.waiting).count connection +
    (sys.handler.toList.flatMap HandlerCall.waiting).count connection

/-! ### Registered sockets -/

/-- The registered socket a request works on. -/
def HandlerCall.registered : HandlerCall → Option ManagedSocketState
  | .acceptAcknowledging _ _ socket => some socket
  | .sending _ socket _ => some socket
  | .receiving _ socket _ => some socket
  | .closingSocket _ _ socket => some socket
  | _ => none

/-- The socket is in the table, or a request has it that found it there or put it there. -/
inductive Registered (sys : BsdSockets) (socket : ManagedSocketState) : Prop
  | table {id : GUID} (h : sys.managedSockets[id]? = some socket)
  | connect {request : Request} (h : .acknowledging request socket ∈ sys.connects)
  | handler {call : HandlerCall} (h : sys.handler = some call) (hsocket : call.registered = some socket)

/-- Every connection belongs to at most one socket. `socketOf` is the socket that was registered with it. -/
structure Accounts (sys : BsdSockets) (socketOf : Connection → Option ManagedSocketState) : Prop where
  registered : ∀ socket, Registered sys socket → socketOf socket.connection = some socket
  waiting : ∀ connection, 0 < sys.waiting connection → socketOf connection = none
  once : ∀ connection, sys.waiting connection ≤ 1
  fresh : ∀ connection, sys.nextConnection ≤ connection → sys.waiting connection = 0 ∧ socketOf connection = none

/-- What a step can do with connections: nothing new, one more arrives, or one that waits is registered. -/
inductive ConnectionMove (sys sys' : BsdSockets) : Prop
  | keeps (hregistered : ∀ socket, Registered sys' socket → Registered sys socket)
    (hwaiting : ∀ connection, sys'.waiting connection ≤ sys.waiting connection)
    (hnext : sys'.nextConnection = sys.nextConnection)
  | arrives (hregistered : ∀ socket, Registered sys' socket → Registered sys socket)
    (hwaiting : ∀ connection, sys'.waiting connection ≤ sys.waiting connection + [sys.nextConnection].count connection)
    (hnext : sys'.nextConnection = sys.nextConnection + 1)
  | registers (socket : ManagedSocketState) (hregistered : ∀ other, Registered sys' other → other = socket ∨ Registered sys other)
    (hwaiting : ∀ connection, sys'.waiting connection + [socket.connection].count connection ≤ sys.waiting connection)
    (hnext : sys'.nextConnection = sys.nextConnection)

theorem exists_accounts_of_move {socketOf : Connection → Option ManagedSocketState} (h : Accounts sys socketOf)
    (hmove : ConnectionMove sys sys') : ∃ socketOf', Accounts sys' socketOf' := by
  cases hmove with
  | keeps hregistered hwaiting hnext =>
    refine ⟨socketOf, fun socket hsocket => h.registered _ (hregistered _ hsocket), fun connection hpos => ?_,
      fun connection => (hwaiting _).trans (h.once _), fun connection hle => ?_⟩
    · exact h.waiting _ (lt_of_lt_of_le hpos (hwaiting _))
    · obtain ⟨hzero, hnone⟩ := h.fresh connection (hnext ▸ hle)
      have := hwaiting connection
      exact ⟨by omega, hnone⟩
  | arrives hregistered hwaiting hnext =>
    have hnew := h.fresh sys.nextConnection le_rfl
    have hcount : ∀ connection, connection ≠ sys.nextConnection → sys'.waiting connection ≤ sys.waiting connection := by
      intro connection hne
      have := hwaiting connection
      rwa [List.count_singleton, if_neg (by simpa using hne.symm), Nat.add_zero] at this
    refine ⟨socketOf, fun socket hsocket => h.registered _ (hregistered _ hsocket), fun connection hpos => ?_,
      fun connection => ?_, fun connection hle => ?_⟩
    · by_cases heq : connection = sys.nextConnection
      · rw [heq]
        exact hnew.2
      · exact h.waiting _ (lt_of_lt_of_le hpos (hcount _ heq))
    · by_cases heq : connection = sys.nextConnection
      · have := hwaiting connection
        rw [heq, List.count_singleton_self, hnew.1] at this
        rw [heq]
        exact this
      · exact (hcount _ heq).trans (h.once _)
    · have hlt : sys.nextConnection < connection := by
        rwa [hnext] at hle
      obtain ⟨hzero, hnone⟩ := h.fresh connection hlt.le
      have := hcount connection hlt.ne'
      exact ⟨by omega, hnone⟩
  | registers socket hregistered hwaiting hnext =>
    have hone : 1 ≤ sys.waiting socket.connection := by
      have := hwaiting socket.connection
      rw [List.count_singleton_self] at this
      omega
    have hnone := h.waiting _ hone
    refine ⟨Function.update socketOf socket.connection (some socket), fun other hother => ?_, fun connection hpos => ?_,
      fun connection => ?_, fun connection hle => ?_⟩
    · rcases hregistered other hother with rfl | hold
      · rw [Function.update_self]
      · have hof := h.registered other hold
        have hne : other.connection ≠ socket.connection := by
          intro heq
          rw [heq, hnone] at hof
          cases hof
        rwa [Function.update_of_ne hne]
    · have hle := hwaiting connection
      have honce := h.once connection
      have hne : connection ≠ socket.connection := by
        rintro rfl
        rw [List.count_singleton_self] at hle
        omega
      rw [Function.update_of_ne hne]
      exact h.waiting _ (by omega)
    · have := hwaiting connection
      have := h.once connection
      omega
    · obtain ⟨hzero, hof⟩ := h.fresh connection (hnext ▸ hle)
      have hle := hwaiting connection
      have hne : connection ≠ socket.connection := by
        rintro rfl
        omega
      exact ⟨by omega, by rwa [Function.update_of_ne hne]⟩

/-! ### What each step does with connections -/

theorem Registered.of_table {socket : ManagedSocketState} (h : Registered sys' socket)
    (htable : ∀ (id : GUID) other, sys'.managedSockets[id]? = some other → sys.managedSockets[id]? = some other)
    (hconnects : ∀ request other, .acknowledging request other ∈ sys'.connects → .acknowledging request other ∈ sys.connects)
    (hhandler : ∀ call other, sys'.handler = some call → call.registered = some other → Registered sys other) :
    Registered sys socket := by
  cases h with
  | table h => exact .table (htable _ _ h)
  | connect h => exact .connect (hconnects _ _ h)
  | handler h hsocket => exact hhandler _ _ h hsocket

theorem Registered.of_same {socket : ManagedSocketState} (h : Registered sys' socket)
    (htable : sys'.managedSockets = sys.managedSockets) (hconnects : sys'.connects = sys.connects)
    (hhandler : sys'.handler = sys.handler) : Registered sys socket :=
  h.of_table (fun _ _ h => htable ▸ h) (fun _ _ h => hconnects ▸ h) fun _ _ h hsocket => .handler (hhandler ▸ h) hsocket

theorem getElem?_of_erase {table : Std.TreeMap GUID ManagedSocketState} {id other : GUID} {socket : ManagedSocketState}
    (h : (table.erase id)[other]? = some socket) : table[other]? = some socket := by
  rw [Std.TreeMap.getElem?_erase] at h
  split_ifs at h
  exact h

theorem getElem?_of_insertIfNew {table : Std.TreeMap GUID ManagedSocketState} {id other : GUID}
    {new socket : ManagedSocketState} (h : (table.insertIfNew id new)[other]? = some socket) :
    socket = new ∨ table[other]? = some socket := by
  rw [Std.TreeMap.getElem?_insertIfNew] at h
  split_ifs at h
  · exact .inl (Option.some.inj h).symm
  · exact .inr h

/-- A step of the handler that leaves everything else alone. -/
theorem ConnectionMove.of_handler
    (htable : ∀ (id : GUID) other, sys'.managedSockets[id]? = some other → sys.managedSockets[id]? = some other)
    (hconnects : sys'.connects = sys.connects) (hcallbacks : sys'.callbacks = sys.callbacks)
    (hlisteners : ∀ connection, (sys'.listeners.flatMap ManagedListenerState.acceptedConnections).count connection +
        (sys'.handler.toList.flatMap HandlerCall.waiting).count connection ≤
      (sys.listeners.flatMap ManagedListenerState.acceptedConnections).count connection +
        (sys.handler.toList.flatMap HandlerCall.waiting).count connection)
    (hhandler : ∀ call other, sys'.handler = some call → call.registered = some other → Registered sys other)
    (hnext : sys'.nextConnection = sys.nextConnection) : ConnectionMove sys sys' := by
  refine .keeps (fun socket h => h.of_table htable (fun _ _ h => hconnects ▸ h) hhandler) (fun connection => ?_) hnext
  have := hlisteners connection
  rw [waiting, waiting, hconnects, hcallbacks]
  omega

/-- The handler returns. -/
theorem ConnectionMove.of_return
    (htable : ∀ (id : GUID) other, sys'.managedSockets[id]? = some other → sys.managedSockets[id]? = some other)
    (hconnects : sys'.connects = sys.connects) (hcallbacks : sys'.callbacks = sys.callbacks)
    (hlisteners : ∀ connection, (sys'.listeners.flatMap ManagedListenerState.acceptedConnections).count connection ≤
      (sys.listeners.flatMap ManagedListenerState.acceptedConnections).count connection)
    (hhandler : sys'.handler = none) (hnext : sys'.nextConnection = sys.nextConnection) : ConnectionMove sys sys' := by
  refine .of_handler htable hconnects hcallbacks (fun connection => ?_) (fun _ _ h => ?_) hnext
  · rw [hhandler]
    exact Nat.add_le_add (hlisteners connection) (Nat.zero_le _)
  · rw [hhandler] at h
    cases h

/-- The handler goes on, and holds nothing but what it found in the table. -/
theorem connectionMove_proceed {call : HandlerCall} (hwaiting : call.waiting = [])
    (hregistered : ∀ socket, call.registered = some socket → Registered sys socket) :
    ConnectionMove sys { sys with handler := some call } := by
  refine .of_handler (fun _ _ h => h) rfl rfl (fun connection => ?_) (fun _ _ h hsocket => ?_) rfl
  · have hnone : ((some call).toList.flatMap HandlerCall.waiting).count connection = 0 := by
      simp [hwaiting]
    exact Nat.add_le_add_left (hnone ▸ Nat.zero_le _) _
  · cases h
    exact hregistered _ hsocket

theorem connectionMove_admits {request : Request} {call : HandlerCall} (h : sys.Admits request call) :
    ConnectionMove sys { sys with handler := some call } := by
  cases h with
  | listen _ _ _ hempty => exact connectionMove_proceed hempty fun _ hsocket => by cases hsocket
  | send hfound => exact connectionMove_proceed rfl fun _ hsocket => Option.some.inj hsocket ▸ .table hfound
  | recv hfound => exact connectionMove_proceed rfl fun _ hsocket => Option.some.inj hsocket ▸ .table hfound
  | _ => exact connectionMove_proceed rfl fun _ hsocket => by cases hsocket

section

variable {α : Type} {calls : List α} {index : Nat} {old : α}

theorem count_set (h : calls[index]? = some old) (new : α) (f : α → List Connection) (connection : Connection) :
    ((calls.set index new).flatMap f).count connection + (f old).count connection =
      (calls.flatMap f).count connection + (f new).count connection := by
  have hcount := Counting.count_flatMap_replaceAt h (some new) f connection
  rw [Option.toList_some, List.flatMap_singleton] at hcount
  exact hcount

theorem count_eraseIdx_le (h : calls[index]? = some old) (f : α → List Connection) (connection : Connection) :
    ((calls.eraseIdx index).flatMap f).count connection ≤ (calls.flatMap f).count connection := by
  have hcount : _ + _ = (calls.flatMap f).count connection := Counting.count_flatMap_replaceAt h none f connection
  exact hcount ▸ Nat.le_add_right ..

end

theorem mem_connects_set {worker : Nat} {old new call : ConnectCall} (h : sys.connects[worker]? = some old)
    (hcall : call ∈ sys.connects.set worker new) : call = new ∨ call ∈ sys.connects := by
  rcases Counting.mem_replaceAt h (some new) hcall with hnew | hold
  · exact .inl (Option.mem_some.mp hnew).symm
  · exact .inr (List.mem_of_mem_eraseIdx hold)

/-- A worker is done with its call. -/
theorem ConnectionMove.of_eraseIdx {worker : Nat} {call : ConnectCall} (hworker : sys.connects[worker]? = some call)
    (htable : ∀ (id : GUID) other, sys'.managedSockets[id]? = some other → sys.managedSockets[id]? = some other)
    (hconnects : sys'.connects = sys.connects.eraseIdx worker) (hlisteners : sys'.listeners = sys.listeners)
    (hcallbacks : sys'.callbacks = sys.callbacks) (hhandler : sys'.handler = sys.handler)
    (hnext : sys'.nextConnection = sys.nextConnection) : ConnectionMove sys sys' := by
  refine .keeps (fun socket h => h.of_table htable (fun _ _ hmem => ?_) fun _ _ h hsocket => .handler (hhandler ▸ h) hsocket)
    (fun connection => ?_) hnext
  · exact List.mem_of_mem_eraseIdx (hconnects ▸ hmem)
  · have hcount := count_eraseIdx_le hworker ConnectCall.waiting connection
    rw [waiting, waiting, hconnects, hlisteners, hcallbacks, hhandler]
    omega

/-- Stopping a listener drops the connections it has accepted. -/
theorem count_listeners_stop {index : Nat} {listener : ManagedListenerState} (h : sys.listeners[index]? = some listener)
    (connection : Connection) :
    ((sys.listeners.set index { listener with stopping := true, listening := false, acceptedConnections := [] }).flatMap
        ManagedListenerState.acceptedConnections).count connection ≤
      (sys.listeners.flatMap ManagedListenerState.acceptedConnections).count connection := by
  have hcount := count_set h { listener with stopping := true, listening := false, acceptedConnections := [] }
    ManagedListenerState.acceptedConnections connection
  simp only [List.count_nil] at hcount
  omega

theorem connectionMove_of_next (h : sys.next step = some sys') : ConnectionMove sys sys' := by
  cases transition_of_next h with
  | ignoresConnect | ignores => exact .keeps (fun _ h => h) (fun _ => le_rfl) rfl
  | refusesConnect => exact .keeps (fun _ h => h.of_same rfl rfl rfl) (fun _ => le_rfl) rfl
  | startsConnect =>
    refine .keeps (fun socket h => h.of_table (fun _ _ h => h) (fun _ _ hmem => ?_) fun _ _ h hsocket =>
      .handler h hsocket) (fun connection => by simp [waiting, ConnectCall.waiting]) rfl
    rcases List.mem_append.mp hmem with hold | hnew
    · exact hold
    · cases List.mem_singleton.mp hnew
  | @connects worker _ _ request _ _ _ socket hworker hconnection =>
    refine .arrives (fun socket h => h.of_table (fun _ _ h => h) (fun _ _ hmem => ?_) fun _ _ h hsocket =>
      .handler h hsocket) (fun connection => ?_) rfl
    · rcases mem_connects_set hworker hmem with hnew | hold
      · cases hnew
      · exact hold
    · have hcount := count_set hworker (.registering request socket) ConnectCall.waiting connection
      simp only [waiting, ConnectCall.waiting, List.count_nil, hconnection] at hcount ⊢
      omega
  | failsConnect hworker => exact .of_eraseIdx hworker (fun _ _ h => h) rfl rfl rfl rfl rfl
  | @registersConnect worker request socket hworker =>
    refine .registers socket (fun other h => ?_) (fun connection => ?_) rfl
    · cases h with
      | table h => exact (getElem?_of_insertIfNew h).imp id .table
      | connect h =>
        rcases mem_connects_set hworker h with hnew | hold
        · cases hnew
          exact .inl rfl
        · exact .inr (.connect hold)
      | handler h hsocket => exact .inr (.handler h hsocket)
    · have hcount := count_set hworker (.acknowledging request socket) ConnectCall.waiting connection
      simp only [waiting, ConnectCall.waiting, List.count_nil] at hcount ⊢
      omega
  | acknowledgesConnect hworker => exact .of_eraseIdx hworker (fun _ _ h => h) rfl rfl rfl rfl rfl
  | takesBackConnect hworker => exact .of_eraseIdx hworker (fun _ _ h => getElem?_of_erase h) rfl rfl rfl rfl rfl
  | proceeds _ hadmits => exact connectionMove_admits hadmits
  | opensListener hhandler =>
    refine .of_handler (fun _ _ h => h) rfl rfl (fun connection => ?_) (fun _ _ h hsocket => by cases h; cases hsocket) rfl
    rw [hhandler, List.flatMap_append, List.count_append]
    simp [HandlerCall.waiting]
  | takesListener | registersListener =>
    exact .of_handler (fun _ _ h => h) rfl rfl (fun connection => Nat.add_le_add_left (Nat.zero_le _) _)
      (fun _ _ h hsocket => by cases h; cases hsocket) rfl
  | takesBackListener _ hlistener => exact .of_return (fun _ _ h => h) rfl rfl (count_listeners_stop hlistener) rfl rfl
  | closesListener _ hlistener => exact .of_return (fun _ _ h => h) rfl rfl (count_listeners_stop hlistener) rfl rfl
  | @refusesAccepted _ _ _ _ _ _ _ _ rest _ listener _ hlistener haccepted =>
    refine .of_return (fun _ _ h => h) rfl rfl (fun other => ?_) rfl rfl
    have hcount := count_set hlistener { listener with acceptedConnections := rest }
      ManagedListenerState.acceptedConnections other
    simp only [haccepted, List.count_cons] at hcount
    show ((sys.listeners.set _ _).flatMap _).count other ≤ _
    omega
  | @takesAccepted _ _ _ _ _ _ _ rest _ listener _ _ hlistener haccepted =>
    refine .of_handler (fun _ _ h => h) rfl rfl (fun other => ?_) (fun _ _ h hsocket => by cases h; cases hsocket) rfl
    have hcount := count_set hlistener { listener with acceptedConnections := rest }
      ManagedListenerState.acceptedConnections other
    simp only [haccepted, List.count_cons] at hcount
    simp only [Option.toList_some, List.flatMap_singleton, HandlerCall.waiting, List.count_singleton]
    omega
  | @registersAccepted _ _ socket _ hhandler =>
    refine .registers socket (fun other h => ?_) (fun connection => ?_) rfl
    · cases h with
      | table h => exact (getElem?_of_insertIfNew h).imp id .table
      | connect h => exact .inr (.connect h)
      | handler h hsocket =>
        cases h
        cases hsocket
        exact .inl rfl
    · rw [waiting, waiting, hhandler]
      simp [HandlerCall.waiting]
  | takesBackAccepted => exact .of_return (fun _ _ h => getElem?_of_erase h) rfl rfl (fun _ => le_rfl) rfl rfl
  | takesSocket _ hfound =>
    refine .of_handler (fun _ _ h => getElem?_of_erase h) rfl rfl
      (fun connection => Nat.add_le_add_left (Nat.zero_le _) _) (fun _ _ h hsocket => ?_) rfl
    cases h
    cases hsocket
    exact .table hfound
  | returnsSocket hhandler =>
    -- the socket that is put back was registered before
    refine .keeps (fun other h => ?_) (fun connection => Nat.add_le_add_left (Nat.zero_le _) _) rfl
    cases h with
    | table h =>
      rcases getElem?_of_insertIfNew h with rfl | hold
      · exact .handler hhandler rfl
      · exact .table hold
    | connect h => exact .connect h
    | handler h _ => cases h
  | closesAccepted => exact .arrives (fun _ h => h.of_same rfl rfl rfl) (fun connection => Nat.le_add_right _ _) rfl
  | queuesCallback =>
    refine .arrives (fun _ h => h.of_same rfl rfl rfl) (fun connection => ?_) rfl
    simp only [waiting, List.flatMap_append, List.flatMap_singleton, AcceptCallback.waiting, List.count_append]
    omega
  | @queuesAccepted _ listener hlistener =>
    refine .arrives (fun _ h => h.of_same rfl rfl rfl) (fun connection => ?_) rfl
    have hcount := count_set hlistener
      { listener with acceptedConnections := listener.acceptedConnections ++ [sys.nextConnection] }
      ManagedListenerState.acceptedConnections connection
    simp only [List.count_append] at hcount
    simp only [waiting]
    omega
  | @registersCallback _ _ index socket hcallback =>
    refine .registers socket (fun other h => ?_) (fun other => ?_) rfl
    · cases h with
      | table h => exact (getElem?_of_insertIfNew h).imp id .table
      | connect h => exact .inr (.connect h)
      | handler h hsocket => exact .inr (.handler h hsocket)
    · have hcount := count_set hcallback (.acknowledging index socket) AcceptCallback.waiting other
      simp only [AcceptCallback.waiting, List.count_nil] at hcount
      simp only [waiting]
      omega
  | acknowledgesCallback hcallback =>
    refine .keeps (fun _ h => h.of_same rfl rfl rfl) (fun connection => ?_) rfl
    have hcount := count_eraseIdx_le hcallback AcceptCallback.waiting connection
    simp only [waiting, emit]
    omega
  | takesBackCallback hcallback =>
    refine .keeps (fun socket h => h.of_table (fun _ _ h => getElem?_of_erase h) (fun _ _ h => h) fun _ _ h hsocket =>
      .handler h hsocket) (fun connection => ?_) rfl
    have hcount := count_eraseIdx_le hcallback AcceptCallback.waiting connection
    simp only [waiting, emit, stopManagedSocket]
    omega
  | _ => exact .of_return (fun _ _ h => h) rfl rfl (fun _ => le_rfl) rfl rfl

/-- In every run a connection belongs to at most one socket. -/
theorem exists_accounts (h : machine.Reaches sys) : ∃ socketOf, Accounts sys socketOf := by
  refine h.invariant (I := fun sys => ∃ socketOf, Accounts sys socketOf) (fun sys hinit => ?_)
    fun sys step sys' ⟨socketOf, haccounts⟩ hstep => exists_accounts_of_move haccounts (connectionMove_of_next hstep)
  obtain rfl : sys = {} := hinit
  refine ⟨fun _ => none, fun socket hsocket => ?_, fun _ _ => rfl, fun _ => Nat.zero_le _, fun _ _ => ⟨rfl, rfl⟩⟩
  cases hsocket with
  | table h => simp at h
  | connect h => cases h
  | handler h _ => cases h

/-! ### Whose connection it is -/

theorem waiting_pos_of_connect {call : ConnectCall} {connection : Connection} (hcall : call ∈ sys.connects)
    (h : connection ∈ call.waiting) : 0 < sys.waiting connection := by
  have hpos := List.count_pos_iff.mpr (List.mem_flatMap.mpr ⟨call, hcall, h⟩)
  rw [waiting]
  omega

theorem waiting_pos_of_listener {index : Nat} {listener : ManagedListenerState} {connection : Connection}
    (hlistener : sys.listeners[index]? = some listener) (h : connection ∈ listener.acceptedConnections) :
    0 < sys.waiting connection := by
  have hpos := List.count_pos_iff.mpr (List.mem_flatMap.mpr ⟨listener, List.mem_of_getElem? hlistener, h⟩)
  rw [waiting]
  omega

theorem waiting_pos_of_callback {call : AcceptCallback} {connection : Connection} (hcall : call ∈ sys.callbacks)
    (h : connection ∈ call.waiting) : 0 < sys.waiting connection := by
  have hpos := List.count_pos_iff.mpr (List.mem_flatMap.mpr ⟨call, hcall, h⟩)
  rw [waiting]
  omega

theorem waiting_pos_of_handler {call : HandlerCall} {connection : Connection} (hcall : sys.handler = some call)
    (h : connection ∈ call.waiting) : 0 < sys.waiting connection := by
  have hpos := List.count_pos_iff.mpr (List.mem_flatMap.mpr ⟨call, Option.mem_toList.mpr hcall, h⟩)
  rw [waiting]
  omega

theorem Accounts.ne_of_waiting {socketOf : Connection → Option ManagedSocketState} (h : Accounts sys socketOf)
    {socket : ManagedSocketState} {connection : Connection} (hwaiting : 0 < sys.waiting connection)
    (hregistered : Registered sys socket) : socket.connection ≠ connection := by
  rintro rfl
  have hnone := h.waiting _ hwaiting
  rw [h.registered _ hregistered] at hnone
  cases hnone

theorem Accounts.eq_of_registered {socketOf : Connection → Option ManagedSocketState} (h : Accounts sys socketOf)
    {socket other : ManagedSocketState} (hsocket : Registered sys socket) (hother : Registered sys other)
    (heq : socket.connection = other.connection) : socket = other := by
  have hof := h.registered _ hsocket
  rw [heq, h.registered _ hother] at hof
  exact (Option.some.inj hof).symm

end BsdSockets

end Rsp
