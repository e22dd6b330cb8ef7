import Rsp.ResourceService.Ownership

/-!
# Connections that are acknowledged

A worker that has made a connection puts it into the table of the connected sockets and then answers SUCCESS. The table keeps an entry that is there already, and neither the worker nor anyone else looks at whether the new connection went in. This module says which steps leave every connection that is about to be acknowledged in the table under its identifier.
-/

namespace Rsp

namespace BsdSockets

open Proto

variable {sys sys' : BsdSockets} {step : Step} {socketOf : Connection → Option ManagedSocketState}

/-- The connection that is acknowledged next. -/
def ConnectCall.acknowledged : ConnectCall → Option ManagedSocketState
  | .acknowledging _ socket => some socket
  | _ => none

/-- The connections of the workers between their registration and their answer. -/
def acknowledged (sys : BsdSockets) : List ManagedSocketState := sys.connects.filterMap ConnectCall.acknowledged

/-- Every SUCCESS that a worker can send in this state goes to the node that the table has, at that moment, as the owner of the new connection under the identifier. -/
def AcknowledgesOwned (sys : BsdSockets) : Prop :=
  ∀ (worker : Nat) sys', sys.next (.acknowledgeConnect worker true) = some sys' →
    ∃ request socket, sys.connects[worker]? = some (.acknowledging request socket) ∧
      sys'.effects = sys.effects ++ [.reply (makeStreamReplyMessage request .success "" (some socket.socketId)) true] ∧
      (∃ requester, request.sender = some requester ∧ socket.requesterNodeId = toProtoNodeId requester) ∧
      sys'.managedSockets[socket.socketId]? = some socket

/-- One of the calls is about to acknowledge a connection under the identifier. -/
def acknowledges (connects : List ConnectCall) (id : GUID) : Bool :=
  (connects.filterMap ConnectCall.acknowledged).any (·.socketId == id)

/-- A connection is registered under an identifier that is free, and nothing is taken out of the table that a worker is about to acknowledge. -/
def keepsAcknowledged (sys : BsdSockets) : Step → Bool
  | .registerConnect worker =>
    match sys.connects[worker]? with
    | some (.registering _ socket) => !sys.managedSockets.contains socket.socketId
    | _ => true
  | .acknowledgeConnect worker sent =>
    match sys.connects[worker]? with
    | some (.acknowledging _ socket) => sent || !acknowledges (sys.connects.eraseIdx worker) socket.socketId
    | _ => true
  | .acknowledgeAccepted sent =>
    match sys.handler with
    | some (.acceptAcknowledging _ _ socket) => sent || !acknowledges sys.connects socket.socketId
    | _ => true
  | .findClosing _ =>
    match sys.handler with
    | some (.closeFinding _ socketId) => !sys.managedSockets.contains socketId || !acknowledges sys.connects socketId
    | _ => true
  | .acknowledgeCallback callback sent =>
    match sys.callbacks[callback]? with
    | some (.acknowledging _ socket) => sent || !acknowledges sys.connects socket.socketId
    | _ => true
  | _ => true

/-! ### The calls of the workers -/

theorem mem_acknowledged_set {connects : List ConnectCall} {worker : Nat} {old new : ConnectCall} {socket : ManagedSocketState}
    (h : connects[worker]? = some old) (hold : old.acknowledged = none) :
    socket ∈ (connects.set worker new).filterMap ConnectCall.acknowledged ↔
      new.acknowledged = some socket ∨ socket ∈ connects.filterMap ConnectCall.acknowledged := by
  have hset : (connects.set worker new).Perm (new :: connects.eraseIdx worker) := Counting.replaceAt_perm h (some new)
  rw [(hset.filterMap _).mem_iff, ((Counting.perm_of_getElem? h).filterMap _).mem_iff, List.mem_filterMap, List.mem_filterMap,
    List.exists_mem_cons_iff, List.exists_mem_cons_iff, hold]
  simp

theorem mem_acknowledged_of_eraseIdx {connects : List ConnectCall} {worker : Nat} {socket : ManagedSocketState}
    (h : socket ∈ (connects.eraseIdx worker).filterMap ConnectCall.acknowledged) :
    socket ∈ connects.filterMap ConnectCall.acknowledged :=
  ((List.eraseIdx_sublist connects worker).filterMap _).subset h

theorem not_acknowledges_iff {connects : List ConnectCall} {id : GUID} :
    (!acknowledges connects id) = true ↔ ∀ socket ∈ connects.filterMap ConnectCall.acknowledged, socket.socketId ≠ id := by
  rw [acknowledges, Bool.not_eq_true', List.any_eq_false]
  simp only [beq_iff_eq, ne_eq]

/-! ### What a step does to them -/

/-- The connections about to be acknowledged are in the table. -/
def AllRegistered (sys : BsdSockets) : Prop :=
  ∀ socket ∈ sys.acknowledged, sys.managedSockets[socket.socketId]? = some socket

/-- The socket of a call is made for the sender of its request. -/
def ConnectCall.Requested : ConnectCall → Prop
  | .connecting request _ requester _ => request.sender = some requester
  | .registering request socket | .acknowledging request socket =>
    ∃ requester, request.sender = some requester ∧ socket.requesterNodeId = toProtoNodeId requester

def AllRequested (sys : BsdSockets) : Prop := ∀ call ∈ sys.connects, call.Requested

inductive ReplyMove (sys : BsdSockets) (step : Step) (sys' : BsdSockets) : Prop
  | keeps (hrequested : sys.AllRequested → sys'.AllRequested)
    (hcalls : ∀ socket ∈ sys'.acknowledged, socket ∈ sys.acknowledged)
    (htable : ∀ (id : GUID) socket, sys.managedSockets[id]? = some socket → sys'.managedSockets[id]? = some socket)
    (hkeeps : sys.keepsAcknowledged step = true)
  | registers (hrequested : sys.AllRequested → sys'.AllRequested) (socket : ManagedSocketState)
    (hwaiting : 0 < sys.waiting socket.connection)
    (hcalls : ∀ other, other ∈ sys'.acknowledged ↔ socket = other ∨ other ∈ sys.acknowledged)
    (htable : sys'.managedSockets = sys.managedSockets.insertIfNew socket.socketId socket)
    (hkeeps : sys.keepsAcknowledged step = true ↔ socket.socketId ∉ sys.managedSockets)
  | erases (hrequested : sys.AllRequested → sys'.AllRequested) (id : GUID)
    (hcalls : ∀ socket ∈ sys'.acknowledged, socket ∈ sys.acknowledged)
    (htable : sys'.managedSockets = sys.managedSockets.erase id)
    (hkeeps : sys.keepsAcknowledged step = true ↔ ∀ socket ∈ sys'.acknowledged, socket.socketId ≠ id)

theorem AllRequested.of_sublist (hconnects : sys'.connects.Sublist sys.connects) (h : sys.AllRequested) : sys'.AllRequested :=
  fun call hcall => h call (hconnects.subset hcall)

theorem AllRequested.set (h : sys.AllRequested) {worker : Nat} {old new : ConnectCall} (hworker : sys.connects[worker]? = some old)
    (hnew : old.Requested → new.Requested) : ∀ call ∈ sys.connects.set worker new, call.Requested := by
  intro call hcall
  rcases mem_connects_set hworker hcall with rfl | hmem
  · exact hnew (h old (List.mem_of_getElem? hworker))
  · exact h call hmem

theorem ReplyMove.same (hconnects : sys'.connects = sys.connects) (htable : sys'.managedSockets = sys.managedSockets)
    (hkeeps : sys.keepsAcknowledged step = true) : ReplyMove sys step sys' := by
  refine .keeps (.of_sublist (hconnects ▸ List.Sublist.refl _)) ?_ ?_ hkeeps
  · intro socket hsocket
    rwa [acknowledged, hconnects] at hsocket
  · intro id socket hsocket
    rwa [htable]

theorem ReplyMove.drops (id : GUID) (hconnects : sys'.connects.Sublist sys.connects)
    (htable : sys'.managedSockets = sys.managedSockets.erase id)
    (hkeeps : sys.keepsAcknowledged step = !acknowledges sys'.connects id) : ReplyMove sys step sys' := by
  refine .erases (.of_sublist hconnects) id (fun socket hsocket => (hconnects.filterMap _).subset hsocket) htable ?_
  rw [hkeeps]
  exact not_acknowledges_iff

theorem ReplyMove.adds (id : GUID) (socket : ManagedSocketState) (hconnects : sys'.connects = sys.connects)
    (htable : sys'.managedSockets = sys.managedSockets.insertIfNew id socket) (hkeeps : sys.keepsAcknowledged step = true) :
    ReplyMove sys step sys' := by
  refine .keeps (.of_sublist (hconnects ▸ List.Sublist.refl _)) ?_ ?_ hkeeps
  · intro socket hsocket
    rwa [acknowledged, hconnects] at hsocket
  · intro other old hold
    rw [htable]
    exact getElem?_insertIfNew_of_some hold

theorem contains_iff_getElem? {id : GUID} : sys.managedSockets.contains id = (sys.managedSockets[id]?).isSome :=
  Std.TreeMap.contains_eq_isSome_getElem?

theorem replyMove_of_next (h : sys.next step = some sys') : ReplyMove sys step sys' := by
  cases transition_of_next h with
  | startsConnect hsender =>
    refine .keeps (fun hall call hcall => ?_) (fun socket hsocket => ?_) (fun _ _ => id) rfl
    · rcases List.mem_append.mp hcall with hold | hnew
      · exact hall call hold
      · obtain rfl := List.mem_singleton.mp hnew
        exact hsender
    · simpa [acknowledged, ConnectCall.acknowledged] using hsocket
  | connects hworker _ howner =>
    refine .keeps (fun hall => hall.set hworker fun hsender => ⟨_, hsender, howner⟩) (fun socket hsocket => ?_)
      (fun _ _ => id) rfl
    exact ((mem_acknowledged_set hworker rfl).mp hsocket).resolve_left (by simp [ConnectCall.acknowledged])
  | failsConnect =>
    exact .keeps (.of_sublist (List.eraseIdx_sublist ..)) (fun socket hsocket => mem_acknowledged_of_eraseIdx hsocket)
      (fun _ _ => id) rfl
  | registersConnect hworker =>
    refine .registers (fun hall => hall.set hworker id) _
      (waiting_pos_of_connect (List.mem_of_getElem? hworker) (by simp [ConnectCall.waiting])) (fun other => ?_) rfl ?_
    · rw [acknowledged, mem_acknowledged_set hworker rfl, ConnectCall.acknowledged, Option.some.injEq]
      rfl
    · simp [keepsAcknowledged, hworker, ← Std.TreeMap.contains_iff_mem]
  | acknowledgesConnect hworker =>
    refine .keeps (.of_sublist (List.eraseIdx_sublist ..)) (fun socket hsocket => mem_acknowledged_of_eraseIdx hsocket)
      (fun _ _ => id) ?_
    simp [keepsAcknowledged, hworker]
  | takesBackConnect hworker =>
    exact .drops _ (List.eraseIdx_sublist ..) rfl (by simp [keepsAcknowledged, hworker])
  | answers _ hstep => exact .same rfl rfl (by cases step <;> first | rfl | cases hstep)
  | acts _ hacts => exact .same rfl rfl (by cases hacts <;> rfl)
  | acknowledgesAccepted hhandler => exact .same rfl rfl (by simp [keepsAcknowledged, hhandler])
  | takesBackAccepted hhandler =>
    exact .drops _ (.refl _) rfl (by simp [keepsAcknowledged, hhandler, stopManagedSocket, emit])
  | findsNothing hhandler hfound => exact .same rfl rfl (by simp [keepsAcknowledged, hhandler, contains_iff_getElem?, hfound])
  | takesSocket hhandler hfound =>
    -- a close request takes the socket out before it looks at its owner
    exact .drops _ (.refl _) rfl (by simp [keepsAcknowledged, hhandler, contains_iff_getElem?, hfound])
  | acknowledgesCallback hcallback => exact .same rfl rfl (by simp [keepsAcknowledged, hcallback])
  | takesBackCallback hcallback =>
    exact .drops _ (.refl _) rfl (by simp [keepsAcknowledged, hcallback, stopManagedSocket, emit])
  | registersAccepted | returnsSocket | registersCallback => exact .adds _ _ rfl rfl rfl
  | _ => exact .same rfl rfl rfl

/-! ### Runs -/

theorem AllRequested.of_move (h : sys.AllRequested) (hmove : ReplyMove sys step sys') : sys'.AllRequested := by
  cases hmove with
  | keeps hrequested => exact hrequested h
  | registers hrequested => exact hrequested h
  | erases hrequested => exact hrequested h

/-- A new connection is none of those in the table, so it is there after its registration just if its identifier was free. -/
theorem allRegistered_iff_of_move (h : sys.AllRegistered) (haccounts : Accounts sys socketOf) (hmove : ReplyMove sys step sys') :
    sys'.AllRegistered ↔ sys.keepsAcknowledged step = true := by
  cases hmove with
  | keeps _ hcalls htable hkeeps =>
    exact iff_of_true (fun socket hsocket => htable _ _ (h socket (hcalls socket hsocket))) hkeeps
  | registers _ socket hwaiting hcalls htable hkeeps =>
    rw [hkeeps]
    constructor
    · intro hafter hmem
      obtain ⟨old, hold⟩ := Option.isSome_iff_exists.mp (Std.TreeMap.mem_iff_isSome_getElem?.mp hmem)
      have hnew := hafter socket ((hcalls socket).mpr (.inl rfl))
      rw [htable, getElem?_insertIfNew_of_some hold, Option.some.injEq] at hnew
      exact haccounts.ne_of_waiting hwaiting (.table hold) (congrArg _ hnew)
    · intro hfree other hother
      rw [htable]
      rcases (hcalls other).mp hother with rfl | hbefore
      · rw [Std.TreeMap.getElem?_insertIfNew, if_pos ⟨Std.ReflCmp.compare_self, hfree⟩]
      · exact getElem?_insertIfNew_of_some (h other hbefore)
  | erases _ id hcalls htable hkeeps =>
    rw [hkeeps]
    constructor
    · rintro hafter socket hsocket rfl
      have hgone := hafter socket hsocket
      rw [htable, Std.TreeMap.getElem?_erase_self] at hgone
      cases hgone
    · intro hothers socket hsocket
      rw [htable, getElem?_erase_of_ne (hothers socket hsocket).symm]
      exact h socket (hcalls socket hsocket)

theorem acknowledgesOwned_iff (h : sys.AllRequested) : sys.AcknowledgesOwned ↔ sys.AllRegistered := by
  constructor
  · intro howned socket hsocket
    obtain ⟨call, hcall, hacknowledged⟩ := List.mem_filterMap.mp hsocket
    obtain ⟨worker, hworker⟩ := List.mem_iff_getElem?.mp hcall
    cases call with
    | acknowledging request other =>
      obtain rfl : other = socket := Option.some.inj hacknowledged
      obtain ⟨sys', hnext, htables⟩ : ∃ sys', sys.next (.acknowledgeConnect worker true) = some sys' ∧
          sys'.managedSockets = sys.managedSockets := by
        simp only [next, acknowledgeConnect, hworker]
        exact ⟨_, rfl, rfl⟩
      obtain ⟨request', socket', hworker', -, -, htable⟩ := howned worker sys' hnext
      rw [hworker, Option.some.injEq, ConnectCall.acknowledging.injEq] at hworker'
      obtain ⟨-, rfl⟩ := hworker'
      exact htables ▸ htable
    | connecting => cases hacknowledged
    | registering => cases hacknowledged
  · intro hregistered worker sys' hnext
    simp only [next, acknowledgeConnect] at hnext
    split at hnext
    · next request socket hworker =>
      cases hnext
      have hcall := List.mem_of_getElem? hworker
      exact ⟨request, socket, hworker, rfl, h _ hcall, hregistered socket (List.mem_filterMap.mpr ⟨_, hcall, rfl⟩)⟩
    · cases hnext

/-- The service with only the steps that keep what is about to be acknowledged. -/
def acknowledgingMachine : Machine BsdSockets Step := machine.restrict fun sys step => sys.keepsAcknowledged step = true

theorem reaches_of_acknowledging (h : acknowledgingMachine.Reaches sys) : machine.Reaches sys := by
  induction h with
  | start hinit => exact .start hinit
  | step _ hstep ih => exact ih.step (Machine.restrict_next hstep).2

theorem allRegistered_of_acknowledging (h : acknowledgingMachine.Reaches sys) : sys.AllRegistered ∧ sys.AllRequested := by
  induction h with
  | @start sys hinit =>
    obtain rfl : sys = {} := hinit
    exact ⟨fun _ hsocket => (by cases hsocket), fun _ hcall => (by cases hcall)⟩
  | step hs hstep ih =>
    obtain ⟨hkeeps, hnext⟩ := Machine.restrict_next hstep
    obtain ⟨socketOf, haccounts⟩ := exists_accounts (reaches_of_acknowledging hs)
    have hmove := replyMove_of_next hnext
    exact ⟨(allRegistered_iff_of_move ih.1 haccounts hmove).mpr hkeeps, ih.2.of_move hmove⟩

end BsdSockets

open BsdSockets

/-- As long as every step keeps what is about to be acknowledged, every SUCCESS answers the node that owns the new connection under its identifier; the first step that does not allows a SUCCESS for a connection that is not in the table. -/
theorem connect_owns_id_iff {sys sys' : BsdSockets} {step : Step} (h : acknowledgingMachine.Reaches sys)
    (hstep : sys.next step = some sys') :
    sys.AcknowledgesOwned ∧ (sys'.AcknowledgesOwned ↔ sys.keepsAcknowledged step = true) := by
  obtain ⟨hregistered, hrequested⟩ := allRegistered_of_acknowledging h
  obtain ⟨socketOf, haccounts⟩ := exists_accounts (reaches_of_acknowledging h)
  have hmove := replyMove_of_next hstep
  rw [acknowledgesOwned_iff hrequested, acknowledgesOwned_iff (hrequested.of_move hmove)]
  exact ⟨hregistered, allRegistered_iff_of_move hregistered haccounts hmove⟩

/-- A connect request on its own: its registration keeps the condition. -/
theorem connect_owns_id_iff_first : ∃ sys sys', acknowledgingMachine.Reaches sys ∧
    sys.next (.registerConnect 0) = some sys' ∧ sampleId ∈ sys'.managedSockets ∧ sys'.AcknowledgesOwned := by
  have hrun : ((acknowledgingMachine.run {} [.startConnect (sampleConnect ⟨0, 2⟩ sampleId) true,
      .finishConnect 0 true true]).any fun sys => sys.keepsAcknowledged (.registerConnect 0) &&
        (sys.next (.registerConnect 0)).any fun sys' => sys'.managedSockets.contains sampleId) = true := by
    decide +kernel
  obtain ⟨sys, hreaches, hsys⟩ := Machine.exists_reaches_of_run rfl hrun
  rw [Bool.and_eq_true] at hsys
  obtain ⟨sys', hnext, hmem⟩ := (Option.any_eq_true ..).mp hsys.2
  exact ⟨sys, sys', hreaches, hnext, Std.TreeMap.contains_iff_mem.mp hmem,
    (connect_owns_id_iff hreaches hnext).2.mpr hsys.1⟩

/-- Node 1 has a socket under the identifier. Node 2 connects with the same one and gets a SUCCESS, and the table still has the socket of node 1. -/
theorem connect_acknowledged_without_id : ∃ sys sys', machine.Reaches sys ∧
    sys.next (.acknowledgeConnect 0 true) = some sys' ∧
    sys'.effects = sys.effects ++
      [.reply (makeStreamReplyMessage (sampleConnect ⟨0, 2⟩ sampleId) .success "" (some sampleId)) true] ∧
    sys'.managedSockets[sampleId]? = some sampleSocket ∧ sampleSocket.requesterNodeId ≠ toProtoNodeId ⟨0, 2⟩ := by
  have hrun : ((machine.run {} sameIdTwice).any fun sys =>
      (sys.next (.acknowledgeConnect 0 true)).any fun sys' => sys'.effects == sys.effects ++
          [.reply (makeStreamReplyMessage (sampleConnect ⟨0, 2⟩ sampleId) .success "" (some sampleId)) true] &&
        sys'.managedSockets[sampleId]? == some sampleSocket) = true := by
    decide +kernel
  obtain ⟨sys, hreaches, hsys⟩ := Machine.exists_reaches_of_run rfl hrun
  obtain ⟨sys', hnext, hsys'⟩ := (Option.any_eq_true ..).mp hsys
  simp only [Bool.and_eq_true, beq_iff_eq] at hsys'
  exact ⟨sys, sys', hreaches, hnext, hsys'.1, hsys'.2, by decide⟩

end Rsp
