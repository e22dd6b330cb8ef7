import Rsp.ResourceService.Transitions

/-!
# Stream identifiers

A stream identifier should name a connected or a listening socket, not both. Two of the six places that put a socket into a table look at both tables in the same critical section; this module says what the others have to meet.
-/

namespace Rsp

namespace BsdSockets

variable {sys sys' : BsdSockets} {step : Step}

def UniqueIds (sys : BsdSockets) : Prop := ∀ id, ¬ (id ∈ sys.managedSockets ∧ id ∈ sys.managedListeningSockets)

/-- The step does not put an identifier into one table that the other one has. Only the places without a check of their own are restricted: a new connection, a new listener, which was checked before the port was bound, and a listener that is put back because a stranger wanted to close it. -/
def keepsIdsApart (sys : BsdSockets) : Step → Bool
  | .registerConnect worker =>
    match sys.connects[worker]? with
    | some (.registering _ socket) => !sys.managedListeningSockets.contains socket.socketId
    | _ => true
  | .registerListener =>
    match sys.handler with
    | some (.listenRegistering _ _ socketId) => !sys.managedSockets.contains socketId
    | _ => true
  | .finishCloseListener _ =>
    match sys.handler with
    | some (.closingListener request socketId index) =>
      (sys.listeners[index]?).all (validateListeningSocketAccess request) || !sys.managedSockets.contains socketId
    | _ => true
  | _ => true

/-- The identifier of a close request that has found no listener. -/
def HandlerCall.closingId : HandlerCall → Option GUID
  | .closeFinding _ socketId => some socketId
  | .closingSocket _ socketId _ => some socketId
  | _ => none

def closingId (sys : BsdSockets) : Option GUID := sys.handler.bind HandlerCall.closingId

/-- No listener has got the identifier since: only the thread that handles the close request registers listeners. -/
def ClosingFree (sys : BsdSockets) : Prop := ∀ id, sys.closingId = some id → id ∉ sys.managedListeningSockets

/-! ### What a step does to the tables -/

inductive TableMove (sys : BsdSockets) (step : Step) (sys' : BsdSockets) : Prop
  | shrinks (hsockets : ∀ id ∈ sys'.managedSockets, id ∈ sys.managedSockets)
    (hlisteners : ∀ id ∈ sys'.managedListeningSockets, id ∈ sys.managedListeningSockets)
    (hclosing : ∀ id, sys'.closingId = some id → sys.closingId = some id ∨ id ∉ sys'.managedListeningSockets)
    (hapart : sys.keepsIdsApart step = true)
  | addsSocket (id : GUID) (hsockets : ∀ other, other ∈ sys'.managedSockets ↔ id = other ∨ other ∈ sys.managedSockets)
    (hlisteners : sys'.managedListeningSockets = sys.managedListeningSockets)
    (hclosing : sys'.closingId = sys.closingId ∨ sys'.closingId = none)
    (hapart : sys.keepsIdsApart step = true ↔ id ∉ sys.managedListeningSockets)
  | addsListener (id : GUID) (hsockets : sys'.managedSockets = sys.managedSockets)
    (hlisteners : ∀ other, other ∈ sys'.managedListeningSockets ↔ id = other ∨ other ∈ sys.managedListeningSockets)
    (hclosing : sys'.closingId = none) (hapart : sys.keepsIdsApart step = true ↔ id ∉ sys.managedSockets)

theorem TableMove.keeps (hsockets : sys'.managedSockets = sys.managedSockets)
    (hlisteners : sys'.managedListeningSockets = sys.managedListeningSockets)
    (hclosing : sys'.closingId = sys.closingId ∨ sys'.closingId = none) (hapart : sys.keepsIdsApart step = true) :
    TableMove sys step sys' := by
  refine .shrinks (fun id hid => hsockets ▸ hid) (fun id hid => hlisteners ▸ hid) (fun id hid => ?_) hapart
  rcases hclosing with heq | hnone
  · exact .inl (heq ▸ hid)
  · rw [hnone] at hid
    cases hid

theorem TableMove.dropsSocket (id : GUID) (hsockets : sys'.managedSockets = sys.managedSockets.erase id)
    (hlisteners : sys'.managedListeningSockets = sys.managedListeningSockets)
    (hclosing : sys'.closingId = sys.closingId ∨ sys'.closingId = none) (hapart : sys.keepsIdsApart step = true) :
    TableMove sys step sys' := by
  refine .shrinks (fun other hother => ?_) (fun id hid => hlisteners ▸ hid) (fun id hid => ?_) hapart
  · rw [hsockets] at hother
    exact Std.TreeMap.mem_of_mem_erase hother
  · rcases hclosing with heq | hnone
    · exact .inl (heq ▸ hid)
    · rw [hnone] at hid
      cases hid

theorem mem_insertIfNew_iff {α : Type} {table : Std.TreeMap GUID α} {id other : GUID} {value : α} :
    other ∈ table.insertIfNew id value ↔ id = other ∨ other ∈ table := by
  rw [Std.TreeMap.mem_insertIfNew, Std.compare_eq_iff_eq]

theorem isInUse_eq_false {id : GUID} :
    sys.isInUse id = false ↔ id ∉ sys.managedSockets ∧ id ∉ sys.managedListeningSockets := by
  simp [isInUse, ← Std.TreeMap.contains_iff_mem]

theorem tableMove_of_next (hfree : sys.ClosingFree) (h : sys.next step = some sys') : TableMove sys step sys' := by
  cases transition_of_next h with
  | registersConnect hworker =>
    refine .addsSocket _ (fun other => mem_insertIfNew_iff) rfl (.inl rfl) ?_
    simp [keepsIdsApart, hworker, ← Std.TreeMap.contains_iff_mem]
  | takesBackConnect => exact .dropsSocket _ rfl rfl (.inl rfl) rfl
  | proceeds hidle hadmits =>
    cases hadmits with
    | @close socketId habsent =>
      -- the identifier is looked up and found absent in the same critical section
      refine .shrinks (fun _ hid => hid) (fun _ hid => hid) (fun id hid => .inr ?_) rfl
      obtain rfl : socketId = id := Option.some.inj hid
      rw [Std.TreeMap.mem_iff_isSome_getElem?, habsent]
      exact Bool.false_ne_true
    | _ => exact .keeps rfl rfl (.inr rfl) rfl
  | takesListener =>
    exact .shrinks (fun _ hid => hid) (fun _ hid => Std.TreeMap.mem_of_mem_erase hid) (fun _ hid => by cases hid) rfl
  | answers _ hstep => exact .keeps rfl rfl (.inr rfl) (by cases step <;> first | rfl | cases hstep)
  | acts _ hacts => exact .keeps rfl rfl (.inr rfl) (by cases hacts <;> rfl)
  | registersListener hhandler =>
    refine .addsListener _ rfl (fun other => mem_insertIfNew_iff) rfl ?_
    simp [keepsIdsApart, hhandler, ← Std.TreeMap.contains_iff_mem]
  | takesBackListener =>
    exact .shrinks (fun _ hid => hid) (fun _ hid => Std.TreeMap.mem_of_mem_erase hid) (fun _ hid => by cases hid) rfl
  | registersAccepted _ hfresh =>
    exact .addsSocket _ (fun other => mem_insertIfNew_iff) rfl (.inr rfl) (iff_of_true rfl (isInUse_eq_false.mp hfresh).2)
  | takesBackAccepted => exact .dropsSocket _ rfl rfl (.inr rfl) rfl
  | closesListener hhandler hlistener hvalid =>
    exact .keeps rfl rfl (.inr rfl) (by simp [keepsIdsApart, hhandler, hlistener, hvalid])
  | returnsListener hhandler hlistener hvalid =>
    refine .addsListener _ rfl (fun other => mem_insertIfNew_iff) rfl ?_
    simp [keepsIdsApart, hhandler, hlistener, hvalid, ← Std.TreeMap.contains_iff_mem]
  | takesSocket hhandler => exact .dropsSocket _ rfl rfl (.inl (by simp only [closingId, hhandler]; rfl)) rfl
  | returnsSocket hhandler =>
    refine .addsSocket _ (fun other => mem_insertIfNew_iff) rfl (.inr rfl) (iff_of_true rfl (hfree _ ?_))
    simp only [closingId, hhandler]
    rfl
  | registersCallback _ hfresh =>
    exact .addsSocket _ (fun other => mem_insertIfNew_iff) rfl (.inl rfl) (iff_of_true rfl (isInUse_eq_false.mp hfresh).2)
  | takesBackCallback => exact .dropsSocket _ rfl rfl (.inl rfl) rfl
  | _ => first | exact .keeps rfl rfl (.inl rfl) rfl | exact .keeps rfl rfl (.inr rfl) rfl

/-! ### Runs -/

theorem ClosingFree.of_tableMove (hfree : sys.ClosingFree) (hmove : TableMove sys step sys') : sys'.ClosingFree := by
  intro id hid
  cases hmove with
  | shrinks _ hlisteners hclosing _ =>
    rcases hclosing id hid with hbefore | hnot
    · exact fun hmem => hfree id hbefore (hlisteners id hmem)
    · exact hnot
  | addsSocket _ _ hlisteners hclosing _ =>
    rw [hlisteners]
    rcases hclosing with heq | hnone
    · exact hfree id (heq ▸ hid)
    · rw [hnone] at hid
      cases hid
  | addsListener _ _ _ hclosing _ =>
    rw [hclosing] at hid
    cases hid

/-- The identifiers stay unique just if the step keeps them apart. -/
theorem uniqueIds_iff_of_tableMove (hunique : sys.UniqueIds) (hmove : TableMove sys step sys') :
    sys'.UniqueIds ↔ sys.keepsIdsApart step = true := by
  cases hmove with
  | shrinks hsockets hlisteners _ hapart =>
    exact iff_of_true (fun id ⟨hsocket, hlistener⟩ => hunique id ⟨hsockets id hsocket, hlisteners id hlistener⟩) hapart
  | addsSocket id hsockets hlisteners _ hapart =>
    rw [hapart]
    constructor
    · intro hafter hmem
      exact hafter id ⟨(hsockets id).mpr (.inl rfl), hlisteners ▸ hmem⟩
    · rintro hnot other ⟨hsocket, hlistener⟩
      rw [hlisteners] at hlistener
      rcases (hsockets other).mp hsocket with rfl | hold
      · exact hnot hlistener
      · exact hunique other ⟨hold, hlistener⟩
  | addsListener id hsockets hlisteners _ hapart =>
    rw [hapart]
    constructor
    · intro hafter hmem
      exact hafter id ⟨hsockets ▸ hmem, (hlisteners id).mpr (.inl rfl)⟩
    · rintro hnot other ⟨hsocket, hlistener⟩
      rw [hsockets] at hsocket
      rcases (hlisteners other).mp hlistener with rfl | hold
      · exact hnot hsocket
      · exact hunique other ⟨hsocket, hold⟩

/-- The service with only the steps that keep the identifiers apart. -/
def carefulMachine : Machine BsdSockets Step := machine.restrict fun sys step => sys.keepsIdsApart step = true

theorem unique_of_careful (h : carefulMachine.Reaches sys) : sys.UniqueIds ∧ sys.ClosingFree := by
  refine h.invariant (I := fun sys => sys.UniqueIds ∧ sys.ClosingFree) (fun sys hinit => ?_) fun sys step sys' hinv hstep => ?_
  · obtain rfl : sys = {} := hinit
    exact ⟨fun id hid => by simp at hid, fun id hid => by cases hid⟩
  · obtain ⟨hapart, hnext⟩ := Machine.restrict_next hstep
    have hmove := tableMove_of_next hinv.2 hnext
    exact ⟨(uniqueIds_iff_of_tableMove hinv.1 hmove).mpr hapart, hinv.2.of_tableMove hmove⟩

end BsdSockets

open BsdSockets

/-- As long as every step keeps the identifiers apart no identifier is in both tables, and the first step that does not puts one there. -/
theorem stream_ids_unique_iff {sys sys' : BsdSockets} {step : Step} (h : carefulMachine.Reaches sys)
    (hstep : sys.next step = some sys') : sys.UniqueIds ∧ (sys'.UniqueIds ↔ sys.keepsIdsApart step = true) := by
  obtain ⟨hunique, hfree⟩ := unique_of_careful h
  exact ⟨hunique, uniqueIds_iff_of_tableMove hunique (tableMove_of_next hfree hstep)⟩

namespace BsdSockets

def sampleId : GUID := ⟨1, 2⟩

def sampleListen (sender : NodeID) (id : GUID) : Request :=
  { sender := some sender, body := .listen { hostPort := ascii "127.0.0.1:80", streamId := some (toProtoStreamId id) } }

def sampleConnect (sender : NodeID) (id : GUID) : Request :=
  { sender := some sender, body := .connect { hostPort := ascii "10.0.0.1:80", streamId := some (toProtoStreamId id) } }

/-- One node listens, and the same or another one connects with the same identifier. -/
def listenAndConnect : List Step :=
  [.receive (sampleListen ⟨0, 1⟩ sampleId) true, .openListener true true, .registerListener, .acknowledgeListener true,
    .startConnect (sampleConnect ⟨0, 2⟩ sampleId) true, .finishConnect 0 true true, .registerConnect 0]

end BsdSockets

theorem stream_id_in_both_tables :
    ∃ sys, machine.Reaches sys ∧ sampleId ∈ sys.managedSockets ∧ sampleId ∈ sys.managedListeningSockets := by
  have hrun : ((machine.run {} listenAndConnect).any fun sys =>
      sys.managedSockets.contains sampleId && sys.managedListeningSockets.contains sampleId) = true := by
    decide +kernel
  obtain ⟨sys, hreaches, hsys⟩ := Machine.exists_reaches_of_run rfl hrun
  simp only [Bool.and_eq_true, Std.TreeMap.contains_iff_mem] at hsys
  exact ⟨sys, hreaches, hsys.1, hsys.2⟩

/-- The connect request alone: its registration keeps the identifiers apart. -/
theorem stream_ids_unique_iff_connect : ∃ sys sys', carefulMachine.Reaches sys ∧
    sys.next (.registerConnect 0) = some sys' ∧ sampleId ∈ sys'.managedSockets ∧ sys'.UniqueIds := by
  have hrun : ((carefulMachine.run {} [.startConnect (sampleConnect ⟨0, 2⟩ sampleId) true,
      .finishConnect 0 true true]).any fun sys => sys.keepsIdsApart (.registerConnect 0) &&
        (sys.next (.registerConnect 0)).any fun sys' => sys'.managedSockets.contains sampleId) = true := by
    decide +kernel
  obtain ⟨sys, hreaches, hsys⟩ := Machine.exists_reaches_of_run rfl hrun
  simp only [Bool.and_eq_true, Option.any_eq_true, Std.TreeMap.contains_iff_mem] at hsys
  obtain ⟨hapart, sys', hnext, hmem⟩ := hsys
  exact ⟨sys, sys', hreaches, hnext, hmem, (stream_ids_unique_iff hreaches hnext).2.mpr hapart⟩

end Rsp
