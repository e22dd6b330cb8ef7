import Rsp.Client.StreamFrame

/-!
# What `streamSend` reports

Without a bridge every reply for a stream goes through one queue, and every call takes the front of it, whatever the reply answers. So the replies reach the calls in the order of their arrival: after any run the queue is what was in it and what has arrived since, without as many entries from the front as calls have taken. `streamSend` reports success exactly if the entry it takes by that count is a SUCCESS; data that the service pushed earlier makes it report a failure.
-/

namespace Rsp.ClientStreams

open Proto

/-- The statuses of the replies that wait in the queue of a stream. -/
def queued (sys : ClientStreams) (id : GUID) : List StreamStatus :=
  ((sys.streamReplyQueues[id]?).getD []).map (·.result.status)

/-- No connect or listen for the stream is in progress, and it has no bridge. -/
structure OpenUnbridged (sys : ClientStreams) (id : GUID) : Prop where
  connect : sys.pendingConnects[id]? ≠ some none
  listen : sys.pendingListens[id]? ≠ some none
  bridge : sys.nativeStreamBridges.find id = none

/-- The stream is not opened again and gets no bridge. -/
def Step.keepsUnbridged (id : GUID) : Step → Bool
  | .attach other => other != id
  | .beginOpen _ other => other != id
  | _ => true

/-- The status of a reply for the stream that comes in with this step. -/
def Step.arriving (id : GUID) : Step → List StreamStatus
  | .receive _ reply _ => if reply.streamId.bind fromProtoStreamId = some id then [reply.error] else []
  | _ => []

/-- How many replies of the stream a call takes in this step. -/
def takesFrom (sys : ClientStreams) (id : GUID) : Step → Nat
  | .finishCall index stopping _ =>
    if stopping = false ∧ (sys.calls[index]?).any (fun call => call.streamId == id) = true ∧ sys.queued id ≠ [] then 1
    else 0
  | _ => 0

/-- How many replies of the stream the calls take in a run. -/
def taken (sys : ClientStreams) (id : GUID) : List Step → Nat
  | [] => 0
  | step :: steps => sys.takesFrom id step + ((sys.next step).map fun sys' => sys'.taken id steps).getD 0

/-- The result of `streamSend` by the outcome of its wait. -/
def streamSendResult (reply : Option Received) : Bool := reply.any fun reply => reply.result.status == .success

variable {sys sys' sys'' : ClientStreams} {id other : GUID} {step : Step}

/-! ### One step -/

theorem queued_congr (h : sys'.streamReplyQueues[id]? = sys.streamReplyQueues[id]?) : sys'.queued id = sys.queued id := by
  rw [queued, h, queued]

theorem OpenUnbridged.congr (h : sys.OpenUnbridged id) (hconnects : sys'.pendingConnects = sys.pendingConnects)
    (hlistens : sys'.pendingListens = sys.pendingListens)
    (hbridges : sys'.nativeStreamBridges.find id = sys.nativeStreamBridges.find id) : sys'.OpenUnbridged id where
  connect := hconnects ▸ h.connect
  listen := hlistens ▸ h.listen
  bridge := hbridges.trans h.bridge

theorem OpenUnbridged.not_completesPending (h : sys.OpenUnbridged id) (status : StreamStatus) :
    ¬ sys.completesPending id status = true := by
  simp [completesPending, h.connect, h.listen]

theorem queued_queueReply (reply : Received) : (sys.queueReply id reply).queued id = sys.queued id ++ [reply.result.status] := by
  obtain ⟨awaited, results, hqueue⟩ := sys.exists_queueReply id reply
  rw [hqueue, queued, queued, Std.TreeMap.getElem?_insert_self, Option.getD_some, List.map_append, List.map_singleton]

theorem queued_queueReply_of_ne (reply : Received) (h : other ≠ id) : (sys.queueReply other reply).queued id = sys.queued id := by
  obtain ⟨awaited, results, hqueue⟩ := sys.exists_queueReply other reply
  have hne : ¬ compare other id = .eq := fun heq => h (Std.LawfulEqCmp.eq_of_compare heq)
  apply queued_congr
  rw [hqueue, Std.TreeMap.getElem?_insert, if_neg hne]

theorem queued_noteNewStream (sender : Option NodeID) (reply : StreamReply) :
    (sys.noteNewStream sender reply).queued id = sys.queued id := by
  obtain ⟨routes, hnoted⟩ := sys.exists_noteNewStream sender reply
  rw [hnoted]
  rfl

/-- A reply for the stream goes to the end of its queue. -/
theorem queued_routeReply (h : sys.OpenUnbridged id) (sender : Option NodeID) (reply : StreamReply) (drawn : GUID) :
    (sys.routeReply sender reply drawn).1.queued id = sys.queued id ++ Step.arriving id (.receive sender reply drawn) := by
  have hrouted := sys.routed sender reply drawn
  generalize sys.routeReply sender reply drawn = routed at hrouted ⊢
  rw [Step.arriving]
  cases hrouted with
  | unnamed hid =>
    rw [hid, if_neg (Option.some_ne_none id).symm, List.append_nil]
    rfl
  | completes other hid hpending =>
    have hne : other ≠ id := fun heq => h.not_completesPending _ (heq ▸ hpending)
    rw [hid, if_neg (by simpa using hne), List.append_nil, completePending]
    split <;> rfl
  | bridged other bridge hid hpending hbridge =>
    have hne : other ≠ id := by
      rintro rfl
      have hfind := find_of_bridgeFor hbridge
      rw [h.bridge] at hfind
      cases hfind
    have hother : ¬ some other = some id := fun heq => hne (Option.some.inj heq)
    rw [hid, if_neg hother, List.append_nil]
    split
    · exact queued_noteNewStream sender reply
    · exact queued_noteNewStream sender reply
  | queued other hid hpending hbridge =>
    rw [hid]
    by_cases heq : other = id
    · rw [heq, if_pos rfl, queued_queueReply, queued_noteNewStream]
      rfl
    · rw [if_neg (by simpa using heq), List.append_nil, queued_queueReply_of_ne _ heq, queued_noteNewStream]

theorem OpenUnbridged.routeReply (h : sys.OpenUnbridged id) (sender : Option NodeID) (reply : StreamReply) (drawn : GUID) :
    (sys.routeReply sender reply drawn).1.OpenUnbridged id := by
  have hrouted := sys.routed sender reply drawn
  obtain ⟨routes, hnoted⟩ := sys.exists_noteNewStream sender reply
  generalize sys.routeReply sender reply drawn = routed at hrouted ⊢
  cases hrouted with
  | unnamed hid => exact h.congr rfl rfl rfl
  | completes other hid hpending =>
    have hne : ¬ compare other id = .eq :=
      fun heq => h.not_completesPending _ (Std.LawfulEqCmp.eq_of_compare heq ▸ hpending)
    rw [completePending]
    split
    · refine ⟨?_, h.listen, h.bridge⟩
      rw [Std.TreeMap.getElem?_insert, if_neg hne]
      exact h.connect
    · refine ⟨h.connect, ?_, h.bridge⟩
      rw [Std.TreeMap.getElem?_insert, if_neg hne]
      exact h.listen
  | bridged other bridge hid hpending hbridge =>
    rw [hnoted]
    split
    · exact h.congr rfl rfl rfl
    · exact h.congr rfl rfl rfl
  | queued other hid hpending hbridge =>
    obtain ⟨awaited, results, hqueue⟩ := (sys.noteNewStream sender reply).exists_queueReply other
      ⟨sys.received.length, streamResultFromReply reply other⟩
    rw [hqueue, hnoted]
    exact h.congr rfl rfl rfl

/-- The wait takes the front of the queue, if there is one and the client is not stopping. -/
theorem queued_waitForStreamReply (stopping : Bool) :
    (sys.waitForStreamReply other stopping).1.queued id =
      (sys.queued id).drop (if stopping = false ∧ other = id ∧ sys.queued id ≠ [] then 1 else 0) := by
  by_cases htakes : stopping = false ∧ other = id ∧ sys.queued id ≠ []
  · rw [if_pos htakes]
    obtain ⟨rfl, rfl, hne⟩ := htakes
    rw [queued] at hne
    cases hqueue : sys.streamReplyQueues[other]? with
    | none => simp [hqueue] at hne
    | some queue =>
      cases queue with
      | nil => simp [hqueue] at hne
      | cons reply rest =>
        simp only [waitForStreamReply, hqueue, queued]
        cases rest <;> simp
  · rw [if_neg htakes, List.drop_zero]
    apply queued_congr
    rw [waitForStreamReply]
    split
    · next reply rest hqueue =>
      by_cases hstopping : stopping = true
      · rw [if_pos hstopping]
      · have hne : ¬ compare other id = .eq := by
          intro heq
          obtain rfl := Std.LawfulEqCmp.eq_of_compare heq
          exact htakes ⟨Bool.not_eq_true _ ▸ hstopping, rfl, by simp [queued, hqueue]⟩
        rw [if_neg hstopping]
        dsimp only
        split
        · rw [Std.TreeMap.getElem?_erase, if_neg hne]
        · rw [Std.TreeMap.getElem?_insert, if_neg hne]
    · rfl

theorem queued_of_callsOnly (h : CallsOnly sys sys') : sys'.queued id = sys.queued id := by
  obtain ⟨_, _, _, _, _, _, rfl⟩ := h
  rfl

theorem waitCall_eq_some {index : Nat} {stopping again : Bool} (h : sys.waitCall index stopping again = some sys') :
    ∃ call, sys.calls[index]? = some call ∧
      sys' = (sys.waitForStreamReply call.streamId stopping).1.finishCall index call
        (sys.waitForStreamReply call.streamId stopping).2 again := by
  obtain ⟨call, hcall, h⟩ := Option.bind_eq_some_iff.mp h
  split at h
  · exact ⟨call, hcall, (Option.some.inj h).symm⟩
  · cases h

/-- Writing buffered replies to a bridge leaves the queues and the table of the bridges alone. -/
theorem exists_writeBuffered {index took : Nat} (h : sys.writeBuffered index took = some sys') :
    ∃ bridges attaching handed, bridges.table = sys.nativeStreamBridges.table ∧
      sys' = { sys with nativeStreamBridges := bridges, attaching := attaching, handed := handed } := by
  obtain ⟨attachment, -, h⟩ := Option.bind_eq_some_iff.mp h
  obtain ⟨bridge, -, h⟩ := Option.bind_eq_some_iff.mp h
  split at h
  · cases h
    exact ⟨_, _, _, rfl, rfl⟩
  · split at h
    · split at h
      · cases h
        exact ⟨sys.nativeStreamBridges.update attachment.bridge _, _, _, rfl, rfl⟩
      · cases h
        exact ⟨sys.nativeStreamBridges.update attachment.bridge _, _, _, rfl, rfl⟩
    · cases h
      exact ⟨sys.nativeStreamBridges.update attachment.bridge _, _, _, rfl, rfl⟩

/-- What comes in goes to the end of the queue, and what is taken is taken from its front. -/
theorem queued_next (h : sys.OpenUnbridged id) (hkeeps : step.keepsUnbridged id) (hnext : sys.next step = some sys') :
    sys'.queued id = (sys.queued id ++ step.arriving id).drop (sys.takesFrom id step) := by
  have hsame (hqueues : sys'.queued id = sys.queued id) : sys'.queued id = (sys.queued id ++ []).drop 0 := by
    rw [hqueues, List.append_nil, List.drop_zero]
  cases step with
  | receive sender reply drawn =>
    simp only [next, receive] at hnext
    split at hnext
    · cases hnext
    · cases hnext
      exact queued_routeReply h sender reply drawn
  | writeBridge took =>
    obtain ⟨write, -, hwrite⟩ := Option.bind_eq_some_iff.mp hnext
    cases hwrite
    exact hsame rfl
  | beginOpen listens other =>
    cases hnext
    exact hsame (queued_of_callsOnly (sys.callsOnly_beginOpen listens other))
  | finishOpen listens other nodeId =>
    cases hnext
    exact hsame (queued_of_callsOnly (sys.callsOnly_finishOpen listens other nodeId))
  | beginCall kind other =>
    cases hnext
    exact hsame (queued_of_callsOnly (sys.callsOnly_beginCall kind other))
  | send index taken => exact hsame (queued_of_callsOnly (callsOnly_send hnext))
  | finishCall index stopping again =>
    obtain ⟨call, hcall, rfl⟩ := waitCall_eq_some hnext
    have harriving : Step.arriving id (.finishCall index stopping again) = [] := rfl
    rw [queued_of_callsOnly (callsOnly_finishCall _ index call _ again), queued_waitForStreamReply, harriving,
      List.append_nil, takesFrom, hcall]
    simp only [Option.any_some, beq_iff_eq]
  | tryDequeue =>
    cases hnext
    apply hsame
    rw [tryDequeueStreamResult]
    split <;> rfl
  | attach other =>
    cases hnext
    have hne : ¬ compare other id = .eq := fun heq => bne_iff_ne.mp hkeeps (Std.LawfulEqCmp.eq_of_compare heq)
    apply hsame
    apply queued_congr
    rw [attachNativeStreamBridge, Std.TreeMap.getElem?_erase, if_neg hne]
  | writeBuffered index took =>
    obtain ⟨bridges, attaching, handed, -, rfl⟩ := exists_writeBuffered hnext
    exact hsame rfl
  | endBridge bridge =>
    cases hnext
    exact hsame rfl

theorem OpenUnbridged.failCall (h : sys.OpenUnbridged id) (index : Nat) (call : StreamCall) :
    (sys.failCall index call).OpenUnbridged id := by
  unfold ClientStreams.failCall
  split <;> exact h.congr rfl rfl rfl

theorem OpenUnbridged.waitForStreamReply (h : sys.OpenUnbridged id) (stopping : Bool) :
    (sys.waitForStreamReply other stopping).1.OpenUnbridged id := by
  rw [ClientStreams.waitForStreamReply]
  split
  · split <;> exact h.congr rfl rfl rfl
  · exact h.congr rfl rfl rfl

theorem OpenUnbridged.finishCall (h : sys.OpenUnbridged id) (index : Nat) (call : StreamCall) (reply : Option Received)
    (again : Bool) : (sys.finishCall index call reply again).OpenUnbridged id := by
  unfold ClientStreams.finishCall
  split
  · exact h.congr rfl rfl rfl
  · split_ifs
    · exact h.congr rfl rfl rfl
    · exact h
    · exact h.congr rfl rfl rfl
    · exact h.congr rfl rfl rfl
  · split
    · split_ifs <;> exact h.congr rfl rfl rfl
    · exact h.congr rfl rfl rfl
  · exact h.congr rfl rfl rfl

theorem OpenUnbridged.next (h : sys.OpenUnbridged id) (hkeeps : step.keepsUnbridged id) (hnext : sys.next step = some sys') :
    sys'.OpenUnbridged id := by
  have hcompare {other : GUID} (hne : (other != id) = true) : ¬ compare other id = .eq :=
    fun heq => bne_iff_ne.mp hne (Std.LawfulEqCmp.eq_of_compare heq)
  cases step with
  | receive sender reply drawn =>
    simp only [ClientStreams.next, receive] at hnext
    split at hnext
    · cases hnext
    · cases hnext
      exact (h.routeReply sender reply drawn).congr rfl rfl rfl
  | writeBridge took =>
    obtain ⟨write, -, hwrite⟩ := Option.bind_eq_some_iff.mp hnext
    cases hwrite
    exact h.congr rfl rfl rfl
  | beginOpen listens other =>
    cases hnext
    rw [beginOpen]
    split
    · refine ⟨h.connect, ?_, h.bridge⟩
      rw [Std.TreeMap.getElem?_insert, if_neg (hcompare hkeeps)]
      exact h.listen
    · refine ⟨?_, h.listen, h.bridge⟩
      rw [Std.TreeMap.getElem?_insert, if_neg (hcompare hkeeps)]
      exact h.connect
  | finishOpen listens other nodeId =>
    cases hnext
    have herase {t : Std.TreeMap GUID (Option StreamResult)} (ht : t[id]? ≠ some none) : (t.erase other)[id]? ≠ some none := by
      rw [Std.TreeMap.getElem?_erase]
      split
      · simp
      · exact ht
    rw [ClientStreams.finishOpen]
    split_ifs
    · exact ⟨h.connect, herase h.listen, h.bridge⟩
    · exact ⟨h.connect, herase h.listen, h.bridge⟩
    · exact ⟨herase h.connect, h.listen, h.bridge⟩
    · exact ⟨herase h.connect, h.listen, h.bridge⟩
  | beginCall kind other =>
    cases hnext
    rw [beginCall]
    split
    · exact h
    · exact h.congr rfl rfl rfl
  | send index taken =>
    obtain ⟨call, -, hsend⟩ := Option.bind_eq_some_iff.mp hnext
    split_ifs at hsend <;> cases hsend
    · exact h.congr rfl rfl rfl
    · exact h.failCall index call
  | finishCall index stopping again =>
    obtain ⟨call, hcall, rfl⟩ := waitCall_eq_some hnext
    exact (h.waitForStreamReply stopping).finishCall index call _ again
  | tryDequeue =>
    cases hnext
    rw [tryDequeueStreamResult]
    split
    · exact h
    · exact h.congr rfl rfl rfl
  | attach other =>
    cases hnext
    refine h.congr rfl rfl ?_
    change (sys.nativeStreamBridges.table.insert other _)[id]? = _
    rw [Std.TreeMap.getElem?_insert, if_neg (hcompare hkeeps)]
    rfl
  | writeBuffered index took =>
    obtain ⟨bridges, attaching, handed, htable, rfl⟩ := exists_writeBuffered hnext
    exact h.congr rfl rfl (congrArg (·[id]?) htable)
  | endBridge bridge =>
    cases hnext
    exact h.congr rfl rfl rfl

/-! ### A run -/

theorem takesFrom_le (sys : ClientStreams) (id : GUID) (step : Step) : sys.takesFrom id step ≤ (sys.queued id).length := by
  unfold takesFrom
  split
  · split_ifs with htakes
    · exact List.length_pos_of_ne_nil htakes.2.2
    · exact Nat.zero_le _
  · exact Nat.zero_le _

/-- The calls take the replies in the order of their arrival. -/
theorem queued_run {steps : List Step} (h : sys.OpenUnbridged id) (hkeeps : ∀ step ∈ steps, step.keepsUnbridged id)
    (hrun : machine.run sys steps = some sys') :
    sys'.queued id = (sys.queued id ++ steps.flatMap (Step.arriving id)).drop (sys.taken id steps) := by
  induction steps generalizing sys with
  | nil =>
    obtain rfl := Option.some.inj hrun
    rw [List.flatMap_nil, List.append_nil, taken, List.drop_zero]
  | cons step steps ih =>
    obtain ⟨middle, hstep, hrun⟩ := Option.bind_eq_some_iff.mp hrun
    rw [List.forall_mem_cons] at hkeeps
    have hstep' : sys.next step = some middle := hstep
    have hmiddle := queued_next h hkeeps.1 hstep
    have hle : sys.takesFrom id step ≤ (sys.queued id ++ step.arriving id).length := by
      rw [List.length_append]
      exact (sys.takesFrom_le id step).trans (Nat.le_add_right _ _)
    rw [ih (h.next hkeeps.1 hstep) hkeeps.2 hrun, hmiddle, taken, hstep', Option.map_some, Option.getD_some,
      List.flatMap_cons, ← List.drop_drop, ← List.append_assoc, List.drop_append_of_le_length hle]

/-! ### The result of `streamSend` -/

theorem streamSendResult_waitForStreamReply (stopping : Bool) :
    streamSendResult (sys.waitForStreamReply id stopping).2 = true ↔
      stopping = false ∧ (sys.queued id).head? = some .success := by
  rw [waitForStreamReply, queued]
  split
  · next reply rest hqueue =>
    cases stopping <;> simp [streamSendResult, hqueue]
  · next hempty =>
    refine ⟨fun h => (by cases h), ?_⟩
    rintro ⟨-, h⟩
    cases hqueue : sys.streamReplyQueues[id]? with
    | none => simp [hqueue] at h
    | some queue =>
      cases queue with
      | nil => simp [hqueue] at h
      | cons reply rest => exact absurd hqueue (hempty reply rest)

/-- From any moment at which a stream without a bridge is open, whatever other threads do: a `streamSend` for it that then returns reports success exactly if, of the replies queued at first and those that have arrived since, the one after those that other calls have taken is a SUCCESS. -/
theorem streamSend_returns_true_iff (sys sys' sys'' : ClientStreams) (id : GUID) (steps : List Step) (index : Nat)
    (call : StreamCall) (stopping again : Bool) (hopen : sys.OpenUnbridged id)
    (hkeeps : ∀ step ∈ steps, step.keepsUnbridged id) (hrun : machine.run sys steps = some sys')
    (hcall : sys'.calls[index]? = some call) (hkind : call.kind = .send) (hid : call.streamId = id)
    (hreturns : machine.next sys' (.finishCall index stopping again) = some sys'') :
    ∃ reply, sys''.returned = sys'.returned ++ [(call, reply)] ∧
      (streamSendResult reply = true ↔ stopping = false ∧
        (sys.queued id ++ steps.flatMap (Step.arriving id))[sys.taken id steps]? = some .success) := by
  obtain ⟨call', hcall', rfl⟩ := waitCall_eq_some hreturns
  obtain rfl : call = call' := Option.some.inj (hcall.symm.trans hcall')
  refine ⟨(sys'.waitForStreamReply id stopping).2, ?_, ?_⟩
  · obtain ⟨kind, streamId, destination, sent⟩ := call
    obtain rfl : kind = .send := hkind
    obtain rfl : streamId = id := hid
    simp only [finishCall, returnCall, waitForStreamReply]
    split
    · split <;> rfl
    · rfl
  · rw [streamSendResult_waitForStreamReply, queued_run hopen hkeeps hrun, List.head?_drop]

/-- The answer of the service to a request for the stream. -/
def successReply (id : GUID) : StreamReply where
  streamId := some (toProtoStreamId id)

/-- A call of `streamSend` for `streamOne` that is answered. -/
def answeredSend : List Step :=
  [.beginCall .send streamOne, .send 0 true, .receive (some streamNode) (successReply streamOne) ⟨0, 0⟩]

/-- The call of `streamSend`, as it is when its request is sent. -/
def sendCall : StreamCall := ⟨.send, streamOne, streamNode, true⟩

/-- With nothing else in the queue the answer is what the call takes. -/
theorem streamSend_returns_true_iff_answered :
    ∃ sys sys' sys'' : ClientStreams, machine.run {} openStreamOne = some sys ∧ machine.run sys answeredSend = some sys' ∧
      machine.next sys' (.finishCall 0 false false) = some sys'' ∧
      ∃ reply, sys''.returned = sys'.returned ++ [(sendCall, reply)] ∧ streamSendResult reply = true := by
  have hrun : ((machine.run {} openStreamOne).any fun sys =>
      sys.pendingConnects[streamOne]? != some none && sys.pendingListens[streamOne]? != some none &&
        sys.nativeStreamBridges.find streamOne == none &&
        (sys.queued streamOne ++ answeredSend.flatMap (Step.arriving streamOne))[sys.taken streamOne answeredSend]? ==
          some .success &&
        ((machine.run sys answeredSend).any fun sys' =>
          sys'.calls[0]? == some sendCall && (machine.next sys' (.finishCall 0 false false)).isSome)) = true := by
    decide +kernel
  obtain ⟨sys, hsys, hchecks⟩ := (Option.any_eq_true ..).mp hrun
  simp only [Bool.and_eq_true, bne_iff_ne, beq_iff_eq] at hchecks
  obtain ⟨⟨⟨⟨hconnect, hlisten⟩, hbridge⟩, hsuccess⟩, hanswered⟩ := hchecks
  obtain ⟨sys', hsys', hchecks'⟩ := (Option.any_eq_true ..).mp hanswered
  simp only [Bool.and_eq_true, beq_iff_eq] at hchecks'
  obtain ⟨sys'', hsys''⟩ := Option.isSome_iff_exists.mp hchecks'.2
  obtain ⟨reply, hreturned, hresult⟩ := streamSend_returns_true_iff sys sys' sys'' streamOne answeredSend 0 sendCall false
    false ⟨hconnect, hlisten, hbridge⟩ (by decide) hsys' hchecks'.1 rfl rfl hsys''
  exact ⟨sys, sys', sys'', hsys, hsys', hsys'', reply, hreturned, hresult.mpr ⟨rfl, hsuccess⟩⟩

/-- Data that the service has pushed. -/
def pushedData : Received := ⟨1, streamResultFromReply (dataReply streamOne [1]) streamOne⟩

/-- The service pushes data before `streamSend` is called. Its answer arrives, but the call takes the data and reports a failure; the answer is left in the queue. -/
theorem streamSend_fails_after_data :
    ∃ sys, machine.Reaches sys ∧ sys.queued streamOne = [.success] ∧ sys.returned = [(sendCall, some pushedData)] ∧
      streamSendResult (some pushedData) = false := by
  have hrun : (machine.run {} (openStreamOne ++ [.receive (some streamNode) (dataReply streamOne [1]) ⟨0, 0⟩] ++
      answeredSend ++ [.finishCall 0 false false])).any (fun sys =>
        sys.queued streamOne == [.success] && sys.returned == [(sendCall, some pushedData)]) = true := by
    decide +kernel
  obtain ⟨sys, hreaches, hsys⟩ := Machine.exists_reaches_of_run rfl hrun
  simp only [Bool.and_eq_true, beq_iff_eq] at hsys
  exact ⟨sys, hreaches, hsys.1, hsys.2, rfl⟩

end Rsp.ClientStreams
