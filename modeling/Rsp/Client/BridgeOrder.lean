import Rsp.Client.Streams

/-!
# The order of the bytes in a bridge

`attachNativeStreamBridge` takes the replies that wait for a stream out of its queue and registers the bridge in one critical section, and writes them after it. From then on the receive thread writes new data to the same socket, so that the order is kept only if it does so after the waiting replies. Every byte that has arrived for the stream is then in the socket, in the buffer of the attaching thread, or with the receive thread, in this order.
-/

namespace Rsp

open Proto

def Received.payload (reply : Received) : Bytes :=
  if reply.result.status = .streamData then reply.result.data else []

namespace ClientStreams

/-- The bytes that a reply brings for a stream. -/
def payloadFor (id : GUID) (reply : StreamReply) : Bytes :=
  if reply.streamId.bind fromProtoStreamId = some id ∧ reply.error = .streamData then reply.data.getD [] else []

/-- The payloads received for a stream, in their order. -/
def payloads (sys : ClientStreams) (id : GUID) : Bytes := sys.received.flatMap (payloadFor id)

/-- One bridge is attached, to the stream; no reply closes the stream, no call takes its replies, nothing closes the bridge, and the socket takes what it is given. -/
def bridgesOnly (id : GUID) (sys : ClientStreams) : Step → Bool
  | .receive _ reply _ =>
    reply.streamId.bind fromProtoStreamId != some id || (reply.error != .streamClosed && reply.error != .streamError)
  | .writeBridge took => sys.writing.all fun write => (write.reply.data.getD []).length ≤ took
  | .writeBuffered index took =>
    (sys.attaching[index]?).all fun attachment =>
      attachment.bufferedReplies.head?.all fun reply => reply.result.data.length ≤ took
  | .attach other => other == id && (sys.nativeStreamBridges.find id).isNone
  | .finishCall index _ _ => (sys.calls[index]?).all (·.streamId != id)
  | .endBridge _ => false
  | _ => true

/-- The receive thread writes when the attaching thread has nothing left to write; the replies that wait when the bridge is attached are non-empty data, and later data has its field set. -/
def keepsOrder (id : GUID) (sys : ClientStreams) : Step → Bool
  | .receive _ reply _ =>
    reply.streamId.bind fromProtoStreamId != some id || reply.error != .streamData ||
      (sys.nativeStreamBridges.find id).isNone || reply.data.isSome
  | .writeBridge _ => sys.attaching.all (·.bufferedReplies.isEmpty)
  | .attach _ =>
    ((sys.streamReplyQueues[id]?).getD []).all fun reply =>
      reply.result.status == .streamData && !reply.result.data.isEmpty
  | _ => true

def bridgeMachine (id : GUID) : Machine ClientStreams Step := machine.restrict fun sys step => bridgesOnly id sys step

def orderedBridgeMachine (id : GUID) : Machine ClientStreams Step :=
  machine.restrict fun sys step => bridgesOnly id sys step && keepsOrder id sys step

/-- What the attaching thread still has to write. -/
def buffered (sys : ClientStreams) : List Received := sys.attaching.flatMap (·.bufferedReplies)

/-- What the receive thread still has to write. -/
def unwritten (sys : ClientStreams) (id : GUID) : Bytes := sys.writing.elim [] fun write => payloadFor id write.reply

/-- The bridge is not there yet, and the queue has everything. -/
structure Waiting (id : GUID) (sys : ClientStreams) : Prop where
  find : ∀ other, sys.nativeStreamBridges.find other = none
  attaching : sys.attaching = []
  writing : sys.writing = none
  queue : ((sys.streamReplyQueues[id]?).getD []).flatMap Received.payload = sys.payloads id

/-- The bridge is there. -/
structure Attached (id : GUID) (index : Nat) (bridge : NativeStreamBridge) (sys : ClientStreams) : Prop where
  find : sys.nativeStreamBridges.find id = some index
  only : ∀ other, other ≠ id → sys.nativeStreamBridges.find other = none
  getElem : sys.nativeStreamBridges.bridges[index]? = some bridge
  opened : bridge.closed = false
  attaching : sys.attaching.length ≤ 1
  buffered : ∀ attachment ∈ sys.attaching, attachment.bridge = index ∧
    ∀ reply ∈ attachment.bufferedReplies, reply.result.status = .streamData ∧ reply.result.data ≠ []
  writing : ∀ write, sys.writing = some write → write.bridge = index ∧
    write.reply.streamId.bind fromProtoStreamId = some id ∧ write.reply.error = .streamData ∧ write.reply.data.isSome
  order : bridge.written ++ sys.buffered.flatMap Received.payload ++ sys.unwritten id = sys.payloads id

/-- What holds along the runs. -/
def InOrder (id : GUID) (sys : ClientStreams) : Prop := Waiting id sys ∨ ∃ index bridge, Attached id index bridge sys

variable {id : GUID} {sys sys' : ClientStreams}

theorem Waiting.of_same (h : Waiting id sys) (hbridges : sys'.nativeStreamBridges = sys.nativeStreamBridges)
    (hattaching : sys'.attaching = sys.attaching) (hwriting : sys'.writing = sys.writing)
    (hqueue : sys'.streamReplyQueues[id]? = sys.streamReplyQueues[id]?) (hpayloads : sys'.payloads id = sys.payloads id) :
    Waiting id sys' where
  find := hbridges ▸ h.find
  attaching := hattaching.trans h.attaching
  writing := hwriting.trans h.writing
  queue := by
    rw [hqueue, hpayloads]
    exact h.queue

theorem Attached.of_same {index : Nat} {bridge : NativeStreamBridge} (h : Attached id index bridge sys)
    (hbridges : sys'.nativeStreamBridges = sys.nativeStreamBridges) (hattaching : sys'.attaching = sys.attaching)
    (hwriting : sys'.writing = sys.writing) (hpayloads : sys'.payloads id = sys.payloads id) :
    Attached id index bridge sys' where
  find := hbridges ▸ h.find
  only := hbridges ▸ h.only
  getElem := hbridges ▸ h.getElem
  opened := h.opened
  attaching := hattaching ▸ h.attaching
  buffered := hattaching ▸ h.buffered
  writing := hwriting ▸ h.writing
  order := by
    rw [ClientStreams.buffered, unwritten, hattaching, hwriting, hpayloads]
    exact h.order

theorem InOrder.of_same (h : InOrder id sys) (hbridges : sys'.nativeStreamBridges = sys.nativeStreamBridges)
    (hattaching : sys'.attaching = sys.attaching) (hwriting : sys'.writing = sys.writing)
    (hqueue : sys'.streamReplyQueues[id]? = sys.streamReplyQueues[id]?) (hpayloads : sys'.payloads id = sys.payloads id) :
    InOrder id sys' := by
  obtain hwaiting | ⟨index, bridge, hattached⟩ := h
  · exact .inl (hwaiting.of_same hbridges hattaching hwriting hqueue hpayloads)
  · exact .inr ⟨index, bridge, hattached.of_same hbridges hattaching hwriting hpayloads⟩

/-! ### The receive thread -/

variable {reply : StreamReply}

theorem payloads_append (sys : ClientStreams) (id : GUID) (h : sys'.received = sys.received ++ [reply]) :
    sys'.payloads id = sys.payloads id ++ payloadFor id reply := by
  rw [payloads, payloads, h, List.flatMap_append, List.flatMap_singleton]

theorem payloadFor_of_id_ne (h : reply.streamId.bind fromProtoStreamId ≠ some id) : payloadFor id reply = [] :=
  if_neg fun hdata => h hdata.1

theorem payloadFor_of_error_ne (h : reply.error ≠ .streamData) : payloadFor id reply = [] :=
  if_neg fun hdata => h hdata.2

theorem error_ne_of_completesPending {other : GUID} {status : StreamStatus} (h : sys.completesPending other status) :
    status ≠ .streamData := by
  rintro rfl
  have hconnect : completesConnect .streamData = false := by decide
  have hlisten : completesListen .streamData = false := by decide
  simp [completesPending, hconnect, hlisten] at h

/-- Data goes to the bridge of its stream if there is one. -/
theorem bridgeFor_streamData (sys : ClientStreams) (id : GUID) :
    sys.bridgeFor id .streamData = sys.nativeStreamBridges.find id := by
  have hdata : isDataOrClose .streamData = true := by decide
  simp [bridgeFor, hdata]

/-- Other replies go there only if they close the stream. -/
theorem error_of_bridgeFor {status : StreamStatus} {bridge : Nat} (h : sys.bridgeFor id status = some bridge) :
    status = .streamData ∨ status = .streamClosed ∨ status = .streamError := by
  rw [bridgeFor] at h
  split at h
  · rename_i hstatus
    simpa [isDataOrClose] using (Bool.and_eq_true_iff.mp hstatus).1
  · cases h

/-- A reply that comes into a queue. -/
theorem InOrder.queued {other : GUID} {sender : Option NodeID} {received : Received} (h : InOrder id sys)
    (hid : reply.streamId.bind fromProtoStreamId = some other) (hbridge : sys.bridgeFor other reply.error = none)
    (hpayload : received.payload = payloadFor other reply) (hidle : sys.writing = none) :
    InOrder id { (sys.noteNewStream sender reply).queueReply other received with
      received := sys.received ++ [reply], writing := none } := by
  obtain ⟨routes, hnoted⟩ := sys.exists_noteNewStream sender reply
  rw [hnoted]
  obtain ⟨awaited, results, hqueued⟩ := exists_queueReply { sys with streamRoutes := routes } other received
  rw [hqueued]
  by_cases hother : other = id
  · subst hother
    obtain hwaiting | ⟨index, bridge, hattached⟩ := h
    · refine .inl ⟨hwaiting.find, hwaiting.attaching, rfl, ?_⟩
      rw [payloads_append sys other rfl, ← hpayload, ← hwaiting.queue]
      simp
    · have herror : reply.error ≠ .streamData := by
        intro hdata
        rw [hdata, bridgeFor_streamData, hattached.find] at hbridge
        cases hbridge
      refine .inr ⟨index, bridge, hattached.of_same rfl rfl hidle.symm ?_⟩
      rw [payloads_append sys other rfl, payloadFor_of_error_ne herror, List.append_nil]
  · have hne : ¬ compare other id = .eq := fun heq => hother (Std.LawfulEqCmp.eq_of_compare heq)
    refine h.of_same rfl rfl hidle.symm ?_ ?_
    · exact (Std.TreeMap.getElem?_insert).trans (if_neg hne)
    · rw [payloads_append sys id rfl, payloadFor_of_id_ne, List.append_nil]
      rw [hid]
      exact fun heq => hother (Option.some.inj heq)

/-- Data that goes to the bridge. -/
theorem InOrder.bridged {other : GUID} {bridge : Nat} (h : InOrder id sys) (sender : Option NodeID) (number : Nat)
    (hid : reply.streamId.bind fromProtoStreamId = some other) (hbridge : sys.bridgeFor other reply.error = some bridge)
    (hscope : other = id → reply.error ≠ .streamClosed ∧ reply.error ≠ .streamError)
    (horder : other = id → sys.nativeStreamBridges.find id ≠ none → reply.error = .streamData → reply.data.isSome)
    (hidle : sys.writing = none) :
    reply.error = .streamData ∧ InOrder id { sys.noteNewStream sender reply with
      received := sys.received ++ [reply], writing := some ⟨bridge, number, reply⟩ } := by
  have hfind := find_of_bridgeFor hbridge
  obtain hwaiting | ⟨index, found, hattached⟩ := h
  · rw [hwaiting.find] at hfind
    cases hfind
  · obtain rfl : other = id := by
      by_contra hne
      rw [hattached.only other hne] at hfind
      cases hfind
    obtain rfl : index = bridge := Option.some.inj (hattached.find.symm.trans hfind)
    have herror : reply.error = .streamData := by
      have hstatus := error_of_bridgeFor hbridge
      tauto
    have hsome : reply.data.isSome := horder rfl (by simp [hfind]) herror
    obtain ⟨routes, hnoted⟩ := sys.exists_noteNewStream sender reply
    rw [hnoted]
    refine ⟨herror, .inr ⟨index, found, hattached.find, hattached.only, hattached.getElem, hattached.opened,
      hattached.attaching, hattached.buffered, ?_, ?_⟩⟩
    · rintro write ⟨⟩
      exact ⟨rfl, hid, herror, hsome⟩
    · have hold := hattached.order
      rw [unwritten, hidle, Option.elim_none, List.append_nil] at hold
      rw [payloads_append sys other rfl, ← hold]
      rfl

theorem InOrder.receive {sender : Option NodeID} {drawn : GUID} (h : InOrder id sys)
    (hscope : bridgesOnly id sys (.receive sender reply drawn)) (horder : keepsOrder id sys (.receive sender reply drawn))
    (hstep : sys.receive sender reply drawn = some sys') : InOrder id sys' := by
  have hrouted := routed sys sender reply drawn
  rw [ClientStreams.receive] at hstep
  generalize sys.routeReply sender reply drawn = route at hrouted hstep
  split at hstep
  · cases hstep
  · rename_i hbusy
    have hidle : sys.writing = none := by simpa using hbusy
    cases hstep
    cases hrouted with
    | unnamed hid =>
      refine h.of_same rfl rfl hidle.symm rfl ?_
      rw [payloads_append sys id rfl, payloadFor_of_id_ne (by simp [hid]), List.append_nil]
    | completes other hid hpending =>
      have hpayloads : payloads { sys with received := sys.received ++ [reply] } id = sys.payloads id := by
        rw [payloads_append sys id rfl, payloadFor_of_error_ne (error_ne_of_completesPending hpending), List.append_nil]
      rw [completePending]
      split <;> exact h.of_same rfl rfl hidle.symm rfl hpayloads
    | bridged other bridge hid hpending hbridge =>
      obtain ⟨herror, hinv⟩ := h.bridged sender sys.received.length hid hbridge
        (by
          rintro rfl
          simpa [bridgesOnly, hid] using hscope)
        (by
          rintro rfl hfind herror
          simpa [keepsOrder, hid, herror, hfind] using horder)
        hidle
      rw [if_pos herror]
      exact hinv
    | queued other hid hpending hbridge =>
      refine h.queued hid hbridge ?_ hidle
      by_cases herror : reply.error = .streamData <;>
        simp [Received.payload, payloadFor, hid, herror, streamResultFromReply]

theorem InOrder.writeBridge {took : Nat} (h : InOrder id sys) (hscope : bridgesOnly id sys (.writeBridge took))
    (horder : keepsOrder id sys (.writeBridge took)) (hstep : sys.writeBridge took = some sys') : InOrder id sys' := by
  obtain ⟨write, hwriting, hsys'⟩ := Option.bind_eq_some_iff.mp hstep
  cases hsys'
  obtain hwaiting | ⟨index, bridge, hattached⟩ := h
  · rw [hwaiting.writing] at hwriting
    cases hwriting
  · obtain ⟨hindex, hid, herror, hsome⟩ := hattached.writing write hwriting
    obtain ⟨data, hdata⟩ := Option.isSome_iff_exists.mp hsome
    have hlength : data.length ≤ took := by simpa [bridgesOnly, hwriting, hdata] using hscope
    -- the attaching thread is done
    have hbuffered : sys.buffered = [] := by
      rw [ClientStreams.buffered, List.flatMap_eq_nil_iff]
      simpa [keepsOrder] using horder
    have hsent : bridge.takeReply write.reply took = { bridge with written := bridge.written ++ data } := by
      simp [NativeStreamBridge.takeReply, hdata, herror, NativeStreamBridge.sendAllToSocket, NativeStreamBridge.sends,
        NativeStreamBridge.sent, hattached.opened, List.take_of_length_le hlength]
    refine .inr ⟨index, { bridge with written := bridge.written ++ data }, hattached.find, hattached.only, ?_,
      hattached.opened, hattached.attaching, hattached.buffered, ?_, ?_⟩
    · simp [updateBridge, NativeStreamBridges.update, hindex, hattached.getElem, hsent]
    · simp
    · have hold := hattached.order
      rw [hbuffered, unwritten, hwriting, Option.elim_some, payloadFor, if_pos ⟨hid, herror⟩, hdata] at hold
      refine Eq.trans ?_ hold
      change bridge.written ++ data ++ sys.buffered.flatMap Received.payload ++ [] = _
      simp [hbuffered]

/-! ### The attaching thread -/

theorem InOrder.attach {other : GUID} (h : InOrder id sys) (hscope : bridgesOnly id sys (.attach other))
    (horder : keepsOrder id sys (.attach other)) : InOrder id (sys.attachNativeStreamBridge other) := by
  obtain ⟨hother, hnone⟩ := Bool.and_eq_true_iff.mp hscope
  obtain rfl := eq_of_beq hother
  obtain hwaiting | ⟨index, bridge, hattached⟩ := h
  · refine .inr ⟨sys.nativeStreamBridges.bridges.length, {}, ?_, ?_, ?_, rfl, ?_, ?_, ?_, ?_⟩
    · simp [attachNativeStreamBridge, NativeStreamBridges.attach, NativeStreamBridges.find]
    · intro another hne
      have hcompare : ¬ compare other another = .eq := fun heq => hne (Std.LawfulEqCmp.eq_of_compare heq).symm
      exact ((Std.TreeMap.getElem?_insert).trans (if_neg hcompare)).trans (hwaiting.find another)
    · simp [attachNativeStreamBridge, NativeStreamBridges.attach]
    · simp [attachNativeStreamBridge, hwaiting.attaching]
    · intro attachment hattachment
      obtain rfl : attachment = ⟨sys.nativeStreamBridges.bridges.length, (sys.streamReplyQueues[other]?).getD []⟩ := by
        simpa [attachNativeStreamBridge, hwaiting.attaching] using hattachment
      refine ⟨rfl, fun reply hreply => ?_⟩
      simpa using List.all_eq_true.mp horder reply hreply
    · intro write hwrite
      rw [attachNativeStreamBridge, hwaiting.writing] at hwrite
      cases hwrite
    · refine Eq.trans ?_ hwaiting.queue
      simp [ClientStreams.buffered, unwritten, attachNativeStreamBridge, hwaiting.attaching, hwaiting.writing]
  · rw [hattached.find] at hnone
    cases hnone

/-- The one attaching thread. -/
theorem Attached.eq_singleton {index place : Nat} {bridge : NativeStreamBridge} {attachment : Attachment}
    (h : Attached id index bridge sys) (hattachment : sys.attaching[place]? = some attachment) :
    place = 0 ∧ sys.attaching = [attachment] := by
  have hlength := h.attaching
  cases hattaching : sys.attaching with
  | nil => simp [hattaching] at hattachment
  | cons first rest =>
    rw [hattaching, List.length_cons] at hlength
    obtain rfl : rest = [] := List.length_eq_zero_iff.mp (by omega)
    rw [hattaching] at hattachment
    cases place with
    | zero => exact ⟨rfl, by simpa using hattachment⟩
    | succ place => simp at hattachment

theorem InOrder.writeBuffered {place took : Nat} (h : InOrder id sys)
    (hscope : bridgesOnly id sys (.writeBuffered place took)) (hstep : sys.writeBuffered place took = some sys') :
    InOrder id sys' := by
  obtain ⟨attachment, hattachment, hstep⟩ := Option.bind_eq_some_iff.mp hstep
  obtain ⟨_, hbridge, hstep⟩ := Option.bind_eq_some_iff.mp hstep
  obtain hwaiting | ⟨index, bridge, hattached⟩ := h
  · simp [hwaiting.attaching] at hattachment
  obtain ⟨rfl, hattaching⟩ := hattached.eq_singleton hattachment
  obtain ⟨rfl, hreplies⟩ := hattached.buffered attachment (by simp [hattaching])
  obtain rfl := Option.some.inj (hattached.getElem.symm.trans hbridge)
  have hold := hattached.order
  rw [ClientStreams.buffered, hattaching, List.flatMap_singleton] at hold
  split at hstep
  · rename_i hempty
    cases hstep
    refine .inr ⟨attachment.bridge, bridge, hattached.find, hattached.only, hattached.getElem, hattached.opened, ?_, ?_,
      hattached.writing, ?_⟩
    · simp [hattaching]
    · simp [hattaching]
    · refine Eq.trans ?_ hold
      simp [ClientStreams.buffered, unwritten, hattaching, hempty]
  · rename_i reply rest hbuffered
    have hreply := hreplies reply (by simp [hbuffered])
    have hlength : reply.result.data.length ≤ took := by
      simpa [bridgesOnly, hattaching, hbuffered] using hscope
    have hsends : bridge.sends reply.result.data took = true := by
      simp [NativeStreamBridge.sends, NativeStreamBridge.sent, hattached.opened, List.take_of_length_le hlength]
    have hsent : bridge.sendAllToSocket reply.result.data took =
        { bridge with written := bridge.written ++ reply.result.data } := by
      simp [NativeStreamBridge.sendAllToSocket, hsends, NativeStreamBridge.sent, hattached.opened,
        List.take_of_length_le hlength]
    rw [if_pos hreply, if_pos hsends] at hstep
    cases hstep
    refine .inr ⟨attachment.bridge, { bridge with written := bridge.written ++ reply.result.data }, hattached.find,
      hattached.only, ?_, hattached.opened, ?_, ?_, hattached.writing, ?_⟩
    · simp [updateBridge, NativeStreamBridges.update, hattached.getElem, hsent]
    · simp [hattaching, updateBridge]
    · intro other hother
      obtain rfl : other = { attachment with bufferedReplies := rest } := by
        simpa [updateBridge, hattaching] using hother
      exact ⟨rfl, fun later hlater => hreplies later (by simp [hbuffered, hlater])⟩
    · refine Eq.trans ?_ hold
      simp [ClientStreams.buffered, unwritten, updateBridge, hattaching, hbuffered, Received.payload, hreply.1]

/-! ### Whole runs -/

theorem InOrder.of_callsOnly (h : InOrder id sys) (hcalls : CallsOnly sys sys') : InOrder id sys' := by
  obtain ⟨routes, connects, listens, awaited, calls, returned, rfl⟩ := hcalls
  exact h.of_same rfl rfl rfl rfl rfl

theorem InOrder.waitForStreamReply {other : GUID} {stopping : Bool} (h : InOrder id sys) (hne : other ≠ id) :
    InOrder id (sys.waitForStreamReply other stopping).1 := by
  have hcompare : ¬ compare other id = .eq := fun heq => hne (Std.LawfulEqCmp.eq_of_compare heq)
  rw [ClientStreams.waitForStreamReply]
  split
  · split
    · exact h.of_same rfl rfl rfl rfl rfl
    · refine h.of_same rfl rfl rfl ?_ rfl
      dsimp only
      split
      · rw [Std.TreeMap.getElem?_erase, if_neg hcompare]
      · rw [Std.TreeMap.getElem?_insert, if_neg hcompare]
  · exact h.of_same rfl rfl rfl rfl rfl

theorem InOrder.next {step : Step} (h : InOrder id sys) (hscope : bridgesOnly id sys step)
    (horder : keepsOrder id sys step) (hstep : sys.next step = some sys') : InOrder id sys' := by
  cases step with
  | receive sender reply drawn => exact h.receive hscope horder hstep
  | writeBridge took => exact h.writeBridge hscope horder hstep
  | beginOpen listens other =>
    cases hstep
    exact h.of_callsOnly (callsOnly_beginOpen ..)
  | finishOpen listens other nodeId =>
    cases hstep
    exact h.of_callsOnly (callsOnly_finishOpen ..)
  | beginCall kind other =>
    cases hstep
    exact h.of_callsOnly (callsOnly_beginCall ..)
  | send index taken => exact h.of_callsOnly (callsOnly_send hstep)
  | finishCall index stopping again =>
    obtain ⟨call, hcall, hstep⟩ := Option.bind_eq_some_iff.mp hstep
    split at hstep
    · cases hstep
      rw [bridgesOnly, hcall] at hscope
      exact (h.waitForStreamReply (by simpa using hscope)).of_callsOnly (callsOnly_finishCall ..)
    · cases hstep
  | tryDequeue =>
    cases hstep
    rw [tryDequeueStreamResult]
    split
    · exact h
    · exact h.of_same rfl rfl rfl rfl rfl
  | attach other =>
    cases hstep
    exact h.attach hscope horder
  | writeBuffered index took => exact h.writeBuffered hscope hstep
  | endBridge bridge => cases hscope

theorem inOrder_of_reaches (h : (orderedBridgeMachine id).Reaches sys) : InOrder id sys := by
  refine h.invariant (fun sys hinit => ?_) fun sys step sys' hinv hstep => ?_
  · cases hinit
    refine .inl ⟨fun other => ?_, rfl, rfl, ?_⟩
    · simp [NativeStreamBridges.find, NativeStreamBridges.empty]
    · simp [payloads]
  · obtain ⟨hallowed, hnext⟩ := Machine.restrict_next hstep
    obtain ⟨hscope, horder⟩ := Bool.and_eq_true_iff.mp hallowed
    exact hinv.next hscope horder hnext

/-- When both threads have written what they have, the socket has got the payloads of the stream in their order. -/
theorem bridge_in_order (id : GUID) (sys : ClientStreams) (bridge : NativeStreamBridge)
    (h : (orderedBridgeMachine id).Reaches sys) (hbridge : sys.nativeStreamBridges.bridgeOf id = some bridge)
    (hattached : sys.attaching = []) (hwritten : sys.writing = none) : bridge.written = sys.payloads id := by
  obtain hwaiting | ⟨index, found, hinv⟩ := inOrder_of_reaches h
  · rw [NativeStreamBridges.bridgeOf, hwaiting.find] at hbridge
    cases hbridge
  · rw [NativeStreamBridges.bridgeOf, hinv.find, Option.bind_some, hinv.getElem] at hbridge
    cases hbridge
    have horder := hinv.order
    rw [buffered, hattached, unwritten, hwritten] at horder
    simpa using horder

/-- Two payloads wait when the bridge is attached, a third one comes in after they are written. -/
def orderedRun : List Step :=
  openStream ⟨7, 7⟩ ⟨1, 1⟩ ++
    [.receive (some ⟨1, 1⟩) (dataReply ⟨7, 7⟩ [1]) ⟨0, 0⟩, .receive (some ⟨1, 1⟩) (dataReply ⟨7, 7⟩ [2]) ⟨0, 0⟩,
      .attach ⟨7, 7⟩, .writeBuffered 0 1, .writeBuffered 0 1, .writeBuffered 0 0,
      .receive (some ⟨1, 1⟩) (dataReply ⟨7, 7⟩ [3]) ⟨0, 0⟩, .writeBridge 1]

theorem bridge_in_order_three :
    ∃ sys bridge, (orderedBridgeMachine ⟨7, 7⟩).Reaches sys ∧
      sys.nativeStreamBridges.bridgeOf ⟨7, 7⟩ = some bridge ∧ bridge.written = [1, 2, 3] ∧
      bridge.written = sys.payloads ⟨7, 7⟩ := by
  have hrun : ((orderedBridgeMachine ⟨7, 7⟩).run {} orderedRun).any (fun sys =>
      ((sys.nativeStreamBridges.bridgeOf ⟨7, 7⟩).any (·.written == [1, 2, 3]) && sys.attaching == []) &&
        sys.writing == none) = true := by
    decide +kernel
  obtain ⟨sys, hreaches, hsys⟩ := Machine.exists_reaches_of_run rfl hrun
  simp only [Bool.and_eq_true, Option.any_eq_true, beq_iff_eq] at hsys
  obtain ⟨⟨⟨bridge, hbridge, hwritten⟩, hattaching⟩, hwriting⟩ := hsys
  exact ⟨sys, bridge, hreaches, hbridge, hwritten,
    bridge_in_order ⟨7, 7⟩ sys bridge hreaches hbridge hattaching hwriting⟩

/-- One payload waits when the bridge is attached, and the receive thread writes the next one before it. -/
def reorderedRun : List Step :=
  openStream ⟨7, 7⟩ ⟨1, 1⟩ ++
    [.receive (some ⟨1, 1⟩) (dataReply ⟨7, 7⟩ [1]) ⟨0, 0⟩, .attach ⟨7, 7⟩,
      .receive (some ⟨1, 1⟩) (dataReply ⟨7, 7⟩ [2]) ⟨0, 0⟩, .writeBridge 1, .writeBuffered 0 1, .writeBuffered 0 0]

theorem bridge_reordered :
    ∃ sys bridge, (bridgeMachine ⟨7, 7⟩).Reaches sys ∧ sys.nativeStreamBridges.bridgeOf ⟨7, 7⟩ = some bridge ∧
      sys.attaching = [] ∧ sys.writing = none ∧ bridge.written = [2, 1] ∧ sys.payloads ⟨7, 7⟩ = [1, 2] := by
  have hrun : ((bridgeMachine ⟨7, 7⟩).run {} reorderedRun).any (fun sys =>
      ((((sys.nativeStreamBridges.bridgeOf ⟨7, 7⟩).any (·.written == [2, 1])) && sys.attaching == []) &&
        sys.writing == none) && sys.payloads ⟨7, 7⟩ == [1, 2]) = true := by
    decide +kernel
  obtain ⟨sys, hreaches, hsys⟩ := Machine.exists_reaches_of_run rfl hrun
  simp only [Bool.and_eq_true, Option.any_eq_true, beq_iff_eq] at hsys
  obtain ⟨⟨⟨⟨bridge, hbridge, hwritten⟩, hattaching⟩, hwriting⟩, hpayloads⟩ := hsys
  exact ⟨sys, bridge, hreaches, hbridge, hattaching, hwriting, hwritten, hpayloads⟩

end ClientStreams

end Rsp
