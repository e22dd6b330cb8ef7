import Rsp.Client.Streams

/-!
# What a reply can do to a stream

`handleStreamReply` looks at the identifiers of a reply and not at the node it came from. A reply changes a stream of another node if it names the stream, in either of its two fields, unless it completes a connect or a listen or finds a bridge that it cannot change any more.
-/

namespace Rsp

open Proto

/-- The reply leaves the bridge as it is: it has nothing to write, or the bridge is closed already. -/
def NativeStreamBridge.ignores (bridge : NativeStreamBridge) (reply : StreamReply) : Bool :=
  if reply.error = .streamData then
    match reply.data with
    | some data => data.isEmpty || (bridge.closed && bridge.stopping)
    | none => bridge.closed
  else
    bridge.closed && bridge.stopping && bridge.remoteClosed

/-- All that `handleStreamReply` does to a bridge. -/
def NativeStreamBridge.handleReply (reply : StreamReply) (took : Nat) (bridge : NativeStreamBridge) :
    NativeStreamBridge :=
  if reply.error = .streamData then bridge.takeReply reply took else bridge.markRemoteClosed.takeReply reply took

namespace NativeStreamBridge

variable {bridge : NativeStreamBridge}

theorem sendAllToSocket_eq_self_iff {data : Bytes} {took : Nat} :
    bridge.sendAllToSocket data took = bridge ↔ data.isEmpty || (bridge.closed && bridge.stopping) := by
  obtain ⟨written, closed, stopping, remoteClosed⟩ := bridge
  cases data with
  | nil => cases closed <;> simp [sendAllToSocket, sends, sent]
  | cons b data =>
    cases closed with
    | true => cases stopping <;> simp [sendAllToSocket, sends, sent]
    | false =>
      -- either something is written, or the socket is closed
      cases took <;> simp [sendAllToSocket, sends, sent]

theorem close_eq_self_iff : bridge.close = bridge ↔ bridge.closed := by
  obtain ⟨written, closed, stopping, remoteClosed⟩ := bridge
  cases closed <;> simp [close]

theorem handleReply_of_data {reply : StreamReply} {took : Nat} (h : reply.error = .streamData) :
    handleReply reply took = takeReply reply took := by
  funext bridge
  rw [handleReply, if_pos h]

theorem handleReply_of_not_data {reply : StreamReply} {took : Nat} (h : reply.error ≠ .streamData) :
    handleReply reply took = takeReply reply took ∘ markRemoteClosed := by
  funext bridge
  rw [handleReply, if_neg h, Function.comp_apply]

theorem handleReply_eq_self_iff {reply : StreamReply} {took : Nat} :
    bridge.handleReply reply took = bridge ↔ bridge.ignores reply := by
  rw [handleReply, ignores]
  by_cases hdata : reply.error = .streamData
  · rw [if_pos hdata, if_pos hdata, takeReply]
    cases reply.data with
    | none => exact close_eq_self_iff
    | some data =>
      simp only [if_pos hdata]
      exact sendAllToSocket_eq_self_iff
  · rw [if_neg hdata, if_neg hdata, takeReply]
    have hclose : bridge.markRemoteClosed.close = bridge ↔ bridge.closed && bridge.stopping && bridge.remoteClosed := by
      obtain ⟨written, closed, stopping, remoteClosed⟩ := bridge
      cases closed <;> cases stopping <;> cases remoteClosed <;> simp [close, markRemoteClosed]
    cases reply.data with
    | none => exact hclose
    | some data =>
      simp only [if_neg hdata]
      exact hclose

end NativeStreamBridge

namespace NativeStreamBridges

variable {all : NativeStreamBridges} {id other : GUID} {index : Nat} {f : NativeStreamBridge → NativeStreamBridge}

theorem bridgeOf_update_of_find (h : all.find id = some index) :
    (all.update index f).bridgeOf id = (all.bridgeOf id).map f := by
  have hfind : (all.update index f).find id = some index := h
  rw [bridgeOf, bridgeOf, hfind, h]
  simp [update, List.getElem?_modify]

/-- A bridge belongs to one stream, so the others do not see it change. -/
theorem bridgeOf_update_of_ne (h : all.find id = some index) (hne : other ≠ id) :
    (all.update index f).bridgeOf other = all.bridgeOf other := by
  have hfind : (all.update index f).find other = all.find other := rfl
  rw [bridgeOf, bridgeOf, hfind]
  cases hother : all.find other with
  | none => rfl
  | some found =>
    have hindex : index ≠ found := by
      rintro rfl
      exact hne (all.distinct other id index hother h)
    simp [update, List.getElem?_modify, hindex]

theorem exists_bridgeOf (h : all.find id = some index) : ∃ bridge, all.bridgeOf id = some bridge :=
  ⟨all.bridges.get ⟨index, all.valid id index h⟩, by simp [bridgeOf, h, all.valid id index h]⟩

end NativeStreamBridges

/-- What the client keeps of one stream. -/
structure StreamView where
  route : Option NodeID
  queue : Option (List Received)
  awaited : Bool
  bridge : Option NativeStreamBridge
deriving DecidableEq, Repr

namespace ClientStreams

def view (sys : ClientStreams) (id : GUID) : StreamView where
  route := sys.streamRoutes[id]?
  queue := sys.streamReplyQueues[id]?
  awaited := sys.awaitedStreamReplies.contains id
  bridge := sys.nativeStreamBridges.bridgeOf id

/-- The reply goes to the bridge of its stream and leaves it as it is. -/
def bridgeIgnores (sys : ClientStreams) (id : GUID) (reply : StreamReply) : Bool :=
  (sys.bridgeFor id reply.error).isSome && (sys.nativeStreamBridges.bridgeOf id).any (·.ignores reply)

/-- The reply does nothing to a stream: it completes a connect or a listen, or it names the stream as neither the new one nor, unless the bridge ignores it, the one it is for. -/
def Spares (sys : ClientStreams) (reply : StreamReply) (id : GUID) : Prop :=
  ∀ replyId, reply.streamId.bind fromProtoStreamId = some replyId →
    sys.completesPending replyId reply.error ∨
      (reply.newStreamId.bind fromProtoStreamId ≠ some id ∧ (replyId = id → sys.bridgeIgnores id reply))

variable {sys : ClientStreams} {id other : GUID} {reply : StreamReply} {sender : Option NodeID} {drawn : GUID}
  {took : Nat}

/-! ### The parts of the handler -/

theorem view_noteNewStream (h : reply.newStreamId.bind fromProtoStreamId ≠ some id) :
    (sys.noteNewStream sender reply).view id = sys.view id := by
  unfold noteNewStream
  split
  · rename_i newStreamId sourceNodeId hnew
    have hne : ¬ compare newStreamId id = .eq := fun heq => h (hnew.trans (congrArg some (Std.LawfulEqCmp.eq_of_compare heq)))
    simp only [view]
    rw [Std.TreeMap.getElem?_insert, if_neg hne]
  · rfl

theorem route_noteNewStream {source : NodeID} (h : reply.newStreamId.bind fromProtoStreamId = some id) :
    ((sys.noteNewStream (some source) reply).view id).route = some source := by
  simp [noteNewStream, h, view]

theorem view_queueReply_of_ne {received : Received} (h : other ≠ id) :
    (sys.queueReply id received).view other = sys.view other := by
  have hne : ¬ compare id other = .eq := fun heq => h (Std.LawfulEqCmp.eq_of_compare heq).symm
  rw [queueReply]
  split
  · simp only [view]
    rw [Std.TreeMap.getElem?_insert, if_neg hne, Std.TreeSet.contains_erase]
    simp [hne]
  · simp only [view]
    rw [Std.TreeMap.getElem?_insert, if_neg hne]

theorem queue_queueReply {received : Received} :
    ((sys.queueReply id received).view id).queue = some ((sys.view id).queue.getD [] ++ [received]) := by
  rw [queueReply]
  split <;> simp [view]

theorem updateBridge_updateBridge {bridge : Nat} {f g : NativeStreamBridge → NativeStreamBridge} :
    (sys.updateBridge bridge f).updateBridge bridge g = sys.updateBridge bridge (g ∘ f) := by
  simp [updateBridge, NativeStreamBridges.update, List.modify_modify_eq]

/-- The steps of the receive thread are the handler: the critical section, and then the write if there is one. -/
theorem view_receive {sys' : ClientStreams} (h : sys.receive sender reply drawn = some sys') :
    (sys'.writing = none ∧ ∀ id, sys'.view id = (sys.handleStreamReply sender reply drawn took).view id) ∨
      ∃ sys'', sys'.writeBridge took = some sys'' ∧
        ∀ id, sys''.view id = (sys.handleStreamReply sender reply drawn took).view id := by
  rw [receive] at h
  rw [handleStreamReply]
  generalize sys.routeReply sender reply drawn = routed at h ⊢
  obtain ⟨sys₁, bridge⟩ := routed
  split at h
  · cases h
  · cases h
    cases bridge with
    | none => exact .inl ⟨rfl, fun _ => rfl⟩
    | some bridge => exact .inr ⟨_, rfl, fun _ => rfl⟩

/-- What is done with a reply that completes nothing. -/
theorem handleStreamReply_of_not_completes (hid : reply.streamId.bind fromProtoStreamId = some id)
    (hpending : ¬ sys.completesPending id reply.error) :
    sys.handleStreamReply sender reply drawn took =
      match sys.bridgeFor id reply.error with
      | some bridge => (sys.noteNewStream sender reply).updateBridge bridge (.handleReply reply took)
      | none => (sys.noteNewStream sender reply).queueReply id ⟨sys.received.length, streamResultFromReply reply id⟩ := by
  have hstatus : (streamResultFromReply reply id).status = reply.error := rfl
  rw [handleStreamReply, routeReply, hid]
  simp only [if_neg hpending]
  rw [deliverReply, hstatus, bridgeFor_noteNewStream]
  cases sys.bridgeFor id reply.error with
  | none => rfl
  | some bridge =>
    by_cases hdata : reply.error = .streamData
    · simp only [if_pos hdata]
      rw [NativeStreamBridge.handleReply_of_data hdata]
    · simp only [if_neg hdata]
      rw [updateBridge_updateBridge, NativeStreamBridge.handleReply_of_not_data hdata]

/-! ### The stream of another node -/

theorem view_handleStreamReply_of_no_id (hid : reply.streamId.bind fromProtoStreamId = none) :
    (sys.handleStreamReply sender reply drawn took).view id = sys.view id := by
  rw [handleStreamReply, routeReply, hid]
  rfl

theorem view_handleStreamReply_of_completes (hid : reply.streamId.bind fromProtoStreamId = some other)
    (hpending : sys.completesPending other reply.error) :
    (sys.handleStreamReply sender reply drawn took).view id = sys.view id := by
  rw [handleStreamReply, routeReply, hid]
  simp only [if_pos hpending]
  rw [completePending]
  split <;> rfl

theorem route_handleStreamReply_of_new {source : NodeID} (hid : reply.streamId.bind fromProtoStreamId = some other)
    (hpending : ¬ sys.completesPending other reply.error)
    (hnew : reply.newStreamId.bind fromProtoStreamId = some id) :
    ((sys.handleStreamReply (some source) reply drawn took).view id).route = some source := by
  rw [handleStreamReply_of_not_completes hid hpending]
  have hnoted : ((sys.noteNewStream (some source) reply).view id).route = some source := route_noteNewStream hnew
  refine Eq.trans ?_ hnoted
  cases sys.bridgeFor other reply.error with
  | some bridge => rfl
  | none =>
    simp only [queueReply]
    split <;> rfl

theorem nativeStreamBridges_noteNewStream :
    (sys.noteNewStream sender reply).nativeStreamBridges = sys.nativeStreamBridges := by
  obtain ⟨routes, hnoted⟩ := sys.exists_noteNewStream sender reply
  rw [hnoted]

/-- A reply for another stream. -/
theorem view_handleStreamReply_of_ne (hid : reply.streamId.bind fromProtoStreamId = some other)
    (hpending : ¬ sys.completesPending other reply.error)
    (hnew : reply.newStreamId.bind fromProtoStreamId ≠ some id) (hne : other ≠ id) :
    (sys.handleStreamReply sender reply drawn took).view id = sys.view id := by
  have hnoted : (sys.noteNewStream sender reply).view id = sys.view id := view_noteNewStream hnew
  rw [handleStreamReply_of_not_completes hid hpending, ← hnoted]
  cases hbridge : sys.bridgeFor other reply.error with
  | some bridge =>
    have hfind : (sys.noteNewStream sender reply).nativeStreamBridges.find other = some bridge := by
      rw [nativeStreamBridges_noteNewStream]
      exact find_of_bridgeFor hbridge
    simp only [view, updateBridge]
    rw [NativeStreamBridges.bridgeOf_update_of_ne hfind hne.symm]
  | none => exact view_queueReply_of_ne hne.symm

/-- A reply for the stream itself either grows its queue or goes to its bridge. -/
theorem view_handleStreamReply_self_iff (hid : reply.streamId.bind fromProtoStreamId = some id)
    (hpending : ¬ sys.completesPending id reply.error)
    (hnew : reply.newStreamId.bind fromProtoStreamId ≠ some id) :
    (sys.handleStreamReply sender reply drawn took).view id = sys.view id ↔ sys.bridgeIgnores id reply := by
  have hnoted : (sys.noteNewStream sender reply).view id = sys.view id := view_noteNewStream hnew
  rw [handleStreamReply_of_not_completes hid hpending, ← hnoted, bridgeIgnores]
  cases hbridge : sys.bridgeFor id reply.error with
  | none =>
    refine ⟨fun heq => ?_, fun hignores => by simp at hignores⟩
    have hqueue := congrArg StreamView.queue heq
    simp only [queue_queueReply] at hqueue
    cases hold : ((sys.noteNewStream sender reply).view id).queue with
    | none =>
      rw [hold] at hqueue
      cases hqueue
    | some queue =>
      rw [hold] at hqueue
      simp at hqueue
  | some bridge =>
    have hfind : (sys.noteNewStream sender reply).nativeStreamBridges.find id = some bridge := by
      rw [nativeStreamBridges_noteNewStream]
      exact find_of_bridgeFor hbridge
    obtain ⟨found, hfound⟩ := NativeStreamBridges.exists_bridgeOf hfind
    have hsame : sys.nativeStreamBridges.bridgeOf id = some found := by
      rw [← hfound, nativeStreamBridges_noteNewStream]
    simp only [view, updateBridge]
    rw [NativeStreamBridges.bridgeOf_update_of_find hfind, hfound, hsame]
    simp [NativeStreamBridge.handleReply_eq_self_iff]

/-- A reply of node `q` leaves a stream of node `p` alone exactly in these cases. -/
theorem stream_untouched_iff (sys : ClientStreams) (reply : StreamReply) (drawn : GUID) (took : Nat) (id : GUID)
    (p q : NodeID) (hroute : sys.streamRoutes[id]? = some p) (hne : p ≠ q) :
    (sys.handleStreamReply (some q) reply drawn took).view id = sys.view id ↔ sys.Spares reply id := by
  cases hid : reply.streamId.bind fromProtoStreamId with
  | none =>
    refine ⟨fun _ replyId hreplyId => ?_, fun _ => view_handleStreamReply_of_no_id hid⟩
    rw [hid] at hreplyId
    cases hreplyId
  | some replyId =>
    have hspares : sys.Spares reply id ↔ sys.completesPending replyId reply.error ∨
        (reply.newStreamId.bind fromProtoStreamId ≠ some id ∧ (replyId = id → sys.bridgeIgnores id reply)) := by
      rw [Spares]
      refine ⟨fun h => h replyId hid, fun h other hother => ?_⟩
      obtain rfl := Option.some.inj (hid.symm.trans hother)
      exact h
    rw [hspares]
    by_cases hpending : sys.completesPending replyId reply.error
    · exact ⟨fun _ => .inl hpending, fun _ => view_handleStreamReply_of_completes hid hpending⟩
    by_cases hnew : reply.newStreamId.bind fromProtoStreamId = some id
    · -- the stream is now taken to be one of the sender
      refine ⟨fun heq => ?_, fun h => absurd hnew (h.resolve_left hpending).1⟩
      have hsender : ((sys.handleStreamReply (some q) reply drawn took).view id).route = some q :=
        route_handleStreamReply_of_new hid hpending hnew
      rw [heq] at hsender
      exact absurd (Option.some.inj (hroute.symm.trans hsender)) hne
    · by_cases hself : replyId = id
      · subst hself
        rw [view_handleStreamReply_self_iff hid hpending hnew]
        exact ⟨fun h => .inr ⟨hnew, fun _ => h⟩, fun h => (h.resolve_left hpending).2 rfl⟩
      · exact ⟨fun _ => .inr ⟨hnew, fun h => absurd h hself⟩,
          fun _ => view_handleStreamReply_of_ne hid hpending hnew hself⟩

/-! ### A stream that is taken over -/

/-- The node with the stream, and another one. -/
def streamNode : NodeID := ⟨1, 1⟩

def strangerNode : NodeID := ⟨2, 2⟩

def streamOne : GUID := ⟨7, 7⟩

/-- The client connects a stream at `streamNode`. -/
def openStreamOne : List Step := openStream streamOne streamNode

/-- A reply of the other node that names a stream of its own leaves the stream alone. -/
theorem stream_untouched_iff_own :
    ({ streamRoutes := (∅ : Std.TreeMap GUID NodeID).insert streamOne streamNode } : ClientStreams).Spares
      { streamId := some (toProtoStreamId ⟨8, 8⟩) } streamOne := by
  refine (stream_untouched_iff _ _ ⟨0, 0⟩ 0 streamOne streamNode strangerNode (by simp) (by decide)).mp ?_
  decide +kernel

/-- A reply of the other node that names the stream as a new one makes the client send everything for it to that node. -/
theorem stream_taken_over :
    ∃ sys, machine.Reaches sys ∧ sys.streamRoutes[streamOne]? = some streamNode ∧ streamNode ≠ strangerNode ∧
      (sys.handleStreamReply (some strangerNode)
        { streamId := some (toProtoStreamId ⟨8, 8⟩), newStreamId := some (toProtoStreamId streamOne) }
        ⟨0, 0⟩ 0).streamRoutes[streamOne]? = some strangerNode := by
  have hrun : (machine.run {} openStreamOne).any (fun sys => sys.streamRoutes[streamOne]? == some streamNode &&
      (sys.handleStreamReply (some strangerNode)
        { streamId := some (toProtoStreamId ⟨8, 8⟩), newStreamId := some (toProtoStreamId streamOne) }
        ⟨0, 0⟩ 0).streamRoutes[streamOne]? == some strangerNode) = true := by
    decide +kernel
  obtain ⟨sys, hreaches, hsys⟩ := Machine.exists_reaches_of_run rfl hrun
  simp only [Bool.and_eq_true, beq_iff_eq] at hsys
  exact ⟨sys, hreaches, hsys.1, by decide, hsys.2⟩

end ClientStreams

end Rsp
