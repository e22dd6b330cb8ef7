import Rsp.Client.Streams
import Rsp.Lib.Counting

/-!
# How often a reply is delivered

A reply that no call waits for is stored twice, in the queue of its stream and in the common queue, and what takes it from one of them removes from the other at most a result with the same stream and status. If the replies of a stream are taken from one of the two queues only, then each of them is handed out at most once: for every number, the places that still have the reply and the times it was handed out sum up to at most one.
-/

namespace Rsp

open Proto Counting

namespace ClientStreams

/-- The replies of the streams in `polled` are taken with `tryDequeueStreamResult`, and those of the other streams by the calls and the bridges. -/
def takesOneWay (polled : GUID → Bool) (sys : ClientStreams) : Step → Bool
  | .tryDequeue => sys.pendingStreamResults.head?.all fun reply => polled reply.result.streamId
  | .finishCall index _ _ => (sys.calls[index]?).all fun call => !polled call.streamId
  | .attach id => !polled id
  | _ => true

def oneWayMachine (polled : GUID → Bool) : Machine ClientStreams Step :=
  machine.restrict fun sys step => sys.takesOneWay polled step

/-- The results of a reply in a queue that will be looked at. -/
def countQueued (polled : GUID → Bool) (number : Nat) (queue : List Received) : Nat :=
  queue.countP fun reply => reply.number == number && !polled reply.result.streamId

def countPolled (polled : GUID → Bool) (number : Nat) (results : List Received) : Nat :=
  results.countP fun reply => reply.number == number && polled reply.result.streamId

def bufferedNumbers (attachment : Attachment) : List Nat := attachment.bufferedReplies.map Received.number

/-- How often a reply was, or may still be, handed out. -/
def accounted (polled : GUID → Bool) (sys : ClientStreams) (number : Nat) : Nat :=
  total (countQueued polled number) sys.streamReplyQueues + (sys.attaching.flatMap bufferedNumbers).count number +
    sys.writing.toList.countP (·.number == number) + countPolled polled number sys.pendingStreamResults +
    sys.handed.count number

/-- A queue has the results of its stream. -/
def QueuesKeyed (sys : ClientStreams) : Prop :=
  ∀ (id : GUID) (queue : List Received), sys.streamReplyQueues[id]? = some queue →
    ∀ reply ∈ queue, reply.result.streamId = id

structure AtMostOnce (polled : GUID → Bool) (sys : ClientStreams) : Prop where
  keyed : sys.QueuesKeyed
  once : ∀ number, sys.accounted polled number ≤ if number < sys.received.length then 1 else 0

variable {polled : GUID → Bool} {sys sys' : ClientStreams} {id : GUID}

theorem AtMostOnce.of_le (h : AtMostOnce polled sys) (hkeyed : sys'.QueuesKeyed) (hreceived : sys'.received = sys.received)
    (hle : ∀ number, sys'.accounted polled number ≤ sys.accounted polled number) : AtMostOnce polled sys' where
  keyed := hkeyed
  once number := by
    rw [hreceived]
    exact (hle number).trans (h.once number)

/-- Steps that leave the queues, the bridges' threads and the numbers alone. -/
theorem AtMostOnce.of_same (h : AtMostOnce polled sys) (hqueues : sys'.streamReplyQueues = sys.streamReplyQueues)
    (hattaching : sys'.attaching = sys.attaching) (hwriting : sys'.writing = sys.writing)
    (hresults : sys'.pendingStreamResults = sys.pendingStreamResults) (hreceived : sys'.received = sys.received)
    (hhanded : sys'.handed = sys.handed) : AtMostOnce polled sys' := by
  refine h.of_le ?_ hreceived fun number => ?_
  · rw [QueuesKeyed, hqueues]
    exact h.keyed
  · rw [accounted, accounted, hqueues, hattaching, hwriting, hresults, hhanded]

/-! ### Queues -/

theorem elim_countQueued (number : Nat) (queue : Option (List Received)) :
    queue.elim 0 (countQueued polled number) = countQueued polled number (queue.getD []) := by
  cases queue <;> rfl

theorem QueuesKeyed.getD (h : sys.QueuesKeyed) : ∀ reply ∈ (sys.streamReplyQueues[id]?).getD [], reply.result.streamId = id := by
  intro reply hreply
  cases hqueue : sys.streamReplyQueues[id]? with
  | none => simp [hqueue] at hreply
  | some queue =>
    rw [hqueue] at hreply
    exact h id queue hqueue reply hreply

theorem QueuesKeyed.insert (h : sys.QueuesKeyed) {queue : List Received}
    (hqueue : ∀ reply ∈ queue, reply.result.streamId = id)
    (hinsert : sys'.streamReplyQueues = sys.streamReplyQueues.insert id queue) : sys'.QueuesKeyed := by
  intro other found hfound
  rw [hinsert, Std.TreeMap.getElem?_insert] at hfound
  split at hfound
  · rename_i heq
    cases hfound
    exact Std.LawfulEqCmp.eq_of_compare heq ▸ hqueue
  · exact h other found hfound

theorem QueuesKeyed.erase (h : sys.QueuesKeyed) (herase : sys'.streamReplyQueues = sys.streamReplyQueues.erase id) :
    sys'.QueuesKeyed := by
  intro other found hfound
  rw [herase, Std.TreeMap.getElem?_erase] at hfound
  split at hfound
  · cases hfound
  · exact h other found hfound

/-- All results in a queue that is looked at count. -/
theorem countQueued_eq (hpolled : polled id = false) {queue : List Received}
    (hqueue : ∀ reply ∈ queue, reply.result.streamId = id) (number : Nat) :
    countQueued polled number queue = (queue.map Received.number).count number := by
  rw [countQueued, List.count_eq_countP, List.countP_map]
  refine List.countP_congr fun reply hreply => ?_
  rw [hqueue reply hreply, hpolled]
  simp

theorem countPolled_removeBufferedReply_le (polled : GUID → Bool) (number : Nat) (results : List Received) (reply : Received) :
    countPolled polled number (removeBufferedReply results reply) ≤ countPolled polled number results :=
  List.eraseP_sublist.countP_le

theorem countPolled_foldl_le (polled : GUID → Bool) (number : Nat) (replies results : List Received) :
    countPolled polled number (replies.foldl removeBufferedReply results) ≤ countPolled polled number results := by
  induction replies generalizing results with
  | nil => exact Nat.le_refl _
  | cons reply replies ih => exact (ih _).trans (countPolled_removeBufferedReply_le polled number results reply)

/-! ### Steps that take replies in -/

theorem queuesKeyed_queueReply {reply : Received} (h : sys.QueuesKeyed) (hreply : reply.result.streamId = id) :
    (sys.queueReply id reply).QueuesKeyed := by
  have hqueues : (sys.queueReply id reply).streamReplyQueues =
      sys.streamReplyQueues.insert id ((sys.streamReplyQueues[id]?).getD [] ++ [reply]) := by
    rw [queueReply]
    split <;> rfl
  refine h.insert ?_ hqueues
  intro other hother
  rcases List.mem_append.mp hother with hold | hnew
  · exact h.getD other hold
  · obtain rfl := List.mem_singleton.mp hnew
    exact hreply

/-- A result counts in one of the two kinds of queues only. -/
theorem countQueued_add_countPolled_le (polled : GUID → Bool) (reply : Received) (number : Nat) :
    countQueued polled number [reply] + countPolled polled number [reply] ≤ if reply.number = number then 1 else 0 := by
  simp only [countQueued, countPolled, List.countP_singleton]
  by_cases hnumber : reply.number = number <;> cases polled reply.result.streamId <;> simp [hnumber]

theorem countPolled_append (number : Nat) (first second : List Received) :
    countPolled polled number (first ++ second) = countPolled polled number first + countPolled polled number second :=
  List.countP_append

theorem accounted_queueReply_le (reply : Received) (number : Nat) :
    (sys.queueReply id reply).accounted polled number ≤
      sys.accounted polled number + if reply.number = number then 1 else 0 := by
  have hqueue : total (countQueued polled number)
        (sys.streamReplyQueues.insert id ((sys.streamReplyQueues[id]?).getD [] ++ [reply])) =
      total (countQueued polled number) sys.streamReplyQueues + countQueued polled number [reply] := by
    rw [total_insert, total_eq_elim_add_erase (t := sys.streamReplyQueues) id, elim_countQueued]
    simp only [countQueued, List.countP_append]
    omega
  have hcounts := countQueued_add_countPolled_le polled reply number
  rw [queueReply]
  split <;> simp only [accounted, hqueue, countPolled_append] <;> omega

/-- What is left of a reply after the critical section of `handleStreamReply`: results in the queues, or a bridge to write to. -/
structure Routes (polled : GUID → Bool) (sys : ClientStreams) (routed : ClientStreams × Option Nat) : Prop where
  keyed : routed.1.QueuesKeyed
  writing : routed.1.writing = sys.writing
  accounted : ∀ number, routed.1.accounted polled number + (if routed.2.isSome ∧ sys.received.length = number then 1 else 0) ≤
    sys.accounted polled number + if sys.received.length = number then 1 else 0

theorem Routes.of_same {bridge : Option Nat} (h : sys.QueuesKeyed)
    (hqueues : sys'.streamReplyQueues = sys.streamReplyQueues) (hattaching : sys'.attaching = sys.attaching)
    (hwriting : sys'.writing = sys.writing) (hresults : sys'.pendingStreamResults = sys.pendingStreamResults)
    (hhanded : sys'.handed = sys.handed) : Routes polled sys (sys', bridge) where
  keyed := by
    rw [QueuesKeyed, hqueues]
    exact h
  writing := hwriting
  accounted number := by
    rw [ClientStreams.accounted, ClientStreams.accounted, hqueues, hattaching, hwriting, hresults, hhanded]
    by_cases hnumber : sys.received.length = number <;> cases bridge <;> simp [hnumber]

theorem routes_queueReply (reply : Received) (h : sys.QueuesKeyed) (hreply : reply.result.streamId = id)
    (hnumber : reply.number = sys.received.length) : Routes polled sys (sys.queueReply id reply, none) where
  keyed := queuesKeyed_queueReply h hreply
  writing := by
    obtain ⟨awaited, results, hqueued⟩ := sys.exists_queueReply id reply
    rw [hqueued]
  accounted number := by
    have hle : (sys.queueReply id reply).accounted polled number ≤ _ := accounted_queueReply_le reply number
    rw [hnumber] at hle
    simpa using hle

theorem routes_routeReply {sender : Option NodeID} {reply : StreamReply} {drawn : GUID} (h : sys.QueuesKeyed) :
    Routes polled sys (sys.routeReply sender reply drawn) := by
  obtain ⟨routes, hnoted⟩ := sys.exists_noteNewStream sender reply
  have hrouted := routed sys sender reply drawn
  generalize sys.routeReply sender reply drawn = route at hrouted
  cases hrouted with
  | unnamed hid =>
    refine ⟨h, rfl, fun number => ?_⟩
    have hcounts : _ ≤ if sys.received.length = number then 1 else 0 :=
      countQueued_add_countPolled_le polled ⟨sys.received.length, streamResultFromReply reply drawn⟩ number
    simp only [accounted, countPolled_append, Option.isSome_none, Bool.false_eq_true, false_and, if_false]
    omega
  | completes id hid hpending =>
    rw [completePending]
    split <;> exact .of_same h rfl rfl rfl rfl rfl
  | bridged id bridge hid hpending hbridge =>
    rw [hnoted]
    split <;> exact .of_same h rfl rfl rfl rfl rfl
  | queued id hid hpending hbridge =>
    rw [hnoted]
    have hstream : (streamResultFromReply reply id).streamId = id := by simp [streamResultFromReply, hid]
    have hqueue : Routes polled { sys with streamRoutes := routes } (_, none) :=
      routes_queueReply ⟨sys.received.length, streamResultFromReply reply id⟩ h hstream rfl
    exact ⟨hqueue.keyed, hqueue.writing, hqueue.accounted⟩

theorem AtMostOnce.receive {sender : Option NodeID} {reply : StreamReply} {drawn : GUID} (h : AtMostOnce polled sys)
    (hstep : sys.receive sender reply drawn = some sys') : AtMostOnce polled sys' := by
  have hroutes : Routes polled sys (sys.routeReply sender reply drawn) := routes_routeReply h.keyed
  rw [ClientStreams.receive] at hstep
  generalize sys.routeReply sender reply drawn = routed at hroutes hstep
  obtain ⟨sys₁, bridge⟩ := routed
  split at hstep
  · cases hstep
  · rename_i hidle
    cases hstep
    have hwriting : sys₁.writing = none := by
      rw [hroutes.writing]
      simpa using hidle
    refine ⟨hroutes.keyed, fun number => ?_⟩
    have hold := h.once number
    have hnew := hroutes.accounted number
    have hwrite : ((bridge.map fun bridge => (⟨bridge, sys.received.length, reply⟩ : BridgeWrite)).toList.countP
        (·.number == number)) = if bridge.isSome ∧ sys.received.length = number then 1 else 0 := by
      cases bridge with
      | none => rfl
      | some bridge => simp [List.countP_singleton]
    simp only [accounted, hwriting, Option.toList_none, List.countP_nil, hwrite] at hold hnew ⊢
    rw [List.length_append, List.length_singleton]
    split_ifs at hold hnew ⊢ <;> omega

theorem AtMostOnce.writeBridge {took : Nat} (h : AtMostOnce polled sys) (hstep : sys.writeBridge took = some sys') :
    AtMostOnce polled sys' := by
  obtain ⟨write, hwriting, hsys'⟩ := Option.bind_eq_some_iff.mp hstep
  cases hsys'
  refine h.of_le h.keyed rfl fun number => ?_
  simp only [accounted, updateBridge, hwriting, Option.toList_none, Option.toList_some, List.countP_nil,
    List.countP_singleton, List.count_append, List.count_singleton]
  omega

/-! ### Steps that hand replies out -/

/-- The queue of a stream without its first result. -/
theorem total_dropFirst {t : Std.TreeMap GUID (List Received)} (rest : List Received) (number : Nat) :
    total (countQueued polled number) (if rest.isEmpty then t.erase id else t.insert id rest) =
      countQueued polled number rest + total (countQueued polled number) (t.erase id) := by
  cases rest with
  | nil => exact (Nat.zero_add _).symm
  | cons reply rest => exact total_insert

theorem AtMostOnce.waitForStreamReply {stopping : Bool} (h : AtMostOnce polled sys) (hpolled : polled id = false) :
    AtMostOnce polled (sys.waitForStreamReply id stopping).1 := by
  rw [ClientStreams.waitForStreamReply]
  split
  · rename_i reply rest hqueue
    split
    · exact h.of_same rfl rfl rfl rfl rfl rfl
    · have hreplies := h.keyed id _ hqueue
      refine h.of_le ?_ rfl fun number => ?_
      · cases rest with
        | nil => exact h.keyed.erase rfl
        | cons next rest => exact h.keyed.insert (fun other hother => hreplies other (List.mem_cons_of_mem _ hother)) rfl
      · have hfirst : countQueued polled number (reply :: rest) = countQueued polled number rest +
            if reply.number = number then 1 else 0 := by
          rw [countQueued, List.countP_cons, hreplies reply List.mem_cons_self, hpolled]
          simp [countQueued]
        have hresults := countPolled_removeBufferedReply_le polled number sys.pendingStreamResults reply
        simp only [accounted, total_dropFirst, List.count_append, List.count_singleton,
          total_eq_add_erase hqueue, hfirst, beq_iff_eq]
        omega
  · exact h.of_same rfl rfl rfl rfl rfl rfl

theorem AtMostOnce.of_callsOnly (h : AtMostOnce polled sys) (hcalls : CallsOnly sys sys') : AtMostOnce polled sys' := by
  obtain ⟨routes, connects, listens, awaited, calls, returned, rfl⟩ := hcalls
  exact h.of_same rfl rfl rfl rfl rfl rfl

theorem AtMostOnce.waitCall {index : Nat} {stopping again : Bool} (h : AtMostOnce polled sys)
    (hallowed : sys.takesOneWay polled (.finishCall index stopping again))
    (hstep : sys.waitCall index stopping again = some sys') : AtMostOnce polled sys' := by
  obtain ⟨call, hcall, hstep⟩ := Option.bind_eq_some_iff.mp hstep
  split at hstep
  · cases hstep
    rw [takesOneWay, hcall] at hallowed
    exact (h.waitForStreamReply (by simpa using hallowed)).of_callsOnly (callsOnly_finishCall ..)
  · cases hstep

theorem AtMostOnce.tryDequeue (h : AtMostOnce polled sys) (hallowed : sys.takesOneWay polled .tryDequeue) :
    AtMostOnce polled sys.tryDequeueStreamResult := by
  rw [tryDequeueStreamResult]
  split
  · exact h
  · rename_i reply rest hresults
    rw [takesOneWay, hresults] at hallowed
    refine h.of_le h.keyed rfl fun number => ?_
    have hpolled : polled reply.result.streamId = true := by simpa using hallowed
    simp only [accounted, hresults, countPolled, List.countP_cons, hpolled, Bool.and_true, List.count_append,
      List.count_singleton]
    omega

theorem AtMostOnce.attach (h : AtMostOnce polled sys) (hallowed : sys.takesOneWay polled (.attach id)) :
    AtMostOnce polled (sys.attachNativeStreamBridge id) := by
  refine h.of_le (h.keyed.erase rfl) rfl fun number => ?_
  have hpolled : polled id = false := by simpa [takesOneWay] using hallowed
  have hqueue : countQueued polled number ((sys.streamReplyQueues[id]?).getD []) = _ :=
    countQueued_eq hpolled h.keyed.getD number
  have hresults := countPolled_foldl_le polled number ((sys.streamReplyQueues[id]?).getD []) sys.pendingStreamResults
  simp only [accounted, attachNativeStreamBridge, List.flatMap_append, List.flatMap_singleton, List.count_append,
    bufferedNumbers, total_eq_elim_add_erase (t := sys.streamReplyQueues) id, elim_countQueued, hqueue]
  omega

theorem AtMostOnce.writeBuffered {index took : Nat} (h : AtMostOnce polled sys)
    (hstep : sys.writeBuffered index took = some sys') : AtMostOnce polled sys' := by
  obtain ⟨attachment, hattachment, hstep⟩ := Option.bind_eq_some_iff.mp hstep
  obtain ⟨bridge, -, hstep⟩ := Option.bind_eq_some_iff.mp hstep
  -- the results that the thread no longer has were handed out or are lost
  have hgone (number : Nat) (new : Option Attachment) :
      ((replaceAt index new sys.attaching).flatMap bufferedNumbers).count number +
          (bufferedNumbers attachment).count number =
        (sys.attaching.flatMap bufferedNumbers).count number + (new.toList.flatMap bufferedNumbers).count number :=
    count_flatMap_replaceAt hattachment new bufferedNumbers number
  split at hstep
  · cases hstep
    refine h.of_le h.keyed rfl fun number => ?_
    have hcount := hgone number none
    simp only [accounted, replaceAt, Option.toList_none, List.flatMap_nil, List.count_nil] at hcount ⊢
    omega
  · rename_i reply rest hbuffered
    have hfirst (number : Nat) : (bufferedNumbers attachment).count number =
        (rest.map Received.number).count number + [reply.number].count number := by
      rw [bufferedNumbers, hbuffered, List.map_cons, ← List.singleton_append, List.count_append, Nat.add_comm]
    split at hstep
    · split at hstep
      · cases hstep
        refine h.of_le h.keyed rfl fun number => ?_
        have hcount := hgone number (some { attachment with bufferedReplies := rest })
        have hnumber := hfirst number
        simp only [accounted, updateBridge, replaceAt, List.count_append, Option.toList_some, List.flatMap_singleton,
          bufferedNumbers] at hcount hnumber ⊢
        omega
      · cases hstep
        refine h.of_le h.keyed rfl fun number => ?_
        have hcount := hgone number none
        have hnumber := hfirst number
        simp only [accounted, updateBridge, replaceAt, List.count_append, Option.toList_none, List.flatMap_nil,
          List.count_nil] at hcount hnumber ⊢
        omega
    · cases hstep
      refine h.of_le h.keyed rfl fun number => ?_
      have hcount := hgone number none
      have hnumber := hfirst number
      simp only [accounted, updateBridge, replaceAt, List.count_append, Option.toList_none, List.flatMap_nil,
        List.count_nil] at hcount hnumber ⊢
      omega

theorem AtMostOnce.next {step : Step} (h : AtMostOnce polled sys) (hallowed : sys.takesOneWay polled step)
    (hstep : sys.next step = some sys') : AtMostOnce polled sys' := by
  cases step with
  | receive sender reply drawn => exact h.receive hstep
  | writeBridge took => exact h.writeBridge hstep
  | beginOpen listens id =>
    cases hstep
    exact h.of_callsOnly (callsOnly_beginOpen ..)
  | finishOpen listens id nodeId =>
    cases hstep
    exact h.of_callsOnly (callsOnly_finishOpen ..)
  | beginCall kind id =>
    cases hstep
    exact h.of_callsOnly (callsOnly_beginCall ..)
  | send index taken => exact h.of_callsOnly (callsOnly_send hstep)
  | finishCall index stopping again => exact h.waitCall hallowed hstep
  | tryDequeue =>
    cases hstep
    exact h.tryDequeue hallowed
  | attach id =>
    cases hstep
    exact h.attach hallowed
  | writeBuffered index took => exact h.writeBuffered hstep
  | endBridge bridge =>
    cases hstep
    exact h.of_same rfl rfl rfl rfl rfl rfl

theorem atMostOnce_of_reaches (h : (oneWayMachine polled).Reaches sys) : AtMostOnce polled sys := by
  refine h.invariant (fun sys hinit => ?_) fun sys step sys' hinv hstep => ?_
  · cases hinit
    refine ⟨fun id queue hqueue => ?_, fun number => ?_⟩
    · simp at hqueue
    · have hempty : total (countQueued polled number) (∅ : Std.TreeMap GUID (List Received)) = 0 := rfl
      simp [accounted, hempty, countPolled]
  · obtain ⟨hallowed, hnext⟩ := Machine.restrict_next hstep
    exact hinv.next hallowed hnext

/-- If the replies of a stream are taken in one of the two ways only, no reply is handed out twice. -/
theorem replies_delivered_once (polled : GUID → Bool) (sys : ClientStreams) (h : (oneWayMachine polled).Reaches sys) :
    sys.handed.Nodup := by
  rw [List.nodup_iff_count_le_one]
  intro number
  have honce := (atMostOnce_of_reaches h).once number
  rw [accounted] at honce
  split at honce <;> omega

/-! ### A reply that is delivered twice -/

/-- Data comes in, is taken with `tryDequeueStreamResult`, and then `streamRecvEx` takes it again. -/
def receiveTwice : List Step :=
  openStream ⟨7, 7⟩ ⟨1, 1⟩ ++
    [.receive (some ⟨1, 1⟩) (dataReply ⟨7, 7⟩ [1]) ⟨0, 0⟩, .tryDequeue, .beginCall .recv ⟨7, 7⟩, .send 0 true,
      .finishCall 0 false false]

theorem reply_delivered_twice : ∃ sys, machine.Reaches sys ∧ ¬ sys.handed.Nodup := by
  have hrun : (machine.run {} receiveTwice).any (fun sys => sys.handed == [1, 1]) = true := by decide +kernel
  obtain ⟨sys, hreaches, hhanded⟩ := Machine.exists_reaches_of_run rfl hrun
  refine ⟨sys, hreaches, ?_⟩
  rw [eq_of_beq hhanded]
  decide

/-- Two replies of one stream, which `streamRecvEx` takes one after the other. -/
def receiveBoth : List Step :=
  openStream ⟨7, 7⟩ ⟨1, 1⟩ ++
    [.receive (some ⟨1, 1⟩) (dataReply ⟨7, 7⟩ [1]) ⟨0, 0⟩, .receive (some ⟨1, 1⟩) (dataReply ⟨7, 7⟩ [2]) ⟨0, 0⟩,
      .beginCall .recv ⟨7, 7⟩, .send 0 true, .finishCall 0 false false,
      .beginCall .recv ⟨7, 7⟩, .send 0 true, .finishCall 0 false false]

theorem replies_delivered_once_recv : ∃ sys : ClientStreams, sys.handed = [1, 2] ∧ sys.handed.Nodup := by
  have hrun : ((oneWayMachine fun _ => false).run {} receiveBoth).any (fun sys => sys.handed == [1, 2]) = true := by
    decide +kernel
  obtain ⟨sys, hreaches, hhanded⟩ := Machine.exists_reaches_of_run rfl hrun
  exact ⟨sys, eq_of_beq hhanded, replies_delivered_once (fun _ => false) sys hreaches⟩

end ClientStreams

end Rsp
