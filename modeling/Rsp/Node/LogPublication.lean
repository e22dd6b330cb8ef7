import Rsp.Endorsement.FieldPaths
import Rsp.Lib.Counting
import Rsp.Lib.FanOut
import Rsp.Node.LogFilter
import Rsp.Node.Logging

/-!
# Publishing a log record

`SubscriptionManager::publish`: expired subscriptions are dropped, and the record goes to every other subscription for its payload type whose filter holds, in the order of the subscription ids. A subscriber with a failed delivery loses all its subscriptions and gets nothing more of this record.

The filter comes from the subscriber, and evaluating it can be fatal. Then nothing is delivered to the subscriptions behind it.
-/

namespace Rsp

open Reflection Proto

structure PublishStats where
  matchedSubscriptions : Nat := 0
  deliveredMessages : Nat := 0
  expiredSubscriptions : Nat := 0
  removedSubscriptionsOnFailure : Nat := 0
deriving DecidableEq, Repr

namespace SubscriptionManager

/-! ### The code -/

/-- The loops that walk through the table, erase some subscriptions and count them. -/
def eraseWhere (remove : Subscription → Bool) (manager : SubscriptionManager) : SubscriptionManager × Nat :=
  (⟨manager.subscriptions.filter fun _ subscription => !remove subscription⟩,
    manager.subscriptions.toList.countP fun entry => remove entry.2)

def removeExpired (now : DateTime) (manager : SubscriptionManager) : SubscriptionManager × Nat :=
  manager.eraseWhere fun subscription => subscription.expiresAt ≤ now

def removeAllForNode (subscriberNodeId : NodeID) (manager : SubscriptionManager) : SubscriptionManager × Nat :=
  manager.eraseWhere fun subscription => subscription.subscriberNodeId = subscriberNodeId

/-- The message for a subscription. What the record already says about its subscription, producer and time is kept. -/
def envelope (localNodeId : NodeID) (record : LogRecord) (now : DateTime) (candidate : GUID × Subscription) : RSPMessage where
  source := some (toProtoNodeId localNodeId)
  destination := some (toProtoNodeId candidate.2.subscriberNodeId)
  coreMessage := .logRecord
    { record with
      subscriptionId := some (record.subscriptionId.getD ⟨candidate.1.toNative⟩)
      producerNodeId := some (record.producerNodeId.getD (toProtoNodeId localNodeId))
      timeCreated := some (record.timeCreated.getD ⟨DateTime.millisecondsSinceEpoch now⟩) }

/-- The state of the delivery loop. `handedOver` are the messages that the callback has got. -/
structure Delivery where
  manager : SubscriptionManager
  stats : PublishStats := {}
  failedSubscribers : List NodeID := []
  handedOver : List RSPMessage := []

/-- The unpacked payload of a record, and what its filters are evaluated with. -/
structure Unpacked where
  typeUrl : Bytes
  pool : Pool
  message : Message
  snapshot : SchemaSnapshot

section

variable (pb : Protobuf) (localNodeId : NodeID) (record : LogRecord) (deliver : List RSPMessage → RSPMessage → Bool)
  (now : DateTime)

/-- `evaluateFilterTree` on the payload. -/
def Unpacked.evaluate (payload : Unpacked) (filter : LogASTMessageTree) : Except Fault Bool :=
  evaluateFilterTree pb payload.pool payload.message (some payload.snapshot) filter

/-- One round of the delivery loop. -/
def deliverCandidate (payload : Unpacked) (state : Delivery) (candidate : GUID × Subscription) : Except Fault Delivery := do
  if state.failedSubscribers.contains candidate.2.subscriberNodeId then return state
  else if candidate.2.payloadTypeUrl ≠ payload.typeUrl then return state
  else if !(← payload.evaluate pb candidate.2.filter) then return state
  else
    let message := envelope localNodeId record now candidate
    let matched := state.stats.matchedSubscriptions + 1
    let handedOver := state.handedOver ++ [message]
    if !deliver state.handedOver message then
      let removed := state.manager.removeAllForNode candidate.2.subscriberNodeId
      return {
          manager := removed.1
          failedSubscribers := state.failedSubscribers ++ [candidate.2.subscriberNodeId]
          stats :=
            { state.stats with
              matchedSubscriptions := matched
              removedSubscriptionsOnFailure := state.stats.removedSubscriptionsOnFailure + removed.2 }
          handedOver := handedOver }
    else
      return { state with
          stats :=
            { state.stats with
              matchedSubscriptions := matched
              deliveredMessages := state.stats.deliveredMessages + 1 }
          handedOver := handedOver }

def unpack (payload : Any) (snapshot : SchemaSnapshot) : Option Unpacked := do
  let pool ← snapshot.ensurePool pb
  if pool.hasMessageType (typeNameFromUrl payload.typeUrl) then
    let message ← pool.parse (typeNameFromUrl payload.typeUrl) payload.value
    return ⟨payload.typeUrl, pool, message, snapshot⟩
  else none

/-- The candidates are the subscriptions that were not expired, as they were when the loop began. -/
def publish (snapshot : Option SchemaSnapshot) (manager : SubscriptionManager) : Except Fault Delivery :=
  match record.payload with
  | none => .ok { manager := manager }
  | some payload =>
    if payload.typeUrl.isEmpty then .ok { manager := manager }
    else
      let removed := manager.removeExpired now
      let candidates := manager.subscriptions.toList.filter fun entry => !decide (entry.2.expiresAt ≤ now)
      let state : Delivery := { manager := removed.1, stats := { expiredSubscriptions := removed.2 } }
      match snapshot.bind (unpack pb payload) with
      | none => .ok state
      | some payload => candidates.foldlM (deliverCandidate pb localNodeId record deliver now payload) state

end

/-! ### What a publication does -/

section

variable (pb : Protobuf) (localNodeId : NodeID) (record : LogRecord) (deliver : List RSPMessage → RSPMessage → Bool)
  (now : DateTime) (payload : Unpacked) (manager : SubscriptionManager)

def expired (entry : GUID × Subscription) : Bool := entry.2.expiresAt ≤ now

/-- The subscription is for the type of the payload, and its filter holds. -/
def wants (entry : GUID × Subscription) : Bool :=
  entry.2.payloadTypeUrl = payload.typeUrl && (payload.evaluate pb entry.2.filter).toOption = some true

def subscriber (entry : GUID × Subscription) : NodeID := entry.2.subscriberNodeId

/-- The result of a delivery, after those before it. -/
def outcome (earlier : List (GUID × Subscription)) (entry : GUID × Subscription) : Bool :=
  deliver (earlier.map (envelope localNodeId record now)) (envelope localNodeId record now entry)

/-- Where the delivery loop is after some of the candidates: the attempts it has made, and what they have done to the table and to the statistics. -/
structure Publishes (candidates : List (GUID × Subscription)) (made : List (FanOut.Attempt (GUID × Subscription)))
    (state : Delivery) : Prop where
  attempts : FanOut.Orderly subscriber (outcome localNodeId record deliver now) (candidates.filter (wants pb payload)) made
  handedOver : state.handedOver = made.map fun attempt => envelope localNodeId record now attempt.item
  failedSubscribers : state.failedSubscribers = FanOut.failed subscriber made
  table : state.manager.subscriptions.toList = manager.subscriptions.toList.filter fun entry =>
    !expired now entry && !(FanOut.failed subscriber made).contains (subscriber entry)
  deliveredCount : state.stats.deliveredMessages = made.countP (·.delivered)
  matchedCount : state.stats.matchedSubscriptions = made.length
  expiredCount : state.stats.expiredSubscriptions = manager.subscriptions.toList.countP (expired now)
  removedCount : state.stats.removedSubscriptionsOnFailure = manager.subscriptions.toList.countP fun entry =>
    !expired now entry && (FanOut.failed subscriber made).contains (subscriber entry)

end

variable {pb : Protobuf} {localNodeId : NodeID} {record : LogRecord} {deliver : List RSPMessage → RSPMessage → Bool}
  {now : DateTime} {payload : Unpacked} {manager : SubscriptionManager}

theorem publishes_start :
    Publishes pb localNodeId record deliver now payload manager [] []
      { manager := (manager.removeExpired now).1, stats := { expiredSubscriptions := (manager.removeExpired now).2 } } := by
  refine ⟨.nil, rfl, rfl, ?_, rfl, rfl, rfl, ?_⟩
  · change (manager.subscriptions.filter _).toList = _
    rw [Std.TreeMap.toList_filter]
    apply List.filter_congr
    intro entry _
    exact (Bool.and_true _).symm
  · symm
    rw [List.countP_eq_zero]
    intro entry _
    simp [FanOut.failed]

/-! ### One candidate -/

variable {candidates : List (GUID × Subscription)} {made : List (FanOut.Attempt (GUID × Subscription))} {state : Delivery}
  {candidate : GUID × Subscription}

theorem filter_wants_concat (h : wants pb payload candidate = true) :
    (candidates ++ [candidate]).filter (wants pb payload) = candidates.filter (wants pb payload) ++ [candidate] := by
  rw [List.filter_append, List.filter_cons_of_pos h, List.filter_nil]

theorem filter_wants_concat_of_not (h : wants pb payload candidate = false) :
    (candidates ++ [candidate]).filter (wants pb payload) = candidates.filter (wants pb payload) := by
  rw [List.filter_append, List.filter_cons_of_neg (by rw [h]; exact Bool.false_ne_true), List.filter_nil, List.append_nil]

/-- A candidate that gets nothing leaves everything as it is. -/
theorem Publishes.pass (h : Publishes pb localNodeId record deliver now payload manager candidates made state)
    (hpass : wants pb payload candidate = true → subscriber candidate ∈ FanOut.failed subscriber made) :
    Publishes pb localNodeId record deliver now payload manager (candidates ++ [candidate]) made state := by
  refine { h with attempts := ?_ }
  by_cases hwants : wants pb payload candidate = true
  · rw [filter_wants_concat hwants]
    exact h.attempts.skip (hpass hwants)
  · rw [filter_wants_concat_of_not (Bool.eq_false_of_not_eq_true hwants)]
    exact h.attempts

/-- The attempt with the outcome it has. -/
theorem Publishes.attempts_concat (h : Publishes pb localNodeId record deliver now payload manager candidates made state)
    (hwants : wants pb payload candidate = true) (hgood : subscriber candidate ∉ FanOut.failed subscriber made) {delivered : Bool}
    (hdeliver : deliver state.handedOver (envelope localNodeId record now candidate) = delivered) :
    FanOut.Orderly subscriber (outcome localNodeId record deliver now) ((candidates ++ [candidate]).filter (wants pb payload))
      (made ++ [⟨candidate, delivered⟩]) := by
  have houtcome : outcome localNodeId record deliver now (made.map FanOut.Attempt.item) candidate = delivered := by
    rw [← hdeliver, h.handedOver, outcome, List.map_map]
    rfl
  rw [filter_wants_concat hwants, ← houtcome]
  exact h.attempts.attempt hgood

theorem Publishes.deliver_true (h : Publishes pb localNodeId record deliver now payload manager candidates made state)
    (hwants : wants pb payload candidate = true) (hgood : subscriber candidate ∉ FanOut.failed subscriber made)
    (hdeliver : deliver state.handedOver (envelope localNodeId record now candidate) = true) :
    Publishes pb localNodeId record deliver now payload manager (candidates ++ [candidate]) (made ++ [⟨candidate, true⟩])
      { state with
        stats :=
          { state.stats with
            matchedSubscriptions := state.stats.matchedSubscriptions + 1
            deliveredMessages := state.stats.deliveredMessages + 1 }
        handedOver := state.handedOver ++ [envelope localNodeId record now candidate] } := by
  have hfailed := FanOut.failed_concat_delivered subscriber made candidate
  refine ⟨h.attempts_concat hwants hgood hdeliver, ?_, ?_, ?_, ?_, ?_, h.expiredCount, ?_⟩
  · rw [List.map_append, ← h.handedOver]
    rfl
  · rw [hfailed]
    exact h.failedSubscribers
  · rw [hfailed]
    exact h.table
  · rw [List.countP_append, ← h.deliveredCount]
    rfl
  · rw [List.length_append, ← h.matchedCount]
    rfl
  · rw [hfailed]
    exact h.removedCount

/-- What is removed for a subscriber whose delivery has failed. -/
theorem Publishes.removes (h : Publishes pb localNodeId record deliver now payload manager candidates made state)
    (hgood : subscriber candidate ∉ FanOut.failed subscriber made) :
    (state.manager.removeAllForNode (subscriber candidate)).1.subscriptions.toList =
        (manager.subscriptions.toList.filter fun entry =>
          !expired now entry && !(FanOut.failed subscriber made ++ [subscriber candidate]).contains (subscriber entry)) ∧
      state.stats.removedSubscriptionsOnFailure + (state.manager.removeAllForNode (subscriber candidate)).2 =
        manager.subscriptions.toList.countP fun entry =>
          !expired now entry && (FanOut.failed subscriber made ++ [subscriber candidate]).contains (subscriber entry) := by
  have hcontains (entry : GUID × Subscription) :
      (FanOut.failed subscriber made ++ [subscriber candidate]).contains (subscriber entry) =
        ((FanOut.failed subscriber made).contains (subscriber entry) || decide (subscriber entry = subscriber candidate)) := by
    rw [Bool.eq_iff_iff, Bool.or_eq_true, List.contains_iff_mem, List.contains_iff_mem, decide_eq_true_eq, List.mem_append,
      List.mem_singleton]
  simp only [hcontains]
  constructor
  · change (state.manager.subscriptions.filter _).toList = _
    rw [Std.TreeMap.toList_filter, h.table, List.filter_filter]
    apply List.filter_congr
    intro entry _
    change (!decide (subscriber entry = subscriber candidate) && (!expired now entry && _)) = _
    rw [Bool.not_or, Bool.and_comm, Bool.and_assoc]
  · change _ + state.manager.subscriptions.toList.countP _ = _
    rw [h.table, h.removedCount, List.countP_filter]
    apply Counting.countP_add
    intro entry _
    change (_ && (decide (subscriber entry = subscriber candidate) && _)) = false ∧
      (_ || decide (subscriber entry = subscriber candidate) && _) = _
    by_cases heq : subscriber entry = subscriber candidate
    · have hnot : (FanOut.failed subscriber made).contains (subscriber entry) = false := by
        rw [heq]
        simpa using hgood
      rw [hnot]
      simp [heq]
    · simp [heq]

theorem Publishes.deliver_false (h : Publishes pb localNodeId record deliver now payload manager candidates made state)
    (hwants : wants pb payload candidate = true) (hgood : subscriber candidate ∉ FanOut.failed subscriber made)
    (hdeliver : deliver state.handedOver (envelope localNodeId record now candidate) = false) :
    Publishes pb localNodeId record deliver now payload manager (candidates ++ [candidate]) (made ++ [⟨candidate, false⟩])
      { manager := (state.manager.removeAllForNode (subscriber candidate)).1
        failedSubscribers := state.failedSubscribers ++ [subscriber candidate]
        stats :=
          { state.stats with
            matchedSubscriptions := state.stats.matchedSubscriptions + 1
            removedSubscriptionsOnFailure := state.stats.removedSubscriptionsOnFailure +
              (state.manager.removeAllForNode (subscriber candidate)).2 }
        handedOver := state.handedOver ++ [envelope localNodeId record now candidate] } := by
  have hfailed := FanOut.failed_concat_failed subscriber made candidate
  obtain ⟨htable, hremoved⟩ := h.removes hgood
  refine ⟨h.attempts_concat hwants hgood hdeliver, ?_, ?_, ?_, ?_, ?_, h.expiredCount, ?_⟩
  · rw [List.map_append, ← h.handedOver]
    rfl
  · rw [hfailed, ← h.failedSubscribers]
  · rw [hfailed]
    exact htable
  · rw [List.countP_append]
    exact h.deliveredCount
  · rw [List.length_append, ← h.matchedCount]
    rfl
  · rw [hfailed]
    exact hremoved

/-- One round of the loop, if it ends: it makes at most one attempt. -/
theorem Publishes.next (h : Publishes pb localNodeId record deliver now payload manager candidates made state)
    (hends : candidate.2.payloadTypeUrl = payload.typeUrl → EndsNormally (payload.evaluate pb candidate.2.filter)) :
    ∃ state' made', deliverCandidate pb localNodeId record deliver now payload state candidate = .ok state' ∧
      Publishes pb localNodeId record deliver now payload manager (candidates ++ [candidate]) made' state' := by
  unfold deliverCandidate
  split_ifs with hskip htype
  · refine ⟨state, made, rfl, h.pass fun _ => ?_⟩
    rw [← h.failedSubscribers]
    exact List.contains_iff_mem.mp hskip
  · refine ⟨state, made, rfl, h.pass fun hwants => ?_⟩
    simp [wants, htype] at hwants
  · rw [not_not] at htype
    have hgood : subscriber candidate ∉ FanOut.failed subscriber made := by
      rw [← h.failedSubscribers]
      exact fun hmem => hskip (List.contains_iff_mem.mpr hmem)
    obtain ⟨holds, hevaluate⟩ := hends htype
    have hwants : wants pb payload candidate = holds := by
      simp [wants, htype, hevaluate, Except.toOption]
    rw [hevaluate]
    cases holds with
    | false => exact ⟨state, made, rfl, h.pass fun htrue => absurd (hwants.symm.trans htrue) Bool.false_ne_true⟩
    | true =>
      cases hdeliver : deliver state.handedOver (envelope localNodeId record now candidate) with
      | true =>
        refine ⟨_, _, ?_, h.deliver_true hwants hgood hdeliver⟩
        simp only [bind, Except.bind, hdeliver]
        rfl
      | false =>
        refine ⟨_, _, ?_, h.deliver_false hwants hgood hdeliver⟩
        simp only [bind, Except.bind, hdeliver]
        rfl

/-! ### The whole loop -/

theorem Publishes.run {rest : List (GUID × Subscription)}
    (h : Publishes pb localNodeId record deliver now payload manager candidates made state)
    (hends : ∀ entry ∈ rest, entry.2.payloadTypeUrl = payload.typeUrl → EndsNormally (payload.evaluate pb entry.2.filter)) :
    ∃ state' made', rest.foldlM (deliverCandidate pb localNodeId record deliver now payload) state = .ok state' ∧
      Publishes pb localNodeId record deliver now payload manager (candidates ++ rest) made' state' := by
  induction rest generalizing candidates made state with
  | nil => exact ⟨state, made, rfl, by rwa [List.append_nil]⟩
  | cons candidate rest ih =>
    obtain ⟨state₁, made₁, hstep, h⟩ := h.next (hends candidate List.mem_cons_self)
    obtain ⟨state', made', hrun, h⟩ := ih h fun entry hentry => hends entry (List.mem_cons_of_mem _ hentry)
    refine ⟨state', made', ?_, by rwa [List.append_cons]⟩
    rw [List.foldlM_cons, hstep]
    exact hrun

/-- With a callback that always succeeds, the filter of every candidate for the type is evaluated. -/
theorem deliverCandidate_always {state' : Delivery} (hnone : state.failedSubscribers = [])
    (hstep : deliverCandidate pb localNodeId record (fun _ _ => true) now payload state candidate = .ok state') :
    state'.failedSubscribers = [] ∧
      (candidate.2.payloadTypeUrl = payload.typeUrl → EndsNormally (payload.evaluate pb candidate.2.filter)) := by
  unfold deliverCandidate at hstep
  split_ifs at hstep with hskip htype
  · rw [hnone] at hskip
    cases hskip
  · cases hstep
    exact ⟨hnone, fun heq => absurd heq htype⟩
  · obtain ⟨holds, hevaluate, hstep⟩ := bind_eq_ok.mp hstep
    refine ⟨?_, fun _ => ⟨holds, hevaluate⟩⟩
    cases holds with
    | false =>
      cases hstep
      exact hnone
    | true =>
      cases hstep
      exact hnone

theorem endsNormally_of_run {rest : List (GUID × Subscription)} {state' : Delivery} (hnone : state.failedSubscribers = [])
    (hrun : rest.foldlM (deliverCandidate pb localNodeId record (fun _ _ => true) now payload) state = .ok state') :
    ∀ entry ∈ rest, entry.2.payloadTypeUrl = payload.typeUrl → EndsNormally (payload.evaluate pb entry.2.filter) := by
  induction rest generalizing state with
  | nil => exact fun _ hentry => nomatch hentry
  | cons candidate rest ih =>
    rw [List.foldlM_cons] at hrun
    obtain ⟨state₁, hstep, hrun⟩ := bind_eq_ok.mp hrun
    obtain ⟨hnone, hends⟩ := deliverCandidate_always hnone hstep
    rw [List.forall_mem_cons]
    exact ⟨hends, ih hnone hrun⟩

theorem publish_eq {any : Any} {snapshot : SchemaSnapshot} (hpayload : record.payload = some any) (hurl : any.typeUrl ≠ [])
    (hunpack : unpack pb any snapshot = some payload) :
    publish pb localNodeId record deliver now (some snapshot) manager =
      (manager.subscriptions.toList.filter fun entry => !expired now entry).foldlM
        (deliverCandidate pb localNodeId record deliver now payload)
        { manager := (manager.removeExpired now).1, stats := { expiredSubscriptions := (manager.removeExpired now).2 } } := by
  have hnotEmpty : any.typeUrl.isEmpty = false := by simpa using hurl
  simp only [publish, hpayload, hnotEmpty, Option.bind_some, hunpack]
  rfl

theorem typeUrl_of_unpack {any : Any} {snapshot : SchemaSnapshot} (h : unpack pb any snapshot = some payload) :
    payload.typeUrl = any.typeUrl := by
  obtain ⟨pool, -, h⟩ := Option.bind_eq_some_iff.mp h
  split_ifs at h
  obtain ⟨message, -, h⟩ := Option.bind_eq_some_iff.mp h
  obtain rfl := Option.some.inj h
  rfl

variable (pb localNodeId record now payload manager) in
/-- Whatever the callback does, the publication ends, with the attempts, the table and the statistics that it should have. The failed subscribers are counted once each. -/
def PublishesAlways (snapshot : SchemaSnapshot) : Prop :=
  ∀ deliver, ∃ state made, publish pb localNodeId record deliver now (some snapshot) manager = .ok state ∧
    Publishes pb localNodeId record deliver now payload manager
      (manager.subscriptions.toList.filter fun entry => !expired now entry) made state ∧
    (FanOut.failed subscriber made).Nodup ∧
    state.stats.matchedSubscriptions = state.stats.deliveredMessages + (FanOut.failed subscriber made).length

/-- Publishing a record that can be unpacked does what it should, whatever the callback does, exactly if the evaluation of no filter is fatal that stands in an unexpired subscription for the type. -/
theorem publish_semantics_iff {any : Any} {snapshot : SchemaSnapshot} (hpayload : record.payload = some any)
    (hurl : any.typeUrl ≠ []) (hunpack : unpack pb any snapshot = some payload) :
    PublishesAlways pb localNodeId record now payload manager snapshot ↔
      ∀ entry ∈ manager.subscriptions.toList, expired now entry = false → entry.2.payloadTypeUrl = any.typeUrl →
        EndsNormally (payload.evaluate pb entry.2.filter) := by
  have htypeUrl := typeUrl_of_unpack hunpack
  constructor
  · intro h entry hentry hunexpired htype
    obtain ⟨state, -, hrun, -⟩ := h fun _ _ => true
    rw [publish_eq hpayload hurl hunpack] at hrun
    refine endsNormally_of_run rfl hrun entry (List.mem_filter.mpr ⟨hentry, ?_⟩) (htype.trans htypeUrl.symm)
    rw [hunexpired]
    rfl
  · intro h deliver
    rw [publish_eq hpayload hurl hunpack]
    have hends : ∀ entry ∈ manager.subscriptions.toList.filter fun entry => !expired now entry,
        entry.2.payloadTypeUrl = payload.typeUrl → EndsNormally (payload.evaluate pb entry.2.filter) := by
      intro entry hentry htype
      obtain ⟨hentry, hunexpired⟩ := List.mem_filter.mp hentry
      exact h entry hentry (by simpa using hunexpired) (htype.trans htypeUrl)
    obtain ⟨state, made, hrun, hpublishes⟩ := publishes_start.run hends
    refine ⟨state, made, hrun, hpublishes, hpublishes.attempts.nodup_failed, ?_⟩
    rw [hpublishes.matchedCount, hpublishes.deliveredCount]
    exact FanOut.length_eq made

/-! ### A filter through a repeated field -/

/-- A runtime with one message type, of which it parses one message. -/
def advertisementRuntime : Protobuf :=
  { (default : Protobuf) with
    view := fun _ => ⟨fun _ => true, generatedDefault, fun _ _ => some ({} : ResourceAdvertisement).reflect⟩ }

def advertisementUrl : Bytes := ascii "type.rsp/rsp.proto.ResourceAdvertisement"

def advertisementRecord : LogRecord where
  payload := some { typeUrl := advertisementUrl }

def advertisementPayload : Unpacked where
  typeUrl := advertisementUrl
  pool := ⟨fun _ => true, generatedDefault, fun _ _ => some ({} : ResourceAdvertisement).reflect⟩
  message := ({} : ResourceAdvertisement).reflect
  snapshot := ⟨[{}]⟩

/-- Two subscribers, with the filter of the first as given. -/
def sampleSubscriptions (filter : LogASTMessageTree) : SubscriptionManager :=
  ⟨(({} : Std.TreeMap GUID Subscription).insert ⟨0, 1⟩ ⟨⟨0, 8⟩, advertisementUrl, filter, 10⟩).insert ⟨0, 2⟩
    ⟨⟨0, 9⟩, advertisementUrl, .trueValue, 10⟩⟩

theorem toList_sampleSubscriptions (filter : LogASTMessageTree) :
    (sampleSubscriptions filter).subscriptions.toList =
      [(⟨0, 1⟩, ⟨⟨0, 8⟩, advertisementUrl, filter, 10⟩), (⟨0, 2⟩, ⟨⟨0, 9⟩, advertisementUrl, .trueValue, 10⟩)] := by
  rfl

theorem publish_semantics_iff_constant :
    PublishesAlways advertisementRuntime ⟨0, 7⟩ advertisementRecord 5 advertisementPayload (sampleSubscriptions .falseValue)
      ⟨[{}]⟩ := by
  refine (publish_semantics_iff rfl (by decide) rfl).mpr ?_
  rw [toList_sampleSubscriptions]
  intro entry hentry _ _
  rcases List.mem_pair.mp hentry with rfl | rfl
  · exact ⟨false, rfl⟩
  · exact ⟨true, rfl⟩

/-- The path of the first filter goes through the repeated field `schemas`, so the process aborts, and the second subscriber does not get the record that its filter holds of. -/
theorem fatal_filter_stops_publication :
    publish advertisementRuntime ⟨0, 7⟩ advertisementRecord (fun _ _ => true) 5 (some ⟨[{}]⟩)
        (sampleSubscriptions (.fieldExists (some ⟨[ascii "schemas", ascii "schema_hash"]⟩))) = .error .abort ∧
      wants advertisementRuntime advertisementPayload (⟨0, 2⟩, ⟨⟨0, 9⟩, advertisementUrl, .trueValue, 10⟩) = true := by
  constructor
  · rw [publish_eq rfl (by decide) (show unpack _ _ _ = some advertisementPayload from rfl), toList_sampleSubscriptions]
    rfl
  · rfl

end SubscriptionManager

end Rsp
