import Rsp.Signing.KeyPair

/-!
# Log subscriptions

The table of `rsp::logging::SubscriptionManager`, as far as the node's own messages change it.
-/

namespace Rsp

open Proto

structure Subscription where
  subscriberNodeId : NodeID
  payloadTypeUrl : Bytes
  filter : LogASTMessageTree
  expiresAt : DateTime

structure SubscriptionManager where
  subscriptions : Std.TreeMap GUID Subscription := {}

namespace SubscriptionManager

/-- `subscriptionId` is drawn at random; `emplace` keeps an entry that is already there. -/
def subscribe (manager : SubscriptionManager) (subscriptionId : GUID) (subscriber : NodeID)
    (request : LogSubscribeRequest) (now : DateTime) : SubscriptionManager × LogSubscribeReply :=
  match request.filter with
  | some filter =>
    if request.payloadTypeUrl.isEmpty || request.durationMs == 0 then (manager, rejected)
    else
      let expiresAt := DateTime.addMilliseconds now request.durationMs
      (⟨manager.subscriptions.insertIfNew subscriptionId
          { subscriberNodeId := subscriber, payloadTypeUrl := request.payloadTypeUrl, filter, expiresAt }⟩,
        { status := .accepted
          subscriptionId := some ⟨subscriptionId.toNative⟩
          expiresAt := some ⟨DateTime.millisecondsSinceEpoch expiresAt⟩ })
  | none => (manager, rejected)
where
  rejected : LogSubscribeReply :=
    { status := .invalid
      message := ascii "log subscriptions require payload_type_url, filter, and non-zero duration_ms" }

/-- Only the subscriber itself can remove a subscription. -/
def unsubscribe (manager : SubscriptionManager) (subscriber : NodeID) (request : LogUnsubscribeRequest) :
    SubscriptionManager × LogUnsubscribeReply :=
  match request.subscriptionId with
  | none => (manager, { status := .invalid, message := ascii "subscription_id is required" })
  | some uuid =>
    match GUID.ofNative uuid.value with
    | none => (manager, { status := .invalid, message := ascii "subscription_id must be 16 bytes" })
    | some id =>
      if manager.subscriptions[id]?.any (·.subscriberNodeId = subscriber) then
        (⟨manager.subscriptions.erase id⟩, { status := .removed, subscriptionId := some uuid })
      else
        (manager,
          { status := .notFound
            subscriptionId := some uuid
            message := ascii "subscription not found for subscriber" })

end SubscriptionManager

end Rsp
