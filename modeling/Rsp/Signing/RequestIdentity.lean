import Rsp.Signing.KeyPair

/-!
# Messages waiting for the key of their signer

`MessageQueueRequestIdentity`: messages whose signer is unknown are parked by signer, and one resolver thread per signer waits for the identity. When it arrives the messages are replayed into the signature check; when it does not arrive in time they fail.
-/

namespace Rsp

open Proto

structure PendingSigner where
  messages : List RSPMessage := []
  resolverActive : Bool := false

/-- A resolver thread: about to ask for the identity, waiting for it, about to take the parked messages out, or handing them on one by one. With a failure reason they fail, otherwise they are replayed. -/
inductive Resolver where
  | started (signer : NodeID)
  | waiting (signer : NodeID)
  | draining (signer : NodeID) (failure : Option String)
  | holding (messages : List RSPMessage) (failure : Option String)

structure RequestIdentityQueue where
  maxPendingMessages : Nat := 512
  maxPendingPerSigner : Nat := 32
  pendingBySigner : Std.TreeMap NodeID PendingSigner := {}
  totalPendingMessages : Nat := 0
  stopping : Bool := false

namespace RequestIdentityQueue

/-- Parks the message, or gives the reason why it is rejected. The Boolean says that a resolver has to be started. -/
def handleMessage (m : RSPMessage) (signer : NodeID) (queue : RequestIdentityQueue) :
    Except String (RequestIdentityQueue × Bool) :=
  let pending := queue.pendingBySigner.getD signer {}
  if queue.stopping then .error "identity resolution queue is stopping"
  else if queue.maxPendingMessages ≠ 0 ∧ queue.totalPendingMessages ≥ queue.maxPendingMessages then
    .error s!"identity resolution queue exceeded max pending messages ({queue.maxPendingMessages})"
  else if queue.maxPendingPerSigner ≠ 0 ∧ pending.messages.length ≥ queue.maxPendingPerSigner then
    .error s!"identity resolution queue exceeded max pending messages for signer ({queue.maxPendingPerSigner})"
  else
    .ok ({ queue with
        pendingBySigner := queue.pendingBySigner.insert signer ⟨pending.messages ++ [m], true⟩
        totalPendingMessages := queue.totalPendingMessages + 1 },
      !pending.resolverActive)

def drainSignerMessages (signer : NodeID) (queue : RequestIdentityQueue) :
    RequestIdentityQueue × List RSPMessage :=
  match queue.pendingBySigner[signer]? with
  | none => (queue, [])
  | some pending =>
    ({ queue with
        pendingBySigner := queue.pendingBySigner.erase signer
        totalPendingMessages := queue.totalPendingMessages - pending.messages.length },
      pending.messages)

/-- The checks of a resolver that has not yet decided; `none` when the thread ends. The request for the identity always reaches the output queue. -/
def resolveSigner (hasIdentity timedOut : Bool) (queue : RequestIdentityQueue) : Resolver → Option Resolver
  | .started signer => some (if hasIdentity then .draining signer none else .waiting signer)
  | .waiting signer =>
    if hasIdentity then some (.draining signer none)
    else if !queue.pendingBySigner.contains signer then none
    else if queue.stopping then some (.draining signer (some "identity resolution queue is stopping"))
    else if timedOut then some (.draining signer (some "timed out waiting for signer identity"))
    else some (.waiting signer)
  | resolver => some resolver

end RequestIdentityQueue

end Rsp
