import Rsp.Signing.KeyPair

/-!
# The identity cache

`IdentityCache` of `node.cpp`: a bounded least-recently-used cache of identities, filled from the identities that messages carry. An identity is stored under the NodeID its own public key derives, and only if the message has no recognizable sender or comes from that node.
-/

namespace Rsp

open Proto

/-- `entries_` and `usageOrder_`, the latter with the most recent node first. -/
structure IdentityCache where
  entries : Std.TreeMap NodeID Identity := {}
  usageOrder : List NodeID := []
  maximumEntries : Nat := 1024

/-- The NodeID an identity's own public key derives. -/
def nodeIdFromIdentity (C : Crypto) (identity : Identity) : Option NodeID :=
  match (KeyPair.fromPublicKey (identity.publicKey.getD {}) : Except Fault (KeyPair C)) with
  | .error _ => none
  | .ok kp =>
    match kp.nodeID with
    | .error _ => none
    | .ok id => some id

/-- Nonce and boot id are not kept. -/
def sanitizedIdentityForCache (identity : Identity) : Identity :=
  { publicKey := some (identity.publicKey.getD {}) }

namespace IdentityCache

def get (cache : IdentityCache) (id : NodeID) : Option Identity := cache.entries[id]?

def contains (cache : IdentityCache) (id : NodeID) : Bool := cache.entries.contains id

/-- The loop of `trimToLimitLocked`, over the nodes from the least recent on. -/
def trimLoop (maximumEntries : Nat) :
    List NodeID → Std.TreeMap NodeID Identity → List NodeID × Std.TreeMap NodeID Identity
  | [], entries => ([], entries)
  | leastRecent :: rest, entries =>
    if entries.size > maximumEntries then trimLoop maximumEntries rest (entries.erase leastRecent)
    else (leastRecent :: rest, entries)

def trimToLimit (cache : IdentityCache) : IdentityCache :=
  let trimmed := trimLoop cache.maximumEntries cache.usageOrder.reverse cache.entries
  { cache with entries := trimmed.2, usageOrder := trimmed.1.reverse }

def setMaximumEntries (cache : IdentityCache) (maximumEntries : Nat) : IdentityCache :=
  trimToLimit { cache with maximumEntries }

/-- Moves or adds the identity to the front; only an added one can push others out. -/
def store (cache : IdentityCache) (id : NodeID) (identity : Identity) : IdentityCache :=
  if cache.contains id then
    { cache with entries := cache.entries.insert id identity, usageOrder := id :: cache.usageOrder.erase id }
  else
    trimToLimit
      { cache with entries := cache.entries.insert id identity, usageOrder := id :: cache.usageOrder }

/-- The new cache, and the node whose observers are notified. -/
def cacheIdentity (C : Crypto) (cache : IdentityCache) (identity : Identity) (source : Option NodeID) :
    IdentityCache × Option NodeID :=
  match nodeIdFromIdentity C identity with
  | none => (cache, none)
  | some derived =>
    if source.any (· ≠ derived) then (cache, none)
    else (cache.store derived (sanitizedIdentityForCache identity), some derived)

/-- The identities of a message in the order in which they are observed. -/
def observedIdentities (m : RSPMessage) : List Identity :=
  match m.coreMessage with
  | .identity identity => identity :: m.identities
  | _ => m.identities

def observeMessage (C : Crypto) (cache : IdentityCache) (m : RSPMessage) : IdentityCache :=
  (observedIdentities m).foldl
    (fun cache identity => (cacheIdentity C cache identity (senderNodeIdFromMessage m)).1) cache

end IdentityCache

end Rsp
