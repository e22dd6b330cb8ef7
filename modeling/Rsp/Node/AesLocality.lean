import Rsp.Node.AesInvariants

/-!
# What a negotiation message leaves alone

A message about key negotiation can touch only the entries its sender has under the key id it names. One relation between a table before and after says so; each handler keeps both tables in it. The reply handler needs that no peer is in both tables, since it overwrites an active entry without looking at its key id.
-/

namespace Rsp

open Proto

/-- `t'` has the entries of `t`, apart from those of `sender` whose key id is `named`. -/
def SameExcept {V : Type} (keyId : V → Bytes) (sender : Option NodeID) (named : Option Bytes)
    (t t' : Std.TreeMap NodeID V) : Prop :=
  ∀ (peer : NodeID) (v : V), (sender = some peer → named ≠ some (keyId v)) → (t'[peer]? = some v ↔ t[peer]? = some v)

namespace SameExcept

variable {V : Type} {keyId : V → Bytes} {sender : Option NodeID} {named : Option Bytes} {t t' t'' : Std.TreeMap NodeID V}

theorem refl (t : Std.TreeMap NodeID V) : SameExcept keyId sender named t t := fun _ _ _ => Iff.rfl

theorem trans (h : SameExcept keyId sender named t t') (h' : SameExcept keyId sender named t' t'') :
    SameExcept keyId sender named t t'' :=
  fun peer v hother => (h' peer v hother).trans (h peer v hother)

theorem of_getElem?_eq (h : ∀ peer : NodeID, t'[peer]? = t[peer]?) : SameExcept keyId sender named t t' := by
  intro peer v _
  rw [h peer]

/-- The entries of every other peer are the same. -/
theorem getElem?_eq (h : SameExcept keyId sender named t t') {peer : NodeID} (hpeer : sender ≠ some peer) :
    t'[peer]? = t[peer]? :=
  Option.ext fun v => h peer v fun hsender => absurd hsender hpeer

/-- One entry of the sender changes, and it has the key id named before and after. -/
theorem of_entry {p : NodeID} {id : Bytes} (hothers : ∀ peer : NodeID, p ≠ peer → t'[peer]? = t[peer]?)
    (hbefore : ∀ v, t[p]? = some v → keyId v = id) (hafter : ∀ v, t'[p]? = some v → keyId v = id) :
    SameExcept keyId (some p) (some id) t t' := by
  intro peer v hother
  by_cases hpeer : p = peer
  · subst hpeer
    have hne : keyId v ≠ id := fun heq => hother rfl (congrArg some heq.symm)
    exact ⟨fun h => absurd (hafter v h) hne, fun h => absurd (hbefore v h) hne⟩
  · rw [hothers peer hpeer]

theorem erase {p : NodeID} {id : Bytes} (h : ∀ v, t[p]? = some v → keyId v = id) :
    SameExcept keyId (some p) (some id) t (t.erase p) := by
  apply of_entry _ h
  · intro v hv
    simp at hv
  · intro peer hpeer
    simp [Std.TreeMap.getElem?_erase, hpeer]

theorem insert {p : NodeID} {id : Bytes} {entry : V} (h : p ∉ t) (hid : keyId entry = id) :
    SameExcept keyId (some p) (some id) t (t.insert p entry) := by
  apply of_entry
  · intro peer hpeer
    simp [Std.TreeMap.getElem?_insert, hpeer]
  · intro v hv
    rw [Std.TreeMap.getElem?_eq_none h] at hv
    cases hv
  · intro v hv
    rw [Std.TreeMap.getElem?_insert_self] at hv
    exact Option.some.inj hv ▸ hid

end SameExcept

namespace AesNegotiationState

variable {C : Crypto} {sender : Option NodeID} {named : Option Bytes} {s s' s'' : AesNegotiationState C}

/-- Both tables are the same apart from the entries of `sender` under the key id `named`. -/
structure Local (sender : Option NodeID) (named : Option Bytes) (s s' : AesNegotiationState C) : Prop where
  pending : SameExcept PendingAesNegotiation.keyId sender named s.pendingByPeer s'.pendingByPeer
  active : SameExcept ActiveAesKey.keyId sender named s.activeByPeer s'.activeByPeer

theorem Local.refl (s : AesNegotiationState C) : Local sender named s s := ⟨.refl _, .refl _⟩

theorem Local.trans (h : Local sender named s s') (h' : Local sender named s' s'') : Local sender named s s'' :=
  ⟨h.pending.trans h'.pending, h.active.trans h'.active⟩

/-- Nothing has expired at `now`. -/
structure Fresh (s : AesNegotiationState C) (now : DateTime) : Prop where
  active : ∀ (peer : NodeID) key, s.activeByPeer[peer]? = some key → key.expiresAt > now
  pending : ∀ (peer : NodeID) pending, s.pendingByPeer[peer]? = some pending → pending.expiresAt > now

theorem getElem?_filter_of_forall {V : Type} {t : Std.TreeMap NodeID V} {f : NodeID → V → Bool}
    (h : ∀ (peer : NodeID) v, t[peer]? = some v → f peer v = true) (peer : NodeID) : (t.filter f)[peer]? = t[peer]? := by
  rw [Std.TreeMap.getElem?_filter']
  cases hv : t[peer]? with
  | none => rfl
  | some v => rw [Option.filter_some, if_pos (h peer v hv)]

theorem Fresh.local_processExpiredAesKeys {now : DateTime} (h : Fresh s now) (self : NodeID) :
    Local sender named s (s.processExpiredAesKeys self now).1 where
  pending := .of_getElem?_eq (getElem?_filter_of_forall fun peer v hv => decide_eq_true (h.pending peer v hv))
  active := .of_getElem?_eq (getElem?_filter_of_forall fun peer v hv => decide_eq_true (h.active peer v hv))

theorem local_erasePendingIf (peer : NodeID) (id : Bytes) (s : AesNegotiationState C) :
    Local (some peer) (some id) s (s.erasePendingIf peer id) := by
  unfold erasePendingIf
  split
  · next old hold =>
    split_ifs with hid
    · refine ⟨.erase fun v hv => ?_, .refl _⟩
      rw [hold, Option.some.injEq] at hv
      exact hv ▸ hid
    · exact .refl s
  · exact .refl s

theorem local_eraseActiveIf (peer : NodeID) (id : Bytes) (s : AesNegotiationState C) :
    Local (some peer) (some id) s (s.eraseActiveIf peer id) := by
  unfold eraseActiveIf
  split
  · next old hold =>
    split_ifs with hid
    · refine ⟨.refl _, .erase fun v hv => ?_⟩
      rw [hold, Option.some.injEq] at hv
      exact hv ▸ hid
    · exact .refl s
  · exact .refl s

theorem local_handleAesKeyNegotiationError (sender : Option NodeID) (error : AesKeyNegotiationError)
    (s : AesNegotiationState C) :
    Local sender (error.keyId.map Uuid.value) s (s.handleAesKeyNegotiationError sender error) := by
  unfold handleAesKeyNegotiationError
  split
  · next sender keyId hkeyId =>
    rw [hkeyId, Option.map_some]
    split_ifs
    · exact .refl s
    · exact (local_erasePendingIf _ _ _).trans (local_eraseActiveIf _ _ _)
    · exact local_erasePendingIf _ _ _
  · exact .refl s

theorem local_handleAesKeyDropNotification (self sender : NodeID) (drop : AesKeyDropNotification)
    (s : AesNegotiationState C) :
    Local (some sender) (drop.keyId.map Uuid.value) s (s.handleAesKeyDropNotification self sender drop).1 := by
  unfold handleAesKeyDropNotification
  cases hkeyId : drop.keyId with
  | none => exact .refl s
  | some keyId =>
    simp only [Option.getD_some, Option.isNone_some, Bool.false_or, Option.map_some]
    split_ifs
    · exact .refl s
    · exact (local_eraseActiveIf _ _ _).trans (local_erasePendingIf _ _ _)

/-- An accepted request finds the sender in neither table. -/
theorem RequestOutcome.isLocal {ambient : Ambient} {self sender : NodeID} {request : AesKeyNegotiationRequest}
    {result : AesNegotiationState C × RSPMessage} (h : RequestOutcome ambient self sender request s result) :
    Local (some sender) (request.keyId.map Uuid.value) s result.1 := by
  cases h with
  | refuse => exact .refl s
  | accept hkeyId hvalid hpublic hpending hactive =>
    rw [hkeyId]
    exact ⟨.refl _, .insert hactive rfl⟩

theorem local_erasePending {peer : NodeID} {pending : PendingAesNegotiation C}
    (hpending : s.pendingByPeer[peer]? = some pending) :
    SameExcept PendingAesNegotiation.keyId (some peer) (some pending.keyId) s.pendingByPeer (s.pendingByPeer.erase peer) := by
  apply SameExcept.erase
  intro v hv
  rw [hpending, Option.some.injEq] at hv
  rw [hv]

/-- A reply touches a pending entry only under its own key id, and what it puts beside it is new: nothing was active for the sender. -/
theorem ReplyOutcome.isLocal {limits : AesNegotiationLimits} (hs : Consistent limits s) {ambient : Ambient}
    {self sender : NodeID} {reply : AesKeyNegotiationReply} {result : AesNegotiationState C × Option RSPMessage}
    (h : ReplyOutcome ambient self sender reply s result) :
    Local (some sender) (reply.keyId.map Uuid.value) s result.1 := by
  cases h with
  | malformed => exact .refl s
  | unmatched => exact .refl s
  | unreadable => exact .refl s
  | full hkeyId hpending hmatch =>
    rw [hkeyId, Option.map_some, ← hmatch]
    exact ⟨local_erasePending hpending, .refl _⟩
  | underivable hkeyId hpending hmatch =>
    rw [hkeyId, Option.map_some, ← hmatch]
    exact ⟨local_erasePending hpending, .refl _⟩
  | accept hkeyId hvalid hpublic hpending hmatch =>
    have hmem : sender ∈ s.pendingByPeer := by
      rw [Std.TreeMap.mem_iff_isSome_getElem?, hpending]
      rfl
    rw [hkeyId, Option.map_some, ← hmatch]
    exact ⟨local_erasePending hpending, .insert (hs.exclusive hmem) rfl⟩

/-- The key id a message about key negotiation names. -/
def namedKeyId (m : RSPMessage) : Option Bytes :=
  match m.coreMessage with
  | .aesKeyNegotiationError error => error.keyId.map Uuid.value
  | .aesKeyNegotiationRequest request => request.keyId.map Uuid.value
  | .aesKeyNegotiationReply reply => reply.keyId.map Uuid.value
  | .aesKeyDropNotification drop => drop.keyId.map Uuid.value
  | _ => none

theorem Consistent.local_handleAesNegotiationMessage {limits : AesNegotiationLimits} (hs : Consistent limits s)
    {ambient : Ambient} (hfresh : Fresh s ambient.expiryNow) {self : NodeID} {m : RSPMessage}
    {result : AesNegotiationState C × List RSPMessage}
    (hresult : s.handleAesNegotiationMessage ambient self m = some result) :
    Local (senderNodeIdFromMessage m) (namedKeyId m) s result.1 := by
  have hswept := hs.processExpiredAesKeys self ambient.expiryNow
  apply (hfresh.local_processExpiredAesKeys self).trans
  simp only [AesNegotiationState.handleAesNegotiationMessage] at hresult
  -- one case per kind of message; without a sender a message is dropped after the sweep
  split at hresult
  · next error hcore =>
    obtain rfl := Option.some.inj hresult
    simp only [namedKeyId, hcore]
    exact local_handleAesKeyNegotiationError _ _ _
  · next request hcore =>
    simp only [namedKeyId, hcore]
    split at hresult <;> obtain rfl := Option.some.inj hresult
    · exact .refl _
    · next sender hsender =>
      rw [hsender]
      exact (handleAesKeyNegotiationRequest_outcome ambient self sender request _).isLocal
  · next reply hcore =>
    simp only [namedKeyId, hcore]
    split at hresult <;> obtain rfl := Option.some.inj hresult
    · exact .refl _
    · next sender hsender =>
      rw [hsender]
      exact (handleAesKeyNegotiationReply_outcome ambient self sender reply _).isLocal hswept
  · next drop hcore =>
    simp only [namedKeyId, hcore]
    split at hresult <;> obtain rfl := Option.some.inj hresult
    · exact .refl _
    · next sender hsender =>
      rw [hsender]
      exact local_handleAesKeyDropNotification self sender drop _
  · cases hresult

/-- In every state a node can reach, a message about key negotiation that finds nothing expired leaves alone the entries of every peer but its sender, and those entries of the sender whose key id is not the one it names. -/
theorem handleAesNegotiationMessage_local (C : Crypto) (self : NodeID) (limits : AesNegotiationLimits)
    (calls : List Call) (ambient : Ambient) (m : RSPMessage) (result : AesNegotiationState C × List RSPMessage)
    (hfresh : Fresh (afterCalls C self limits calls) ambient.expiryNow)
    (hresult : (afterCalls C self limits calls).handleAesNegotiationMessage ambient self m = some result)
    (peer : NodeID) :
    (senderNodeIdFromMessage m ≠ some peer →
      result.1.pendingByPeer[peer]? = (afterCalls C self limits calls).pendingByPeer[peer]? ∧
        result.1.activeByPeer[peer]? = (afterCalls C self limits calls).activeByPeer[peer]?) ∧
    (senderNodeIdFromMessage m = some peer →
      (∀ pending, namedKeyId m ≠ some pending.keyId →
        (result.1.pendingByPeer[peer]? = some pending ↔
          (afterCalls C self limits calls).pendingByPeer[peer]? = some pending)) ∧
      ∀ key, namedKeyId m ≠ some key.keyId →
        (result.1.activeByPeer[peer]? = some key ↔
          (afterCalls C self limits calls).activeByPeer[peer]? = some key)) := by
  have hlocal := (consistent_afterCalls self limits calls).local_handleAesNegotiationMessage hfresh hresult
  refine ⟨fun hpeer => ?_, fun hpeer => ?_⟩
  · exact ⟨hlocal.pending.getElem?_eq hpeer, hlocal.active.getElem?_eq hpeer⟩
  · exact ⟨fun pending hid => hlocal.pending peer pending fun _ => hid,
      fun key hid => hlocal.active peer key fun _ => hid⟩

/-- Node 1 has asked node 2 for a key. -/
def askedOnce : AesNegotiationState sampleCrypto :=
  afterCalls sampleCrypto ⟨1, 1⟩ {} [.beginAesKeyNegotiation { keySeed := 5, guid := ⟨7, 7⟩ } ⟨2, 2⟩ 0 true]

/-- Node 2 drops a key that node 1 never heard of. -/
def strayDrop : RSPMessage := makeAesKeyDropNotification ⟨2, 2⟩ ⟨1, 1⟩ (List.replicate 16 0) []

theorem fresh_askedOnce : Fresh askedOnce 0 where
  active peer key h := by
    have hnone : askedOnce.activeByPeer.toList = [] := by decide +kernel
    rw [← Std.TreeMap.mem_toList_iff_getElem?_eq_some, hnone] at h
    cases h
  pending peer pending h := by
    have hall : (askedOnce.pendingByPeer.toList.all fun entry => decide (entry.2.expiresAt > 0)) = true := by
      decide +kernel
    rw [← Std.TreeMap.mem_toList_iff_getElem?_eq_some] at h
    exact of_decide_eq_true (List.all_eq_true.mp hall _ h)

/-- The negotiation of node 1 with node 2 stays pending. -/
theorem handleAesNegotiationMessage_local_strayDrop :
    ∃ pending result, askedOnce.handleAesNegotiationMessage {} ⟨1, 1⟩ strayDrop = some result ∧
      askedOnce.pendingByPeer[(⟨2, 2⟩ : NodeID)]? = some pending ∧
      result.1.pendingByPeer[(⟨2, 2⟩ : NodeID)]? = some pending := by
  have hasked : (askedOnce.pendingByPeer[(⟨2, 2⟩ : NodeID)]?.any fun pending =>
      decide (namedKeyId strayDrop ≠ some pending.keyId)) = true := by
    decide +kernel
  cases hpending : askedOnce.pendingByPeer[(⟨2, 2⟩ : NodeID)]? with
  | none =>
    rw [hpending] at hasked
    cases hasked
  | some pending =>
    rw [hpending, Option.any_some, decide_eq_true_eq] at hasked
    have hlocal := handleAesNegotiationMessage_local sampleCrypto ⟨1, 1⟩ {} _ {} strayDrop _ fresh_askedOnce rfl ⟨2, 2⟩
    exact ⟨pending, _, rfl, rfl, ((hlocal.2 rfl).1 pending hasked).mpr hpending⟩

end AesNegotiationState

end Rsp
