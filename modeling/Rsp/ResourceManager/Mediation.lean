import Rsp.ResourceManager.Pipeline

/-!
# Complete mediation

Two facts about every run of the pipeline. A message that has passed the signature check was verified under a key that belongs to its signer; and, in the runs in which no verified message meets the authorization queue of the base class, every message that is delivered or forwarded satisfies the configured policy.

Both rest on one description of the pipeline: what each step can do to the messages behind the signature check. Only `verify` puts a message there that was not there before.
-/

namespace Rsp

open Proto

namespace ResourceManager

variable {C : Crypto}

/-! ### What the steps leave alone -/

theorem sendLocalMessage_frame (m : RSPMessage) (rm : ResourceManager C) :
    ∃ sent, rm.sendLocalMessage m = { rm with sentLocally := sent } := by
  unfold sendLocalMessage
  split
  · exact ⟨rm.sentLocally, rfl⟩
  · exact ⟨_, rfl⟩

theorem sendSignatureFailure_frame (nonce : Bytes) (m : RSPMessage) (reason : String) (rm : ResourceManager C) :
    ∃ sent, rm.sendSignatureFailure nonce m reason = { rm with sentLocally := sent } := by
  unfold sendSignatureFailure
  split
  · exact ⟨rm.sentLocally, rfl⟩
  · exact sendLocalMessage_frame _ rm

theorem sendEndorsementNeeded_frame (tree : ERDAbstractSyntaxTree) (nonce : Bytes) (m : RSPMessage)
    (rm : ResourceManager C) : ∃ sent, rm.sendEndorsementNeeded tree nonce m = { rm with sentLocally := sent } := by
  unfold sendEndorsementNeeded
  split
  · exact ⟨rm.sentLocally, rfl⟩
  · exact sendLocalMessage_frame _ rm

theorem lookUpKey_frame (nonce : Bytes) (m : RSPMessage) (rm : ResourceManager C) :
    (∃ sent requests, rm.lookUpKey nonce m =
      { rm with signatureWorker := .idle, sentLocally := sent, identityRequests := requests }) ∨
    ∃ key, rm.lookUpKey nonce m = { rm with signatureWorker := .verifying m key } := by
  unfold lookUpKey
  split
  · obtain ⟨sent, hsent⟩ := sendSignatureFailure_frame nonce m "message has no signature"
      { rm with signatureWorker := .idle }
    exact .inl ⟨sent, rm.identityRequests, hsent⟩
  · split
    · obtain ⟨sent, hsent⟩ := sendSignatureFailure_frame nonce m
        "signature signer has invalid node ID encoding" { rm with signatureWorker := .idle }
      exact .inl ⟨sent, rm.identityRequests, hsent⟩
    · split
      · exact .inl ⟨rm.sentLocally, _, rfl⟩
      · exact .inr ⟨_, rfl⟩

theorem verify_frame {pb : Protobuf} {nonce : Bytes} {m : RSPMessage} {key : KeyPair C} {rm rm' : ResourceManager C}
    (h : rm.verify pb nonce m key = some rm') :
    (verifyMessageSignature pb key m (m.signature.getD {}) = .ok true ∧
      rm' = { rm with signatureWorker := .verified m }) ∨
    ∃ sent, rm' = { rm with signatureWorker := .idle, sentLocally := sent } := by
  have hfail (reason : String) := sendSignatureFailure_frame nonce m reason { rm with signatureWorker := .idle }
  unfold verify at h
  split at h
  · next hok => exact .inl ⟨hok, (Option.some.inj h).symm⟩
  · obtain ⟨sent, hsent⟩ := hfail "signature verification failed"
    exact .inr ⟨sent, hsent ▸ (Option.some.inj h).symm⟩
  · next fault _ =>
    split_ifs at h
    obtain ⟨sent, hsent⟩ := hfail ("signature check failed: " ++ fault.what)
    exact .inr ⟨sent, hsent ▸ (Option.some.inj h).symm⟩

theorem parkMessage_frame (nonce : Bytes) (m : RSPMessage) (signer : NodeID) (rm : ResourceManager C) :
    ∃ sent queue resolvers, rm.parkMessage nonce m signer =
      { rm with sentLocally := sent, requestIdentity := queue, resolvers } := by
  unfold parkMessage
  split
  · next reason _ =>
    obtain ⟨sent, hsent⟩ := sendSignatureFailure_frame nonce m reason rm
    exact ⟨sent, rm.requestIdentity, rm.resolvers, hsent⟩
  · exact ⟨rm.sentLocally, _, _, rfl⟩

/-- A resolver only parks, asks, replays and reports. -/
theorem stepResolver_frame (index : Nat) (resolver : Resolver) (timedOut : Bool) (nonce : Bytes)
    (rm : ResourceManager C) :
    ∃ sent queue resolvers output check, rm.stepResolver index resolver timedOut nonce =
      { rm with
        sentLocally := sent, requestIdentity := queue, resolvers, outputQueue := output
        signatureCheckQueue := check } := by
  unfold stepResolver
  split
  · simp only []
    split_ifs
    · exact ⟨rm.sentLocally, rm.requestIdentity, _, rm.outputQueue, rm.signatureCheckQueue, rfl⟩
    · exact ⟨rm.sentLocally, rm.requestIdentity, _, _, rm.signatureCheckQueue, rfl⟩
  · exact ⟨rm.sentLocally, rm.requestIdentity, _, rm.outputQueue, rm.signatureCheckQueue, rfl⟩
  · exact ⟨rm.sentLocally, _, _, rm.outputQueue, rm.signatureCheckQueue, rfl⟩
  · exact ⟨rm.sentLocally, rm.requestIdentity, _, rm.outputQueue, rm.signatureCheckQueue, rfl⟩
  · exact ⟨rm.sentLocally, rm.requestIdentity, _, rm.outputQueue, _, rfl⟩
  · next m rest reason =>
    obtain ⟨sent, hsent⟩ := sendSignatureFailure_frame nonce m reason rm
    rw [hsent]
    exact ⟨sent, rm.requestIdentity, _, rm.outputQueue, rm.signatureCheckQueue, rfl⟩

/-- An authorized message was found so by the queue that handled it. -/
theorem authorize_frame {pb : Protobuf} {configured : ERDAbstractSyntaxTree} {nonce : Bytes}
    {name : AuthzQueueName} {m : RSPMessage} {rm rm' : ResourceManager C}
    (h : rm.authorize pb configured nonce name m = some rm') :
    (∃ sender snapshot, senderNodeIdFromMessage m = some sender ∧
      reduceRequirementTree pb (getAuthorizationEndorsements sender) (some m) (some snapshot)
        (rm.authzQueues name).authorizationTree = .ok .notSet ∧
      rm' = { rm with authorized := rm.authorized ++ [(m, snapshot)] }.setAuthzQueue name
        { rm.authzQueues name with worker := .delivering m }) ∨
    ∃ sent, rm' = { rm with sentLocally := sent }.setAuthzQueue name
      { rm.authzQueues name with worker := .idle } := by
  obtain ⟨sent, hsent⟩ := sendEndorsementNeeded_frame (rm.authorizationTree configured) nonce m
    (rm.setAuthzQueue name { rm.authzQueues name with worker := .idle })
  have hfailed : ∀ {rm'}, some ((rm.setAuthzQueue name { rm.authzQueues name with worker := .idle }).sendEndorsementNeeded
      (rm.authorizationTree configured) nonce m) = some rm' →
      ∃ sent, rm' = { rm with sentLocally := sent }.setAuthzQueue name
        { rm.authzQueues name with worker := .idle } := by
    intro rm' h
    exact ⟨sent, by rw [← Option.some.inj h, hsent]; rfl⟩
  unfold authorize at h
  simp only [] at h
  split at h
  · exact .inr (hfailed h)
  · next sender hsender =>
    split at h
    · next hreduced => exact .inl ⟨sender, _, hsender, hreduced, (Option.some.inj h).symm⟩
    · exact .inr (hfailed h)
    · split_ifs at h
      exact .inr (hfailed h)

theorem handleAuthorizedMessage_frame (now : DateTime) (m : RSPMessage) (rm : ResourceManager C) :
    ∃ node directory output input forwarded,
      rm.handleAuthorizedMessage now m =
        { rm with node, directory, outputQueue := output, inputQueue := input, forwarded } ∧
      (∀ m' ∈ input, m' ∈ rm.inputQueue ∨ m' = m) ∧ ∀ entry ∈ forwarded, entry ∈ rm.forwarded ∨ entry.2 = m := by
  unfold handleAuthorizedMessage
  split_ifs
  · exact ⟨_, rm.directory, _, _, rm.forwarded, rfl, by simp, fun _ => .inl⟩
  · unfold routeAndSend
    split
    · refine ⟨_, rm.directory, rm.outputQueue, rm.inputQueue, _, rfl, fun _ => .inl, ?_⟩
      rintro entry hentry
      rcases List.mem_append.mp hentry with hold | hnew
      · exact .inl hold
      · exact .inr (by rw [List.mem_singleton.mp hnew])
    · split
      · exact ⟨_, rm.directory, rm.outputQueue, rm.inputQueue, rm.forwarded, rfl, fun _ => .inl, fun _ => .inl⟩
      · exact ⟨_, _, rm.outputQueue, rm.inputQueue, rm.forwarded, rfl, fun _ => .inl, fun _ => .inl⟩

theorem handleInput_frame {pb : Protobuf} {ambient : Ambient} {m : RSPMessage} {rm rm' : ResourceManager C}
    (h : rm.handleInput pb ambient m = some rm') :
    ∃ node directory output, rm' = { rm with node, directory, outputQueue := output } := by
  unfold handleInput at h
  split at h
  · cases h
  · exact ⟨_, _, _, (Option.some.inj h).symm⟩

/-- The threads that never touch a message behind the signature check, except to take it off the input queue. -/
def isQuiet : PipelineLabel → Bool
  | .cacheAuthenticatedIdentity .. | .handleAuthNSuccess .. | .handleEncodingDisconnect .. | .receive ..
  | .popIdentityRequest .. | .stepResolver .. | .handleInput .. | .handleOutput | .setMaximumEntries .. => true
  | _ => false

structure Quiet (rm rm' : ResourceManager C) : Prop where
  construction : rm'.construction = rm.construction
  incoming : rm'.incomingMessages = rm.incomingMessages
  worker : rm'.signatureWorker = rm.signatureWorker
  authzQueues : rm'.authzQueues = rm.authzQueues
  authzQueue : rm'.authzQueue = rm.authzQueue
  authorized : rm'.authorized = rm.authorized
  forwarded : rm'.forwarded = rm.forwarded
  input : ∀ m ∈ rm'.inputQueue, m ∈ rm.inputQueue

theorem Quiet.refl (rm : ResourceManager C) : Quiet rm rm := ⟨rfl, rfl, rfl, rfl, rfl, rfl, rfl, fun _ => id⟩

theorem next_quiet {pb : Protobuf} {configured : ERDAbstractSyntaxTree} {l : PipelineLabel}
    {rm rm' : ResourceManager C} (hquiet : isQuiet l = true) (hstep : rm.next pb configured l = some rm') :
    Quiet rm rm' := by
  cases l <;> simp only [isQuiet, Bool.false_eq_true] at hquiet <;> simp only [ResourceManager.next] at hstep
  case cacheAuthenticatedIdentity peer identity =>
    split_ifs at hstep
    exact Option.some.inj hstep ▸ { Quiet.refl rm with }
  case handleAuthNSuccess peer =>
    split_ifs at hstep
    exact Option.some.inj hstep ▸ { Quiet.refl rm with }
  case handleEncodingDisconnect encoding =>
    split_ifs at hstep
    exact Option.some.inj hstep ▸ { Quiet.refl rm with }
  case receive encoding m =>
    split_ifs at hstep
    exact Option.some.inj hstep ▸ { Quiet.refl rm with }
  case popIdentityRequest nonce =>
    split at hstep
    · cases hstep
    · next m signer rest _ =>
      obtain ⟨sent, queue, resolvers, heq⟩ :=
        parkMessage_frame nonce m signer { rm with identityRequests := rest }
      exact Option.some.inj hstep ▸ heq ▸ { Quiet.refl rm with }
  case stepResolver index timedOut nonce =>
    obtain ⟨resolver, -, rfl⟩ := Option.map_eq_some_iff.mp hstep
    obtain ⟨sent, queue, resolvers, output, check, heq⟩ := stepResolver_frame index resolver timedOut nonce rm
    exact heq ▸ { Quiet.refl rm with }
  case handleInput ambient =>
    split at hstep
    · cases hstep
    · next m rest hinput =>
      obtain ⟨node, directory, output, rfl⟩ := handleInput_frame hstep
      exact { Quiet.refl rm with input := fun m' hm' => hinput ▸ List.mem_cons_of_mem m hm' }
  case handleOutput =>
    split at hstep
    · cases hstep
    · next m rest _ =>
      obtain ⟨sent, heq⟩ := sendLocalMessage_frame m { rm with outputQueue := rest }
      exact Option.some.inj hstep ▸ heq ▸ { Quiet.refl rm with }
  case setMaximumEntries maximumEntries => exact Option.some.inj hstep ▸ { Quiet.refl rm with }

/-! ### Behind the signature check -/

/-- The worker holds `m` and has accepted its signature. -/
def WorkerHolds (worker : SignatureWorker C) (m : RSPMessage) : Prop :=
  match worker with
  | .verified m' | .enqueuing m' _ => m' = m
  | _ => False

def AuthzHolds (queue : MessageQueueAuthZ) (m : RSPMessage) : Prop :=
  m ∈ queue.messages ∨ queue.worker = .handling m ∨ queue.worker = .delivering m

/-- `P` holds of every message the signature check has let through, wherever it is now. -/
structure Checked (P : RSPMessage → Prop) (rm : ResourceManager C) : Prop where
  incoming : ∀ m ∈ rm.incomingMessages, P m
  worker : ∀ m, WorkerHolds rm.signatureWorker m → P m
  authz : ∀ name m, AuthzHolds (rm.authzQueues name) m → P m
  authorized : ∀ entry ∈ rm.authorized, P entry.1
  input : ∀ m ∈ rm.inputQueue, P m
  forwarded : ∀ entry ∈ rm.forwarded, P entry.2

section

variable {P : RSPMessage → Prop} {rm rm' : ResourceManager C}

theorem Checked.initial (node : RSPNode C) : Checked P (initial node) where
  incoming := by simp [ResourceManager.initial]
  worker := by simp [ResourceManager.initial, WorkerHolds]
  authz := by simp [ResourceManager.initial, AuthzHolds]
  authorized := by simp [ResourceManager.initial]
  input := by simp [ResourceManager.initial]
  forwarded := by simp [ResourceManager.initial]

theorem Checked.quiet (h : Checked P rm) (hquiet : Quiet rm rm') : Checked P rm' where
  incoming := hquiet.incoming ▸ h.incoming
  worker := hquiet.worker ▸ h.worker
  authz := hquiet.authzQueues ▸ h.authz
  authorized := hquiet.authorized ▸ h.authorized
  input m hm := h.input m (hquiet.input m hm)
  forwarded := hquiet.forwarded ▸ h.forwarded

theorem Checked.setAuthzQueue (h : Checked P rm) (name : AuthzQueueName) (queue : MessageQueueAuthZ)
    (hqueue : ∀ m, AuthzHolds queue m → P m) : Checked P (rm.setAuthzQueue name queue) where
  __ := h
  authz name' m hm := by
    by_cases hname : name' = name
    · subst hname
      simp only [ResourceManager.setAuthzQueue, Function.update_self] at hm
      exact hqueue m hm
    · simp only [ResourceManager.setAuthzQueue, Function.update_of_ne hname] at hm
      exact h.authz name' m hm

theorem Checked.handleAuthorizedMessage (h : Checked P rm) (now : DateTime) {m : RSPMessage} (hm : P m) :
    Checked P (rm.handleAuthorizedMessage now m) := by
  obtain ⟨node, directory, output, input, forwarded, heq, hinput, hforwarded⟩ :=
    handleAuthorizedMessage_frame now m rm
  rw [heq]
  refine { h with input := fun m' hm' => ?_, forwarded := fun entry hentry => ?_ }
  · rcases hinput m' hm' with hold | rfl
    · exact h.input m' hold
    · exact hm
  · rcases hforwarded entry hentry with hold | hnew
    · exact h.forwarded entry hold
    · exact hnew ▸ hm

theorem Checked.construct {configured : ERDAbstractSyntaxTree} (h : Checked P rm)
    (hstep : rm.construct configured = some rm') : Checked P rm' := by
  have hstarted (tree : ERDAbstractSyntaxTree) : ∀ m, AuthzHolds (startedQueue tree) m → P m := by
    simp [AuthzHolds, startedQueue]
  unfold ResourceManager.construct at hstep
  split at hstep
  · obtain rfl := Option.some.inj hstep
    refine Checked.setAuthzQueue ?_ _ _ (hstarted _)
    exact { h with }
  · exact Option.some.inj hstep ▸ { h with }
  · exact Option.some.inj hstep ▸ { h with }
  · obtain rfl := Option.some.inj hstep
    refine Checked.setAuthzQueue ?_ _ _ (hstarted _)
    exact { h with }
  · exact Option.some.inj hstep ▸ { h with }
  · obtain rfl := Option.some.inj hstep
    refine Checked.setAuthzQueue ?_ _ _ (h.authz .base)
    exact { h with }
  · split at hstep
    · exact Option.some.inj hstep ▸ { h with }
    · cases hstep
  · cases hstep

theorem Checked.enqueueVerified (h : Checked P rm) {m : RSPMessage} (hm : P m) (name : AuthzQueueName) :
    Checked P (rm.enqueueVerified m name) := by
  refine Checked.setAuthzQueue ?_ name _ ?_
  · exact { h with worker := fun _ => False.elim }
  · rintro m' (hqueued | hworker)
    · rcases List.mem_append.mp hqueued with hold | hnew
      · exact h.authz name m' (.inl hold)
      · exact List.mem_singleton.mp hnew ▸ hm
    · exact h.authz name m' (.inr hworker)

theorem Checked.authorize {pb : Protobuf} {configured : ERDAbstractSyntaxTree} {nonce : Bytes}
    {name : AuthzQueueName} {m : RSPMessage} (h : Checked P rm) (hm : (rm.authzQueues name).worker = .handling m)
    (hstep : rm.authorize pb configured nonce name m = some rm') : Checked P rm' := by
  have hPm : P m := h.authz name m (.inr (.inl hm))
  rcases authorize_frame hstep with ⟨sender, snapshot, -, -, rfl⟩ | ⟨sent, rfl⟩
  · refine Checked.setAuthzQueue ?_ _ _ ?_
    · refine { h with authorized := fun entry hentry => ?_ }
      rcases List.mem_append.mp hentry with hold | hnew
      · exact h.authorized entry hold
      · exact List.mem_singleton.mp hnew ▸ hPm
    · rintro m' (hqueued | hworker | hworker)
      · exact h.authz name m' (.inl hqueued)
      · cases hworker
      · exact AuthzWorker.delivering.inj hworker ▸ hPm
  · refine Checked.setAuthzQueue ?_ _ _ ?_
    · exact { h with }
    · rintro m' (hqueued | hworker | hworker)
      · exact h.authz name m' (.inl hqueued)
      · cases hworker
      · cases hworker

/-- **One step of the pipeline.** Behind the signature check there is only what was there before and what `verify` has just accepted. -/
theorem Checked.next {pb : Protobuf} {configured : ERDAbstractSyntaxTree} {l : PipelineLabel} (h : Checked P rm)
    (hverify : ∀ m key, verifyMessageSignature pb (key : KeyPair C) m (m.signature.getD {}) = .ok true → P m)
    (hstep : rm.next pb configured l = some rm') : Checked P rm' := by
  by_cases hquiet : isQuiet l = true
  · exact h.quiet (next_quiet hquiet hstep)
  cases l <;> simp only [isQuiet, not_true_eq_false] at hquiet <;> simp only [ResourceManager.next] at hstep
  case construct => exact h.construct hstep
  case popIncoming now =>
    split at hstep
    · cases hstep
    · next m rest hincoming =>
      have hmem := h.incoming
      rw [hincoming] at hmem
      obtain rfl := Option.some.inj hstep
      refine Checked.handleAuthorizedMessage ?_ now (hmem m List.mem_cons_self)
      exact { h with incoming := fun m' hm' => hmem m' (List.mem_cons_of_mem m hm') }
  case popSignatureCheck =>
    split at hstep
    · exact Option.some.inj hstep ▸ { h with worker := fun _ => False.elim }
    · cases hstep
  case lookUpKey nonce =>
    split at hstep
    · next m _ =>
      obtain rfl := Option.some.inj hstep
      rcases lookUpKey_frame nonce m rm with ⟨sent, requests, heq⟩ | ⟨key, heq⟩
      · exact heq ▸ { h with worker := fun _ => False.elim }
      · exact heq ▸ { h with worker := fun _ => False.elim }
    · cases hstep
  case verify nonce =>
    split at hstep
    · next m key _ =>
      rcases verify_frame hstep with ⟨hok, rfl⟩ | ⟨sent, rfl⟩
      · exact { h with worker := fun m' (hm' : m = m') => hm' ▸ hverify m key hok }
      · exact { h with worker := fun _ => False.elim }
    · cases hstep
  case readQueueHandle =>
    split at hstep
    · next m name hworker _ =>
      have hm : P m := h.worker m (by rw [hworker]; rfl)
      exact Option.some.inj hstep ▸ { h with worker := fun m' (hm' : m = m') => hm' ▸ hm }
    · exact Option.some.inj hstep ▸ { h with worker := fun _ => False.elim }
    · cases hstep
  case enqueueVerified =>
    split at hstep
    · next m name hworker =>
      have hm : P m := h.worker m (by rw [hworker]; rfl)
      exact Option.some.inj hstep ▸ h.enqueueVerified hm name
    · cases hstep
  case popAuthz name =>
    split at hstep
    · next m rest _ hmessages hworker =>
      have hqueued : ∀ m' ∈ m :: rest, P m' := fun m' hm' => h.authz name m' (.inl (hmessages ▸ hm'))
      refine Option.some.inj hstep ▸ h.setAuthzQueue name _ ?_
      rintro m' (hrest | hhandling | hdelivering)
      · exact hqueued m' (List.mem_cons_of_mem m hrest)
      · exact AuthzWorker.handling.inj hhandling ▸ hqueued m List.mem_cons_self
      · cases hdelivering
    · cases hstep
  case authorize name nonce =>
    split at hstep
    · next m hworker => exact h.authorize hworker hstep
    · cases hstep
  case deliver name now =>
    split at hstep
    · next m hworker =>
      have hm : P m := h.authz name m (.inr (.inr hworker))
      refine Option.some.inj hstep ▸ Checked.handleAuthorizedMessage (h.setAuthzQueue name _ ?_) now hm
      rintro m' (hqueued | hhandling | hdelivering)
      · exact h.authz name m' (.inl hqueued)
      · cases hhandling
      · cases hdelivering
    · cases hstep

end

/-! ### Signatures -/

/-- The message carries a signature that verifies over the message itself, under a key that belongs to the signer it names; and that signer is taken for its sender. -/
def SignedBySigner (pb : Protobuf) (C : Crypto) (m : RSPMessage) : Prop :=
  ∃ (block : SignatureBlock) (hash : Bytes) (key : KeyPair C) (signer : NodeID),
    m.signature = some block ∧ computeMessageHash pb C m = .ok hash ∧ key.verifyBlock hash block = .ok true ∧
      key.nodeID = .ok signer ∧ block.signer.bind nodeIdFromSignerField = some signer ∧
      senderNodeIdFromMessage m = some signer

theorem signedBySigner_of_verify {pb : Protobuf} {m : RSPMessage} {key : KeyPair C}
    (h : verifyMessageSignature pb key m (m.signature.getD {}) = .ok true) : SignedBySigner pb C m := by
  obtain ⟨hash, hhash, hverified⟩ := bind_eq_ok.mp h
  obtain ⟨signer, field, hfield, hsigner, hnode, -⟩ := KeyPair.verifyBlock_eq_true hverified
  cases hblock : m.signature with
  | none =>
    rw [hblock] at hfield
    cases hfield
  | some block =>
    rw [hblock, Option.getD_some] at hverified hfield
    refine ⟨block, hash, key, signer, hblock, hhash, hverified, hnode, ?_, ?_⟩
    · rw [hfield]
      exact hsigner
    · exact senderNodeIdFromMessage_of_signer hblock hfield hsigner

/-- **Complete signature mediation.** Whatever the interleaving, a message for which `handleAuthorizedMessage` is called, and so every message on the input queue and every forwarded message, is signed by its signer. -/
theorem authorized_signedBySigner {pb : Protobuf} {configured : ERDAbstractSyntaxTree} {rm : ResourceManager C}
    (h : (pipeline pb C configured).Reaches rm) :
    (∀ entry ∈ rm.authorized, SignedBySigner pb C entry.1) ∧ (∀ m ∈ rm.inputQueue, SignedBySigner pb C m) ∧
      ∀ entry ∈ rm.forwarded, SignedBySigner pb C entry.2 := by
  have hchecked : Checked (SignedBySigner pb C) rm := by
    refine h.invariant ?_ ?_
    · rintro rm ⟨node, rfl⟩
      exact Checked.initial node
    · intro rm l rm' hrm hstep
      exact Checked.next hrm (fun m key => signedBySigner_of_verify) hstep
  exact ⟨hchecked.authorized, hchecked.input, hchecked.forwarded⟩

/-! ### A run -/

/-- A resource manager with key 1. -/
def sampleNode : RSPNode sampleCrypto where
  keyPair := sampleKeyPair 1
  nodeId := ⟨0x0100000000000000, 0⟩
  nodeID_keyPair := rfl

/-- A ping without destination, signed with key 7. -/
def samplePing : RSPMessage :=
  let unsigned : RSPMessage := { coreMessage := .pingRequest {} }
  { unsigned with signature := (signMessage default (sampleKeyPair 7) 0 unsigned).toOption }

/-- After `steps` steps of construction the peer with key 7 connects and sends the ping, which is authorized by the queue `name` and delivered. -/
def sampleRun (steps : Nat) (name : AuthzQueueName) : List PipelineLabel :=
  List.replicate steps .construct ++
  [.cacheAuthenticatedIdentity ⟨0x0700000000000000, 0⟩ { publicKey := some { algorithm := .p256, publicKey := [7] } },
    .handleAuthNSuccess ⟨0x0700000000000000, 0⟩, .receive 0 samplePing, .popSignatureCheck, .lookUpKey [], .verify [],
    .readQueueHandle, .enqueueVerified, .popAuthz name, .authorize name [], .deliver name 0]

/-- The state when the ping arrives as soon as the transports are registered, before the derived constructor runs. -/
def afterEarlyPing (configured : ERDAbstractSyntaxTree) : ResourceManager sampleCrypto :=
  ((pipeline default sampleCrypto configured).run (initial sampleNode) (sampleRun 3 .base)).getD (initial sampleNode)

theorem afterEarlyPing_reaches (configured : ERDAbstractSyntaxTree) :
    (pipeline default sampleCrypto configured).Reaches (afterEarlyPing configured) :=
  Machine.Reaches.run (.start ⟨sampleNode, rfl⟩)
    (show Machine.run _ (initial sampleNode) (sampleRun 3 .base) = some (afterEarlyPing configured) from rfl)

theorem authorized_signedBySigner_earlyPing :
    (afterEarlyPing .trueValue).authorized = [(samplePing, ⟨[]⟩)] ∧
      SignedBySigner default sampleCrypto samplePing := by
  have hreaches := afterEarlyPing_reaches .trueValue
  exact ⟨rfl, (authorized_signedBySigner hreaches).1 (samplePing, ⟨[]⟩) List.mem_cons_self⟩

/-! ### The configured policy -/

/-- A call of `handleAuthorizedMessage` that the tree allows, on the schemas known at the time. -/
def Allowed (pb : Protobuf) (tree : ERDAbstractSyntaxTree) (entry : RSPMessage × SchemaSnapshot) : Prop :=
  ∃ sender, senderNodeIdFromMessage entry.1 = some sender ∧
    reduceRequirementTree pb (getAuthorizationEndorsements sender) (some entry.1) (some entry.2) tree = .ok .notSet

/-- With a tree that allows nothing, the early ping is authorized all the same. -/
theorem earlyPing_not_allowed :
    (pipeline default sampleCrypto .falseValue).Reaches (afterEarlyPing .falseValue) ∧
      ∃ entry ∈ (afterEarlyPing .falseValue).authorized, ¬ Allowed default .falseValue entry := by
  refine ⟨afterEarlyPing_reaches _, (samplePing, ⟨[]⟩), List.mem_cons_self, ?_⟩
  rintro ⟨sender, -, hreduced⟩
  cases hreduced

/-- The derived constructor has started its own queue. -/
def hasConfiguredQueue : Construction → Bool
  | .baseMembers | .baseQueueInstalled | .queuesStarted | .transportsRegistered => false
  | _ => true

/-- The steps in which no verified message is handed to the queue of the base class. -/
def avoidsBaseQueue (rm : ResourceManager C) : PipelineLabel → Bool
  | .readQueueHandle => rm.authzQueue ≠ some .base
  | _ => true

/-- The base queue stays empty; the configured queue has the configured tree from its start, and nothing reaches it before. -/
structure Guarded (pb : Protobuf) (tree : ERDAbstractSyntaxTree) (rm : ResourceManager C) : Prop where
  base : ∀ m, ¬ AuthzHolds (rm.authzQueues .base) m
  notEnqueuing : ∀ m, rm.signatureWorker ≠ .enqueuing m .base
  configuredTree : hasConfiguredQueue rm.construction = true → (rm.authzQueues .configured).authorizationTree = tree
  untouched : hasConfiguredQueue rm.construction = false → (∀ m, ¬ AuthzHolds (rm.authzQueues .configured) m) ∧
    rm.authzQueue ≠ some .configured ∧ ∀ m, rm.signatureWorker ≠ .enqueuing m .configured
  authorized : ∀ entry ∈ rm.authorized, Allowed pb tree entry

section

variable {pb : Protobuf} {tree : ERDAbstractSyntaxTree} {rm rm' : ResourceManager C}

theorem Guarded.initial (node : RSPNode C) : Guarded pb tree (initial node) where
  base := by simp [ResourceManager.initial, AuthzHolds]
  notEnqueuing := by simp [ResourceManager.initial]
  configuredTree := by simp [ResourceManager.initial, hasConfiguredQueue]
  untouched := by simp [ResourceManager.initial, AuthzHolds]
  authorized := by simp [ResourceManager.initial]

theorem Guarded.quiet (h : Guarded pb tree rm) (hquiet : Quiet rm rm') : Guarded pb tree rm' where
  base := hquiet.authzQueues ▸ h.base
  notEnqueuing := hquiet.worker ▸ h.notEnqueuing
  configuredTree := hquiet.construction ▸ hquiet.authzQueues ▸ h.configuredTree
  untouched := hquiet.construction ▸ hquiet.authzQueues ▸ hquiet.authzQueue ▸ hquiet.worker ▸ h.untouched
  authorized := hquiet.authorized ▸ h.authorized

/-- A message is only ever in the configured queue, which then has the configured tree. -/
theorem Guarded.tree_of_holds (h : Guarded pb tree rm) {name : AuthzQueueName} {m : RSPMessage}
    (hm : AuthzHolds (rm.authzQueues name) m) :
    name = .configured ∧ hasConfiguredQueue rm.construction = true ∧
      (rm.authzQueues .configured).authorizationTree = tree := by
  cases name with
  | base => exact absurd hm (h.base m)
  | configured =>
    cases hphase : hasConfiguredQueue rm.construction with
    | false => exact absurd hm ((h.untouched hphase).1 m)
    | true => exact ⟨rfl, rfl, h.configuredTree hphase⟩

/-- Work on the configured queue that keeps its tree. -/
theorem Guarded.setConfigured (h : Guarded pb tree rm) (hphase : hasConfiguredQueue rm.construction = true)
    (queue : MessageQueueAuthZ) (hqueue : queue.authorizationTree = tree) :
    Guarded pb tree (rm.setAuthzQueue .configured queue) where
  base m hm := h.base m (by simpa [ResourceManager.setAuthzQueue] using hm)
  notEnqueuing := h.notEnqueuing
  configuredTree _ := by simp [ResourceManager.setAuthzQueue, hqueue]
  untouched hearly := by simp [ResourceManager.setAuthzQueue, hphase] at hearly
  authorized := h.authorized

/-- The signature worker moves on to something other than a hand-over. -/
theorem Guarded.setWorker (h : Guarded pb tree rm) (worker : SignatureWorker C)
    (hworker : ∀ m name, worker ≠ .enqueuing m name) : Guarded pb tree { rm with signatureWorker := worker } where
  base := h.base
  notEnqueuing m := hworker m .base
  configuredTree := h.configuredTree
  untouched hearly := ⟨(h.untouched hearly).1, (h.untouched hearly).2.1, fun m => hworker m .configured⟩
  authorized := h.authorized

theorem Guarded.construct (h : Guarded pb tree rm) (hstep : rm.construct tree = some rm') : Guarded pb tree rm' := by
  have hstarted (tree : ERDAbstractSyntaxTree) (m : RSPMessage) : ¬ AuthzHolds (startedQueue tree) m := by
    simp [AuthzHolds, startedQueue]
  unfold ResourceManager.construct at hstep
  split at hstep
  case h_1 hphase =>
    obtain rfl := Option.some.inj hstep
    have hearly := h.untouched (by rw [hphase]; rfl)
    exact
      { base := by simpa [ResourceManager.setAuthzQueue] using hstarted _
        notEnqueuing := h.notEnqueuing
        configuredTree := by simp [ResourceManager.setAuthzQueue, hasConfiguredQueue]
        untouched := fun _ => ⟨hearly.1, by simp [ResourceManager.setAuthzQueue], hearly.2.2⟩
        authorized := h.authorized }
  case h_2 hphase =>
    obtain rfl := Option.some.inj hstep
    have hearly := h.untouched (by rw [hphase]; rfl)
    exact { h with configuredTree := by simp [hasConfiguredQueue], untouched := fun _ => hearly }
  case h_3 hphase =>
    obtain rfl := Option.some.inj hstep
    have hearly := h.untouched (by rw [hphase]; rfl)
    exact { h with configuredTree := by simp [hasConfiguredQueue], untouched := fun _ => hearly }
  case h_4 hphase =>
    obtain rfl := Option.some.inj hstep
    exact
      { base := h.base
        notEnqueuing := h.notEnqueuing
        configuredTree := by simp [ResourceManager.setAuthzQueue, startedQueue]
        untouched := by simp [ResourceManager.setAuthzQueue, hasConfiguredQueue]
        authorized := h.authorized }
  case h_5 hphase =>
    obtain rfl := Option.some.inj hstep
    have htree := h.configuredTree (by rw [hphase]; rfl)
    exact { h with configuredTree := fun _ => htree, untouched := by simp [hasConfiguredQueue] }
  case h_6 hphase =>
    obtain rfl := Option.some.inj hstep
    have htree := h.configuredTree (by rw [hphase]; rfl)
    exact
      { base := fun m hm => h.base m (by simpa [ResourceManager.setAuthzQueue, AuthzHolds] using hm)
        notEnqueuing := h.notEnqueuing
        configuredTree := fun _ => htree
        untouched := by simp [ResourceManager.setAuthzQueue, hasConfiguredQueue]
        authorized := h.authorized }
  case h_7 hphase =>
    split at hstep
    · obtain rfl := Option.some.inj hstep
      have htree := h.configuredTree (by rw [hphase]; rfl)
      exact { h with configuredTree := fun _ => htree, untouched := by simp [hasConfiguredQueue] }
    · cases hstep
  case h_8 => cases hstep

theorem Guarded.readQueueHandle (h : Guarded pb tree rm) (m : RSPMessage)
    (hhandle : rm.authzQueue = some .configured) :
    Guarded pb tree { rm with signatureWorker := .enqueuing m .configured } :=
  { h with
    notEnqueuing := by simp
    untouched := fun hearly => absurd hhandle (h.untouched hearly).2.1 }

/-- The worker only ever holds the handle of the configured queue, which exists by then. -/
theorem Guarded.enqueueVerified (h : Guarded pb tree rm) {m : RSPMessage} {name : AuthzQueueName}
    (hworker : rm.signatureWorker = .enqueuing m name) : Guarded pb tree (rm.enqueueVerified m name) := by
  cases name with
  | base => exact absurd hworker (h.notEnqueuing m)
  | configured =>
    cases hphase : hasConfiguredQueue rm.construction with
    | false => exact absurd hworker ((h.untouched hphase).2.2 m)
    | true => exact Guarded.setConfigured (h.setWorker .idle (by simp)) hphase _ (h.configuredTree hphase)

theorem Guarded.authorize {nonce : Bytes} {name : AuthzQueueName} {m : RSPMessage} (h : Guarded pb tree rm)
    (hm : (rm.authzQueues name).worker = .handling m)
    (hstep : rm.authorize pb tree nonce name m = some rm') : Guarded pb tree rm' := by
  obtain ⟨rfl, hphase, htree⟩ := h.tree_of_holds (.inr (.inl hm))
  rcases authorize_frame hstep with ⟨sender, snapshot, hsender, hreduced, rfl⟩ | ⟨sent, rfl⟩
  · rw [htree] at hreduced
    refine Guarded.setConfigured ?_ ?_ _ ?_
    · refine { h with authorized := fun entry hentry => ?_ }
      rcases List.mem_append.mp hentry with hold | hnew
      · exact h.authorized entry hold
      · exact List.mem_singleton.mp hnew ▸ ⟨sender, hsender, hreduced⟩
    · exact hphase
    · exact htree
  · refine Guarded.setConfigured ?_ ?_ _ ?_
    · exact { h with }
    · exact hphase
    · exact htree

theorem Guarded.handleAuthorizedMessage (h : Guarded pb tree rm) (now : DateTime) (m : RSPMessage) :
    Guarded pb tree (rm.handleAuthorizedMessage now m) := by
  obtain ⟨node, directory, output, input, forwarded, heq, -, -⟩ := handleAuthorizedMessage_frame now m rm
  exact heq ▸ { h with }

/-- **One step that avoids the base queue.** -/
theorem Guarded.next {l : PipelineLabel} (h : Guarded pb tree rm) (hl : avoidsBaseQueue rm l = true)
    (hstep : rm.next pb tree l = some rm') : Guarded pb tree rm' := by
  by_cases hquiet : isQuiet l = true
  · exact h.quiet (next_quiet hquiet hstep)
  cases l <;> simp only [isQuiet, not_true_eq_false] at hquiet <;> simp only [ResourceManager.next] at hstep
  case construct => exact h.construct hstep
  case popIncoming now =>
    split at hstep
    · cases hstep
    · obtain rfl := Option.some.inj hstep
      refine Guarded.handleAuthorizedMessage ?_ now _
      exact { h with }
  case popSignatureCheck =>
    split at hstep
    · obtain rfl := Option.some.inj hstep
      exact { h.setWorker (.handling _) (by simp) with }
    · cases hstep
  case lookUpKey nonce =>
    split at hstep
    · next m _ =>
      obtain rfl := Option.some.inj hstep
      rcases lookUpKey_frame nonce m rm with ⟨sent, requests, heq⟩ | ⟨key, heq⟩
      · exact heq ▸ { h.setWorker .idle (by simp) with }
      · exact heq ▸ h.setWorker (.verifying m key) (by simp)
    · cases hstep
  case verify nonce =>
    split at hstep
    · next m key _ =>
      rcases verify_frame hstep with ⟨-, rfl⟩ | ⟨sent, rfl⟩
      · exact h.setWorker (.verified m) (by simp)
      · exact { h.setWorker .idle (by simp) with }
    · cases hstep
  case readQueueHandle =>
    split at hstep
    · next m name _ hhandle =>
      cases name with
      | base => simp [avoidsBaseQueue, hhandle] at hl
      | configured => exact Option.some.inj hstep ▸ h.readQueueHandle m hhandle
    · exact Option.some.inj hstep ▸ h.setWorker .idle (by simp)
    · cases hstep
  case enqueueVerified =>
    split at hstep
    · next m name hworker =>
      exact Option.some.inj hstep ▸ h.enqueueVerified hworker
    · cases hstep
  case popAuthz name =>
    split at hstep
    · next m rest _ hmessages _ =>
      obtain ⟨rfl, hphase, htree⟩ := h.tree_of_holds (.inl (hmessages ▸ List.mem_cons_self))
      exact Option.some.inj hstep ▸ h.setConfigured hphase _ htree
    · cases hstep
  case authorize name nonce =>
    split at hstep
    · next m hworker => exact h.authorize hworker hstep
    · cases hstep
  case deliver name now =>
    split at hstep
    · next m hworker =>
      obtain ⟨rfl, hphase, htree⟩ := h.tree_of_holds (.inr (.inr hworker))
      obtain rfl := Option.some.inj hstep
      refine Guarded.handleAuthorizedMessage ?_ now m
      exact h.setConfigured hphase _ (by exact htree)
    · cases hstep

end

/-- **Policy mediation.** In every run in which no verified message is handed to the queue of the base class constructor, `handleAuthorizedMessage` is only called for messages that the configured tree allows. -/
theorem authorized_allowed_of_avoidsBaseQueue {pb : Protobuf} {configured : ERDAbstractSyntaxTree}
    {rm : ResourceManager C}
    (h : ((pipeline pb C configured).restrict fun rm l => avoidsBaseQueue rm l = true).Reaches rm) :
    ∀ entry ∈ rm.authorized, Allowed pb configured entry := by
  have hguarded : Guarded pb configured rm := by
    refine h.invariant ?_ ?_
    · rintro rm ⟨node, rfl⟩
      exact Guarded.initial node
    · intro rm l rm' hrm hstep
      obtain ⟨hl, hnext⟩ := Machine.restrict_next hstep
      exact hrm.next hl hnext
  exact hguarded.authorized

/-- The state when the ping arrives after the configured queue has been installed. -/
def afterLatePing (configured : ERDAbstractSyntaxTree) : ResourceManager sampleCrypto :=
  ((pipeline default sampleCrypto configured).run (initial sampleNode) (sampleRun 5 .configured)).getD
    (initial sampleNode)

theorem authorized_allowed_latePing :
    (afterLatePing (.or (some .falseValue) (some .trueValue))).authorized = [(samplePing, ⟨[]⟩)] ∧
      Allowed default (.or (some .falseValue) (some .trueValue)) (samplePing, ⟨[]⟩) := by
  have hrun : ((pipeline default sampleCrypto (.or (some .falseValue) (some .trueValue))).restrict
      fun rm l => avoidsBaseQueue rm l = true).run (initial sampleNode) (sampleRun 5 .configured) =
        some (afterLatePing (.or (some .falseValue) (some .trueValue))) := rfl
  have hreaches := Machine.Reaches.run (.start (by exact ⟨sampleNode, rfl⟩)) hrun
  exact ⟨rfl, authorized_allowed_of_avoidsBaseQueue hreaches (samplePing, ⟨[]⟩) List.mem_cons_self⟩

end ResourceManager

end Rsp
