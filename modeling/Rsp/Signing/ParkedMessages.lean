import Rsp.Lib.Counting
import Rsp.Lib.Machine
import Rsp.Signing.RequestIdentity

/-!
# Parked messages are neither lost nor duplicated

All interleavings of the callers of `MessageQueueRequestIdentity::handleMessage` with the resolver threads they start. A step is one critical section or one callback; what the callbacks return, whether the identity has arrived and whether the deadline has passed is chosen by the step.

Beside the state of the code the system numbers the messages by arrival. The numbers say which message is parked where, which were drained together and what was reported about each; the code does not see them.
-/

namespace Rsp

open Proto Counting

namespace Resolver

/-- The signer whose messages a resolver has yet to take out. -/
def undrained : Resolver → Option NodeID
  | .started signer => some signer
  | .waiting signer => some signer
  | .draining signer _ => some signer
  | .holding _ _ => none

/-- The steps of `resolveSigner` up to the decision; `none` when the thread ends. -/
def advance (hasIdentity requested timedOut : Bool) (queue : RequestIdentityQueue) : Resolver → Option Resolver
  | .started signer =>
    if hasIdentity then some (.draining signer none)
    else if requested then some (.waiting signer)
    else some (.draining signer (some "failed to request identity for signer"))
  | resolver => queue.resolveSigner hasIdentity timedOut resolver

/-- When the request for the identity succeeds, these are the steps the resource manager takes. -/
theorem advance_requested (hasIdentity timedOut : Bool) (queue : RequestIdentityQueue) (resolver : Resolver) :
    resolver.advance hasIdentity true timedOut queue = queue.resolveSigner hasIdentity timedOut resolver := by
  cases resolver with
  | started signer => cases hasIdentity <;> rfl
  | waiting signer => rfl
  | draining signer failure => rfl
  | holding messages failure => rfl

end Resolver

namespace ParkedMessages

/-- What a call of `handleMessage` has left to do after its critical section. -/
inductive Call
  | rejecting (number : Nat) (m : RSPMessage) (reason : String)
  | starting (signer : NodeID)

/-- A resolver thread, with the numbers of the messages it holds and of the batch they were drained in. -/
structure Thread where
  resolver : Resolver
  numbers : List Nat := []
  batch : Nat := 0

/-- A message handed to `replay_` with success, or to `onFailure_` with a reason. Rejected messages belong to no batch. -/
structure Report where
  number : Nat
  batch : Option Nat
  message : RSPMessage
  failure : Option String

structure System where
  queue : RequestIdentityQueue
  calls : List Call := []
  threads : List Thread := []
  arrivals : List (NodeID × RSPMessage) := []
  parked : NodeID → List Nat := fun _ => []
  batches : List (NodeID × List Nat) := []
  reports : List Report := []

inductive Step
  | handleMessage (signer : NodeID) (m : RSPMessage)
  | finishCall (index : Nat)
  | resolve (index : Nat) (hasIdentity requested timedOut : Bool)
  | drain (index : Nat)
  | handOn (index : Nat) (replayed : Bool)
  | shutdown

namespace System

/-- The critical section of `handleMessage`. -/
def handleMessage (signer : NodeID) (m : RSPMessage) (sys : System) : System :=
  let number := sys.arrivals.length
  let arrivals := sys.arrivals ++ [(signer, m)]
  match sys.queue.handleMessage m signer with
  | .error reason => { sys with arrivals, calls := sys.calls ++ [.rejecting number m reason] }
  | .ok (queue, startResolver) =>
    { sys with
      arrivals, queue
      calls := if startResolver then sys.calls ++ [.starting signer] else sys.calls
      parked := Function.update sys.parked signer (sys.parked signer ++ [number]) }

/-- The rest of a call: the failure callback, or the start of the thread. -/
def finishCall (index : Nat) (call : Call) (sys : System) : System :=
  match call with
  | .rejecting number m reason =>
    { sys with
      calls := sys.calls.eraseIdx index
      reports := sys.reports ++ [{ number, batch := none, message := m, failure := some reason }] }
  | .starting signer =>
    { sys with
      calls := sys.calls.eraseIdx index
      threads := sys.threads ++ [{ resolver := .started signer }] }

/-- `drainSignerMessages`. -/
def drain (index : Nat) (signer : NodeID) (failure : Option String) (sys : System) : System :=
  let drained := sys.queue.drainSignerMessages signer
  let numbers := sys.parked signer
  { sys with
    queue := drained.1
    threads := replaceAt index
      (some { resolver := .holding drained.2 failure, numbers, batch := sys.batches.length }) sys.threads
    parked := Function.update sys.parked signer []
    batches := sys.batches ++ [(signer, numbers)] }

/-- One round of the loop of `replayMessages` or of `failMessages`. -/
def handOn (index : Nat) (thread : Thread) (m : RSPMessage) (rest : List RSPMessage) (failure : Option String)
    (replayed : Bool) (sys : System) : System :=
  let outcome :=
    match failure with
    | some reason => some reason
    | none => if replayed then none else some "failed to requeue message for signature verification"
  { sys with
    threads := replaceAt index
      (some { thread with resolver := .holding rest failure, numbers := thread.numbers.tail }) sys.threads
    reports := sys.reports ++
      [{ number := thread.numbers.headD 0, batch := some thread.batch, message := m, failure := outcome }] }

def next (sys : System) : Step → Option System
  | .handleMessage signer m => some (sys.handleMessage signer m)
  | .finishCall index => sys.calls[index]?.map fun call => sys.finishCall index call
  | .resolve index hasIdentity requested timedOut =>
    sys.threads[index]?.bind fun thread =>
      match thread.resolver with
      | .started _ | .waiting _ =>
        some { sys with
          threads := replaceAt index
            ((thread.resolver.advance hasIdentity requested timedOut sys.queue).map fun resolver =>
              { thread with resolver }) sys.threads }
      | _ => none
  | .drain index =>
    sys.threads[index]?.bind fun thread =>
      match thread.resolver with
      | .draining signer failure => some (sys.drain index signer failure)
      | _ => none
  | .handOn index replayed =>
    sys.threads[index]?.bind fun thread =>
      match thread.resolver with
      | .holding (m :: rest) failure => some (sys.handOn index thread m rest failure replayed)
      | .holding [] _ => some { sys with threads := replaceAt index none sys.threads }
      | _ => none
  | .shutdown => some { sys with queue := { sys.queue with stopping := true } }

end System

/-- Any number of callers and resolvers, with the given limits. -/
def machine (maxPendingMessages maxPendingPerSigner : Nat) : Machine System Step where
  init sys := sys = { queue := { maxPendingMessages, maxPendingPerSigner } }
  next := System.next

/-! ### What a step can do -/

/-- The steps of the system, with the branches of the code told apart. -/
inductive Moves (sys : System) : System → Prop
  | handleMessage (signer : NodeID) (m : RSPMessage) : Moves sys (sys.handleMessage signer m)
  | finishCall {index : Nat} {call : Call} (hcall : sys.calls[index]? = some call) :
    Moves sys (sys.finishCall index call)
  | advance {index : Nat} {thread : Thread} {signer : NodeID} {resolver : Option Resolver}
    (hthread : sys.threads[index]? = some thread) (hsigner : thread.resolver.undrained = some signer)
    (hresolver : ∀ r ∈ resolver, r.undrained = some signer)
    (hgone : resolver = none → sys.queue.pendingBySigner[signer]? = none) :
    Moves sys { sys with
      threads := replaceAt index (resolver.map fun resolver => { thread with resolver }) sys.threads }
  | drain {index : Nat} {thread : Thread} {signer : NodeID} {failure : Option String}
    (hthread : sys.threads[index]? = some thread) (hdraining : thread.resolver = .draining signer failure) :
    Moves sys (sys.drain index signer failure)
  | handOn {index : Nat} {thread : Thread} {m : RSPMessage} {rest : List RSPMessage} {failure : Option String}
    (hthread : sys.threads[index]? = some thread) (hholding : thread.resolver = .holding (m :: rest) failure)
    (replayed : Bool) : Moves sys (sys.handOn index thread m rest failure replayed)
  | exit {index : Nat} {thread : Thread} {failure : Option String}
    (hthread : sys.threads[index]? = some thread) (hholding : thread.resolver = .holding [] failure) :
    Moves sys { sys with threads := replaceAt index none sys.threads }
  | shutdown : Moves sys { sys with queue := { sys.queue with stopping := true } }

/-- A resolver keeps its signer until it drains, and ends early only if nothing is parked for it. -/
theorem undrained_advance {resolver : Resolver} {signer : NodeID} (h : resolver.undrained = some signer)
    (hasIdentity requested timedOut : Bool) (queue : RequestIdentityQueue) :
    (∀ r ∈ resolver.advance hasIdentity requested timedOut queue, r.undrained = some signer) ∧
      (resolver.advance hasIdentity requested timedOut queue = none → queue.pendingBySigner[signer]? = none) := by
  cases resolver with
  | started other =>
    obtain rfl := Option.some.inj h
    cases hasIdentity <;> cases requested <;> simp [Resolver.advance, Resolver.undrained]
  | waiting other =>
    obtain rfl := Option.some.inj h
    by_cases hmem : queue.pendingBySigner.contains other = true
    · simp only [Resolver.advance, RequestIdentityQueue.resolveSigner, hmem]
      cases hasIdentity <;> cases queue.stopping <;> cases timedOut <;> simp [Resolver.undrained]
    · have hnone : queue.pendingBySigner[other]? = none := by
        rw [Std.TreeMap.contains_eq_isSome_getElem?] at hmem
        simpa using hmem
      cases hasIdentity <;>
        simp [Resolver.advance, RequestIdentityQueue.resolveSigner, hmem, hnone, Resolver.undrained]
  | draining other failure =>
    obtain rfl := Option.some.inj h
    simp [Resolver.advance, RequestIdentityQueue.resolveSigner, Resolver.undrained]
  | holding messages failure => simp [Resolver.undrained] at h

theorem moves_of_next {sys sys' : System} {step : Step} (h : sys.next step = some sys') : Moves sys sys' := by
  cases step with
  | handleMessage signer m =>
    obtain rfl := Option.some.inj h
    exact .handleMessage signer m
  | finishCall index =>
    obtain ⟨call, hcall, rfl⟩ := Option.map_eq_some_iff.mp h
    exact .finishCall hcall
  | resolve index hasIdentity requested timedOut =>
    obtain ⟨thread, hthread, h⟩ := Option.bind_eq_some_iff.mp h
    cases hresolver : thread.resolver with
    | started signer | waiting signer =>
      have hsigner : thread.resolver.undrained = some signer := by rw [hresolver]; rfl
      obtain ⟨hkeep, hgone⟩ := undrained_advance hsigner hasIdentity requested timedOut sys.queue
      simp only [hresolver, Option.some.injEq] at h
      rw [hresolver] at hkeep hgone
      rw [← h]
      exact .advance hthread hsigner hkeep hgone
    | draining | holding => simp [hresolver] at h
  | drain index =>
    obtain ⟨thread, hthread, h⟩ := Option.bind_eq_some_iff.mp h
    cases hresolver : thread.resolver with
    | draining signer failure =>
      simp only [hresolver, Option.some.injEq] at h
      rw [← h]
      exact .drain hthread hresolver
    | started | waiting | holding => simp [hresolver] at h
  | handOn index replayed =>
    obtain ⟨thread, hthread, h⟩ := Option.bind_eq_some_iff.mp h
    cases hresolver : thread.resolver with
    | holding messages failure =>
      cases messages with
      | nil =>
        simp only [hresolver, Option.some.injEq] at h
        rw [← h]
        exact .exit hthread hresolver
      | cons m rest =>
        simp only [hresolver, Option.some.injEq] at h
        rw [← h]
        exact .handOn hthread hresolver replayed
    | started | waiting | draining => simp [hresolver] at h
  | shutdown =>
    obtain rfl := Option.some.inj h
    exact .shutdown

/-- What `handleMessage` does with a message it accepts. -/
theorem handleMessage_ok {m : RSPMessage} {signer : NodeID} {queue queue' : RequestIdentityQueue} {start : Bool}
    (h : queue.handleMessage m signer = .ok (queue', start)) :
    let pending := queue.pendingBySigner.getD signer {}
    (queue.maxPendingMessages ≠ 0 → queue.totalPendingMessages < queue.maxPendingMessages) ∧
      (queue.maxPendingPerSigner ≠ 0 → pending.messages.length < queue.maxPendingPerSigner) ∧
      queue' = { queue with
        pendingBySigner := queue.pendingBySigner.insert signer ⟨pending.messages ++ [m], true⟩
        totalPendingMessages := queue.totalPendingMessages + 1 } ∧
      start = !pending.resolverActive := by
  intro pending
  simp only [RequestIdentityQueue.handleMessage] at h
  split_ifs at h with hstopping htotal hsigner
  simp only [Except.ok.injEq, Prod.mk.injEq] at h
  refine ⟨fun hne => ?_, fun hne => ?_, h.1.symm, h.2.symm⟩
  · exact not_le.mp fun hle => htotal ⟨hne, hle⟩
  · exact not_le.mp fun hle => hsigner ⟨hne, hle⟩

theorem drainSignerMessages_eq {queue : RequestIdentityQueue} {signer : NodeID} {pending : PendingSigner}
    (h : queue.pendingBySigner[signer]? = some pending) :
    queue.drainSignerMessages signer =
      ({ queue with
          pendingBySigner := queue.pendingBySigner.erase signer
          totalPendingMessages := queue.totalPendingMessages - pending.messages.length },
        pending.messages) := by
  simp only [RequestIdentityQueue.drainSignerMessages, h]

/-! ### The queue and its resolvers -/

def Call.starts (signer : NodeID) : Call → Bool
  | .starting other => other = signer
  | .rejecting .. => false

def Thread.resolves (signer : NodeID) (thread : Thread) : Bool := thread.resolver.undrained = some signer

/-- The resolvers of a signer that are started or about to be started and have not yet drained. -/
def System.resolversOf (sys : System) (signer : NodeID) : Nat :=
  sys.calls.countP (Call.starts signer) + sys.threads.countP (Thread.resolves signer)

structure QueueInvariant (maxPendingMessages maxPendingPerSigner : Nat) (sys : System) : Prop where
  limit : sys.queue.maxPendingMessages = maxPendingMessages
  signerLimit : sys.queue.maxPendingPerSigner = maxPendingPerSigner
  total_eq : sys.queue.totalPendingMessages =
    total (fun pending => pending.messages.length) sys.queue.pendingBySigner
  total_le : maxPendingMessages ≠ 0 → sys.queue.totalPendingMessages ≤ maxPendingMessages
  entry : ∀ {signer : NodeID} {pending}, sys.queue.pendingBySigner[signer]? = some pending →
    pending.resolverActive = true ∧ pending.messages ≠ [] ∧
      (maxPendingPerSigner ≠ 0 → pending.messages.length ≤ maxPendingPerSigner)
  resolvers : ∀ signer : NodeID,
    sys.resolversOf signer = if sys.queue.pendingBySigner[signer]?.isSome then 1 else 0


theorem resolversOf_replaceAt {sys : System} {index : Nat} {thread : Thread}
    (h : sys.threads[index]? = some thread) (new : Option Thread) (signer : NodeID) :
    System.resolversOf { sys with threads := replaceAt index new sys.threads } signer +
        (if thread.resolves signer then 1 else 0) =
      sys.resolversOf signer + new.toList.countP (Thread.resolves signer) := by
  have hcount := countP_replaceAt h new (Thread.resolves signer)
  simp only [System.resolversOf]
  omega

namespace QueueInvariant

variable {maxPendingMessages maxPendingPerSigner : Nat} {sys : System}

/-- The thread of a resolver that has not drained finds an entry for its signer. -/
theorem entry_of_resolves (h : QueueInvariant maxPendingMessages maxPendingPerSigner sys) {index : Nat}
    {thread : Thread} (hthread : sys.threads[index]? = some thread) {signer : NodeID}
    (hresolves : thread.resolver.undrained = some signer) :
    ∃ pending, sys.queue.pendingBySigner[signer]? = some pending := by
  have hpos : 0 < sys.threads.countP (Thread.resolves signer) :=
    List.countP_pos_iff.mpr ⟨thread, List.mem_of_getElem? hthread, by simp [Thread.resolves, hresolves]⟩
  have hcount := h.resolvers signer
  cases hentry : sys.queue.pendingBySigner[signer]? with
  | some pending => exact ⟨pending, rfl⟩
  | none =>
    simp only [System.resolversOf, hentry, Option.isSome_none, Bool.false_eq_true, if_false] at hcount
    omega

theorem handleMessage (h : QueueInvariant maxPendingMessages maxPendingPerSigner sys) (signer : NodeID)
    (m : RSPMessage) : QueueInvariant maxPendingMessages maxPendingPerSigner (sys.handleMessage signer m) := by
  unfold System.handleMessage
  cases hresult : sys.queue.handleMessage m signer with
  | error reason =>
    refine { h with resolvers := fun other => ?_ }
    rw [← h.resolvers other]
    simp [System.resolversOf, Call.starts, List.countP_append]
  | ok result =>
    obtain ⟨queue', start⟩ := result
    obtain ⟨htotal, hsigner, rfl, rfl⟩ := handleMessage_ok hresult
    rw [h.limit] at htotal
    rw [h.signerLimit] at hsigner
    have hentries : ∀ other : NodeID,
        (sys.queue.pendingBySigner.insert signer
            ⟨(sys.queue.pendingBySigner.getD signer {}).messages ++ [m], true⟩)[other]? =
          if signer = other then some ⟨(sys.queue.pendingBySigner.getD signer {}).messages ++ [m], true⟩
          else sys.queue.pendingBySigner[other]? := by
      intro other
      rw [Std.TreeMap.getElem?_insert]
      simp only [Std.compare_eq_iff_eq]
    refine ⟨h.limit, h.signerLimit, ?_, fun hne => htotal hne, ?_, fun other => ?_⟩
    · -- the sum grows by the one message
      rw [total_insert, h.total_eq]
      cases hentry : sys.queue.pendingBySigner[signer]? with
      | none =>
        rw [total_erase_of_none hentry]
        simp [Std.TreeMap.getD_eq_getD_getElem?, hentry]
        omega
      | some pending =>
        rw [total_eq_add_erase hentry]
        simp [Std.TreeMap.getD_eq_getD_getElem?, hentry]
        omega
    · intro other pending hpending
      rw [hentries] at hpending
      by_cases heq : signer = other
      · rw [if_pos heq, Option.some.injEq] at hpending
        subst hpending
        refine ⟨rfl, by simp, fun hne => ?_⟩
        have := hsigner hne
        simp only [List.length_append, List.length_cons, List.length_nil]
        omega
      · rw [if_neg heq] at hpending
        exact h.entry hpending
    · -- a resolver is about to be started exactly if there was no entry
      have hcount := h.resolvers other
      simp only [hentries]
      cases hentry : sys.queue.pendingBySigner[signer]? with
      | none =>
        by_cases heq : signer = other
        · subst heq
          have hzero : sys.resolversOf signer = 0 := by rw [hcount, hentry]; rfl
          rw [if_pos rfl, Option.isSome_some, if_pos rfl]
          simp only [System.resolversOf, Std.TreeMap.getD_eq_getD_getElem?, hentry] at hzero ⊢
          simp only [Option.getD_none, Bool.not_false, if_true, List.countP_append, List.countP_cons, List.countP_nil,
            Call.starts, decide_true]
          omega
        · simpa [System.resolversOf, Std.TreeMap.getD_eq_getD_getElem?, hentry, Call.starts, List.countP_append, heq]
            using hcount
      | some pending =>
        obtain ⟨hactive, -, -⟩ := h.entry hentry
        by_cases heq : signer = other
        · subst heq
          simpa [System.resolversOf, Std.TreeMap.getD_eq_getD_getElem?, hentry, hactive] using hcount
        · simpa [System.resolversOf, Std.TreeMap.getD_eq_getD_getElem?, hentry, hactive, heq] using hcount

theorem finishCall (h : QueueInvariant maxPendingMessages maxPendingPerSigner sys) {index : Nat} {call : Call}
    (hcall : sys.calls[index]? = some call) :
    QueueInvariant maxPendingMessages maxPendingPerSigner (sys.finishCall index call) := by
  cases call with
  | rejecting number m reason =>
    refine { h with resolvers := fun signer => ?_ }
    have hcount := h.resolvers signer
    simp only [System.resolversOf, (perm_of_getElem? hcall).countP_eq, List.countP_cons] at hcount
    simpa [System.finishCall, System.resolversOf, Call.starts] using hcount
  | starting signer =>
    refine { h with resolvers := fun other => ?_ }
    have hcount := h.resolvers other
    simp only [System.resolversOf, (perm_of_getElem? hcall).countP_eq, List.countP_cons] at hcount
    have hnew : Thread.resolves other { resolver := .started signer } = Call.starts other (.starting signer) := by
      simp [Thread.resolves, Resolver.undrained, Call.starts]
    simp only [System.finishCall, System.resolversOf, List.countP_append, List.countP_cons, List.countP_nil, hnew]
    refine Eq.trans ?_ hcount
    omega

theorem drain (h : QueueInvariant maxPendingMessages maxPendingPerSigner sys) {index : Nat} {thread : Thread}
    {signer : NodeID} {failure : Option String} (hthread : sys.threads[index]? = some thread)
    (hdraining : thread.resolver = .draining signer failure) :
    QueueInvariant maxPendingMessages maxPendingPerSigner (sys.drain index signer failure) := by
  have hresolves : thread.resolver.undrained = some signer := by rw [hdraining]; rfl
  obtain ⟨pending, hentry⟩ := h.entry_of_resolves hthread hresolves
  have hentries : ∀ other : NodeID, (sys.queue.pendingBySigner.erase signer)[other]? =
      if signer = other then none else sys.queue.pendingBySigner[other]? := by
    intro other
    rw [Std.TreeMap.getElem?_erase]
    simp only [Std.compare_eq_iff_eq]
  have htotal := h.total_eq
  rw [total_eq_add_erase hentry] at htotal
  simp only [System.drain, drainSignerMessages_eq hentry]
  refine ⟨h.limit, h.signerLimit, ?_, fun hne => ?_, ?_, fun other => ?_⟩
  · simp only
    omega
  · have := h.total_le hne
    simp only
    omega
  · intro other pending' hpending
    simp only [hentries] at hpending
    by_cases heq : signer = other
    · simp [heq] at hpending
    · rw [if_neg heq] at hpending
      exact h.entry hpending
  · have hcount := resolversOf_replaceAt hthread
      (some { resolver := .holding pending.messages failure, numbers := sys.parked signer,
              batch := sys.batches.length }) other
    have hbefore := h.resolvers other
    have hthis : thread.resolves other = decide (signer = other) := by simp [Thread.resolves, hresolves]
    have hnew : Thread.resolves other
        { resolver := .holding pending.messages failure, numbers := sys.parked signer,
          batch := sys.batches.length } = false := rfl
    simp only [System.resolversOf, hthis, Option.toList_some, List.countP_cons, List.countP_nil, hnew] at hcount hbefore ⊢
    simp only [hentries]
    by_cases heq : signer = other
    · subst heq
      simp only [hentry, decide_true, if_true, Option.isSome_some, Option.isSome_none, Bool.false_eq_true, if_false]
        at hcount hbefore ⊢
      omega
    · simp only [heq, decide_false, if_false, Bool.false_eq_true] at hcount ⊢
      omega

/-- A step that leaves the calls and the queue alone and lets one thread go on with the same signer. -/
theorem replaceThread (h : QueueInvariant maxPendingMessages maxPendingPerSigner sys) {sys' : System} {index : Nat}
    {thread : Thread} (new : Option Thread) (hthread : sys.threads[index]? = some thread)
    (hnew : ∀ signer, new.toList.countP (Thread.resolves signer) = if thread.resolves signer then 1 else 0)
    (hthreads : sys'.threads = replaceAt index new sys.threads) (hqueue : sys'.queue = sys.queue)
    (hcalls : sys'.calls = sys.calls) :
    QueueInvariant maxPendingMessages maxPendingPerSigner sys' := by
  refine ⟨hqueue ▸ h.limit, hqueue ▸ h.signerLimit, hqueue ▸ h.total_eq, hqueue ▸ h.total_le,
    hqueue ▸ h.entry, fun signer => ?_⟩
  have hcount := resolversOf_replaceAt hthread new signer
  rw [hnew signer] at hcount
  rw [hqueue, ← h.resolvers signer]
  simp only [System.resolversOf, hthreads, hcalls] at hcount ⊢
  omega

theorem move (h : QueueInvariant maxPendingMessages maxPendingPerSigner sys) {sys' : System}
    (hmove : Moves sys sys') : QueueInvariant maxPendingMessages maxPendingPerSigner sys' := by
  cases hmove with
  | handleMessage signer m => exact h.handleMessage signer m
  | finishCall hcall => exact h.finishCall hcall
  | drain hthread hdraining => exact h.drain hthread hdraining
  | shutdown => exact { h with }
  | advance hthread hsigner hresolver hgone =>
    rename_i thread signer resolver
    refine h.replaceThread (resolver.map fun resolver => { thread with resolver }) hthread (fun other => ?_) rfl rfl rfl
    cases resolver with
    | some r => simp [Thread.resolves, hresolver r rfl, hsigner]
    | none =>
      obtain ⟨pending, hentry⟩ := h.entry_of_resolves hthread hsigner
      simp [hgone rfl] at hentry
  | handOn hthread hholding replayed =>
    refine h.replaceThread (some _) hthread (fun signer => ?_) rfl rfl rfl
    simp [Thread.resolves, hholding, Resolver.undrained]
  | exit hthread hholding =>
    refine h.replaceThread none hthread (fun signer => ?_) rfl rfl rfl
    simp [Thread.resolves, hholding, Resolver.undrained]

end QueueInvariant

end ParkedMessages

end Rsp
