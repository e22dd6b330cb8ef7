import Rsp.Signing.ParkedMessages

/-!
# Where each parked message is

Every message handed to `handleMessage` is at one place: rejected by a call that has yet to report it, parked, held by a resolver, or reported. The messages a resolver takes out make a batch, and their reports follow the order of arrival.
-/

namespace Rsp

open Proto Counting

namespace ParkedMessages

/-- The message with a given number, and its signer. -/
def Arrived (arrivals : List (NodeID × RSPMessage)) (signer : NodeID) (number : Nat) (m : RSPMessage) : Prop :=
  arrivals[number]? = some (signer, m)

def parkedFor (queue : RequestIdentityQueue) (signer : NodeID) : List RSPMessage :=
  (queue.pendingBySigner.getD signer {}).messages

def Call.rejects (number : Nat) : Call → Bool
  | .rejecting other _ _ => other = number
  | .starting _ => false

/-- The messages a thread has taken out and not yet handed on. -/
def Thread.held (thread : Thread) : List RSPMessage :=
  match thread.resolver with
  | .holding messages _ => messages
  | _ => []

/-- How often a message of the given signer is at one of the places. -/
def System.places (sys : System) (signer : NodeID) (number : Nat) : Nat :=
  sys.reports.countP (fun report => report.number = number) + sys.calls.countP (Call.rejects number) +
    (sys.parked signer).count number + (sys.threads.flatMap Thread.numbers).count number

structure Placed (sys : System) : Prop where
  parked : ∀ signer, List.Forall₂ (Arrived sys.arrivals signer) (sys.parked signer)
    (parkedFor sys.queue signer)
  thread : ∀ thread ∈ sys.threads, ∃ signer, List.Forall₂ (Arrived sys.arrivals signer) thread.numbers thread.held
  report : ∀ report ∈ sys.reports, ∃ signer, Arrived sys.arrivals signer report.number report.message
  rejecting : ∀ number m reason, Call.rejecting number m reason ∈ sys.calls → ∃ signer, Arrived sys.arrivals signer number m
  places : ∀ number signer m, Arrived sys.arrivals signer number m → sys.places signer number = 1

section

variable {arrivals : List (NodeID × RSPMessage)} {signer : NodeID} {number : Nat} {m : RSPMessage}

theorem Arrived.lt (h : Arrived arrivals signer number m) : number < arrivals.length :=
  (List.getElem?_eq_some_iff.mp h).1

theorem Arrived.append (h : Arrived arrivals signer number m) (later : List (NodeID × RSPMessage)) :
    Arrived (arrivals ++ later) signer number m := by
  unfold Arrived
  rw [List.getElem?_append_left h.lt]
  exact h

/-- The new arrival is the last one, the others arrived before. -/
theorem arrived_append_singleton {last : NodeID × RSPMessage} (h : Arrived (arrivals ++ [last]) signer number m) :
    Arrived arrivals signer number m ∨ (number = arrivals.length ∧ last = (signer, m)) := by
  unfold Arrived at h
  by_cases hlt : number < arrivals.length
  · rw [List.getElem?_append_left hlt] at h
    exact .inl h
  · have hbound := (List.getElem?_eq_some_iff.mp h).1
    rw [List.length_append, List.length_singleton] at hbound
    obtain rfl : number = arrivals.length := by omega
    rw [List.getElem?_concat_length, Option.some.injEq] at h
    exact .inr ⟨rfl, h⟩

theorem exists_arrived_of_mem {numbers : List Nat} {messages : List RSPMessage}
    (h : List.Forall₂ (Arrived arrivals signer) numbers messages) (hmem : number ∈ numbers) :
    ∃ m, Arrived arrivals signer number m := by
  induction h with
  | nil => cases hmem
  | cons hhead _ ih =>
    cases hmem with
    | head => exact ⟨_, hhead⟩
    | tail _ htail => exact ih htail

theorem numbers_eq_nil {thread : Thread} (h : List.Forall₂ (Arrived arrivals signer) thread.numbers thread.held)
    (hheld : thread.held = []) : thread.numbers = [] := by
  rw [hheld] at h
  exact List.forall₂_nil_right_iff.mp h

theorem held_of_undrained {thread : Thread} (h : thread.resolver.undrained = some signer) : thread.held = [] := by
  unfold Thread.held
  cases hresolver : thread.resolver with
  | holding messages failure => simp [hresolver, Resolver.undrained] at h
  | started | waiting | draining => rfl

end

theorem parkedFor_insert (queue : RequestIdentityQueue) (signer other : NodeID) (messages : List RSPMessage) (n : Nat) :
    parkedFor
        { queue with
          pendingBySigner := queue.pendingBySigner.insert signer ⟨messages, true⟩
          totalPendingMessages := n } other =
      if signer = other then messages else parkedFor queue other := by
  unfold parkedFor
  simp only [Std.TreeMap.getD_insert, Std.compare_eq_iff_eq]
  split_ifs <;> rfl

theorem parkedFor_drain (queue : RequestIdentityQueue) (signer other : NodeID) :
    parkedFor (queue.drainSignerMessages signer).1 other =
      if signer = other then [] else parkedFor queue other := by
  unfold parkedFor
  cases hentry : queue.pendingBySigner[signer]? with
  | none =>
    simp only [RequestIdentityQueue.drainSignerMessages, hentry]
    by_cases heq : signer = other
    · subst heq
      simp [Std.TreeMap.getD_eq_getD_getElem?, hentry]
    · rw [if_neg heq]
  | some pending =>
    rw [drainSignerMessages_eq hentry]
    simp only [Std.TreeMap.getD_erase, Std.compare_eq_iff_eq]
    split_ifs <;> rfl

theorem drained_eq_parkedFor (queue : RequestIdentityQueue) (signer : NodeID) :
    (queue.drainSignerMessages signer).2 = parkedFor queue signer := by
  unfold parkedFor RequestIdentityQueue.drainSignerMessages
  cases hentry : queue.pendingBySigner[signer]? with
  | none => simp [Std.TreeMap.getD_eq_getD_getElem?, hentry]
  | some pending => simp [Std.TreeMap.getD_eq_getD_getElem?, hentry]

namespace Placed

variable {sys : System}

/-- Nothing is known yet about the number of the next message. -/
theorem places_next (h : Placed sys) (signer : NodeID) : sys.places signer sys.arrivals.length = 0 := by
  have hreports : sys.reports.countP (fun report => report.number = sys.arrivals.length) = 0 := by
    refine List.countP_eq_zero.mpr fun report hreport heq => ?_
    obtain ⟨_, harrived⟩ := h.report report hreport
    have := harrived.lt
    simp only [decide_eq_true_eq] at heq
    omega
  have hcalls : sys.calls.countP (Call.rejects sys.arrivals.length) = 0 := by
    refine List.countP_eq_zero.mpr fun call hcall hrejects => ?_
    cases call with
    | starting => simp [Call.rejects] at hrejects
    | rejecting number m reason =>
      obtain ⟨_, harrived⟩ := h.rejecting _ _ _ hcall
      have := harrived.lt
      simp only [Call.rejects, decide_eq_true_eq] at hrejects
      omega
  have hparked : (sys.parked signer).count sys.arrivals.length = 0 := by
    refine List.count_eq_zero.mpr fun hmem => ?_
    obtain ⟨_, harrived⟩ := exists_arrived_of_mem (h.parked signer) hmem
    exact lt_irrefl _ harrived.lt
  have hthreads : (sys.threads.flatMap Thread.numbers).count sys.arrivals.length = 0 := by
    refine List.count_eq_zero.mpr fun hmem => ?_
    obtain ⟨thread, hthread, hnumber⟩ := List.mem_flatMap.mp hmem
    obtain ⟨_, hheld⟩ := h.thread thread hthread
    obtain ⟨_, harrived⟩ := exists_arrived_of_mem hheld hnumber
    exact lt_irrefl _ harrived.lt
  unfold System.places
  omega

theorem handleMessage (h : Placed sys) (signer : NodeID) (m : RSPMessage) : Placed (sys.handleMessage signer m) := by
  have hmono : ∀ other numbers messages, List.Forall₂ (Arrived sys.arrivals other) numbers messages →
      List.Forall₂ (Arrived (sys.arrivals ++ [(signer, m)]) other) numbers messages :=
    fun other numbers messages hall => hall.imp fun _ _ harrived => harrived.append _
  have hlast : Arrived (sys.arrivals ++ [(signer, m)]) signer sys.arrivals.length m := List.getElem?_concat_length
  unfold System.handleMessage
  cases hresult : sys.queue.handleMessage m signer with
  | error reason =>
    refine ⟨fun other => hmono _ _ _ (h.parked other), fun thread hthread => ?_, fun report hreport => ?_,
      fun number m' reason' hcall => ?_, fun number other m' harrived => ?_⟩
    · exact (h.thread thread hthread).imp fun _ => hmono _ _ _
    · exact (h.report report hreport).imp fun _ harrived => harrived.append _
    · rcases List.mem_append.mp hcall with hold | hnew
      · exact (h.rejecting _ _ _ hold).imp fun _ harrived => harrived.append _
      · obtain ⟨rfl, rfl, rfl⟩ := Call.rejecting.inj (List.mem_singleton.mp hnew)
        exact ⟨signer, hlast⟩
    · rcases arrived_append_singleton harrived with hold | ⟨rfl, heq⟩
      · have := h.places number other m' hold
        have hne : sys.arrivals.length ≠ number := hold.lt.ne'
        simpa [System.places, List.countP_append, Call.rejects, hne] using this
      · have := h.places_next other
        simp only [System.places, List.countP_append, List.countP_cons, List.countP_nil, Call.rejects, decide_true,
          if_true] at this ⊢
        omega
  | ok result =>
    obtain ⟨queue', start⟩ := result
    obtain ⟨-, -, rfl, rfl⟩ := handleMessage_ok hresult
    have hrejects : ∀ number, List.countP (Call.rejects number)
        (if (!(sys.queue.pendingBySigner.getD signer {}).resolverActive) = true then sys.calls ++ [.starting signer]
          else sys.calls) = sys.calls.countP (Call.rejects number) := by
      intro number
      split_ifs
      · simp [Call.rejects]
      · rfl
    refine ⟨fun other => ?_, fun thread hthread => ?_, fun report hreport => ?_,
      fun number m' reason' hcall => ?_, fun number other m' harrived => ?_⟩
    · simp only [parkedFor_insert]
      by_cases heq : signer = other
      · subst heq
        rw [if_pos rfl, Function.update_self]
        exact List.rel_append (hmono _ _ _ (h.parked signer)) (.cons hlast .nil)
      · rw [if_neg heq, Function.update_of_ne (Ne.symm heq)]
        exact hmono _ _ _ (h.parked other)
    · exact (h.thread thread hthread).imp fun _ => hmono _ _ _
    · exact (h.report report hreport).imp fun _ harrived => harrived.append _
    · have hold : Call.rejecting number m' reason' ∈ sys.calls := by
        simp only at hcall
        split_ifs at hcall
        · simpa using hcall
        · exact hcall
      exact (h.rejecting _ _ _ hold).imp fun _ harrived => harrived.append _
    · simp only [System.places, hrejects]
      rcases arrived_append_singleton harrived with hold | ⟨rfl, heq⟩
      · have hcount := h.places number other m' hold
        have hne : sys.arrivals.length ≠ number := hold.lt.ne'
        by_cases heq : other = signer
        · subst heq
          simpa [System.places, List.count_append, hne] using hcount
        · simpa [System.places, heq] using hcount
      · obtain ⟨rfl, rfl⟩ := Prod.mk.inj heq
        have hcount := h.places_next signer
        simp only [System.places, Function.update_self, List.count_append, List.count_singleton_self] at hcount ⊢
        omega

theorem finishCall (h : Placed sys) {index : Nat} {call : Call} (hcall : sys.calls[index]? = some call) :
    Placed (sys.finishCall index call) := by
  have hcalls : ∀ number, sys.calls.countP (Call.rejects number) =
      (sys.calls.eraseIdx index).countP (Call.rejects number) + if call.rejects number then 1 else 0 := by
    intro number
    rw [(perm_of_getElem? hcall).countP_eq, List.countP_cons]
  have hrest : ∀ number m reason, Call.rejecting number m reason ∈ sys.calls.eraseIdx index →
      ∃ signer, Arrived sys.arrivals signer number m :=
    fun number m reason hmem => h.rejecting number m reason (List.mem_of_mem_eraseIdx hmem)
  cases call with
  | rejecting number m reason =>
    refine { h with report := fun report hreport => ?_, rejecting := hrest, places := fun k signer m' harrived => ?_ }
    · rcases List.mem_append.mp hreport with hold | hnew
      · exact h.report report hold
      · obtain rfl := List.mem_singleton.mp hnew
        exact h.rejecting _ _ _ (List.mem_of_getElem? hcall)
    · have hcount := h.places k signer m' harrived
      simp only [System.places, System.finishCall, hcalls, List.countP_append, List.countP_cons, List.countP_nil,
        Call.rejects, decide_eq_true_eq] at hcount ⊢
      omega
  | starting signer =>
    refine { h with thread := fun thread hthread => ?_, rejecting := hrest, places := fun k signer m' harrived => ?_ }
    · rcases List.mem_append.mp hthread with hold | hnew
      · exact h.thread thread hold
      · obtain rfl := List.mem_singleton.mp hnew
        exact ⟨signer, .nil⟩
    · have hcount := h.places k signer m' harrived
      simpa [System.places, System.finishCall, hcalls, Call.rejects] using hcount

/-- A thread that holds no messages goes on without any, or ends. -/
theorem replaceThread (h : Placed sys) {index : Nat} {thread : Thread} (hthread : sys.threads[index]? = some thread)
    (hheld : thread.held = []) {new : Option Thread} (hnew : ∀ t ∈ new, t.held = [] ∧ t.numbers = thread.numbers) :
    Placed { sys with threads := replaceAt index new sys.threads } := by
  obtain ⟨signer, hall⟩ := h.thread thread (List.mem_of_getElem? hthread)
  have hnumbers := numbers_eq_nil hall hheld
  refine { h with thread := fun t ht => ?_, places := fun k other m harrived => ?_ }
  · rcases mem_replaceAt hthread new ht with hmem | hmem
    · obtain ⟨hheld', hnumbers'⟩ := hnew t hmem
      rw [hheld', hnumbers', hnumbers]
      exact ⟨signer, .nil⟩
    · exact h.thread t (List.mem_of_mem_eraseIdx hmem)
  · have hcount := count_flatMap_replaceAt hthread new Thread.numbers k
    have hzero : (new.toList.flatMap Thread.numbers).count k = 0 := by
      cases new with
      | none => rfl
      | some t => simp [(hnew t rfl).2, hnumbers]
    have hbefore := h.places k other m harrived
    simp only [System.places, hnumbers, List.count_nil] at hcount hbefore ⊢
    omega

theorem drain (h : Placed sys) {index : Nat} {thread : Thread} {signer : NodeID} {failure : Option String}
    (hthread : sys.threads[index]? = some thread) (hdraining : thread.resolver = .draining signer failure) :
    Placed (sys.drain index signer failure) := by
  obtain ⟨_, hall⟩ := h.thread thread (List.mem_of_getElem? hthread)
  have hnumbers : thread.numbers = [] := numbers_eq_nil hall (by simp [Thread.held, hdraining])
  refine { h with parked := fun other => ?_, thread := fun t ht => ?_, places := fun k other m harrived => ?_ }
  · simp only [System.drain, parkedFor_drain]
    by_cases heq : signer = other
    · rw [if_pos heq, heq, Function.update_self]
      exact .nil
    · rw [if_neg heq, Function.update_of_ne (Ne.symm heq)]
      exact h.parked other
  · rcases mem_replaceAt hthread (some _) ht with hmem | hmem
    · obtain rfl := Option.mem_some.mp hmem
      refine ⟨signer, ?_⟩
      simp only [Thread.held, drained_eq_parkedFor]
      exact h.parked signer
    · exact h.thread t (List.mem_of_mem_eraseIdx hmem)
  · have hcount := fun t => count_flatMap_replaceAt hthread (some t) Thread.numbers k
    have hbefore := h.places k other m harrived
    simp only [hnumbers, List.count_nil, Option.toList_some, List.flatMap_singleton, Nat.add_zero] at hcount
    simp only [System.places, System.drain, hcount] at hbefore ⊢
    by_cases heq : other = signer
    · subst heq
      rw [Function.update_self, List.count_nil]
      omega
    · -- a message of another signer is not among the drained ones
      have hnot : (sys.parked signer).count k = 0 := by
        refine List.count_eq_zero.mpr fun hmem => heq ?_
        obtain ⟨m', harrived'⟩ := exists_arrived_of_mem (h.parked signer) hmem
        exact (Prod.mk.inj (Option.some.inj (harrived.symm.trans harrived'))).1
      rw [Function.update_of_ne heq]
      omega

/-- A holding thread that still has messages has a number for the next one. -/
theorem numbers_eq_cons (h : Placed sys) {index : Nat} {thread : Thread} {m : RSPMessage} {rest : List RSPMessage}
    {failure : Option String} (hthread : sys.threads[index]? = some thread)
    (hholding : thread.resolver = .holding (m :: rest) failure) :
    ∃ signer number numbers, thread.numbers = number :: numbers ∧ Arrived sys.arrivals signer number m ∧
      List.Forall₂ (Arrived sys.arrivals signer) numbers rest := by
  obtain ⟨signer, hall⟩ := h.thread thread (List.mem_of_getElem? hthread)
  simp only [Thread.held, hholding] at hall
  obtain ⟨number, numbers, hhead, htail, heq⟩ := List.forall₂_cons_right_iff.mp hall
  exact ⟨signer, number, numbers, heq, hhead, htail⟩

theorem handOn (h : Placed sys) {index : Nat} {thread : Thread} {m : RSPMessage} {rest : List RSPMessage}
    {failure : Option String} (hthread : sys.threads[index]? = some thread)
    (hholding : thread.resolver = .holding (m :: rest) failure) (replayed : Bool) :
    Placed (sys.handOn index thread m rest failure replayed) := by
  obtain ⟨signer, number, numbers, hnumbers, hhead, htail⟩ := h.numbers_eq_cons hthread hholding
  refine { h with thread := fun t ht => ?_, report := fun report hreport => ?_, places := fun k other m' harrived => ?_ }
  · rcases mem_replaceAt hthread (some _) ht with hmem | hmem
    · obtain rfl := Option.mem_some.mp hmem
      rw [hnumbers]
      exact ⟨signer, htail⟩
    · exact h.thread t (List.mem_of_mem_eraseIdx hmem)
  · rcases List.mem_append.mp hreport with hold | hnew
    · exact h.report report hold
    · obtain rfl := List.mem_singleton.mp hnew
      rw [hnumbers]
      exact ⟨signer, hhead⟩
  · have hcount := fun t => count_flatMap_replaceAt hthread (some t) Thread.numbers k
    have hbefore := h.places k other m' harrived
    simp only [hnumbers, Option.toList_some, List.flatMap_singleton] at hcount
    simp only [System.places, System.handOn, List.countP_append, List.countP_cons, List.countP_nil, hnumbers,
      List.headD_cons, List.tail_cons] at hbefore ⊢
    have hcount := hcount { thread with resolver := .holding rest failure, numbers }
    simp only [List.count_cons, beq_iff_eq] at hcount
    simp only [decide_eq_true_eq]
    omega

theorem move (h : Placed sys) {sys' : System} (hmove : Moves sys sys') : Placed sys' := by
  cases hmove with
  | handleMessage signer m => exact h.handleMessage signer m
  | finishCall hcall => exact h.finishCall hcall
  | drain hthread hdraining => exact h.drain hthread hdraining
  | handOn hthread hholding replayed => exact h.handOn hthread hholding replayed
  | shutdown => exact { h with }
  | advance hthread hsigner hresolver hgone =>
    refine h.replaceThread hthread (held_of_undrained hsigner) fun t ht => ?_
    obtain ⟨r, hr, rfl⟩ := Option.mem_map.mp ht
    exact ⟨held_of_undrained (hresolver r hr), rfl⟩
  | exit hthread hholding =>
    refine h.replaceThread hthread ?_ fun t ht => nomatch ht
    simp [Thread.held, hholding]

end Placed

/-! ### Batches -/

/-- The reports about a batch, in the order they were made. -/
def System.reportsOf (sys : System) (batch : Nat) : List Nat :=
  (sys.reports.filter fun report => report.batch = some batch).map Report.number

def Thread.holds (batch : Nat) (thread : Thread) : Bool := thread.resolver.undrained = none ∧ thread.batch = batch

structure Batched (sys : System) : Prop where
  sorted : ∀ signer, (sys.parked signer).Pairwise (· < ·)
  /-- What a holding thread has left of its batch. -/
  thread : ∀ thread ∈ sys.threads, thread.resolver.undrained = none →
    ∃ signer, sys.batches[thread.batch]? = some (signer, sys.reportsOf thread.batch ++ thread.numbers)
  batch : ∀ batch signer numbers, sys.batches[batch]? = some (signer, numbers) →
    numbers.Pairwise (· < ·) ∧ (∀ number ∈ numbers, ∃ m, Arrived sys.arrivals signer number m) ∧
      (0 < sys.threads.countP (Thread.holds batch) ∨ sys.reportsOf batch = numbers)
  holders : ∀ batch, sys.threads.countP (Thread.holds batch) ≤ 1
  report : ∀ report ∈ sys.reports, ∀ batch ∈ report.batch, batch < sys.batches.length

theorem countP_holds_replaceAt {sys : System} {index : Nat} {thread : Thread}
    (h : sys.threads[index]? = some thread) (hdraining : thread.resolver.undrained ≠ none) (new : Option Thread)
    (batch : Nat) :
    (replaceAt index new sys.threads).countP (Thread.holds batch) =
      sys.threads.countP (Thread.holds batch) + new.toList.countP (Thread.holds batch) := by
  have hcount := countP_replaceAt h new (Thread.holds batch)
  have hnot : thread.holds batch = false := by simp [Thread.holds, hdraining]
  rw [hnot] at hcount
  simpa using hcount

namespace Batched

variable {sys : System}

theorem handleMessage (h : Batched sys) (hplaced : Placed sys) (signer : NodeID) (m : RSPMessage) :
    Batched (sys.handleMessage signer m) := by
  have hbatch : ∀ batch other numbers, sys.batches[batch]? = some (other, numbers) →
      numbers.Pairwise (· < ·) ∧
        (∀ number ∈ numbers, ∃ m', Arrived (sys.arrivals ++ [(signer, m)]) other number m') ∧
        (0 < sys.threads.countP (Thread.holds batch) ∨ sys.reportsOf batch = numbers) := by
    intro batch other numbers hget
    obtain ⟨hsorted, harrived, hdone⟩ := h.batch batch other numbers hget
    exact ⟨hsorted, fun number hmem => (harrived number hmem).imp fun _ ha => ha.append _, hdone⟩
  unfold System.handleMessage
  cases hresult : sys.queue.handleMessage m signer with
  | error reason => exact { h with batch := hbatch }
  | ok result =>
    refine { h with sorted := fun other => ?_, batch := hbatch }
    simp only
    by_cases heq : other = signer
    · subst heq
      rw [Function.update_self]
      refine List.pairwise_append.mpr ⟨h.sorted other, List.pairwise_singleton _ _, fun k hk k' hk' => ?_⟩
      obtain ⟨m', harrived⟩ := exists_arrived_of_mem (hplaced.parked other) hk
      rw [List.mem_singleton.mp hk']
      exact harrived.lt
    · rw [Function.update_of_ne heq]
      exact h.sorted other

theorem finishCall (h : Batched sys) (index : Nat) (call : Call) : Batched (sys.finishCall index call) := by
  cases call with
  | rejecting number m reason =>
    have hreports : ∀ batch, (sys.finishCall index (.rejecting number m reason)).reportsOf batch = sys.reportsOf batch := by
      intro batch
      simp [System.reportsOf, System.finishCall]
    refine ⟨h.sorted, fun thread hthread hholding => ?_, fun batch signer numbers hget => ?_, h.holders,
      fun report hreport batch hmem => ?_⟩
    · rw [hreports]
      exact h.thread thread hthread hholding
    · rw [hreports]
      exact h.batch batch signer numbers hget
    · rcases List.mem_append.mp hreport with hold | hnew
      · exact h.report report hold batch hmem
      · obtain rfl := List.mem_singleton.mp hnew
        cases hmem
  | starting signer =>
    have hholds : ∀ batch, (sys.finishCall index (.starting signer)).threads.countP (Thread.holds batch) =
        sys.threads.countP (Thread.holds batch) := by
      intro batch
      simp [System.finishCall, Thread.holds, Resolver.undrained]
    refine { h with thread := fun thread hthread hholding => ?_, batch := ?_, holders := ?_ }
    · rcases List.mem_append.mp hthread with hold | hnew
      · exact h.thread thread hold hholding
      · obtain rfl := List.mem_singleton.mp hnew
        cases hholding
    · simp only [hholds]
      exact h.batch
    · simp only [hholds]
      exact h.holders

theorem advance (h : Batched sys) {index : Nat} {thread : Thread} {signer : NodeID} {new : Option Thread}
    (hthread : sys.threads[index]? = some thread) (hsigner : thread.resolver.undrained = some signer)
    (hnew : ∀ t ∈ new, t.resolver.undrained = some signer) :
    Batched { sys with threads := replaceAt index new sys.threads } := by
  have hholds : ∀ batch, (replaceAt index new sys.threads).countP (Thread.holds batch) =
      sys.threads.countP (Thread.holds batch) := by
    intro batch
    rw [countP_holds_replaceAt hthread (by simp [hsigner])]
    cases new with
    | none => rfl
    | some t => simp [Thread.holds, hnew t rfl]
  refine { h with thread := fun t ht hholding => ?_, batch := ?_, holders := ?_ }
  · rcases mem_replaceAt hthread new ht with hmem | hmem
    · simp [hnew t hmem] at hholding
    · exact h.thread t (List.mem_of_mem_eraseIdx hmem) hholding
  · simp only [hholds]
    exact h.batch
  · simp only [hholds]
    exact h.holders

/-- No thread holds, and no report is about, the batch that is drained next. -/
theorem next_batch (h : Batched sys) :
    sys.threads.countP (Thread.holds sys.batches.length) = 0 ∧ sys.reportsOf sys.batches.length = [] := by
  constructor
  · refine List.countP_eq_zero.mpr fun thread hthread hholds => ?_
    simp only [Thread.holds, decide_eq_true_eq] at hholds
    obtain ⟨signer, hget⟩ := h.thread thread hthread hholds.1
    have := (List.getElem?_eq_some_iff.mp hget).1
    omega
  · simp only [System.reportsOf, List.map_eq_nil_iff, List.filter_eq_nil_iff, decide_eq_true_eq]
    intro report hreport heq
    have := h.report report hreport _ heq
    omega

theorem drain (h : Batched sys) (hplaced : Placed sys) {index : Nat} {thread : Thread} {signer : NodeID}
    {failure : Option String} (hthread : sys.threads[index]? = some thread)
    (hdraining : thread.resolver = .draining signer failure) : Batched (sys.drain index signer failure) := by
  obtain ⟨hnone, hreports⟩ := h.next_batch
  have hholds : ∀ batch, (sys.drain index signer failure).threads.countP (Thread.holds batch) =
      sys.threads.countP (Thread.holds batch) + if sys.batches.length = batch then 1 else 0 := by
    intro batch
    simp only [System.drain]
    rw [countP_holds_replaceAt hthread (by simp [hdraining, Resolver.undrained])]
    simp [Thread.holds, Resolver.undrained, List.countP_cons]
  have hlast : (sys.batches ++ [(signer, sys.parked signer)])[sys.batches.length]? = some (signer, sys.parked signer) :=
    List.getElem?_concat_length
  refine ⟨fun other => ?_, fun t ht hholding => ?_, fun batch other numbers hget => ?_, fun batch => ?_,
    fun report hreport batch hmem => ?_⟩
  · simp only [System.drain]
    by_cases heq : other = signer
    · rw [heq, Function.update_self]
      exact .nil
    · rw [Function.update_of_ne heq]
      exact h.sorted other
  · rcases mem_replaceAt hthread (some _) ht with hmem | hmem
    · obtain rfl := Option.mem_some.mp hmem
      refine ⟨signer, hlast.trans ?_⟩
      exact congrArg (fun done => some (signer, done ++ sys.parked signer)) hreports.symm
    · obtain ⟨other, hget⟩ := h.thread t (List.mem_of_mem_eraseIdx hmem) hholding
      refine ⟨other, ?_⟩
      simp only [System.drain]
      rw [List.getElem?_append_left (List.getElem?_eq_some_iff.mp hget).1]
      exact hget
  · rw [hholds]
    by_cases hlt : batch < sys.batches.length
    · simp only [System.drain] at hget
      rw [List.getElem?_append_left hlt] at hget
      obtain ⟨hsorted, harrived, hdone⟩ := h.batch batch other numbers hget
      exact ⟨hsorted, harrived, hdone.imp_left fun hpos => by omega⟩
    · have hbound := (List.getElem?_eq_some_iff.mp hget).1
      simp only [System.drain, List.length_append, List.length_singleton] at hbound
      obtain rfl : batch = sys.batches.length := by omega
      obtain ⟨rfl, rfl⟩ := Prod.mk.inj (Option.some.inj (hlast.symm.trans hget))
      refine ⟨h.sorted signer, fun number hmem => exists_arrived_of_mem (hplaced.parked signer) hmem, .inl ?_⟩
      rw [if_pos rfl]
      omega
  · rw [hholds]
    by_cases heq : sys.batches.length = batch
    · rw [← heq, hnone, if_pos rfl]
    · rw [if_neg heq]
      exact h.holders batch
  · have := h.report report hreport batch hmem
    simp only [System.drain, List.length_append, List.length_singleton]
    omega

/-- Of the threads that hold messages, only one holds those of a given batch. -/
theorem not_holds_of_mem_eraseIdx (h : Batched sys) {index : Nat} {thread t : Thread}
    (hthread : sys.threads[index]? = some thread) (hholding : thread.resolver.undrained = none)
    (hmem : t ∈ sys.threads.eraseIdx index) : t.holds thread.batch = false := by
  have hholders := h.holders thread.batch
  have hself : thread.holds thread.batch = true := by simp [Thread.holds, hholding]
  rw [(perm_of_getElem? hthread).countP_eq, List.countP_cons, if_pos hself] at hholders
  have hzero : (sys.threads.eraseIdx index).countP (Thread.holds thread.batch) = 0 := by omega
  exact Bool.eq_false_iff.mpr (List.countP_eq_zero.mp hzero t hmem)

theorem handOn (h : Batched sys) (hplaced : Placed sys) {index : Nat} {thread : Thread} {m : RSPMessage}
    {rest : List RSPMessage} {failure : Option String} (hthread : sys.threads[index]? = some thread)
    (hholding : thread.resolver = .holding (m :: rest) failure) (replayed : Bool) :
    Batched (sys.handOn index thread m rest failure replayed) := by
  obtain ⟨_, number, numbers, hnumbers, -, -⟩ := hplaced.numbers_eq_cons hthread hholding
  have hundrained : thread.resolver.undrained = none := by rw [hholding]; rfl
  obtain ⟨signer, hget⟩ := h.thread thread (List.mem_of_getElem? hthread) hundrained
  have hholds : ∀ batch, (sys.handOn index thread m rest failure replayed).threads.countP (Thread.holds batch) =
      sys.threads.countP (Thread.holds batch) := by
    intro batch
    have hcount := countP_replaceAt hthread
      (some { thread with resolver := .holding rest failure, numbers := thread.numbers.tail }) (Thread.holds batch)
    have hsame : Thread.holds batch
        { thread with resolver := .holding rest failure, numbers := thread.numbers.tail } = thread.holds batch := by
      have hstill : (Resolver.holding rest failure).undrained = none := rfl
      simp [Thread.holds, hundrained, hstill]
    rw [Option.toList_some, List.countP_singleton, hsame] at hcount
    simp only [System.handOn]
    omega
  have hreports : ∀ batch, (sys.handOn index thread m rest failure replayed).reportsOf batch =
      sys.reportsOf batch ++ if batch = thread.batch then [number] else [] := by
    intro batch
    simp only [System.reportsOf, System.handOn, List.filter_append, List.map_append, hnumbers, List.headD_cons]
    by_cases heq : batch = thread.batch
    · simp [heq]
    · simp [heq, Ne.symm heq]
  refine ⟨h.sorted, fun t ht ht' => ?_, fun batch other numbers' hget' => ?_, ?_, fun report hreport batch hmem => ?_⟩
  · rw [hreports]
    rcases mem_replaceAt hthread (some _) ht with hmem | hmem
    · obtain rfl := Option.mem_some.mp hmem
      refine ⟨signer, hget.trans ?_⟩
      simp [hnumbers]
    · have hother := h.not_holds_of_mem_eraseIdx hthread hundrained hmem
      have hne : t.batch ≠ thread.batch := by
        intro heq
        simp [Thread.holds, ht', heq] at hother
      rw [if_neg hne, List.append_nil]
      exact h.thread t (List.mem_of_mem_eraseIdx hmem) ht'
  · rw [hholds, hreports]
    obtain ⟨hsorted, harrived, hdone⟩ := h.batch batch other numbers' hget'
    refine ⟨hsorted, harrived, ?_⟩
    by_cases heq : batch = thread.batch
    · have hself : thread.holds batch = true := by simp [Thread.holds, hundrained, heq]
      exact .inl (List.countP_pos_iff.mpr ⟨thread, List.mem_of_getElem? hthread, hself⟩)
    · rw [if_neg heq, List.append_nil]
      exact hdone
  · simp only [hholds]
    exact h.holders
  · rcases List.mem_append.mp hreport with hold | hnew
    · exact h.report report hold batch hmem
    · obtain rfl := List.mem_singleton.mp hnew
      obtain rfl := Option.some.inj hmem
      exact (List.getElem?_eq_some_iff.mp hget).1

/-- A thread ends when everything it held has been reported. -/
theorem exit (h : Batched sys) (hplaced : Placed sys) {index : Nat} {thread : Thread} {failure : Option String}
    (hthread : sys.threads[index]? = some thread) (hholding : thread.resolver = .holding [] failure) :
    Batched { sys with threads := replaceAt index none sys.threads } := by
  have hundrained : thread.resolver.undrained = none := by rw [hholding]; rfl
  obtain ⟨_, hall⟩ := hplaced.thread thread (List.mem_of_getElem? hthread)
  have hnumbers : thread.numbers = [] := numbers_eq_nil hall (by simp [Thread.held, hholding])
  obtain ⟨signer, hget⟩ := h.thread thread (List.mem_of_getElem? hthread) hundrained
  rw [hnumbers, List.append_nil] at hget
  have hholds : ∀ batch, (replaceAt index none sys.threads).countP (Thread.holds batch) +
      (if thread.batch = batch then 1 else 0) = sys.threads.countP (Thread.holds batch) := by
    intro batch
    have hcount := countP_replaceAt hthread none (Thread.holds batch)
    simpa [Thread.holds, hundrained] using hcount
  refine { h with thread := fun t ht ht' => ?_, batch := fun batch other numbers hget' => ?_, holders := fun batch => ?_ }
  · rcases mem_replaceAt hthread none ht with hmem | hmem
    · cases hmem
    · exact h.thread t (List.mem_of_mem_eraseIdx hmem) ht'
  · obtain ⟨hsorted, harrived, hdone⟩ := h.batch batch other numbers hget'
    refine ⟨hsorted, harrived, ?_⟩
    have hcount := hholds batch
    by_cases heq : thread.batch = batch
    · subst heq
      exact .inr (Prod.mk.inj (Option.some.inj (hget.symm.trans hget'))).2
    · rw [if_neg heq, Nat.add_zero] at hcount
      simp only [hcount]
      exact hdone
  · have hcount := hholds batch
    have := h.holders batch
    simp only
    omega

theorem move (h : Batched sys) (hplaced : Placed sys) {sys' : System} (hmove : Moves sys sys') : Batched sys' := by
  cases hmove with
  | handleMessage signer m => exact h.handleMessage hplaced signer m
  | finishCall hcall => exact h.finishCall _ _
  | drain hthread hdraining => exact h.drain hplaced hthread hdraining
  | handOn hthread hholding replayed => exact h.handOn hplaced hthread hholding replayed
  | exit hthread hholding => exact h.exit hplaced hthread hholding
  | shutdown => exact { h with }
  | advance hthread hsigner hresolver hgone =>
    refine h.advance hthread hsigner fun t ht => ?_
    obtain ⟨r, hr, rfl⟩ := Option.mem_map.mp ht
    exact hresolver r hr

end Batched

/-! ### Whole runs -/

theorem invariants_of_reaches {maxPendingMessages maxPendingPerSigner : Nat} {sys : System}
    (h : (machine maxPendingMessages maxPendingPerSigner).Reaches sys) :
    QueueInvariant maxPendingMessages maxPendingPerSigner sys ∧ Placed sys ∧ Batched sys := by
  refine h.invariant
    (I := fun sys => QueueInvariant maxPendingMessages maxPendingPerSigner sys ∧ Placed sys ∧ Batched sys)
    (fun sys hinit => ?_) fun sys step sys' hinv hstep => ?_
  · obtain rfl : sys = _ := hinit
    refine ⟨⟨rfl, rfl, rfl, fun _ => Nat.zero_le _, fun hget => ?_, fun signer => ?_⟩,
      ⟨fun signer => ?_, ?_, ?_, ?_, ?_⟩, ⟨fun signer => .nil, ?_, ?_, fun _ => Nat.zero_le _, ?_⟩⟩
    · simp at hget
    · simp [System.resolversOf]
    · simp [parkedFor]
    all_goals simp [Arrived]
  · obtain ⟨hqueue, hplaced, hbatched⟩ := hinv
    have hmove := moves_of_next hstep
    exact ⟨hqueue.move hmove, hplaced.move hmove, hbatched.move hplaced hmove⟩

/-- The entry of a signer for whom messages are parked. -/
theorem getElem?_of_parkedFor_ne_nil {queue : RequestIdentityQueue} {signer : NodeID} (h : parkedFor queue signer ≠ []) :
    ∃ pending, queue.pendingBySigner[signer]? = some pending ∧ parkedFor queue signer = pending.messages := by
  unfold parkedFor at h ⊢
  rw [Std.TreeMap.getD_eq_getD_getElem?] at h ⊢
  cases hentry : queue.pendingBySigner[signer]? with
  | none => simp [hentry] at h
  | some pending => exact ⟨pending, rfl, rfl⟩

end ParkedMessages

open ParkedMessages in
/-- In every interleaving the counter and the limits hold, and a signer has one resolver that has not yet drained exactly when messages are parked for it. When no resolver is left, each message of a finished call has one report, about that message, and the reports about the messages drained together follow their arrival. -/
theorem parked_messages_conserved {maxPendingMessages maxPendingPerSigner : Nat} {sys : System}
    (h : (machine maxPendingMessages maxPendingPerSigner).Reaches sys) :
    (sys.queue.totalPendingMessages = total (fun pending => pending.messages.length) sys.queue.pendingBySigner ∧
      (maxPendingMessages ≠ 0 → sys.queue.totalPendingMessages ≤ maxPendingMessages) ∧
      (∀ signer : NodeID, maxPendingPerSigner ≠ 0 → (parkedFor sys.queue signer).length ≤ maxPendingPerSigner) ∧
      (∀ signer : NodeID, sys.resolversOf signer ≤ 1) ∧
      ∀ signer : NodeID, parkedFor sys.queue signer ≠ [] → sys.resolversOf signer = 1) ∧
    ((∀ signer : NodeID, sys.resolversOf signer = 0) → sys.threads = [] →
      (∀ number < sys.arrivals.length,
        sys.reports.countP (fun report => report.number = number) + sys.calls.countP (Call.rejects number) = 1) ∧
      (∀ report ∈ sys.reports, (sys.arrivals[report.number]?).map Prod.snd = some report.message) ∧
      ∀ (batch : Nat) (signer : NodeID) (numbers : List Nat), sys.batches[batch]? = some (signer, numbers) →
        numbers.Pairwise (· < ·) ∧ (∀ number ∈ numbers, (sys.arrivals[number]?).map Prod.fst = some signer) ∧
          sys.reportsOf batch = numbers) := by
  obtain ⟨hqueue, hplaced, hbatched⟩ := invariants_of_reaches h
  have hone : ∀ signer : NodeID, parkedFor sys.queue signer ≠ [] → sys.resolversOf signer = 1 := by
    intro signer hparked
    obtain ⟨pending, hentry, -⟩ := getElem?_of_parkedFor_ne_nil hparked
    rw [hqueue.resolvers, hentry]
    rfl
  refine ⟨⟨hqueue.total_eq, hqueue.total_le, fun signer hne => ?_, fun signer => ?_, hone⟩,
    fun hresolvers hthreads => ⟨fun number hlt => ?_, fun report hreport => ?_, fun batch signer numbers hget => ?_⟩⟩
  · by_cases hparked : parkedFor sys.queue signer = []
    · rw [hparked]
      exact Nat.zero_le _
    · obtain ⟨pending, hentry, heq⟩ := getElem?_of_parkedFor_ne_nil hparked
      rw [heq]
      exact (hqueue.entry hentry).2.2 hne
  · rw [hqueue.resolvers]
    split_ifs <;> omega
  · -- nothing is parked or held any more
    rcases hget : sys.arrivals[number] with ⟨signer, m⟩
    have hcount := hplaced.places number signer m (by rw [Arrived, List.getElem?_eq_getElem hlt, hget])
    have hempty : parkedFor sys.queue signer = [] := by
      by_contra hparked
      have := hone signer hparked
      rw [hresolvers signer] at this
      omega
    have hparked := hplaced.parked signer
    rw [hempty, List.forall₂_nil_right_iff] at hparked
    simpa [System.places, hparked, hthreads] using hcount
  · obtain ⟨signer, harrived⟩ := hplaced.report report hreport
    rw [harrived]
    rfl
  · obtain ⟨hsorted, harrived, hdone⟩ := hbatched.batch batch signer numbers hget
    refine ⟨hsorted, fun number hmem => ?_, ?_⟩
    · obtain ⟨m, hm⟩ := harrived number hmem
      rw [hm]
      rfl
    · simpa [hthreads] using hdone

namespace ParkedMessages

/-- Three messages of one signer with room for two, which are replayed when the identity arrives; the second is refused. -/
def sampleRun : Option System :=
  (machine 0 2).run { queue := { maxPendingMessages := 0, maxPendingPerSigner := 2 } }
    [.handleMessage ⟨1, 1⟩ {}, .handleMessage ⟨1, 1⟩ {}, .handleMessage ⟨1, 1⟩ {}, .finishCall 1, .finishCall 0,
      .resolve 0 false true false, .resolve 0 true true false, .drain 0, .handOn 0 true, .handOn 0 false, .handOn 0 true]

end ParkedMessages

open ParkedMessages in
theorem parked_messages_conserved_sample : ∃ sys, (machine 0 2).Reaches sys ∧ sys.arrivals.length = 3 ∧
    (∀ number < sys.arrivals.length,
      sys.reports.countP (fun report => report.number = number) + sys.calls.countP (Call.rejects number) = 1) ∧
    sys.reports.map (fun report => (report.number, report.batch, report.failure.isNone)) =
      [(2, none, false), (0, some 0, true), (1, some 0, false)] := by
  have hrun : (sampleRun.any fun sys => sys.calls.isEmpty && sys.threads.isEmpty && sys.arrivals.length == 3 &&
      sys.reports.map (fun report => (report.number, report.batch, report.failure.isNone)) ==
        [(2, none, false), (0, some 0, true), (1, some 0, false)]) = true := by
    decide +kernel
  obtain ⟨sys, hreaches, hsys⟩ := Machine.exists_reaches_of_run rfl hrun
  simp only [Bool.and_eq_true, List.isEmpty_iff, beq_iff_eq] at hsys
  obtain ⟨⟨⟨hcalls, hthreads⟩, hlength⟩, hreports⟩ := hsys
  have hresolvers : ∀ signer : NodeID, sys.resolversOf signer = 0 := by
    intro signer
    simp [System.resolversOf, hcalls, hthreads]
  exact ⟨sys, hreaches, hlength, ((parked_messages_conserved hreaches).2 hresolvers hthreads).1, hreports⟩

end Rsp
