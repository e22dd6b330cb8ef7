import Rsp.Client.Reconnect

/-!
# Removing a connection while it reconnects

`removeConnection` joins the thread of `doReconnect` and holds `threadMutex` meanwhile. The full client's thread locks the same mutex for the delay after a failed handshake, so the two can wait for each other.
-/

namespace Rsp

/-- The phases of the delay after a failed attempt. In the first and the last the thread waits for `threadMutex`. -/
def ReconnectPhase.retrying : ReconnectPhase → Bool
  | .delaying | .waiting | .woken => true
  | _ => false

namespace ReconnectState

/-- The remover joins the thread with `threadMutex` held, and the thread waits for that mutex. -/
def Deadlocked (sys : ReconnectState) : Prop :=
  sys.remover = .joining ∧ (sys.threads.getLast? = some .delaying ∨ sys.threads.getLast? = some .woken)

/-- The remover does not lock `threadMutex` during a retry delay, and no attempt fails while it joins. -/
def RemovesBetweenRetries (sys : ReconnectState) : Step → Prop
  | .remove => sys.remover = .transportStopped → sys.threads.getLast?.all (fun phase => !phase.retrying) = true
  | .doReconnect index accepted succeeded =>
    sys.threads[index]? = some .attempting → accepted = true → succeeded = false → sys.remover ≠ .joining
  | _ => True

instance (sys : ReconnectState) (step : Step) : Decidable (sys.RemovesBetweenRetries step) :=
  match step with
  | .remove => inferInstanceAs (Decidable (_ → _ = true))
  | .doReconnect _ _ _ => inferInstanceAs (Decidable (_ = _ → _ = true → _ = false → _ ≠ _))
  | .setup _ | .readLoop _ => inferInstanceAs (Decidable True)

variable {kind : ClientKind} {sys sys' : ReconnectState}

theorem nextSetup_frame {succeeded : Bool} (h : sys.nextSetup succeeded = some sys') :
    sys'.threads = sys.threads ∧ sys'.remover = sys.remover := by
  unfold nextSetup at h
  cases hsetup : sys.setup with
  | established =>
    simp only [hsetup] at h
    obtain ⟨encoding, -, rfl⟩ := Option.map_eq_some_iff.mp h
    cases succeeded <;> exact ⟨rfl, rfl⟩
  | started =>
    simp only [hsetup] at h
    obtain rfl := Option.some.inj h
    exact ⟨rfl, rfl⟩
  | registered =>
    simp only [hsetup] at h
    split_ifs at h <;> obtain rfl := Option.some.inj h <;> exact ⟨rfl, rfl⟩
  | enabled index =>
    simp only [hsetup] at h
    obtain ⟨encoding, -, rfl⟩ := Option.map_eq_some_iff.mp h
    exact ⟨rfl, rfl⟩
  | done | failed => simp [hsetup] at h

/-- A read loop can only add a thread, and only while `threadMutex` is free. -/
theorem nextReadLoop_frame {index : Nat} {encoding : EncodingThread}
    (h : sys.nextReadLoop index encoding = some sys') :
    sys'.remover = sys.remover ∧
      (sys'.threads = sys.threads ∨ (sys.remover ≠ .joining ∧ sys'.threads = sys.threads ++ [.lookup])) := by
  unfold nextReadLoop at h
  cases hloop : encoding.loop with
  | idle | ended => simp [hloop] at h
  | reading | comparing =>
    simp only [hloop] at h
    split_ifs at h <;> obtain rfl := Option.some.inj h <;> exact ⟨rfl, .inl rfl⟩
  | lost | triggering =>
    simp only [hloop] at h
    obtain rfl := Option.some.inj h
    exact ⟨rfl, .inl rfl⟩
  | claimed =>
    simp only [hloop] at h
    split_ifs at h with hfree
    obtain rfl := Option.some.inj h
    exact ⟨rfl, .inr ⟨by simpa [mutexFree] using hfree, rfl⟩⟩

/-- A thread of `doReconnect` gets to the delay only by a failed attempt. -/
theorem nextThread_frame {index : Nat} {accepted succeeded : Bool} {phase : ReconnectPhase}
    (h : sys.nextThread kind index accepted succeeded phase = some sys') :
    sys'.remover = sys.remover ∧ ∃ after, sys'.threads = sys.threads.set index after ∧
      (after.retrying = true → phase.retrying = true ∨
        (phase = .attempting ∧ accepted = true ∧ succeeded = false)) := by
  cases phase with
  | lookup | loopTop | connecting | established =>
    obtain rfl := Option.some.inj h
    refine ⟨rfl, _, rfl, fun hretrying => ?_⟩
    split_ifs at hretrying <;> cases hretrying
  | found =>
    obtain rfl := Option.some.inj h
    refine ⟨rfl, _, rfl, fun hretrying => ?_⟩
    split_ifs at hretrying <;> cases hretrying
  | attempting =>
    simp only [nextThread] at h
    split_ifs at h with haccepted hsucceeded
    · obtain rfl := Option.some.inj h
      exact ⟨rfl, _, rfl, fun hretrying => by cases hretrying⟩
    · obtain rfl := Option.some.inj h
      exact ⟨rfl, _, rfl, fun hretrying => by cases hretrying⟩
    all_goals
      obtain rfl := Option.some.inj h
      exact ⟨rfl, _, rfl, fun _ => .inr ⟨rfl, by simpa using haccepted, by simpa using hsucceeded⟩⟩
  | delaying | woken =>
    simp only [nextThread] at h
    split_ifs at h
    all_goals
      obtain rfl := Option.some.inj h
      exact ⟨rfl, _, rfl, fun _ => .inl rfl⟩
  | waiting =>
    obtain rfl := Option.some.inj h
    exact ⟨rfl, _, rfl, fun _ => .inl rfl⟩
  | checked new | started new =>
    obtain ⟨encoding, -, rfl⟩ := Option.map_eq_some_iff.mp h
    split_ifs
    · exact ⟨rfl, _, rfl, fun hretrying => by cases hretrying⟩
    · exact ⟨rfl, _, rfl, fun hretrying => by cases hretrying⟩
  | swapped new old | joinedOld new =>
    obtain ⟨encoding, -, rfl⟩ := Option.map_eq_some_iff.mp h
    exact ⟨rfl, _, rfl, fun hretrying => by cases hretrying⟩
  | discarding new | stoppedOld new old =>
    obtain ⟨encoding, -, h⟩ := Option.bind_eq_some_iff.mp h
    split_ifs at h
    obtain rfl := Option.some.inj h
    exact ⟨rfl, _, rfl, fun hretrying => by cases hretrying⟩
  | returning =>
    obtain rfl := Option.some.inj h
    exact ⟨rfl, _, rfl, fun hretrying => by cases hretrying⟩
  | finished => cases h

/-- While the remover joins, the thread it joins is not in its retry delay. -/
def JoinsRunning (sys : ReconnectState) : Prop :=
  sys.remover = .joining → ∀ phase ∈ sys.threads.getLast?, phase.retrying = false

theorem joinsRunning_next {step : Step} (h : sys.JoinsRunning) (hallowed : sys.RemovesBetweenRetries step)
    (hstep : sys.next kind step = some sys') : sys'.JoinsRunning := by
  cases step with
  | setup succeeded =>
    obtain ⟨hthreads, hremover⟩ := nextSetup_frame hstep
    unfold JoinsRunning
    rw [hthreads, hremover]
    exact h
  | readLoop index =>
    obtain ⟨encoding, -, hstep⟩ := Option.bind_eq_some_iff.mp hstep
    obtain ⟨hremover, hthreads | ⟨hfree, hthreads⟩⟩ := nextReadLoop_frame hstep
    · unfold JoinsRunning
      rw [hthreads, hremover]
      exact h
    · intro hjoining
      rw [hremover] at hjoining
      exact absurd hjoining hfree
  | doReconnect index accepted succeeded =>
    obtain ⟨phase, hphase, hstep⟩ := Option.bind_eq_some_iff.mp hstep
    obtain ⟨hremover, after, hthreads, hretry⟩ := nextThread_frame hstep
    intro hjoining last hlast
    rw [hremover] at hjoining
    rw [hthreads, Option.mem_def, List.getLast?_eq_getElem?, List.length_set] at hlast
    by_cases heq : index = sys.threads.length - 1
    · -- the thread that is joined has made the step
      have hlt : index < sys.threads.length := (List.getElem?_eq_some_iff.mp hphase).1
      rw [← heq, List.getElem?_set_self hlt] at hlast
      obtain rfl := Option.some.inj hlast
      have hbefore : phase.retrying = false := h hjoining phase (by
        rw [Option.mem_def, List.getLast?_eq_getElem?, ← heq]
        exact hphase)
      cases hafter : after.retrying with
      | false => rfl
      | true =>
        obtain hphase' | ⟨rfl, haccepted, hfailed⟩ := hretry hafter
        · rw [hbefore] at hphase'
          cases hphase'
        · exact absurd hjoining (hallowed hphase haccepted hfailed)
    · rw [List.getElem?_set_ne heq, ← List.getLast?_eq_getElem?] at hlast
      exact h hjoining last hlast
  | remove =>
    simp only [next, nextRemover] at hstep
    cases hremover : sys.remover with
    | idle =>
      simp only [hremover] at hstep
      split_ifs at hstep
      obtain rfl := Option.some.inj hstep
      intro hjoining
      cases hjoining
    | erased | stopping =>
      simp only [hremover] at hstep
      obtain rfl := Option.some.inj hstep
      intro hjoining
      cases hjoining
    | transportStopped =>
      simp only [hremover] at hstep
      obtain rfl := Option.some.inj hstep
      intro _ phase hphase
      have hlast := hallowed hremover
      rw [Option.mem_def.mp hphase] at hlast
      simpa using hlast
    | joining =>
      simp only [hremover] at hstep
      split_ifs at hstep
      obtain rfl := Option.some.inj hstep
      intro hjoining
      cases hjoining
    | joined => simp [hremover] at hstep

end ReconnectState

open ReconnectState in
/-- Removal does not deadlock with the reconnect thread as long as it does not meet the retry delay. -/
theorem removal_never_deadlocks {kind : ClientKind} {sys : ReconnectState}
    (h : ((reconnectMachine kind).restrict RemovesBetweenRetries).Reaches sys) : ¬ sys.Deadlocked := by
  have hjoins : sys.JoinsRunning := by
    refine h.invariant (I := JoinsRunning) (fun sys hinit => ?_) fun sys step sys' hjoins hstep => ?_
    · obtain rfl : sys = {} := hinit
      intro hjoining
      cases hjoining
    · obtain ⟨hallowed, hstep⟩ := Machine.restrict_next hstep
      exact joinsRunning_next hjoins hallowed hstep
  rintro ⟨hjoining, hlast | hlast⟩
  · cases hjoins hjoining _ hlast
  · cases hjoins hjoining _ hlast

namespace ReconnectState

/-- The connection is set up and lost, and a thread tries to reconnect. -/
def lostSteps : List Step :=
  [.setup true, .setup true, .setup true, .setup true, .readLoop 0, .readLoop 0, .readLoop 0, .readLoop 0, .readLoop 0,
    .doReconnect 0 true true, .doReconnect 0 true true, .doReconnect 0 true true]

end ReconnectState

open ReconnectState in
/-- The connection is removed while the thread is inside `reconnect`. -/
theorem removal_never_deadlocks_connecting : ∃ sys,
    ((reconnectMachine .full).restrict RemovesBetweenRetries).Reaches sys ∧ sys.remover = .joining ∧
      sys.threads = [.connecting] ∧ ¬ sys.Deadlocked := by
  let steps : List Step := lostSteps ++ [.remove, .remove, .remove, .remove]
  have hrun : (((reconnectMachine .full).restrict RemovesBetweenRetries).run {} steps |>.any fun sys =>
      decide (sys.remover = .joining ∧ sys.threads = [.connecting])) = true := by
    decide +kernel
  obtain ⟨sys, hreaches, hsys⟩ := Machine.exists_reaches_of_run rfl hrun
  rw [decide_eq_true_eq] at hsys
  exact ⟨sys, hreaches, hsys.1, hsys.2, removal_never_deadlocks hreaches⟩

open ReconnectState in
/-- The connection is removed during the delay after a failed handshake. -/
theorem removal_deadlocks : ∃ sys, (reconnectMachine .full).Reaches sys ∧ sys.Deadlocked := by
  let steps : List Step := lostSteps ++ [.doReconnect 0 true true, .doReconnect 0 true false, .doReconnect 0 true true,
    .remove, .remove, .remove, .remove, .doReconnect 0 true true]
  have hrun : ((reconnectMachine .full).run {} steps |>.any fun sys =>
      decide (sys.remover = .joining ∧ sys.threads.getLast? = some .woken)) = true := by
    decide +kernel
  obtain ⟨sys, hreaches, hsys⟩ := Machine.exists_reaches_of_run rfl hrun
  rw [decide_eq_true_eq] at hsys
  exact ⟨sys, hreaches, hsys.1, .inr hsys.2⟩

end Rsp
