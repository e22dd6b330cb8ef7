import Rsp.Lib.Machine

/-!
# The message queue

Every stage of a node is a `MessageQueue`: a bounded queue behind one mutex, with worker threads that take messages from its front. A step is one critical section of a call, or what a worker does between two waits; any number of threads call the queue at the same time. A thread that waits may go on as soon as its condition holds, so wake-ups are not part of the model.
-/

namespace Rsp

namespace MessageQueue

inductive WorkerPhase (α : Type) where
  | waiting
  /-- Inside `handleMessage`. -/
  | handling (message : α)
  | ended

def WorkerPhase.isEnded {α : Type} : WorkerPhase α → Bool
  | .ended => true
  | _ => false

/-- A call of `start`, `stop` or `setWorkerCount` between its critical sections, with the threads that it has taken over and joins. -/
inductive LifecycleCall (α : Type) where
  | starting
  | stopping (workers : List (WorkerPhase α))
  | rebuilding (workerCount : Nat) (wasPaused : Bool)
  | joining (workerCount : Nat) (wasPaused : Bool) (workers : List (WorkerPhase α))

def LifecycleCall.workers {α : Type} : LifecycleCall α → List (WorkerPhase α)
  | .stopping workers | .joining _ _ workers => workers
  | _ => []

def LifecycleCall.setWorker {α : Type} (worker : Nat) (phase : WorkerPhase α) : LifecycleCall α → LifecycleCall α
  | .stopping workers => .stopping (workers.set worker phase)
  | .joining workerCount wasPaused workers => .joining workerCount wasPaused (workers.set worker phase)
  | call => call

inductive Step (α : Type) where
  | push (message : α)
  /-- `tryPop`, or `blockingPop` when its wait is over. -/
  | pop
  | clear
  | setQueueLimit (limit : Nat)
  | pause
  | resume
  | start
  | stop
  | setWorkerCount (workerCount : Nat)
  | proceed (call : Nat)
  /-- A thread of the queue, or of a call that joins it. -/
  | work (call : Option Nat) (worker : Nat)

end MessageQueue

open MessageQueue

structure MessageQueue (α : Type) where
  messages : List α := []
  queueLimit : Nat := 0
  workerCount : Nat := 0
  running : Bool := false
  paused : Bool := false
  stopRequested : Bool := false
  workers : List (WorkerPhase α) := []
  calls : List (LifecycleCall α) := []
  /-- The messages that `push` has taken, and those that a worker, a `pop` or `clear` has taken out since. -/
  accepted : List α := []
  removed : List α := []
  /-- The calls of `handleQueueFull`: the message, the size and the limit. -/
  rejected : List (α × Nat × Nat) := []

namespace MessageQueue

variable {α : Type} (sys : MessageQueue α)

def push (message : α) : Bool × MessageQueue α :=
  if sys.queueLimit ≠ 0 ∧ sys.queueLimit ≤ sys.messages.length then
    (false, { sys with rejected := sys.rejected ++ [(message, sys.messages.length, sys.queueLimit)] })
  else (true, { sys with messages := sys.messages ++ [message], accepted := sys.accepted ++ [message] })

def takeFront : Option (α × MessageQueue α) :=
  match sys.messages with
  | [] => none
  | message :: messages => some (message, { sys with messages, removed := sys.removed ++ [message] })

def clear : MessageQueue α :=
  { sys with messages := [], removed := sys.removed ++ sys.messages }

def startWorkersLocked : MessageQueue α :=
  if sys.workers ≠ [] then sys else { sys with workers := List.replicate sys.workerCount .waiting }

def start : MessageQueue α :=
  if sys.running then { sys with paused := false }
  else { sys with running := true, stopRequested := false, paused := false, calls := sys.calls ++ [.starting] }

def stop : MessageQueue α :=
  if !sys.running && sys.workers.isEmpty then { sys with paused := false, stopRequested := false }
  else
    { sys with
      running := false
      paused := false
      stopRequested := true
      workers := []
      calls := sys.calls ++ [.stopping sys.workers] }

def setWorkerCount (workerCount : Nat) : MessageQueue α :=
  if sys.workerCount = workerCount then sys
  else
    { sys with
      workerCount
      calls := if sys.running then sys.calls ++ [.rebuilding workerCount sys.paused] else sys.calls }

/-- The next critical section of a call. -/
def enter (index : Nat) : LifecycleCall α → MessageQueue α
  | .starting => { sys with calls := sys.calls.eraseIdx index }.startWorkersLocked
  | .stopping _ => { sys with stopRequested := false, calls := sys.calls.eraseIdx index }
  | .rebuilding workerCount wasPaused =>
    { sys with
      stopRequested := true
      workers := []
      calls := sys.calls.set index (.joining workerCount wasPaused sys.workers) }
  | .joining workerCount wasPaused _ =>
    { sys with
      stopRequested := false
      running := true
      paused := wasPaused
      workerCount
      calls := sys.calls.eraseIdx index }.startWorkersLocked

/-- A call goes on when the threads that it joins have ended. -/
def proceed (index : Nat) : Option (MessageQueue α) :=
  (sys.calls[index]?).bind fun call =>
    if call.workers.all WorkerPhase.isEnded then some (sys.enter index call) else none

def setWorker (call : Option Nat) (worker : Nat) (phase : WorkerPhase α) : MessageQueue α :=
  match call with
  | none => { sys with workers := sys.workers.set worker phase }
  | some index => { sys with calls := sys.calls.modify index (LifecycleCall.setWorker worker phase) }

/-- One round of `workerLoop` up to the call of `handleMessage`, or the return of that call. -/
def work (call : Option Nat) (worker : Nat) : Option (MessageQueue α) :=
  ((call.elim sys.workers fun index => (sys.calls[index]?).elim [] LifecycleCall.workers)[worker]?).bind fun
    | .waiting =>
      if sys.stopRequested then some (sys.setWorker call worker .ended)
      else if sys.running && !sys.paused then
        sys.takeFront.map fun (message, taken) => taken.setWorker call worker (.handling message)
      else none
    | .handling _ => some (sys.setWorker call worker .waiting)
    | .ended => none

def next : Step α → Option (MessageQueue α)
  | .push message => some (sys.push message).2
  | .pop => sys.takeFront.map Prod.snd
  | .clear => some sys.clear
  | .setQueueLimit limit => some { sys with queueLimit := limit }
  | .pause => some { sys with paused := true }
  | .resume => some { sys with paused := false }
  | .start => some sys.start
  | .stop => some sys.stop
  | .setWorkerCount workerCount => some (sys.setWorkerCount workerCount)
  | .proceed call => sys.proceed call
  | .work call worker => sys.work call worker

def machine (α : Type) : Machine (MessageQueue α) (Step α) where
  init sys := sys = {}
  next := next

/-! ### Messages -/

variable {sys} {sys' : MessageQueue α}

/-- What has left the queue and what is in it are together what was accepted, in that order. -/
def Conserves (sys : MessageQueue α) : Prop := sys.removed ++ sys.messages = sys.accepted

theorem Conserves.takeFront {taken : α × MessageQueue α} (h : sys.Conserves) (htaken : sys.takeFront = some taken) :
    taken.2.Conserves := by
  unfold MessageQueue.takeFront at htaken
  split at htaken
  · cases htaken
  · next message messages hmessages =>
    obtain rfl := Option.some.inj htaken
    unfold Conserves at h ⊢
    rw [← h, hmessages, List.append_assoc]
    rfl

theorem Conserves.startWorkersLocked (h : sys.Conserves) : sys.startWorkersLocked.Conserves := by
  unfold MessageQueue.startWorkersLocked
  split <;> exact h

theorem Conserves.setWorker {call : Option Nat} {worker : Nat} {phase : WorkerPhase α} (h : sys.Conserves) :
    (sys.setWorker call worker phase).Conserves := by
  cases call <;> exact h

theorem Conserves.next {step : Step α} (h : sys.Conserves) (hstep : sys.next step = some sys') : sys'.Conserves := by
  cases step with
  | push message =>
    obtain rfl := Option.some.inj hstep
    unfold MessageQueue.push
    split
    · exact h
    · show sys.removed ++ (sys.messages ++ [message]) = sys.accepted ++ [message]
      rw [← List.append_assoc, h]
  | pop =>
    obtain ⟨taken, htaken, rfl⟩ := Option.map_eq_some_iff.mp hstep
    exact h.takeFront htaken
  | clear =>
    obtain rfl := Option.some.inj hstep
    exact (List.append_nil _).trans h
  | setQueueLimit | pause | resume =>
    obtain rfl := Option.some.inj hstep
    exact h
  | start | stop | setWorkerCount =>
    obtain rfl := Option.some.inj hstep
    dsimp only [MessageQueue.start, MessageQueue.stop, MessageQueue.setWorkerCount]
    split <;> exact h
  | proceed index =>
    obtain ⟨call, -, hcall⟩ := Option.bind_eq_some_iff.mp hstep
    split_ifs at hcall
    obtain rfl := Option.some.inj hcall
    cases call with
    | starting | joining => exact Conserves.startWorkersLocked h
    | stopping | rebuilding => exact h
  | work call worker =>
    obtain ⟨phase, -, hphase⟩ := Option.bind_eq_some_iff.mp hstep
    split at hphase
    · split_ifs at hphase
      · obtain rfl := Option.some.inj hphase
        exact h.setWorker
      · obtain ⟨taken, htaken, rfl⟩ := Option.map_eq_some_iff.mp hphase
        exact (h.takeFront htaken).setWorker
    · obtain rfl := Option.some.inj hphase
      exact h.setWorker
    · cases hphase

end MessageQueue

end Rsp
