import Rsp.Lib.Counting
import Rsp.Lib.Machine

/-!
# Reconnecting clients

One connection of a C++ client with everything that runs for it: the call that sets the connection up, the read loop of each of its encodings, the threads of `doReconnect`, and a call of `removeConnection` (`stop` does the same for every connection). The lightweight client `RSPClientMessage` and the full client `RSPClient` share this code, except that the full client repeats failed handshakes.

A step is one critical section, one atomic access or the return of a blocking call. What the network does is chosen by the step: when reading fails, whether `reconnect` returns a connection, how the handshake with AuthN ends, whether an encoding starts.
-/

namespace Rsp

inductive ClientKind where
  | lightweight
  | full
deriving DecidableEq

/-- Where the thread of `Encoding::readLoop` is. -/
inductive ReadLoop where
  | idle
  | reading
  /-- Reading has failed; the callback is fetched next. -/
  | lost
  /-- In `triggerReconnect`, before it looks at `stopping`. -/
  | triggering
  | comparing
  /-- `inProgress` is set; the thread is started next. -/
  | claimed
  | ended
deriving DecidableEq

structure EncodingThread where
  running : Bool := false
  /-- Whether `disconnectCallback_` is set; it always calls `triggerReconnect`. -/
  disconnectCallback : Bool := false
  connectionLost : Bool := false
  loop : ReadLoop := .idle
deriving DecidableEq

/-- Where a thread of `doReconnect` is. The number is that of the new encoding. -/
inductive ReconnectPhase where
  | lookup
  | found
  /-- The condition of the full client's loop. -/
  | loopTop
  | connecting
  | attempting
  /-- Before the lock of the retry delay, inside the wait, and after it, when the mutex is needed again. -/
  | delaying
  | waiting
  | woken
  | established (encoding : Nat)
  | checked (encoding : Nat)
  | started (encoding : Nat)
  /-- The connection was removed meanwhile; the new encoding is being stopped. -/
  | discarding (encoding : Nat)
  | swapped (encoding old : Nat)
  | stoppedOld (encoding old : Nat)
  | joinedOld (encoding : Nat)
  /-- `inProgress` is reset next, then the thread ends. -/
  | returning
  | finished
deriving DecidableEq

/-- The end of `connectToResourceManager`, with `enableReconnect`. -/
inductive SetupPhase where
  | established
  | started
  | registered
  /-- `stopping` is reset; the callback is installed next. -/
  | enabled (encoding : Nat)
  | done
  | failed
deriving DecidableEq

inductive RemoverPhase where
  | idle
  | erased
  | stopping
  | transportStopped
  /-- Inside the join, with `threadMutex` held. -/
  | joining
  | joined
deriving DecidableEq

/-- The state of one connection and its `ReconnectContext`. The encodings and threads ever created are numbered; `ctx->thread` is the last thread. -/
structure ReconnectState where
  registered : Bool := false
  stopping : Bool := true
  inProgress : Bool := false
  current : Nat := 0
  encodings : List EncodingThread := [{}]
  threads : List ReconnectPhase := []
  setup : SetupPhase := .established
  remover : RemoverPhase := .idle

namespace ReconnectState

inductive Step where
  | setup (succeeded : Bool)
  | readLoop (encoding : Nat)
  | doReconnect (thread : Nat) (accepted succeeded : Bool)
  | remove

/-- Nobody but the remover holds `threadMutex` from one step to the next. -/
def mutexFree (sys : ReconnectState) : Bool := sys.remover ≠ .joining

def setEncoding (index : Nat) (encoding : EncodingThread) (sys : ReconnectState) : ReconnectState :=
  { sys with encodings := sys.encodings.set index encoding }

def setThread (index : Nat) (phase : ReconnectPhase) (sys : ReconnectState) : ReconnectState :=
  { sys with threads := sys.threads.set index phase }

/-- `connectToResourceManager` from the start of the encoding on, and `enableReconnect`. -/
def nextSetup (succeeded : Bool) (sys : ReconnectState) : Option ReconnectState :=
  match sys.setup with
  | .established =>
    sys.encodings[0]?.map fun encoding =>
      if succeeded then
        { sys.setEncoding 0 { encoding with running := true, loop := .reading } with setup := .started }
      else { sys with setup := .failed }
  | .started => some { sys with registered := true, stopping := true, setup := .registered }
  | .registered =>
    if sys.registered then some { sys with stopping := false, setup := .enabled sys.current }
    else some { sys with setup := .done }
  | .enabled index =>
    sys.encodings[index]?.map fun encoding =>
      { sys.setEncoding index { encoding with disconnectCallback := true } with setup := .done }
  | .done | .failed => none

/-- `readLoop` with `triggerReconnect`. Messages that are read change nothing here. -/
def nextReadLoop (index : Nat) (encoding : EncodingThread) (sys : ReconnectState) : Option ReconnectState :=
  match encoding.loop with
  | .idle | .ended => none
  | .reading =>
    if encoding.running then
      some (sys.setEncoding index { encoding with running := false, connectionLost := true, loop := .lost })
    else some (sys.setEncoding index { encoding with loop := .ended })
  | .lost =>
    some (sys.setEncoding index
      { encoding with loop := if encoding.disconnectCallback then .triggering else .ended })
  | .triggering =>
    some (sys.setEncoding index { encoding with loop := if sys.stopping then .ended else .comparing })
  | .comparing =>
    if sys.inProgress then some (sys.setEncoding index { encoding with loop := .ended })
    else some { sys.setEncoding index { encoding with loop := .claimed } with inProgress := true }
  | .claimed =>
    if sys.mutexFree then
      some { sys.setEncoding index { encoding with loop := .ended } with threads := sys.threads ++ [.lookup] }
    else none

/-- `doReconnect`. `accepted` says whether the handshake queue takes the transport, `succeeded` how the call of the phase ends: the reconnect, the handshake with AuthN, the wait (by its deadline), or the start of the encoding. -/
def nextThread (kind : ClientKind) (index : Nat) (accepted succeeded : Bool) (phase : ReconnectPhase)
    (sys : ReconnectState) : Option ReconnectState :=
  match phase with
  | .lookup => some (sys.setThread index (if sys.registered then .found else .returning))
  | .found =>
    some (sys.setThread index
      (if sys.stopping then .returning else if kind = .full then .loopTop else .connecting))
  | .loopTop => some (sys.setThread index (if sys.stopping then .returning else .connecting))
  | .connecting => some (sys.setThread index (if !succeeded || sys.stopping then .returning else .attempting))
  | .attempting =>
    if !accepted then some (sys.setThread index .returning)
    else if succeeded then
      some { sys.setThread index (.established sys.encodings.length) with encodings := sys.encodings ++ [{}] }
    else some (sys.setThread index (if kind = .full then .delaying else .returning))
  | .delaying =>
    if sys.mutexFree then some (sys.setThread index (if sys.stopping then .loopTop else .waiting)) else none
  | .waiting => some (sys.setThread index .woken)
  | .woken =>
    if sys.mutexFree then some (sys.setThread index (if succeeded || sys.stopping then .loopTop else .waiting)) else none
  | .established new => some (sys.setThread index (if sys.stopping then .returning else .checked new))
  | .checked new =>
    sys.encodings[new]?.map fun encoding =>
      if succeeded then
        (sys.setEncoding new { encoding with running := true, loop := .reading }).setThread index (.started new)
      else sys.setThread index .returning
  | .started new =>
    sys.encodings[new]?.map fun encoding =>
      if !sys.registered || sys.stopping then
        (sys.setEncoding new { encoding with running := false }).setThread index (.discarding new)
      else { sys.setThread index (.swapped new sys.current) with current := new }
  | .discarding new =>
    sys.encodings[new]?.bind fun encoding =>
      if encoding.loop = .ended then some (sys.setThread index .returning) else none
  | .swapped new old =>
    sys.encodings[old]?.map fun encoding =>
      (sys.setEncoding old { encoding with running := false }).setThread index (.stoppedOld new old)
  | .stoppedOld new old =>
    sys.encodings[old]?.bind fun encoding =>
      if encoding.loop = .idle ∨ encoding.loop = .ended then some (sys.setThread index (.joinedOld new)) else none
  | .joinedOld new =>
    sys.encodings[new]?.map fun encoding =>
      (sys.setEncoding new { encoding with disconnectCallback := true }).setThread index .returning
  | .returning => some { sys.setThread index .finished with inProgress := false }
  | .finished => none

/-- `removeConnection`. -/
def nextRemover (sys : ReconnectState) : Option ReconnectState :=
  match sys.remover with
  | .idle => if sys.registered then some { sys with registered := false, remover := .erased } else none
  | .erased => some { sys with stopping := true, remover := .stopping }
  | .stopping => some { sys with remover := .transportStopped }
  | .transportStopped => some { sys with remover := .joining }
  | .joining =>
    if sys.threads.getLast?.all (· = .finished) then some { sys with remover := .joined } else none
  | .joined => none

def next (kind : ClientKind) (sys : ReconnectState) : Step → Option ReconnectState
  | .setup succeeded => sys.nextSetup succeeded
  | .readLoop index => sys.encodings[index]?.bind fun encoding => sys.nextReadLoop index encoding
  | .doReconnect index accepted succeeded =>
    sys.threads[index]?.bind fun phase => sys.nextThread kind index accepted succeeded phase
  | .remove => sys.nextRemover

end ReconnectState

def reconnectMachine (kind : ClientKind) : Machine ReconnectState ReconnectState.Step where
  init sys := sys = {}
  next := ReconnectState.next kind

end Rsp
