import Rsp.Lib.Machine

/-!
# Calls that share one slot for replies

Any number of calls send a request and wait for its reply, but all of them use one flag, which says that a reply is expected, and one place for the reply. A reply that comes while the flag is set is put into the slot, whatever it answers; a call that finds the flag cleared takes what is in the slot.

Requests are numbered as the calls begin, and a reply is tagged with the request it answers. If the calls do not overlap, and a reply that comes while one of them waits answers its request, then every call returns the reply to its own request.
-/

namespace ReplySlot

/-- A reply, and the number of the request that it answers. -/
structure Tagged (Reply : Type) where
  reply : Reply
  answers : Option Nat
deriving DecidableEq, Repr

/-- A call in progress: its request, and whether that is sent. -/
structure Call (Request : Type) where
  number : Nat
  request : Request
  sent : Bool := false
deriving DecidableEq, Repr

structure Slot (Request Reply : Type) where
  pending : Bool := false
  result : Option (Tagged Reply) := none
  calls : List (Call Request) := []
  /-- How many calls have begun. -/
  begun : Nat := 0
  returned : List (Call Request × Option (Tagged Reply)) := []

inductive Step (Request Reply : Type)
  | begin (request : Request)
  /-- The request is handed over for sending, which may fail. -/
  | send (index : Nat) (taken : Bool)
  | receive (reply : Tagged Reply)
  /-- A call stops waiting, because the flag is cleared, the time is over or everything is stopping. -/
  | finish (index : Nat) (stopping : Bool)
deriving DecidableEq

variable {Request Reply : Type}

namespace Slot

def begin (slot : Slot Request Reply) (request : Request) : Slot Request Reply :=
  { slot with
    pending := true
    result := none
    calls := slot.calls ++ [⟨slot.begun, request, false⟩]
    begun := slot.begun + 1 }

/-- The call at an index returns. -/
def leave (slot : Slot Request Reply) (index : Nat) (call : Call Request) (result : Option (Tagged Reply)) :
    Slot Request Reply :=
  { slot with calls := slot.calls.eraseIdx index, returned := slot.returned ++ [(call, result)] }

def send (slot : Slot Request Reply) (index : Nat) (taken : Bool) : Option (Slot Request Reply) := do
  let call ← slot.calls[index]?
  if call.sent then
    none
  else if taken then
    return { slot with calls := slot.calls.set index { call with sent := true } }
  else
    return { slot with pending := false }.leave index call none

def receive (slot : Slot Request Reply) (reply : Tagged Reply) : Slot Request Reply :=
  if slot.pending then { slot with result := some reply, pending := false } else slot

def finish (slot : Slot Request Reply) (index : Nat) (stopping : Bool) : Option (Slot Request Reply) := do
  let call ← slot.calls[index]?
  if call.sent then
    if slot.pending || stopping || slot.result.isNone then
      return { slot with pending := false }.leave index call none
    else
      return { slot with result := none }.leave index call slot.result
  else
    none

def next (slot : Slot Request Reply) : Step Request Reply → Option (Slot Request Reply)
  | .begin request => some (slot.begin request)
  | .send index taken => slot.send index taken
  | .receive reply => some (slot.receive reply)
  | .finish index stopping => slot.finish index stopping

/-- Every call that returned a reply returned the one to its request. -/
def OwnReplies (slot : Slot Request Reply) : Prop :=
  ∀ call reply, (call, some reply) ∈ slot.returned → reply.answers = some call.number

/-- A call begins when no other one is in progress, and a reply that is waited for answers the last request. -/
def separate (slot : Slot Request Reply) : Step Request Reply → Bool
  | .begin _ => slot.calls.isEmpty
  | .receive reply => !slot.pending || reply.answers == slot.calls.head?.map Call.number
  | _ => true

/-- At most one call is in progress, and what is in the slot then is the reply to its request. -/
structure Separate (slot : Slot Request Reply) : Prop where
  one : slot.calls.length ≤ 1
  result : ∀ reply, slot.result = some reply → ∀ call ∈ slot.calls, reply.answers = some call.number
  own : slot.OwnReplies

variable {slot slot' : Slot Request Reply}

theorem OwnReplies.leave {index : Nat} {call : Call Request} {result : Option (Tagged Reply)} (h : slot.OwnReplies)
    (hresult : ∀ reply, result = some reply → reply.answers = some call.number) :
    (slot.leave index call result).OwnReplies := by
  intro other reply hmem
  rcases List.mem_append.mp hmem with hold | hnew
  · exact h other reply hold
  · obtain ⟨rfl, rfl⟩ := Prod.mk.inj (List.mem_singleton.mp hnew)
    exact hresult reply rfl

/-- The one call in progress. -/
theorem Separate.eq_singleton {index : Nat} {call : Call Request} (h : slot.Separate)
    (hcall : slot.calls[index]? = some call) : index = 0 ∧ slot.calls = [call] := by
  have hone := h.one
  cases hcalls : slot.calls with
  | nil => simp [hcalls] at hcall
  | cons first rest =>
    rw [hcalls, List.length_cons] at hone
    obtain rfl : rest = [] := List.length_eq_zero_iff.mp (by omega)
    rw [hcalls] at hcall
    cases index with
    | zero => exact ⟨rfl, by simpa using hcall⟩
    | succ index => simp at hcall

/-- The last call has left. -/
theorem Separate.leave {pending : Bool} {index : Nat} {call : Call Request} {kept result : Option (Tagged Reply)}
    (h : slot.Separate) (hcall : slot.calls[index]? = some call)
    (hresult : ∀ reply, result = some reply → reply.answers = some call.number) :
    ({ slot with pending := pending, result := kept }.leave index call result).Separate := by
  obtain ⟨rfl, hcalls⟩ := h.eq_singleton hcall
  have hnone : slot.calls.eraseIdx 0 = [] := by simp [hcalls]
  have hown : OwnReplies { slot with pending := pending, result := kept } := h.own
  exact ⟨by simp [Slot.leave, hnone], by simp [Slot.leave, hnone], hown.leave hresult⟩

theorem Separate.next {step : Step Request Reply} (h : slot.Separate) (hseparate : slot.separate step)
    (hstep : slot.next step = some slot') : slot'.Separate := by
  cases step with
  | begin request =>
    cases hstep
    have hnone : slot.calls = [] := List.isEmpty_iff.mp hseparate
    exact ⟨by simp [Slot.begin, hnone], by simp [Slot.begin], h.own⟩
  | send index taken =>
    obtain ⟨call, hcall, hstep⟩ := Option.bind_eq_some_iff.mp hstep
    split at hstep
    · cases hstep
    · split at hstep
      · cases hstep
        obtain ⟨rfl, hcalls⟩ := h.eq_singleton hcall
        refine ⟨by simp [hcalls], fun reply hreply other hother => ?_, h.own⟩
        have hsame := h.result reply hreply call (by simp [hcalls])
        obtain rfl : other = { call with sent := true } := by simpa [hcalls] using hother
        exact hsame
      · cases hstep
        exact h.leave hcall (by simp)
  | receive reply =>
    cases hstep
    rw [Slot.receive]
    split
    · rename_i hpending
      refine ⟨h.one, ?_, h.own⟩
      rintro other ⟨⟩ call hcall
      -- the reply is the one that the call in progress waits for
      obtain ⟨index, hindex⟩ := List.mem_iff_getElem?.mp hcall
      obtain ⟨-, hcalls⟩ := h.eq_singleton hindex
      simpa [separate, hpending, hcalls] using hseparate
    · exact h
  | finish index stopping =>
    obtain ⟨call, hcall, hstep⟩ := Option.bind_eq_some_iff.mp hstep
    split at hstep
    · split at hstep
      · cases hstep
        exact h.leave hcall (by simp)
      · cases hstep
        exact h.leave hcall fun reply hreply => h.result reply hreply call (List.mem_of_getElem? hcall)
    · cases hstep

theorem separate_initial : Separate ({} : Slot Request Reply) :=
  ⟨by simp, by simp, by simp [OwnReplies]⟩

end Slot

end ReplySlot
