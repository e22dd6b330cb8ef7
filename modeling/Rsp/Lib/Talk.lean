import Mathlib.Tactic
import Rsp.Lib.Machine

/-!
# Programs that talk over a byte stream

A `Talk` is a program whose only effects are single calls of `recv` and `send`. A call of `recv` gets some of the bytes that have arrived, at most as many as it asks for, and none if it fails; a call of `send` hands over some of its bytes, from the front, and none if it fails. How many bytes a call moves is not up to the program.

Two ways to run a talk: alone against a finite stream (`eval`), with the sizes of the calls given beforehand, and against another talk over two reliable channels (`Duplex`), one call at a time in any order. In both, `Trace` relates a program to the bytes it has taken and given.
-/

inductive Talk (α : Type) where
  | done (result : α)
  | recv (limit : Nat) (next : List UInt8 → Talk α)
  | send (data : List UInt8) (next : Nat → Talk α)

namespace Talk

variable {α β : Type}

def bind : Talk α → (α → Talk β) → Talk β
  | .done a, f => f a
  | .recv limit next, f => .recv limit fun chunk => (next chunk).bind f
  | .send data next, f => .send data fun count => (next count).bind f

instance : Monad Talk where
  pure := .done
  bind := Talk.bind

@[simp]
theorem pure_eq (a : α) : (pure a : Talk α) = .done a := rfl

@[simp]
theorem done_bind (a : α) (f : α → Talk β) : (Talk.done a >>= f) = f a := rfl

@[simp]
theorem recv_bind (limit : Nat) (next : List UInt8 → Talk α) (f : α → Talk β) :
    (Talk.recv limit next >>= f) = .recv limit fun chunk => next chunk >>= f := rfl

@[simp]
theorem send_bind (data : List UInt8) (next : Nat → Talk α) (f : α → Talk β) :
    (Talk.send data next >>= f) = .send data fun count => next count >>= f := rfl

/-! ### Traces -/

/-- `Trace p taken given q`: by some calls `p` takes the bytes `taken`, gives the bytes `given` and gets to `q`. -/
inductive Trace : Talk α → List UInt8 → List UInt8 → Talk α → Prop
  | refl (p : Talk α) : Trace p [] [] p
  | recv {limit : Nat} {next : List UInt8 → Talk α} {chunk taken given : List UInt8} {q : Talk α}
    (hchunk : chunk.length ≤ limit) (h : Trace (next chunk) taken given q) :
    Trace (.recv limit next) (chunk ++ taken) given q
  | send {data : List UInt8} {next : Nat → Talk α} {count : Nat} {taken given : List UInt8} {q : Talk α}
    (hcount : count ≤ data.length) (h : Trace (next count) taken given q) :
    Trace (.send data next) taken (data.take count ++ given) q

namespace Trace

variable {p q r : Talk α} {taken given taken' given' : List UInt8}

theorem trans (h : Trace p taken given q) (h' : Trace q taken' given' r) :
    Trace p (taken ++ taken') (given ++ given') r := by
  induction h with
  | refl p => exact h'
  | recv hchunk _ ih =>
    rw [List.append_assoc]
    exact .recv hchunk (ih h')
  | send hcount _ ih =>
    rw [List.append_assoc]
    exact .send hcount (ih h')

theorem recv_step {limit : Nat} {next : List UInt8 → Talk α} {chunk : List UInt8} (hchunk : chunk.length ≤ limit) :
    Trace (.recv limit next) chunk [] (next chunk) := by
  have h := Trace.recv hchunk (.refl (next chunk))
  rwa [List.append_nil] at h

theorem send_step {data : List UInt8} {next : Nat → Talk α} {count : Nat} (hcount : count ≤ data.length) :
    Trace (.send data next) [] (data.take count) (next count) := by
  have h := Trace.send hcount (.refl (next count))
  rwa [List.append_nil] at h

theorem done_inv {a : α} (h : Trace (.done a) taken given q) : taken = [] ∧ given = [] ∧ q = .done a := by
  cases h
  exact ⟨rfl, rfl, rfl⟩

theorem recv_inv {limit : Nat} {next : List UInt8 → Talk α} (h : Trace (.recv limit next) taken given q) :
    (taken = [] ∧ given = [] ∧ q = .recv limit next) ∨
      ∃ chunk later, chunk.length ≤ limit ∧ taken = chunk ++ later ∧ Trace (next chunk) later given q := by
  cases h with
  | refl => exact .inl ⟨rfl, rfl, rfl⟩
  | recv hchunk h => exact .inr ⟨_, _, hchunk, rfl, h⟩

theorem send_inv {data : List UInt8} {next : Nat → Talk α} (h : Trace (.send data next) taken given q) :
    (taken = [] ∧ given = [] ∧ q = .send data next) ∨
      ∃ count later, count ≤ data.length ∧ given = data.take count ++ later ∧ Trace (next count) taken later q := by
  cases h with
  | refl => exact .inl ⟨rfl, rfl, rfl⟩
  | send hcount h => exact .inr ⟨_, _, hcount, rfl, h⟩

/-- The calls of a sequence of two programs are some of the first one's, or all of them and then those of the second. -/
theorem bind_inv {p : Talk α} {f : α → Talk β} {q : Talk β} (h : Trace (p >>= f) taken given q) :
    (∃ p', Trace p taken given p' ∧ (∀ a, p' ≠ .done a) ∧ ∀ b, q ≠ .done b) ∨
      ∃ a taken₁ given₁ taken₂ given₂, taken = taken₁ ++ taken₂ ∧ given = given₁ ++ given₂ ∧
        Trace p taken₁ given₁ (.done a) ∧ Trace (f a) taken₂ given₂ q := by
  induction p generalizing taken given with
  | done a => exact .inr ⟨a, [], [], taken, given, rfl, rfl, .refl _, h⟩
  | recv limit next ih =>
    rcases recv_inv h with ⟨rfl, rfl, rfl⟩ | ⟨chunk, later, hchunk, rfl, hnext⟩
    · exact .inl ⟨_, .refl _, by simp, by simp⟩
    · rcases ih chunk hnext with ⟨p', hp', hrunning⟩ | ⟨a, taken₁, given₁, taken₂, given₂, rfl, rfl, hfirst, hsecond⟩
      · exact .inl ⟨p', .recv hchunk hp', hrunning⟩
      · exact .inr ⟨a, chunk ++ taken₁, given₁, taken₂, given₂, (List.append_assoc ..).symm, rfl, .recv hchunk hfirst,
          hsecond⟩
  | send data next ih =>
    rcases send_inv h with ⟨rfl, rfl, rfl⟩ | ⟨count, later, hcount, rfl, hnext⟩
    · exact .inl ⟨_, .refl _, by simp, by simp⟩
    · rcases ih count hnext with ⟨p', hp', hrunning⟩ | ⟨a, taken₁, given₁, taken₂, given₂, rfl, rfl, hfirst, hsecond⟩
      · exact .inl ⟨p', .send hcount hp', hrunning⟩
      · exact .inr ⟨a, taken₁, data.take count ++ given₁, taken₂, given₂, rfl, (List.append_assoc ..).symm,
          .send hcount hfirst, hsecond⟩

end Trace

/-! ### Running alone -/

/-- The outcome of the calls: the most a call moves, less one, or `none` if it fails. -/
abbrev Calls := Nat → Option Nat

/-- The result of a run, the number of its next call, what is left of the input, and what was sent. -/
structure Outcome (α : Type) where
  result : α
  call : Nat
  rest : List UInt8
  sent : List UInt8

/-- Runs a talk from a given call on, against the bytes of `input` and then the end of the stream. -/
def eval (calls : Calls) : Talk α → (call : Nat) → (input : List UInt8) → Outcome α
  | .done a, call, input => ⟨a, call, input, []⟩
  | .recv limit next, call, input =>
    let chunk := match calls call with
      | some extra => input.take (min limit (extra + 1))
      | none => []
    eval calls (next chunk) (call + 1) (input.drop chunk.length)
  | .send data next, call, input =>
    let count := match calls call with
      | some extra => min data.length (extra + 1)
      | none => 0
    let outcome := eval calls (next count) (call + 1) input
    { outcome with sent := data.take count ++ outcome.sent }

theorem eval_bind (calls : Calls) (p : Talk α) (f : α → Talk β) (call : Nat) (input : List UInt8) :
    eval calls (p >>= f) call input =
      { eval calls (f (p.eval calls call input).result) (p.eval calls call input).call (p.eval calls call input).rest with
        sent := (p.eval calls call input).sent ++
          (eval calls (f (p.eval calls call input).result) (p.eval calls call input).call
            (p.eval calls call input).rest).sent } := by
  induction p generalizing call input with
  | done a => rfl
  | recv limit next ih => exact ih _ _ _
  | send data next ih =>
    simp only [send_bind, eval, ih, List.append_assoc]

/-- A run alone is a trace that takes the bytes it has consumed. -/
theorem trace_eval (calls : Calls) (p : Talk α) (call : Nat) (input : List UInt8) :
    ∃ taken, input = taken ++ (p.eval calls call input).rest ∧
      Trace p taken (p.eval calls call input).sent (.done (p.eval calls call input).result) := by
  induction p generalizing call input with
  | done a => exact ⟨[], rfl, .refl _⟩
  | recv limit next ih =>
    simp only [eval]
    generalize hchunk : (match calls call with
      | some extra => input.take (min limit (extra + 1))
      | none => []) = chunk
    have hfits : chunk.length ≤ limit ∧ chunk = input.take chunk.length := by
      cases hcall : calls call with
      | none =>
        rw [hcall] at hchunk
        rw [← hchunk]
        exact ⟨Nat.zero_le _, rfl⟩
      | some extra =>
        rw [hcall] at hchunk
        rw [← hchunk]
        constructor
        · rw [List.length_take]
          omega
        · rw [List.length_take, ← List.take_eq_take_min]
    obtain ⟨taken, hinput, htrace⟩ := ih chunk (call + 1) (input.drop chunk.length)
    refine ⟨chunk ++ taken, ?_, .recv hfits.1 htrace⟩
    rw [List.append_assoc, ← hinput]
    conv_lhs => rw [← List.take_append_drop chunk.length input, ← hfits.2]
  | send data next ih =>
    simp only [eval]
    generalize hcount : (match calls call with
      | some extra => min data.length (extra + 1)
      | none => 0) = count
    have hfits : count ≤ data.length := by
      cases hcall : calls call with
      | none =>
        simp only [hcall] at hcount
        omega
      | some extra =>
        simp only [hcall] at hcount
        rw [← hcount]
        exact Nat.min_le_left _ _
    obtain ⟨taken, hinput, htrace⟩ := ih count (call + 1) input
    exact ⟨taken, hinput, .send hfits htrace⟩

end Talk

/-! ### Two talks over two channels -/

/-- Two talks, the bytes on their way in each direction, and the bytes that a side has written after its talk was over. -/
structure Duplex (α β : Type) where
  left : Talk α
  right : Talk β
  toLeft : List UInt8 := []
  toRight : List UInt8 := []
  laterLeft : List UInt8 := []
  laterRight : List UInt8 := []

namespace Duplex

variable {α β : Type}

/-- One call of a side, which moves `count` bytes (none if it fails), or bytes written later on. -/
inductive Step where
  | left (count : Nat)
  | right (count : Nat)
  | leftWrites (data : List UInt8)
  | rightWrites (data : List UInt8)

/-- One call of a talk with the given input channel: the rest of the talk, the bytes taken and the bytes given. -/
def call (count : Nat) (input : List UInt8) : Talk α → Option (Talk α × List UInt8 × List UInt8)
  | .done _ => none
  | .recv limit next =>
    if count ≤ limit ∧ count ≤ input.length then some (next (input.take count), input.take count, []) else none
  | .send data next => if count ≤ data.length then some (next count, [], data.take count) else none

/-- A side writes more only if its result lets it go on. -/
def next (leftGoesOn : α → Bool) (rightGoesOn : β → Bool) (sys : Duplex α β) : Step → Option (Duplex α β)
  | .left count =>
    (call count sys.toLeft sys.left).map fun (left, taken, given) =>
      { sys with left, toLeft := sys.toLeft.drop taken.length, toRight := sys.toRight ++ given }
  | .right count =>
    (call count sys.toRight sys.right).map fun (right, taken, given) =>
      { sys with right, toRight := sys.toRight.drop taken.length, toLeft := sys.toLeft ++ given }
  | .leftWrites data =>
    match sys.left with
    | .done a =>
      if leftGoesOn a then some { sys with toRight := sys.toRight ++ data, laterLeft := sys.laterLeft ++ data } else none
    | _ => none
  | .rightWrites data =>
    match sys.right with
    | .done b =>
      if rightGoesOn b then some { sys with toLeft := sys.toLeft ++ data, laterRight := sys.laterRight ++ data } else none
    | _ => none

/-- The two talks started on empty channels. -/
def machine (left : Talk α) (right : Talk β) (leftGoesOn : α → Bool) (rightGoesOn : β → Bool) :
    Machine (Duplex α β) Step where
  init sys := sys = { left, right }
  next := next leftGoesOn rightGoesOn

theorem trace_call {count : Nat} {input taken given : List UInt8} {p q : Talk α}
    (h : call count input p = some (q, taken, given)) :
    Talk.Trace p taken given q ∧ input = taken ++ input.drop taken.length ∧ ∀ a, p ≠ .done a := by
  cases p with
  | done a => cases h
  | recv limit next =>
    simp only [call] at h
    split_ifs at h with hcount
    simp only [Option.some.injEq, Prod.mk.injEq] at h
    obtain ⟨rfl, rfl, rfl⟩ := h
    have hlength : (input.take count).length = count := List.length_take_of_le hcount.2
    refine ⟨.recv_step (by omega), ?_, by simp⟩
    rw [hlength, List.take_append_drop]
  | send data next =>
    simp only [call] at h
    split_ifs at h with hcount
    simp only [Option.some.injEq, Prod.mk.injEq] at h
    obtain ⟨rfl, rfl, rfl⟩ := h
    exact ⟨.send_step hcount, rfl, by simp⟩

/-- What each side has done is a trace of its talk, and the channels hold what is written and not yet read. -/
structure Connected (left₀ : Talk α) (right₀ : Talk β) (leftGoesOn : α → Bool) (rightGoesOn : β → Bool)
    (sys : Duplex α β) : Prop where
  traces : ∃ takenLeft givenLeft takenRight givenRight,
    Talk.Trace left₀ takenLeft givenLeft sys.left ∧ Talk.Trace right₀ takenRight givenRight sys.right ∧
      givenRight ++ sys.laterRight = takenLeft ++ sys.toLeft ∧ givenLeft ++ sys.laterLeft = takenRight ++ sys.toRight
  left : sys.laterLeft = [] ∨ ∃ a, sys.left = .done a ∧ leftGoesOn a = true
  right : sys.laterRight = [] ∨ ∃ b, sys.right = .done b ∧ rightGoesOn b = true

theorem connected_of_reaches {left₀ : Talk α} {right₀ : Talk β} {leftGoesOn : α → Bool} {rightGoesOn : β → Bool}
    {sys : Duplex α β} (h : (machine left₀ right₀ leftGoesOn rightGoesOn).Reaches sys) :
    Connected left₀ right₀ leftGoesOn rightGoesOn sys := by
  refine h.invariant (I := Connected left₀ right₀ leftGoesOn rightGoesOn) (fun sys hinit => ?_)
    fun sys step sys' hconnected hstep => ?_
  · obtain rfl : sys = _ := hinit
    exact ⟨⟨[], [], [], [], .refl _, .refl _, rfl, rfl⟩, .inl rfl, .inl rfl⟩
  · obtain ⟨⟨takenLeft, givenLeft, takenRight, givenRight, hleft, hright, htoLeft, htoRight⟩, hlaterLeft, hlaterRight⟩ :=
      hconnected
    cases step with
    | left count =>
      obtain ⟨⟨q, taken, given⟩, hcall, rfl⟩ := Option.map_eq_some_iff.mp hstep
      obtain ⟨htrace, htaken, hrunning⟩ := trace_call hcall
      have hnone : sys.laterLeft = [] := hlaterLeft.resolve_right fun ⟨a, ha, _⟩ => hrunning a ha
      refine ⟨⟨_, _, _, _, hleft.trans htrace, hright, ?_, ?_⟩, .inl hnone, hlaterRight⟩
      · rw [htoLeft, List.append_assoc, ← htaken]
      · rw [hnone, List.append_nil] at htoRight
        rw [hnone, List.append_nil, htoRight, List.append_assoc]
    | right count =>
      obtain ⟨⟨q, taken, given⟩, hcall, rfl⟩ := Option.map_eq_some_iff.mp hstep
      obtain ⟨htrace, htaken, hrunning⟩ := trace_call hcall
      have hnone : sys.laterRight = [] := hlaterRight.resolve_right fun ⟨b, hb, _⟩ => hrunning b hb
      refine ⟨⟨_, _, _, _, hleft, hright.trans htrace, ?_, ?_⟩, hlaterLeft, .inl hnone⟩
      · rw [hnone, List.append_nil] at htoLeft
        rw [hnone, List.append_nil, htoLeft, List.append_assoc]
      · rw [htoRight, List.append_assoc, ← htaken]
    | leftWrites data =>
      simp only [machine, next] at hstep
      split at hstep
      · next a ha =>
        split_ifs at hstep with hgoesOn
        obtain rfl := Option.some.inj hstep
        refine ⟨⟨_, _, _, _, hleft, hright, htoLeft, ?_⟩, .inr ⟨a, ha, hgoesOn⟩, hlaterRight⟩
        rw [← List.append_assoc, htoRight, List.append_assoc]
      · cases hstep
    | rightWrites data =>
      simp only [machine, next] at hstep
      split at hstep
      · next b hb =>
        split_ifs at hstep with hgoesOn
        obtain rfl := Option.some.inj hstep
        refine ⟨⟨_, _, _, _, hleft, hright, ?_, htoRight⟩, hlaterLeft, .inr ⟨b, hb, hgoesOn⟩⟩
        rw [← List.append_assoc, htoLeft, List.append_assoc]
      · cases hstep

end Duplex
