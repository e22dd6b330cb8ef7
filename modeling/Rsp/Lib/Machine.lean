import Mathlib.Order.WellFounded
import Mathlib.Tactic

/-!
# Labelled machines

A machine is a set of initial states and a partial step function; all nondeterminism is in the labels. The rules here are the ones every run argument needs: an invariant holds in every reachable state if it holds initially and each step keeps it, the same for runs whose steps all satisfy a side condition (`restrict`), and a machine has no infinite run if a measure decreases along every step, and has one if some invariant can always be kept.
-/

structure Machine (State Label : Type*) where
  init : State → Prop
  next : State → Label → Option State

namespace Machine

variable {State Label : Type*} (M : Machine State Label)

inductive Reaches : State → Prop
  | start {s : State} (h : M.init s) : Reaches s
  | step {s s' : State} {l : Label} (hs : Reaches s) (h : M.next s l = some s') : Reaches s'

/-- The same machine with only the steps that are allowed in their state. -/
def restrict (allowed : State → Label → Prop) [∀ s l, Decidable (allowed s l)] : Machine State Label where
  init := M.init
  next s l := if allowed s l then M.next s l else none

/-- Running a list of labels. -/
def run (s : State) : List Label → Option State
  | [] => some s
  | l :: ls => (M.next s l).bind fun s' => run s' ls

variable {M}

theorem Reaches.invariant {I : State → Prop} (hinit : ∀ s, M.init s → I s)
    (hstep : ∀ s l s', I s → M.next s l = some s' → I s') {s : State} (hs : M.Reaches s) : I s := by
  induction hs with
  | start h => exact hinit _ h
  | step _ h ih => exact hstep _ _ _ ih h

theorem restrict_next {allowed : State → Label → Prop} [∀ s l, Decidable (allowed s l)] {s s' : State} {l : Label}
    (h : (M.restrict allowed).next s l = some s') : allowed s l ∧ M.next s l = some s' := by
  simp only [restrict] at h
  split_ifs at h with hallowed
  exact ⟨hallowed, h⟩

theorem Reaches.run {s s' : State} {ls : List Label} (hs : M.Reaches s) (h : M.run s ls = some s') :
    M.Reaches s' := by
  induction ls generalizing s with
  | nil => exact Option.some.inj h ▸ hs
  | cons l ls ih =>
    obtain ⟨t, ht, hrun⟩ := Option.bind_eq_some_iff.mp h
    exact ih (hs.step ht) hrun

/-- A run that ends in a state with a property, found by running it. -/
theorem exists_reaches_of_run {s : State} {ls : List Label} {p : State → Bool} (hs : M.init s)
    (h : (M.run s ls).any p = true) : ∃ s', M.Reaches s' ∧ p s' = true := by
  obtain ⟨s', hrun, hp⟩ := (Option.any_eq_true ..).mp h
  exact ⟨s', .run (.start hs) hrun, hp⟩

/-- An infinite sequence of steps from a given state. -/
structure IsInfiniteRun (M : Machine State Label) (s : State) (states : Nat → State) (labels : Nat → Label) :
    Prop where
  start : states 0 = s
  step : ∀ i, M.next (states i) (labels i) = some (states (i + 1))

theorem IsInfiniteRun.tail {s : State} {states : Nat → State} {labels : Nat → Label}
    (h : M.IsInfiniteRun s states labels) :
    M.IsInfiniteRun (states 1) (fun i => states (i + 1)) (fun i => labels (i + 1)) :=
  ⟨rfl, fun i => h.step (i + 1)⟩

/-- If every step from a state with the invariant keeps it and decreases a measure, there is no infinite run. -/
theorem not_isInfiniteRun_of_measure {I : State → Prop} {measure : State → Nat}
    (hstep : ∀ s l s', I s → M.next s l = some s' → I s' ∧ measure s' < measure s) {s : State} (hs : I s)
    (states : Nat → State) (labels : Nat → Label) : ¬ M.IsInfiniteRun s states labels := by
  rintro ⟨rfl, hrun⟩
  have hbound : ∀ i, I (states i) ∧ measure (states i) + i ≤ measure (states 0) := by
    intro i
    induction i with
    | zero => exact ⟨hs, by simp⟩
    | succ i ih =>
      obtain ⟨hI, hdecr⟩ := hstep _ _ _ ih.1 (hrun i)
      exact ⟨hI, by omega⟩
  have := (hbound (measure (states 0) + 1)).2
  omega

/-- If the steps with the given labels keep an invariant, they make an infinite run. -/
theorem exists_isInfiniteRun {I : State → Prop} (labels : Nat → Label)
    (hstep : ∀ i s, I s → ∃ s', M.next s (labels i) = some s' ∧ I s') {s : State} (hs : I s) :
    ∃ states, M.IsInfiniteRun s states labels := by
  have hnext : ∀ (i : Nat) (t : {s // I s}), ∃ t' : {s // I s}, M.next t.1 (labels i) = some t'.1 := by
    rintro i ⟨t, ht⟩
    obtain ⟨t', hl, ht'⟩ := hstep i t ht
    exact ⟨⟨t', ht'⟩, hl⟩
  choose succ hsucc using hnext
  exact ⟨fun i => (Nat.rec ⟨s, hs⟩ succ i : {s // I s}).1, rfl, fun i => hsucc i _⟩

end Machine
