import Mathlib.Data.List.Basic
import Mathlib.Data.List.Nodup

/-!
# Moving an element to the front

The order of a least-recently-used cache: a list without repetitions, most recent first, where each use moves an element to the front. Cutting such a list to a limit after each use or only at the end gives the same list.
-/

namespace MoveToFront

variable {α : Type*} [DecidableEq α]

def moveToFront (a : α) (l : List α) : List α := a :: l.erase a

@[simp] theorem mem_moveToFront {a b : α} {l : List α} : b ∈ moveToFront a l ↔ b = a ∨ b ∈ l := by
  by_cases heq : b = a
  · simp [moveToFront, heq]
  · simp [moveToFront, heq, List.mem_erase_of_ne heq]

theorem nodup_moveToFront {l : List α} (hl : l.Nodup) (a : α) : (moveToFront a l).Nodup :=
  List.nodup_cons.mpr ⟨hl.not_mem_erase, hl.erase a⟩

theorem moveToFront_of_notMem {a : α} {l : List α} (ha : a ∉ l) : moveToFront a l = a :: l := by
  rw [moveToFront, List.erase_of_not_mem ha]

theorem length_moveToFront_of_mem {a : α} {l : List α} (ha : a ∈ l) : (moveToFront a l).length = l.length := by
  have hpos : 0 < l.length := List.length_pos_of_mem ha
  rw [moveToFront, List.length_cons, List.length_erase_of_mem ha]
  omega

private theorem take_erase_take (a : α) (l : List α) (n : Nat) :
    ((l.take (n + 1)).erase a).take n = (l.erase a).take n := by
  induction l generalizing n with
  | nil => rfl
  | cons b l ih =>
    rw [List.take_succ_cons]
    by_cases heq : b = a
    · subst heq
      rw [List.erase_cons_head, List.erase_cons_head, List.take_take, Nat.min_self]
    · rw [List.erase_cons_tail (by simpa using heq), List.erase_cons_tail (by simpa using heq)]
      cases n with
      | zero => rfl
      | succ n => rw [List.take_succ_cons, List.take_succ_cons, ih]

/-- What is cut off before does not matter after. -/
theorem take_moveToFront_take (a : α) (l : List α) (n : Nat) :
    (moveToFront a (l.take n)).take n = (moveToFront a l).take n := by
  cases n with
  | zero => rfl
  | succ n => rw [moveToFront, moveToFront, List.take_succ_cons, List.take_succ_cons, take_erase_take]

theorem foldl_take_moveToFront (uses l : List α) (n : Nat) :
    uses.foldl (fun l a => (moveToFront a l).take n) (l.take n) =
      (uses.foldl (fun l a => moveToFront a l) l).take n := by
  induction uses generalizing l with
  | nil => rfl
  | cons a uses ih => rw [List.foldl_cons, List.foldl_cons, take_moveToFront_take, ih]

end MoveToFront
