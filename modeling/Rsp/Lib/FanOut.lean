import Mathlib.Data.List.Basic
import Mathlib.Data.List.Nodup
import Mathlib.Tactic

/-!
# Handing items to receivers that can fail

Items are handed, one after the other, each to its receiver. A receiver that has failed once gets nothing more. Whether a delivery succeeds may depend on everything handed over before it.
-/

namespace FanOut

structure Attempt (Item : Type*) where
  item : Item
  delivered : Bool

variable {Item Receiver : Type*} (receiver : Item → Receiver) (deliver : List Item → Item → Bool)

/-- The receivers of failed attempts. -/
def failed (made : List (Attempt Item)) : List Receiver :=
  (made.filter fun attempt => !attempt.delivered).map fun attempt => receiver attempt.item

/-- The attempts made for a list of items: each item in turn is skipped, if its receiver has failed before, or else handed over once. -/
inductive Orderly : List Item → List (Attempt Item) → Prop
  | nil : Orderly [] []
  | skip {items : List Item} {made : List (Attempt Item)} {item : Item} (h : Orderly items made)
    (hfailed : receiver item ∈ failed receiver made) : Orderly (items ++ [item]) made
  | attempt {items : List Item} {made : List (Attempt Item)} {item : Item} (h : Orderly items made)
    (hgood : receiver item ∉ failed receiver made) :
    Orderly (items ++ [item]) (made ++ [⟨item, deliver (made.map Attempt.item) item⟩])

variable {receiver deliver} {items : List Item} {made : List (Attempt Item)}

variable (receiver made) in
theorem failed_concat_delivered (item : Item) : failed receiver (made ++ [⟨item, true⟩]) = failed receiver made := by
  rw [failed, List.filter_append, List.map_append]
  exact List.append_nil _

variable (receiver made) in
theorem failed_concat_failed (item : Item) :
    failed receiver (made ++ [⟨item, false⟩]) = failed receiver made ++ [receiver item] := by
  rw [failed, List.filter_append, List.map_append]
  rfl

/-- No receiver fails twice. -/
theorem Orderly.nodup_failed (h : Orderly receiver deliver items made) : (failed receiver made).Nodup := by
  induction h with
  | nil => exact List.nodup_nil
  | skip _ _ ih => exact ih
  | @attempt items made item _ hgood ih =>
    cases deliver (made.map Attempt.item) item with
    | true => rwa [failed_concat_delivered]
    | false =>
      rw [failed_concat_failed]
      exact List.nodup_append.mpr ⟨ih, List.nodup_singleton _, fun a ha b hb hab =>
        hgood (List.mem_singleton.mp hb ▸ hab ▸ ha)⟩

theorem length_eq (made : List (Attempt Item)) :
    made.length = made.countP (·.delivered) + (failed receiver made).length := by
  have hsplit := List.length_eq_countP_add_countP (p := fun attempt : Attempt Item => attempt.delivered) (l := made)
  rw [hsplit, failed, List.length_map, List.countP_eq_length_filter (p := fun attempt : Attempt Item => ¬ attempt.delivered)]
  congr 2
  apply List.filter_congr
  intro attempt _
  cases attempt.delivered <;> rfl

end FanOut
