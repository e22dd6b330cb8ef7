import Mathlib.Algebra.BigOperators.Group.List.Basic
import Mathlib.Data.List.Perm.Basic
import Mathlib.Tactic

/-!
# Counting over maps and over lists of threads

The sum of a quantity over the values of an ordered map, and how it changes with one entry; and lists in which the element at one place is replaced or taken out, as when one of several threads makes a step.
-/

namespace Counting

section

variable {α β : Type*} {cmp : α → α → Ordering} [Std.TransCmp cmp] [Std.LawfulEqCmp cmp]

omit [Std.TransCmp cmp] [Std.LawfulEqCmp cmp] in
theorem values_eq_map_snd (t : Std.TreeMap α β cmp) : t.values = t.toList.map Prod.snd := by
  have hvalues : t.values = t.inner.inner.toListModel.map (·.2) := Std.DTreeMap.Internal.Impl.values_eq_map_snd
  have htoList : t.toList = t.inner.inner.toListModel.map fun entry => (entry.1, entry.2) :=
    Std.DTreeMap.Internal.Impl.Const.toList_eq_toListModel_map
  rw [hvalues, htoList, List.map_map]
  rfl

/-- The sum of `f` over the values of a map. -/
def total (f : β → Nat) (t : Std.TreeMap α β cmp) : Nat := (t.toList.map fun entry => f entry.2).sum

theorem nodup_toList (t : Std.TreeMap α β cmp) : t.toList.Nodup := by
  refine t.distinct_keys_toList.imp fun hne heq => hne ?_
  rw [heq]
  exact Std.ReflCmp.compare_self

/-- Maps with the same entries have the same sum. -/
theorem total_congr {f : β → Nat} {t t' : Std.TreeMap α β cmp} (h : ∀ k : α, t[k]? = t'[k]?) : total f t = total f t' := by
  have hperm : t.toList.Perm t'.toList := by
    rw [List.perm_ext_iff_of_nodup (nodup_toList t) (nodup_toList t')]
    rintro ⟨k, v⟩
    rw [Std.TreeMap.mem_toList_iff_getElem?_eq_some, Std.TreeMap.mem_toList_iff_getElem?_eq_some, h]
  exact (hperm.map _).sum_eq

theorem total_eq_add_erase {f : β → Nat} {t : Std.TreeMap α β cmp} {k : α} {v : β} (h : t[k]? = some v) :
    total f t = f v + total f (t.erase k) := by
  have hnotMem : (k, v) ∉ (t.erase k).toList := by
    rw [Std.TreeMap.mem_toList_iff_getElem?_eq_some]
    simp
  have hperm : t.toList.Perm ((k, v) :: (t.erase k).toList) := by
    rw [List.perm_ext_iff_of_nodup (nodup_toList t) (List.nodup_cons.mpr ⟨hnotMem, nodup_toList _⟩)]
    rintro ⟨k', v'⟩
    rw [List.mem_cons, Std.TreeMap.mem_toList_iff_getElem?_eq_some, Std.TreeMap.mem_toList_iff_getElem?_eq_some,
      Std.TreeMap.getElem?_erase, Prod.mk.injEq]
    by_cases heq : cmp k k' = .eq
    · obtain rfl := Std.LawfulEqCmp.eq_of_compare heq
      rw [if_pos heq, h, Option.some.injEq]
      simp [eq_comm]
    · have hne : k' ≠ k := by
        rintro rfl
        exact heq Std.ReflCmp.compare_self
      rw [if_neg heq]
      simp [hne]
  exact (hperm.map _).sum_eq

theorem total_insert {f : β → Nat} {t : Std.TreeMap α β cmp} {k : α} {v : β} :
    total f (t.insert k v) = f v + total f (t.erase k) := by
  rw [total_eq_add_erase (k := k) (v := v) (by simp)]
  refine congrArg _ (total_congr fun k' => ?_)
  rw [Std.TreeMap.getElem?_erase, Std.TreeMap.getElem?_erase]
  split_ifs with heq
  · rfl
  · rw [Std.TreeMap.getElem?_insert, if_neg heq]

theorem total_erase_of_none {f : β → Nat} {t : Std.TreeMap α β cmp} {k : α} (h : t[k]? = none) :
    total f (t.erase k) = total f t := by
  refine total_congr fun k' => ?_
  rw [Std.TreeMap.getElem?_erase]
  split_ifs with heq
  · rw [← Std.LawfulEqCmp.eq_of_compare heq, h]
  · rfl

/-- The part of one key in the sum. -/
theorem total_eq_elim_add_erase {f : β → Nat} {t : Std.TreeMap α β cmp} (k : α) :
    total f t = (t[k]?).elim 0 f + total f (t.erase k) := by
  cases h : t[k]? with
  | none => rw [total_erase_of_none h, Option.elim_none, Nat.zero_add]
  | some v => exact total_eq_add_erase h

end

section

variable {α : Type*}

/-- The element at an index is replaced, or taken out. -/
def replaceAt (index : Nat) (new : Option α) (l : List α) : List α :=
  match new with
  | some a => l.set index a
  | none => l.eraseIdx index

theorem perm_of_getElem? {l : List α} {index : Nat} {a : α} (h : l[index]? = some a) :
    l.Perm (a :: l.eraseIdx index) := by
  obtain ⟨hlt, rfl⟩ := List.getElem?_eq_some_iff.mp h
  exact (List.getElem_cons_eraseIdx_perm hlt).symm

theorem replaceAt_perm {l : List α} {index : Nat} {a : α} (h : l[index]? = some a) (new : Option α) :
    (replaceAt index new l).Perm (new.toList ++ l.eraseIdx index) := by
  obtain ⟨hlt, rfl⟩ := List.getElem?_eq_some_iff.mp h
  cases new with
  | none => exact .refl _
  | some a => exact List.set_perm_cons_eraseIdx hlt a

theorem countP_replaceAt {l : List α} {index : Nat} {a : α} (h : l[index]? = some a) (new : Option α) (p : α → Bool) :
    (replaceAt index new l).countP p + (if p a then 1 else 0) = l.countP p + new.toList.countP p := by
  rw [(replaceAt_perm h new).countP_eq, (perm_of_getElem? h).countP_eq, List.countP_append, List.countP_cons]
  omega

theorem mem_replaceAt {l : List α} {index : Nat} {a b : α} (h : l[index]? = some a) (new : Option α)
    (hb : b ∈ replaceAt index new l) : b ∈ new ∨ b ∈ l.eraseIdx index := by
  rw [(replaceAt_perm h new).mem_iff, List.mem_append, Option.mem_toList] at hb
  exact hb

theorem count_flatMap_replaceAt {β : Type*} [BEq β] {l : List α} {index : Nat} {a : α} (h : l[index]? = some a)
    (new : Option α) (f : α → List β) (b : β) :
    ((replaceAt index new l).flatMap f).count b + (f a).count b =
      (l.flatMap f).count b + (new.toList.flatMap f).count b := by
  rw [((replaceAt_perm h new).flatMap_right f).count_eq, ((perm_of_getElem? h).flatMap_right f).count_eq,
    List.flatMap_append, List.flatMap_cons, List.count_append, List.count_append]
  omega

end

/-- Counting by cases that exclude each other. -/
theorem countP_add {α : Type*} {p q r : α → Bool} {xs : List α} (h : ∀ x ∈ xs, (p x && q x) = false ∧ (p x || q x) = r x) :
    xs.countP p + xs.countP q = xs.countP r := by
  induction xs with
  | nil => rfl
  | cons x xs ih =>
    obtain ⟨hboth, heither⟩ := h x List.mem_cons_self
    have ih := ih fun y hy => h y (List.mem_cons_of_mem _ hy)
    rw [List.countP_cons, List.countP_cons, List.countP_cons, ← ih, ← heither]
    cases hp : p x <;> cases hq : q x <;> simp_all <;> omega

end Counting
