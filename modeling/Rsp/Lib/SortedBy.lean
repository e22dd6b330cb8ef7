import Mathlib.Data.List.Sort
import Mathlib.Data.List.Forall2

/-!
# Sorting by a key

Lists sorted by a natural number attached to each entry: their order is determined, and so are their first entries.
-/

namespace SortedBy

variable {α : Type}

/-- In falling order of the keys. -/
def Descends (key : α → Nat) (l : List α) : Prop := l.Pairwise fun a b => key b ≤ key a

theorem eq_of_descends {key : α → Nat} {l l' : List α} (hperm : l.Perm l') (hkeys : (l.map key).Nodup)
    (hl : Descends key l) (hl' : Descends key l') : l = l' := by
  refine hperm.eq_of_pairwise (fun a b ha hb hab hba => ?_) hl hl'
  exact List.inj_on_of_nodup_map hkeys ha (hperm.mem_iff.mpr hb) (le_antisymm hba hab)

theorem exists_descends (key : α → Nat) (l : List α) : ∃ l', l'.Perm l ∧ Descends key l' := by
  have : Std.Total fun a b : α => key b ≤ key a := ⟨fun a b => le_total (key b) (key a)⟩
  have : IsTrans α fun a b => key b ≤ key a := ⟨fun a b c hab hbc => le_trans hbc hab⟩
  exact ⟨l.insertionSort fun a b => key b ≤ key a, List.perm_insertionSort _ l, List.pairwise_insertionSort _ l⟩

/-- Sorting the first entries gives the first ones of all entries, sorted, exactly if each of them comes before each of the others. -/
theorem eq_take_iff {key : α → Nat} {entries first all : List α} {n : Nat} (hkeys : (entries.map key).Nodup)
    (hfirst : first.Perm (entries.take n)) (hfirstDescends : Descends key first) (hall : all.Perm entries)
    (hallDescends : Descends key all) :
    first = all.take n ↔ ∀ a ∈ entries.take n, ∀ b ∈ entries.drop n, key b < key a := by
  have hsplit := List.take_append_drop n entries
  constructor
  · intro heq a ha b hb
    have hne {c : α} (hc : c ∈ entries.take n) : key c ≠ key b := by
      rw [← hsplit, List.map_append] at hkeys
      exact fun h => (List.nodup_append.mp hkeys).2.2 _ (List.mem_map_of_mem hc) _ (List.mem_map_of_mem hb) h
    have hdescends : Descends key (all.take n ++ all.drop n) := by rwa [List.take_append_drop]
    have hdrop : b ∈ all.drop n := by
      have hmem : b ∈ all.take n ++ all.drop n := by
        rw [List.take_append_drop, hall.mem_iff]
        exact List.mem_of_mem_drop hb
      rw [← heq, List.mem_append, hfirst.mem_iff] at hmem
      exact hmem.resolve_left fun hmem => hne hmem rfl
    have htake : a ∈ all.take n := by rwa [← heq, hfirst.mem_iff]
    have hle := (List.pairwise_append.mp hdescends).2.2 a htake b hdrop
    have := hne ha
    omega
  · intro h
    obtain ⟨others, hothers, hothersDescends⟩ := exists_descends key (entries.drop n)
    have hdescends : Descends key (first ++ others) := by
      refine List.pairwise_append.mpr ⟨hfirstDescends, hothersDescends, fun a ha b hb => ?_⟩
      exact (h a (hfirst.mem_iff.mp ha) b (hothers.mem_iff.mp hb)).le
    have hperm : all.Perm (first ++ others) := by
      rw [← hsplit] at hall
      exact hall.trans (hfirst.append hothers).symm
    rw [eq_of_descends hperm ((hall.map key).nodup_iff.mpr hkeys) hallDescends hdescends]
    have hlength := hfirst.length_eq
    rw [List.length_take] at hlength
    by_cases hn : n ≤ entries.length
    · rw [List.take_left' (by omega)]
    · have hnone : entries.drop n = [] := List.drop_eq_nil_of_le (by omega)
      rw [hnone] at hothers
      rw [hothers.eq_nil, List.append_nil, List.take_of_length_le (by omega)]

end SortedBy
