import Mathlib.Data.List.Chain

/-!
# Cutting a list into runs

A list that is cut into parts, each a chain of a relation, and then written down without the cuts. The number of parts is enough to find the cuts again if at every cut the relation fails: then no part of another such division can go on beyond a cut, and there are just enough parts to stop at each one.
-/

namespace Runs

variable {α : Type*} {r : α → α → Prop}

/-- The relation fails between the end of the first part and the beginning of the second. -/
def Breaks (r : α → α → Prop) (a b : List α) : Prop := ∃ x ∈ a.getLast?, ∃ y ∈ b.head?, ¬ r x y

/-- Only the beginning of the second part counts. -/
theorem Breaks.of_append_eq {a b d s t : List α} (h : Breaks r a b) (hd : d ≠ []) (heq : b ++ s = d ++ t) :
    Breaks r a d := by
  obtain ⟨x, hx, y, hy, hr⟩ := h
  refine ⟨x, hx, y, ?_, hr⟩
  obtain ⟨z, d, rfl⟩ := List.exists_cons_of_ne_nil hd
  cases b with
  | nil => simp at hy
  | cons w b =>
    obtain rfl : w = z := by simpa using congrArg List.head? heq
    exact hy

/-- A chain does not cross a break. -/
theorem Breaks.not_isChain_append {a b : List α} (h : Breaks r a b) : ¬ (a ++ b).IsChain r := by
  obtain ⟨x, hx, y, hy, hr⟩ := h
  exact fun hchain => hr ((List.isChain_append.mp hchain).2.2 x hx y hy)

theorem Breaks.right_ne_nil {a b : List α} (h : Breaks r a b) : b ≠ [] := by
  rintro rfl
  obtain ⟨x, -, y, hy, -⟩ := h
  simp at hy

theorem Breaks.of_append_left {a b d : List α} (h : Breaks r (a ++ d) b) (hd : d ≠ []) : Breaks r d b := by
  obtain ⟨x, hx, hbreak⟩ := h
  exact ⟨x, by rwa [List.getLast?_append_of_ne_nil _ hd] at hx, hbreak⟩

/-- Two ways to cut a list in two: at the same place, the first one earlier, or the second one earlier. -/
theorem append_cases {a b s t : List α} (h : a ++ s = b ++ t) :
    (a = b ∧ s = t) ∨ (∃ d ≠ [], b = a ++ d ∧ s = d ++ t) ∨ ∃ d ≠ [], a = b ++ d ∧ t = d ++ s := by
  rcases List.append_eq_append_iff.mp h with ⟨d, hb, hs⟩ | ⟨d, ha, ht⟩
  · by_cases hd : d = []
    · subst hd
      exact .inl ⟨by simpa using hb.symm, by simpa using hs⟩
    · exact .inr (.inl ⟨d, hd, hb, hs⟩)
  · by_cases hd : d = []
    · subst hd
      exact .inl ⟨by simpa using ha, by simpa using ht.symm⟩
    · exact .inr (.inr ⟨d, hd, ha, ht⟩)

/-- A nonempty beginning `c` that breaks with the parts after it needs one more part than they are. -/
theorem length_lt_of_flatten {p q : List (List α)} {c : List α} (hq : ∀ x ∈ q, x.IsChain r) (hc : c ≠ [])
    (hp : (c :: p).IsChain (Breaks r)) (hflat : q.flatten = c ++ p.flatten) : p.length < q.length := by
  induction q generalizing p c with
  | nil => simp_all
  | cons b q ih =>
    cases p with
    | nil => simp
    | cons a p =>
      rw [List.isChain_cons_cons] at hp
      have hq' : ∀ x ∈ q, x.IsChain r := fun x hx => hq x (List.mem_cons_of_mem b hx)
      rcases append_cases hflat with ⟨rfl, hrest⟩ | ⟨d, hd, rfl, hrest⟩ | ⟨d, hd, rfl, hrest⟩
      · -- the first part is all of the beginning: the next one takes its place
        simpa using ih hq' hp.1.right_ne_nil hp.2 hrest
      · -- the first part is less: what is left of the beginning takes its place
        have := ih hq' hd (List.isChain_cons_cons.mpr ⟨hp.1.of_append_left hd, hp.2⟩) hrest
        simp only [List.length_cons] at this ⊢
        omega
      · exact absurd (hq _ List.mem_cons_self) (hp.1.of_append_eq hd hrest).not_isChain_append

/-- **The cuts are determined.** Parts with breaks between them are the only division of their flattening into as many chains. -/
theorem eq_of_flatten_eq {p q : List (List α)} (hq : ∀ x ∈ q, x.IsChain r) (hp : p.IsChain (Breaks r))
    (hlen : q.length = p.length) (hflat : q.flatten = p.flatten) : q = p := by
  induction p generalizing q with
  | nil => simpa using hlen
  | cons a p ih =>
    cases q with
    | nil => simp at hlen
    | cons b q =>
      have hq' : ∀ x ∈ q, x.IsChain r := fun x hx => hq x (List.mem_cons_of_mem b hx)
      have hlen' : q.length = p.length := by simpa using hlen
      rcases append_cases hflat with ⟨rfl, hrest⟩ | ⟨d, hd, rfl, hrest⟩ | ⟨d, hd, rfl, hrest⟩
      · rw [ih hq' hp.tail hlen' hrest]
      · cases p with
        | nil => simp_all
        | cons a' p =>
          rw [List.isChain_cons_cons] at hp
          have := length_lt_of_flatten hq' hd
            (List.isChain_cons_cons.mpr ⟨hp.1.of_append_left hd, hp.2⟩) hrest
          omega
      · cases p with
        | nil => simp_all
        | cons a' p =>
          exact absurd (hq _ List.mem_cons_self)
            ((List.isChain_cons_cons.mp hp).1.of_append_eq hd hrest).not_isChain_append

end Runs
