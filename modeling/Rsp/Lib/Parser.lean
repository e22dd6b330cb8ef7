import Mathlib.Data.List.Basic
import Mathlib.Tactic

/-!
# Recursive-descent parsers

A parser moves a cursor over a text and returns a value or stops with an error. These judgements are used to reason about one: which value it reads from which text (`Accepts`), what holds of every value it returns (`Ensures`), that it never moves backwards (`Shrinks`), which lets a parser defined with a bound on its recursion be used without the bound (`Agree`), and that it looks no further than one symbol beyond what it reads (`Peeks`), or not even that far (`Delimited`), so that the same text means the same in another place.
-/

namespace RecursiveDescent

variable {σ ε α β : Type}

/-- What is left of a text, and how many symbols stand before it. -/
structure Cursor (σ : Type) where
  pos : Nat
  rest : List σ
deriving DecidableEq, Repr

def Cursor.advance (c : Cursor σ) (n : Nat) : Cursor σ := ⟨c.pos + n, c.rest.drop n⟩

abbrev Parser (σ ε : Type) := StateT (Cursor σ) (Except ε)

theorem bind_ok {p : Parser σ ε α} {f : α → Parser σ ε β} {c c' : Cursor σ} {b : β} :
    (p >>= f) c = .ok (b, c') ↔ ∃ a middle, p c = .ok (a, middle) ∧ f a middle = .ok (b, c') := by
  have hbind : (p >>= f) c = (p c >>= fun result => f result.1 result.2) := rfl
  rw [hbind]
  cases hp : p c with
  | error e => simp [bind, Except.bind]
  | ok result =>
    obtain ⟨a, middle⟩ := result
    simp [bind, Except.bind]

theorem bind_of_ok {p : Parser σ ε α} {f : α → Parser σ ε β} {c c' : Cursor σ} {a : α} (h : p c = .ok (a, c')) :
    (p >>= f) c = f a c' := by
  have hbind : (p >>= f) c = (p c >>= fun result => f result.1 result.2) := rfl
  rw [hbind, h]
  rfl

theorem pure_ok {a b : α} {c c' : Cursor σ} :
    (pure a : Parser σ ε α) c = .ok (b, c') ↔ a = b ∧ c = c' := by
  have hpure : (pure a : Parser σ ε α) c = .ok (a, c) := rfl
  rw [hpure, Except.ok.injEq, Prod.mk.injEq]

/-! ### Primitives -/

namespace Parser

def rest : Parser σ ε (List σ) := fun c => .ok (c.rest, c)

def advance (n : Nat) : Parser σ ε Unit := fun c => .ok ((), c.advance n)

/-- Reads as many symbols satisfying `p` as there are. -/
def takeWhile (p : σ → Bool) : Parser σ ε (List σ) := fun c =>
  .ok (c.rest.takeWhile p, c.advance (c.rest.takeWhile p).length)

def skipWhile (p : σ → Bool) : Parser σ ε Unit := do
  let _ ← takeWhile p

/-- Stops with an error that may name the position. -/
def fail (error : Nat → ε) : Parser σ ε α := fun c => .error (error c.pos)

end Parser

/-- An alternative introduced by a keyword, of which `skip` symbols are passed before `body` runs. -/
structure Rule (σ ε α : Type) where
  keyword : List σ
  skip : Nat
  body : Parser σ ε α
  skip_pos : 0 < skip := by decide
  skip_le : skip ≤ keyword.length := by decide

/-- The first rule whose keyword comes next. -/
def choose [BEq σ] : List (Rule σ ε α) → Parser σ ε α → Parser σ ε α
  | [], otherwise => otherwise
  | rule :: rules, otherwise => fun c =>
    if rule.keyword.isPrefixOf c.rest then rule.body (c.advance rule.skip) else choose rules otherwise c

theorem choose_of_isPrefixOf [BEq σ] {rule : Rule σ ε α} {rules : List (Rule σ ε α)} {otherwise : Parser σ ε α}
    {c : Cursor σ} (h : rule.keyword.isPrefixOf c.rest) :
    choose (rule :: rules) otherwise c = rule.body (c.advance rule.skip) :=
  if_pos h

theorem choose_of_not_isPrefixOf [BEq σ] {rule : Rule σ ε α} {rules : List (Rule σ ε α)}
    {otherwise : Parser σ ε α} {c : Cursor σ} (h : ¬ rule.keyword.isPrefixOf c.rest) :
    choose (rule :: rules) otherwise c = choose rules otherwise c :=
  if_neg h

/-- The rule that was chosen, or none. -/
theorem choose_ok [DecidableEq σ] {rules : List (Rule σ ε α)} {otherwise : Parser σ ε α} {c c' : Cursor σ} {a : α}
    (h : choose rules otherwise c = .ok (a, c')) :
    (∃ rule ∈ rules, rule.keyword <+: c.rest ∧ rule.body (c.advance rule.skip) = .ok (a, c')) ∨
      otherwise c = .ok (a, c') := by
  induction rules with
  | nil => exact .inr h
  | cons rule rules ih =>
    by_cases hprefix : rule.keyword.isPrefixOf c.rest
    · rw [choose_of_isPrefixOf hprefix] at h
      exact .inl ⟨rule, List.mem_cons_self, List.isPrefixOf_iff_prefix.mp hprefix, h⟩
    · rw [choose_of_not_isPrefixOf hprefix] at h
      rcases ih h with ⟨chosen, hmem, hchosen⟩ | hnone
      · exact .inl ⟨chosen, List.mem_cons_of_mem rule hmem, hchosen⟩
      · exact .inr hnone

/-! ### What a parser reads -/

/-- The parser reads `a` from the text `s`, whenever what follows satisfies `next`. -/
def Accepts (p : Parser σ ε α) (s : List σ) (a : α) (next : List σ → Prop) : Prop :=
  ∀ pos rest, next rest → p ⟨pos, s ++ rest⟩ = .ok (a, ⟨pos + s.length, rest⟩)

section Accepts

variable {p : Parser σ ε α} {f : α → Parser σ ε β} {s s' : List σ} {a : α} {b : β} {next next' : List σ → Prop}

theorem Accepts.mono (h : Accepts p s a next) (hnext : ∀ rest, next' rest → next rest) : Accepts p s a next' :=
  fun pos rest hrest => h pos rest (hnext rest hrest)

theorem accepts_pure : Accepts (pure a : Parser σ ε α) [] a next := fun _ _ _ => rfl

theorem accepts_pure_of_eq {a' : α} (h : a' = a) : Accepts (pure a' : Parser σ ε α) [] a next := h ▸ accepts_pure

theorem Accepts.bind (hp : Accepts p s a next) (hf : Accepts (f a) s' b next')
    (hnext : ∀ rest, next' rest → next (s' ++ rest)) : Accepts (p >>= f) (s ++ s') b next' := by
  intro pos rest hrest
  rw [List.append_assoc, bind_of_ok (hp pos (s' ++ rest) (hnext rest hrest)), hf _ rest hrest, List.length_append,
    Nat.add_assoc]

/-- The first parser reads nothing. -/
theorem Accepts.bind_nil (hp : Accepts p [] a next) (hf : Accepts (f a) s b next')
    (hnext : ∀ rest, next' rest → next (s ++ rest)) : Accepts (p >>= f) s b next' :=
  hp.bind hf hnext

/-- The second parser reads nothing. -/
theorem Accepts.bind_end (hp : Accepts p s a next) (hf : Accepts (f a) [] b next')
    (hnext : ∀ rest, next' rest → next rest) : Accepts (p >>= f) s b next' := by
  have h := hp.bind hf hnext
  rwa [List.append_nil] at h

theorem accepts_advance : Accepts (Parser.advance s.length : Parser σ ε Unit) s () next := by
  intro pos rest _
  have hdrop : (s ++ rest).drop s.length = rest := List.drop_left
  rw [Parser.advance, Cursor.advance, hdrop]

/-- The second parser looks at the whole text that is left. -/
theorem accepts_rest_bind {f : List σ → Parser σ ε β}
    (h : ∀ rest, next rest → Accepts (f (s ++ rest)) s b (· = rest)) : Accepts (Parser.rest >>= f) s b next := by
  intro pos rest hrest
  rw [bind_of_ok (rfl : Parser.rest _ = .ok (s ++ rest, ⟨pos, s ++ rest⟩))]
  exact h rest hrest pos rest rfl

theorem accepts_get_bind {f : Cursor σ → Parser σ ε β} (h : ∀ c, Accepts (f c) s b next) :
    Accepts (get >>= f) s b next := by
  intro pos rest hrest
  exact h ⟨pos, s ++ rest⟩ pos rest hrest

/-- The text that a run of symbols satisfying `test` ends before. -/
def Stops (test : σ → Bool) (rest : List σ) : Prop := ∀ x ∈ rest.head?, test x = false

theorem takeWhile_append_of_stops {test : σ → Bool} {rest : List σ} (hs : ∀ x ∈ s, test x)
    (hrest : Stops test rest) : (s ++ rest).takeWhile test = s := by
  rw [List.takeWhile_append_of_pos hs]
  cases rest with
  | nil => rw [List.takeWhile_nil, List.append_nil]
  | cons x rest =>
    rw [List.takeWhile_cons_of_neg (by rw [hrest x rfl]; exact Bool.false_ne_true), List.append_nil]

theorem accepts_takeWhile {test : σ → Bool} (hs : ∀ x ∈ s, test x) :
    Accepts (Parser.takeWhile test : Parser σ ε (List σ)) s s (Stops test) := by
  intro pos rest hrest
  have hdrop : (s ++ rest).drop s.length = rest := List.drop_left
  rw [Parser.takeWhile, takeWhile_append_of_stops hs hrest, Cursor.advance, hdrop]

theorem accepts_skipWhile {test : σ → Bool} (hs : ∀ x ∈ s, test x) :
    Accepts (Parser.skipWhile test : Parser σ ε Unit) s () (Stops test) :=
  (accepts_takeWhile hs).bind_end (accepts_pure) fun _ hrest => hrest

/-- Neither text is the beginning of the other. -/
def Incomparable (s t : List σ) : Prop := ¬ s <+: t ∧ ¬ t <+: s

instance [DecidableEq σ] (s t : List σ) : Decidable (Incomparable s t) := inferInstanceAs (Decidable (_ ∧ _))

theorem Incomparable.of_map {τ : Type} {f : σ → τ} {s t : List σ} (h : Incomparable (s.map f) (t.map f)) :
    Incomparable s t :=
  ⟨fun hle => h.1 (hle.map f), fun hle => h.2 (hle.map f)⟩

theorem Incomparable.not_isPrefixOf [DecidableEq σ] {s t : List σ} (h : Incomparable s t) (rest : List σ) :
    ¬ s.isPrefixOf (t ++ rest) := by
  rw [List.isPrefixOf_iff_prefix]
  intro hprefix
  rcases Nat.le_total s.length t.length with hle | hle
  · exact h.1 (List.prefix_of_prefix_length_le hprefix (List.prefix_append t rest) hle)
  · exact h.2 (List.prefix_of_prefix_length_le (List.prefix_append t rest) hprefix hle)

/-- No rule applies when what comes next cannot be confused with a keyword. -/
theorem Accepts.otherwise [DecidableEq σ] {rules : List (Rule σ ε α)} {q : Parser σ ε α} (word : List σ)
    (hrules : ∀ keyword ∈ rules.map Rule.keyword, Incomparable keyword word)
    (h : Accepts q (word ++ s) a next) : Accepts (choose rules q) (word ++ s) a next := by
  intro pos rest hrest
  induction rules with
  | nil => exact h pos rest hrest
  | cons rule rules ih =>
    rw [List.map_cons, List.forall_mem_cons] at hrules
    have hno : ¬ rule.keyword.isPrefixOf ((word ++ s) ++ rest) := by
      rw [List.append_assoc]
      exact hrules.1.not_isPrefixOf _
    rw [choose_of_not_isPrefixOf hno]
    exact ih hrules.2

theorem Accepts.choose [DecidableEq σ] {rules : List (Rule σ ε α)} {q : Parser σ ε α} {rule : Rule σ ε α}
    (hrules : (rules.map Rule.keyword).Pairwise Incomparable) (hrule : rule ∈ rules)
    (h : Accepts rule.body (rule.keyword.drop rule.skip ++ s) a next) :
    Accepts (choose rules q) (rule.keyword ++ s) a next := by
  intro pos rest hrest
  induction rules with
  | nil => cases hrule
  | cons first rules ih =>
    rw [List.map_cons, List.pairwise_cons] at hrules
    rcases List.mem_cons.mp hrule with rfl | hmem
    · have hyes : rule.keyword.isPrefixOf ((rule.keyword ++ s) ++ rest) := by
        rw [List.isPrefixOf_iff_prefix, List.append_assoc]
        exact List.prefix_append _ _
      have hdrop : ((rule.keyword ++ s) ++ rest).drop rule.skip = (rule.keyword.drop rule.skip ++ s) ++ rest := by
        rw [List.append_assoc, List.drop_append_of_le_length rule.skip_le, List.append_assoc]
      have hlength : pos + rule.skip + (rule.keyword.drop rule.skip ++ s).length = pos + (rule.keyword ++ s).length := by
        have hskip := rule.skip_le
        simp only [List.length_append, List.length_drop]
        omega
      rw [choose_of_isPrefixOf hyes, Cursor.advance]
      dsimp only
      rw [hdrop, h _ rest hrest, hlength]
    · have hno : ¬ first.keyword.isPrefixOf ((rule.keyword ++ s) ++ rest) := by
        rw [List.append_assoc]
        exact (hrules.1 _ (List.mem_map_of_mem hmem)).not_isPrefixOf _
      rw [choose_of_not_isPrefixOf hno]
      exact ih hrules.2 hmem

end Accepts

/-! ### What holds of the values a parser returns -/

def Ensures (p : Parser σ ε α) (post : α → Prop) : Prop := ∀ c a c', p c = .ok (a, c') → post a

section Ensures

variable {p : Parser σ ε α} {f : α → Parser σ ε β} {post : β → Prop} {mid : α → Prop}

theorem Ensures.bind (hp : Ensures p mid) (hf : ∀ a, mid a → Ensures (f a) post) : Ensures (p >>= f) post := by
  intro c b c' h
  obtain ⟨a, middle, hpa, hfa⟩ := bind_ok.mp h
  exact hf a (hp c a middle hpa) middle b c' hfa

/-- Nothing needs to be known of the first value. -/
theorem ensures_bind (hf : ∀ a, Ensures (f a) post) : Ensures (p >>= f) post := by
  intro c b c' h
  obtain ⟨a, middle, -, hfa⟩ := bind_ok.mp h
  exact hf a middle b c' hfa

theorem ensures_pure {b : β} (h : post b) : Ensures (pure b : Parser σ ε β) post := by
  intro c b' c' heq
  exact (pure_ok.mp heq).1 ▸ h

theorem ensures_fail {error : Nat → ε} : Ensures (Parser.fail error : Parser σ ε β) post := by
  intro c b c' h
  cases h

theorem ensures_throw {error : ε} : Ensures (throw error : Parser σ ε β) post := by
  intro c b c' h
  cases h

theorem ensures_ite {condition : Prop} [Decidable condition] {q r : Parser σ ε β} (hq : Ensures q post)
    (hr : Ensures r post) : Ensures (if condition then q else r) post := by
  split_ifs
  · exact hq
  · exact hr

theorem ensures_takeWhile {test : σ → Bool} :
    Ensures (Parser.takeWhile test : Parser σ ε (List σ)) fun s => ∀ x ∈ s, test x := by
  intro c s c' h
  obtain ⟨rfl, -⟩ := Prod.mk.inj (Except.ok.inj h)
  exact List.all_eq_true.mp List.all_takeWhile

theorem ensures_fail_bind {error : Nat → ε} {post : β → Prop} :
    Ensures ((Parser.fail error : Parser σ ε α) >>= f) post := by
  intro c b c' h
  obtain ⟨_, _, hfail, _⟩ := bind_ok.mp h
  cases hfail

theorem ensures_throw_bind {error : ε} {post : β → Prop} :
    Ensures ((throw error : Parser σ ε α) >>= f) post := by
  intro c b c' h
  obtain ⟨_, _, hthrow, _⟩ := bind_ok.mp h
  cases hthrow

theorem ensures_choose [BEq σ] {rules : List (Rule σ ε β)} {q : Parser σ ε β}
    (hrules : ∀ rule ∈ rules, Ensures rule.body post) (hq : Ensures q post) : Ensures (choose rules q) post := by
  induction rules with
  | nil => exact hq
  | cons rule rules ih =>
    intro c b c' h
    by_cases hprefix : rule.keyword.isPrefixOf c.rest
    · rw [choose_of_isPrefixOf hprefix] at h
      exact hrules rule List.mem_cons_self _ b c' h
    · rw [choose_of_not_isPrefixOf hprefix] at h
      exact ih (fun r hr => hrules r (List.mem_cons_of_mem rule hr)) c b c' h

end Ensures

/-! ### Progress -/

def Shrinks (p : Parser σ ε α) : Prop := ∀ c a c', p c = .ok (a, c') → c'.rest.length ≤ c.rest.length

section Shrinks

variable {p : Parser σ ε α} {f : α → Parser σ ε β}

theorem Shrinks.bind (hp : Shrinks p) (hf : ∀ a, Shrinks (f a)) : Shrinks (p >>= f) := by
  intro c b c' h
  obtain ⟨a, middle, hpa, hfa⟩ := bind_ok.mp h
  exact (hf a middle b c' hfa).trans (hp c a middle hpa)

theorem shrinks_pure {a : α} : Shrinks (pure a : Parser σ ε α) := by
  intro c b c' h
  rw [(pure_ok.mp h).2]

theorem shrinks_fail {error : Nat → ε} : Shrinks (Parser.fail error : Parser σ ε α) := by
  intro c a c' h
  cases h

theorem shrinks_throw {error : ε} : Shrinks (throw error : Parser σ ε α) := by
  intro c a c' h
  cases h

theorem shrinks_fail_bind {error : Nat → ε} : Shrinks ((Parser.fail error : Parser σ ε α) >>= f) := by
  intro c b c' h
  obtain ⟨_, _, hfail, _⟩ := bind_ok.mp h
  cases hfail

theorem shrinks_ite {condition : Prop} [Decidable condition] {q r : Parser σ ε α} (hq : Shrinks q) (hr : Shrinks r) :
    Shrinks (if condition then q else r) := by
  split_ifs
  · exact hq
  · exact hr

theorem length_advance (c : Cursor σ) (n : Nat) : (c.advance n).rest.length = c.rest.length - n := by
  rw [Cursor.advance, List.length_drop]

theorem shrinks_advance {n : Nat} : Shrinks (Parser.advance n : Parser σ ε Unit) := by
  intro c a c' h
  obtain ⟨-, rfl⟩ := Prod.mk.inj (Except.ok.inj h)
  rw [length_advance]
  omega

theorem shrinks_rest : Shrinks (Parser.rest : Parser σ ε (List σ)) := by
  intro c a c' h
  obtain ⟨-, rfl⟩ := Prod.mk.inj (Except.ok.inj h)
  exact Nat.le_refl _

theorem shrinks_takeWhile {test : σ → Bool} : Shrinks (Parser.takeWhile test : Parser σ ε (List σ)) := by
  intro c a c' h
  obtain ⟨-, rfl⟩ := Prod.mk.inj (Except.ok.inj h)
  rw [length_advance]
  omega

theorem shrinks_skipWhile {test : σ → Bool} : Shrinks (Parser.skipWhile test : Parser σ ε Unit) :=
  shrinks_takeWhile.bind fun _ => shrinks_pure

theorem shrinks_choose [BEq σ] {rules : List (Rule σ ε α)} {q : Parser σ ε α}
    (hrules : ∀ rule ∈ rules, Shrinks rule.body) (hq : Shrinks q) : Shrinks (choose rules q) := by
  induction rules with
  | nil => exact hq
  | cons rule rules ih =>
    intro c a c' h
    by_cases hprefix : rule.keyword.isPrefixOf c.rest
    · rw [choose_of_isPrefixOf hprefix] at h
      have hbody := hrules rule List.mem_cons_self _ a c' h
      rw [length_advance] at hbody
      omega
    · rw [choose_of_not_isPrefixOf hprefix] at h
      exact ih (fun r hr => hrules r (List.mem_cons_of_mem rule hr)) c a c' h

end Shrinks

/-! ### Bounds on the recursion -/

/-- The parsers do the same wherever at most `n` symbols are left. -/
def Agree (n : Nat) (p q : Parser σ ε α) : Prop := ∀ c, c.rest.length ≤ n → p c = q c

section Agree

variable {n m : Nat} {p q : Parser σ ε α} {f g : α → Parser σ ε β}

theorem agree_refl : Agree n p p := fun _ _ => rfl

theorem Agree.mono (h : Agree n p q) (hle : m ≤ n) : Agree m p q := fun c hc => h c (hc.trans hle)

theorem Agree.bind (hp : Agree n p q) (hq : Shrinks q) (hf : ∀ a, Agree n (f a) (g a)) :
    Agree n (p >>= f) (q >>= g) := by
  intro c hc
  have hbind (p : Parser σ ε α) (f : α → Parser σ ε β) :
      (p >>= f) c = (p c >>= fun result => f result.1 result.2) := rfl
  rw [hbind, hbind, hp c hc]
  cases hresult : q c with
  | error e => rfl
  | ok result => exact hf result.1 result.2 ((hq c result.1 result.2 hresult).trans hc)

/-- The bodies of the rules need to agree only where a keyword has been read. -/
theorem Agree.choose [DecidableEq σ] {rules rules' : List (Rule σ ε α)} {r r' : Parser σ ε α}
    (hrules : List.Forall₂ (fun rule rule' => rule.keyword = rule'.keyword ∧ rule.skip = rule'.skip ∧
      ∀ m < n, Agree m rule.body rule'.body) rules rules') (hr : Agree n r r') :
    Agree n (choose rules r) (choose rules' r') := by
  induction hrules with
  | nil => exact hr
  | @cons rule rule' rules rules' hrule _ ih =>
    intro c hc
    obtain ⟨hkeyword, hskip, hbody⟩ := hrule
    by_cases hprefix : rule.keyword.isPrefixOf c.rest
    · rw [choose_of_isPrefixOf hprefix, choose_of_isPrefixOf (hkeyword ▸ hprefix), hskip]
      have hle := (List.isPrefixOf_iff_prefix.mp hprefix).length_le
      have hpos := rule.skip_pos
      have hskipLe := rule.skip_le
      refine hbody (c.rest.length - rule'.skip) (by omega) _ ?_
      rw [length_advance]
    · rw [choose_of_not_isPrefixOf hprefix, choose_of_not_isPrefixOf (hkeyword ▸ hprefix)]
      exact ih c hc

end Agree

/-! ### Lookahead -/

/-- What the parser returns depends on the text it reads and on the symbol after it. -/
def Peeks (p : Parser σ ε α) : Prop :=
  ∀ c a c', p c = .ok (a, c') → ∃ s, c.rest = s ++ c'.rest ∧ Accepts p s a (fun rest => rest.head? = c'.rest.head?)

/-- What the parser returns depends on the text it reads alone, and it reads something. -/
def Delimited (p : Parser σ ε α) : Prop :=
  ∀ c a c', p c = .ok (a, c') → ∃ s, s ≠ [] ∧ c.rest = s ++ c'.rest ∧ Accepts p s a (fun _ => True)

section Lookahead

variable {p : Parser σ ε α} {f : α → Parser σ ε β}

theorem Delimited.peeks (hp : Delimited p) : Peeks p := by
  intro c a c' h
  obtain ⟨s, -, hrest, haccepts⟩ := hp c a c' h
  exact ⟨s, hrest, haccepts.mono fun _ _ => trivial⟩

theorem Peeks.shrinks (hp : Peeks p) : Shrinks p := by
  intro c a c' h
  obtain ⟨s, hrest, -⟩ := hp c a c' h
  rw [hrest, List.length_append]
  omega

theorem head?_append_congr {s rest rest' : List σ} (h : rest.head? = rest'.head?) :
    (s ++ rest).head? = (s ++ rest').head? := by
  cases s with
  | nil => exact h
  | cons x s => rfl

theorem Peeks.bind (hp : Peeks p) (hf : ∀ a, Peeks (f a)) : Peeks (p >>= f) := by
  intro c b c' h
  obtain ⟨a, middle, hpa, hfa⟩ := bind_ok.mp h
  obtain ⟨s, hs, hps⟩ := hp c a middle hpa
  obtain ⟨s', hs', hfs⟩ := hf a middle b c' hfa
  refine ⟨s ++ s', by rw [hs, hs', List.append_assoc], hps.bind hfs fun rest hrest => ?_⟩
  rw [hs']
  exact head?_append_congr hrest

/-- The symbol that the first parser looks at is one that the second reads. -/
theorem Peeks.bind_delimited (hp : Peeks p) (hf : ∀ a, Delimited (f a)) : Delimited (p >>= f) := by
  intro c b c' h
  obtain ⟨a, middle, hpa, hfa⟩ := bind_ok.mp h
  obtain ⟨s, hs, hps⟩ := hp c a middle hpa
  obtain ⟨s', hne, hs', hfs⟩ := hf a middle b c' hfa
  refine ⟨s ++ s', by simp [hne], by rw [hs, hs', List.append_assoc], hps.bind hfs fun rest _ => ?_⟩
  obtain ⟨x, s', rfl⟩ := List.exists_cons_of_ne_nil hne
  rw [hs']
  rfl

theorem peeks_pure {a : α} : Peeks (pure a : Parser σ ε α) := by
  intro c b c' h
  obtain ⟨rfl, rfl⟩ := pure_ok.mp h
  exact ⟨[], rfl, accepts_pure⟩

theorem Delimited.map (hp : Delimited p) {g : α → β} : Delimited (do return g (← p)) := by
  intro c b c' h
  obtain ⟨a, middle, hpa, hpure⟩ := bind_ok.mp h
  obtain ⟨rfl, rfl⟩ := pure_ok.mp hpure
  obtain ⟨s, hne, hs, hps⟩ := hp c a middle hpa
  exact ⟨s, hne, hs, hps.bind_end accepts_pure fun _ _ => trivial⟩

theorem peeks_fail_bind {error : Nat → ε} : Peeks ((Parser.fail error : Parser σ ε α) >>= f) := by
  intro c b c' h
  obtain ⟨_, _, hfail, _⟩ := bind_ok.mp h
  cases hfail

theorem peeks_ite {condition : Prop} [Decidable condition] {q r : Parser σ ε α} (hq : Peeks q) (hr : Peeks r) :
    Peeks (if condition then q else r) := by
  split_ifs
  · exact hq
  · exact hr

theorem takeWhile_append_drop (test : σ → Bool) (text : List σ) :
    text = text.takeWhile test ++ text.drop (text.takeWhile test).length := by
  conv_lhs => rw [← List.takeWhile_append_dropWhile (p := test) (l := text)]
  rw [List.dropWhile_eq_drop_findIdx_not, List.takeWhile_eq_take_findIdx_not, List.length_take,
    Nat.min_eq_left List.findIdx_le_length]

theorem stops_drop_takeWhile (test : σ → Bool) (text : List σ) :
    Stops test (text.drop (text.takeWhile test).length) := by
  induction text with
  | nil => exact fun x hx => by cases hx
  | cons c text ih =>
    by_cases hc : test c = true
    · rwa [List.takeWhile_cons_of_pos hc, List.length_cons, List.drop_succ_cons]
    · rw [List.takeWhile_cons_of_neg hc, List.length_nil, List.drop_zero]
      intro x hx
      obtain rfl := Option.some.inj hx
      exact Bool.eq_false_iff.mpr hc

theorem peeks_takeWhile {test : σ → Bool} : Peeks (Parser.takeWhile test : Parser σ ε (List σ)) := by
  intro c a c' h
  obtain ⟨rfl, rfl⟩ := Prod.mk.inj (Except.ok.inj h)
  refine ⟨_, takeWhile_append_drop test c.rest, ?_⟩
  refine (accepts_takeWhile (List.all_eq_true.mp List.all_takeWhile)).mono fun rest hrest x hx => ?_
  rw [hrest] at hx
  exact stops_drop_takeWhile test c.rest x hx

theorem peeks_skipWhile {test : σ → Bool} : Peeks (Parser.skipWhile test : Parser σ ε Unit) :=
  peeks_takeWhile.bind fun _ => peeks_pure

end Lookahead

end RecursiveDescent
