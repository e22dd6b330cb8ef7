import Rsp.Endorsement.TextLookahead

/-!
# The grammar that the three tree languages share

The bound on the recursion makes no difference, so the parser satisfies the recursion of the source. A property of trees that the leaves have and the operators preserve holds of every parsed tree; being read back from the printed form is preserved by the operators, so that for each language only its leaves are left to be checked.
-/

namespace Rsp.ErdText

open RecursiveDescent Proto

variable {T : Type}

/-! ### The bound on the recursion -/

theorem shrinks_parseBinaryArgs {p : Parser T} (h : Shrinks p) : Shrinks (parseBinaryArgs p) :=
  (shrinks_expect _).bind fun _ => h.bind fun _ => (shrinks_closeWith _).bind fun _ => h.bind fun _ =>
    (shrinks_closeWith _).bind fun _ => shrinks_pure

theorem shrinks_loop {p : Parser T} (h : Shrinks p) (bound : Nat) (terms : List T) :
    Shrinks (parseNaryArgs.loop p bound terms) := by
  induction bound generalizing terms with
  | zero => exact shrinks_throw
  | succ bound ih =>
    refine h.bind fun term => shrinks_skipWhile.bind fun _ => shrinks_peek.bind fun _ => ?_
    exact shrinks_ite (shrinks_advance.bind fun _ => ih _) ((shrinks_expect _).bind fun _ => shrinks_pure)

theorem shrinks_parseNaryArgs {p : Parser T} (h : Shrinks p) : Shrinks (parseNaryArgs p) := by
  refine (shrinks_expect _).bind fun _ => shrinks_skipWhile.bind fun _ => shrinks_peek.bind fun _ => ?_
  exact shrinks_ite (shrinks_advance.bind fun _ => shrinks_pure) (shrinks_rest.bind fun _ => shrinks_loop h _ _)

theorem agree_parseBinaryArgs {p q : Parser T} {n : Nat} (h : Agree n p q) (hq : Shrinks q) :
    Agree n (parseBinaryArgs p) (parseBinaryArgs q) :=
  agree_refl.bind (shrinks_expect _) fun _ => h.bind hq fun _ => agree_refl.bind (shrinks_closeWith _) fun _ =>
    h.bind hq fun _ => agree_refl

/-- A round that goes on has read a comma. -/
theorem agree_loop {p q : Parser T} (hq : Shrinks q) (n : Nat) :
    ∀ bound bound' terms, Agree n p q → n < bound → n < bound' →
      Agree n (parseNaryArgs.loop p bound terms) (parseNaryArgs.loop q bound' terms) := by
  induction n using Nat.strong_induction_on with
  | _ n ih =>
    intro bound bound' terms h hbound hbound'
    obtain ⟨bound, rfl⟩ := Nat.exists_eq_add_one.mpr (Nat.zero_lt_of_lt hbound)
    obtain ⟨bound', rfl⟩ := Nat.exists_eq_add_one.mpr (Nat.zero_lt_of_lt hbound')
    refine h.bind hq fun term => agree_refl.bind shrinks_skipWhile fun _ => ?_
    intro c hc
    have hpeek : peek c = .ok (c.rest.head?.getD 0, c) := rfl
    rw [bind_of_ok hpeek, bind_of_ok hpeek]
    by_cases hcomma : c.rest.head?.getD 0 = char ','
    · rw [if_pos hcomma, if_pos hcomma]
      have hlength : 0 < c.rest.length := by
        rw [List.length_pos_iff]
        rintro hnil
        rw [hnil] at hcomma
        exact absurd hcomma (by decide)
      have hadvance : (Parser.advance 1 : Parser Unit) c = .ok ((), c.advance 1) := rfl
      rw [bind_of_ok hadvance, bind_of_ok hadvance]
      refine ih (n - 1) (by omega) bound bound' _ (h.mono (by omega)) (by omega) (by omega) _ ?_
      rw [length_advance]
      omega
    · rw [if_neg hcomma, if_neg hcomma]

theorem agree_parseNaryArgs {p q : Parser T} {n : Nat} (h : Agree n p q) (hq : Shrinks q) :
    Agree n (parseNaryArgs p) (parseNaryArgs q) := by
  refine agree_refl.bind (shrinks_expect _) fun _ => agree_refl.bind shrinks_skipWhile fun _ =>
    agree_refl.bind shrinks_peek fun x => ?_
  by_cases hx : x = char ')'
  · rw [if_pos hx, if_pos hx]
    exact agree_refl
  · rw [if_neg hx, if_neg hx]
    intro c hc
    have hrest : (Parser.rest : Parser Bytes) c = .ok (c.rest, c) := rfl
    rw [bind_of_ok hrest, bind_of_ok hrest]
    exact agree_loop hq c.rest.length _ _ _ (h.mono hc) (Nat.lt_succ_self _) (Nat.lt_succ_self _) c (Nat.le_refl _)

namespace Grammar

variable {g : Grammar T}

/-- The alternatives of the language itself do not move backwards. -/
def Forward (g : Grammar T) : Prop := ∀ rule ∈ g.atoms ++ g.leaves, Shrinks rule.body

theorem shrinks_constants : Shrinks g.constants := by
  refine shrinks_rest.bind fun _ => shrinks_ite (shrinks_advance.bind fun _ => shrinks_pure) ?_
  exact shrinks_ite (shrinks_advance.bind fun _ => shrinks_pure) shrinks_fail

theorem shrinks_operators {p : Parser T} (h : Shrinks p) : ∀ rule ∈ g.operators p, Shrinks rule.body := by
  have hbinary {next : T × T → Parser T} (hnext : ∀ args, Shrinks (next args)) : Shrinks (parseBinaryArgs p >>= next) :=
    (shrinks_parseBinaryArgs h).bind hnext
  have hnary (node : List T → T) : Shrinks (do return node (← parseNaryArgs p)) :=
    (shrinks_parseNaryArgs h).bind fun _ => shrinks_pure
  simp only [operators, List.forall_mem_cons]
  exact ⟨hbinary fun _ => shrinks_pure, hbinary fun _ => shrinks_pure, hbinary fun _ => shrinks_pure, hnary _, hnary _,
    List.forall_mem_nil _⟩

theorem shrinks_step (hg : g.Forward) {p : Parser T} (h : Shrinks p) : Shrinks (g.step p) := by
  refine shrinks_skipWhile.bind fun _ => shrinks_choose ?_ shrinks_constants
  intro rule hrule
  rw [rules, List.mem_append, List.mem_append] at hrule
  rcases hrule with (hatom | hoperator) | hleaf
  · exact hg rule (List.mem_append_left _ hatom)
  · exact shrinks_operators h rule hoperator
  · exact hg rule (List.mem_append_right _ hleaf)

theorem shrinks_parseWithin (hg : g.Forward) (bound : Nat) : Shrinks (g.parseWithin bound) := by
  induction bound with
  | zero => exact shrinks_throw
  | succ bound ih => exact shrinks_step hg ih

theorem shrinks_parse (hg : g.Forward) : Shrinks g.parse := fun c => shrinks_parseWithin hg _ c

/-- A rule whose body comes from two parsers that agree. -/
def SameRule (n : Nat) (rule rule' : Rule T) : Prop :=
  rule.keyword = rule'.keyword ∧ rule.skip = rule'.skip ∧ ∀ m < n, Agree m rule.body rule'.body

theorem sameRules_refl (n : Nat) (rules : List (Rule T)) : List.Forall₂ (SameRule n) rules rules :=
  List.forall₂_same.mpr fun _ _ => ⟨rfl, rfl, fun _ _ => agree_refl⟩

theorem sameRules_operators {p q : Parser T} {n : Nat} (h : ∀ m < n, Agree m p q) (hq : Shrinks q) :
    List.Forall₂ (SameRule n) (g.operators p) (g.operators q) := by
  have hbinary (next : T × T → Parser T) (m : Nat) (hm : m < n) :
      Agree m (parseBinaryArgs p >>= next) (parseBinaryArgs q >>= next) :=
    (agree_parseBinaryArgs (h m hm) hq).bind (shrinks_parseBinaryArgs hq) fun _ => agree_refl
  have hnary (node : List T → T) (m : Nat) (hm : m < n) :
      Agree m (do return node (← parseNaryArgs p)) (do return node (← parseNaryArgs q)) :=
    (agree_parseNaryArgs (h m hm) hq).bind (shrinks_parseNaryArgs hq) fun _ => agree_refl
  exact .cons ⟨rfl, rfl, hbinary _⟩ (.cons ⟨rfl, rfl, hbinary _⟩ (.cons ⟨rfl, rfl, hbinary _⟩
    (.cons ⟨rfl, rfl, hnary _⟩ (.cons ⟨rfl, rfl, hnary _⟩ .nil))))

theorem agree_step {p q : Parser T} {n : Nat} (h : ∀ m < n, Agree m p q) (hq : Shrinks q) :
    Agree n (g.step p) (g.step q) := by
  refine agree_refl.bind shrinks_skipWhile fun _ => Agree.choose ?_ agree_refl
  exact List.rel_append (List.rel_append (sameRules_refl n _) (sameRules_operators h hq)) (sameRules_refl n _)

theorem agree_parseWithin (hg : g.Forward) (n : Nat) :
    ∀ bound bound', n < bound → n < bound' → Agree n (g.parseWithin bound) (g.parseWithin bound') := by
  induction n using Nat.strong_induction_on with
  | _ n ih =>
    intro bound bound' hbound hbound'
    obtain ⟨bound, rfl⟩ := Nat.exists_eq_add_one.mpr (Nat.zero_lt_of_lt hbound)
    obtain ⟨bound', rfl⟩ := Nat.exists_eq_add_one.mpr (Nat.zero_lt_of_lt hbound')
    refine agree_step (fun m hm => ih m hm bound bound' (by omega) (by omega)) (shrinks_parseWithin hg bound')

/-- The recursion of the source, which has no bound. -/
theorem parse_eq (hg : g.Forward) : g.parse = g.step g.parse := by
  funext c
  refine agree_step (p := g.parseWithin c.rest.length) (n := c.rest.length) ?_ (shrinks_parse hg) c (Nat.le_refl _)
  intro m hm c' hc'
  exact agree_parseWithin hg c'.rest.length _ _ (by omega) (Nat.lt_succ_self _) c' (Nat.le_refl _)

/-! ### Induction over parsed trees -/

/-- The leaves have the property and the operators preserve it. -/
structure Closed (g : Grammar T) (P : T → Prop) : Prop where
  and : ∀ lhs rhs, P lhs → P rhs → P (g.and lhs rhs)
  or : ∀ lhs rhs, P lhs → P rhs → P (g.or lhs rhs)
  equals : ∀ lhs rhs, P lhs → P rhs → P (g.equals lhs rhs)
  allOf : ∀ terms, (∀ t ∈ terms, P t) → P (g.allOf terms)
  anyOf : ∀ terms, (∀ t ∈ terms, P t) → P (g.anyOf terms)
  trueValue : P g.trueValue
  falseValue : P g.falseValue
  leaf : ∀ rule ∈ g.atoms ++ g.leaves, Ensures rule.body P

variable {P : T → Prop}

theorem ensures_parseBinaryArgs {p : Parser T} (h : Ensures p P) :
    Ensures (parseBinaryArgs p) fun args => P args.1 ∧ P args.2 :=
  ensures_bind fun _ => h.bind fun _ hlhs => ensures_bind fun _ => h.bind fun _ hrhs => ensures_bind fun _ =>
    ensures_pure ⟨hlhs, hrhs⟩

theorem ensures_loop {p : Parser T} (h : Ensures p P) (bound : Nat) (terms : List T) (hterms : ∀ t ∈ terms, P t) :
    Ensures (parseNaryArgs.loop p bound terms) fun terms => ∀ t ∈ terms, P t := by
  induction bound generalizing terms with
  | zero => exact ensures_throw
  | succ bound ih =>
    refine h.bind fun term hterm => ensures_bind fun _ => ensures_bind fun _ => ?_
    have hmore : ∀ t ∈ terms ++ [term], P t := by
      rw [List.forall_mem_append, List.forall_mem_singleton]
      exact ⟨hterms, hterm⟩
    exact ensures_ite (ensures_bind fun _ => ih _ hmore) (ensures_bind fun _ => ensures_pure hmore)

theorem ensures_parseNaryArgs {p : Parser T} (h : Ensures p P) :
    Ensures (parseNaryArgs p) fun terms => ∀ t ∈ terms, P t := by
  refine ensures_bind fun _ => ensures_bind fun _ => ensures_bind fun _ => ?_
  exact ensures_ite (ensures_bind fun _ => ensures_pure (List.forall_mem_nil _))
    (ensures_bind fun _ => ensures_loop h _ _ (List.forall_mem_nil _))

theorem ensures_step (hg : g.Closed P) {p : Parser T} (h : Ensures p P) : Ensures (g.step p) P := by
  have hbinary (node : T → T → T) (hnode : ∀ lhs rhs, P lhs → P rhs → P (node lhs rhs)) {next : T × T → Parser T}
      (hnext : ∀ args, next args = pure (node args.1 args.2)) : Ensures (parseBinaryArgs p >>= next) P := by
    refine (ensures_parseBinaryArgs h).bind fun args hargs => ?_
    rw [hnext]
    exact ensures_pure (hnode args.1 args.2 hargs.1 hargs.2)
  have hnary (node : List T → T) (hnode : ∀ terms, (∀ t ∈ terms, P t) → P (node terms)) :
      Ensures (do return node (← parseNaryArgs p)) P :=
    (ensures_parseNaryArgs h).bind fun terms hterms => ensures_pure (hnode terms hterms)
  have hoperators : ∀ rule ∈ g.operators p, Ensures rule.body P := by
    simp only [operators, List.forall_mem_cons]
    exact ⟨hbinary _ hg.and fun _ => rfl, hbinary _ hg.or fun _ => rfl, hbinary _ hg.equals fun _ => rfl,
      hnary _ hg.allOf, hnary _ hg.anyOf, List.forall_mem_nil _⟩
  refine ensures_bind fun _ => ensures_choose ?_ (ensures_bind fun _ => ?_)
  · intro rule hrule
    rw [rules, List.mem_append, List.mem_append] at hrule
    rcases hrule with (hatom | hoperator) | hleaf
    · exact hg.leaf rule (List.mem_append_left _ hatom)
    · exact hoperators rule hoperator
    · exact hg.leaf rule (List.mem_append_right _ hleaf)
  · exact ensures_ite (ensures_bind fun _ => ensures_pure hg.trueValue)
      (ensures_ite (ensures_bind fun _ => ensures_pure hg.falseValue) ensures_fail)

theorem ensures_parse (hg : g.Closed P) : Ensures g.parse P := by
  have hwithin (bound : Nat) : Ensures (g.parseWithin bound) P := by
    induction bound with
    | zero => exact ensures_throw
    | succ bound ih => exact ensures_step hg ih
  exact fun c => hwithin _ c

/-! ### Reading back operators and constants -/

/-- The keywords of the rules, in their order. -/
def keywords (g : Grammar T) : List Bytes :=
  g.atoms.map RecursiveDescent.Rule.keyword ++ [ascii "AND(", ascii "OR(", ascii "EQ(", ascii "ALLOF(", ascii "ANYOF("] ++
    g.leaves.map RecursiveDescent.Rule.keyword

theorem keywords_rules (p : Parser T) : (g.rules p).map RecursiveDescent.Rule.keyword = g.keywords := by
  rw [rules, List.map_append, List.map_append, keywords]
  rfl

/-- No keyword or constant begins another, and none begins with white space. -/
structure Unambiguous (g : Grammar T) : Prop where
  keywords : g.keywords.Pairwise Incomparable
  constants : ∀ keyword ∈ g.keywords, Incomparable keyword (ascii "TRUE") ∧ Incomparable keyword (ascii "FALSE")
  start : ∀ keyword ∈ g.keywords, (keyword.head?.any fun c => !isspace c && c ≠ char ')') = true

/-- What is printed for a tree does not begin with white space or a closing parenthesis. -/
def Starts (text : Bytes) : Prop := ∃ c rest, text = c :: rest ∧ isspace c = false ∧ c ≠ char ')'

theorem Starts.append {s : Bytes} (h : Starts s) (s' : Bytes) : Starts (s ++ s') := by
  obtain ⟨c, rest, rfl, hspace, hparen⟩ := h
  exact ⟨c, rest ++ s', rfl, hspace, hparen⟩

theorem Starts.stops {s : Bytes} (h : Starts s) (rest : Bytes) : Stops isspace (s ++ rest) := by
  obtain ⟨c, s, rfl, hspace, -⟩ := h
  exact stops_cons hspace

theorem starts_of_mem_keywords (hu : g.Unambiguous) {keyword : Bytes} (h : keyword ∈ g.keywords) : Starts keyword := by
  have hstart := hu.start keyword h
  cases keyword with
  | nil => cases hstart
  | cons c keyword =>
    have hc : (!isspace c && decide (c ≠ char ')')) = true := hstart
    rw [Bool.and_eq_true, decide_eq_true_eq] at hc
    exact ⟨c, keyword, rfl, by simpa using hc.1, hc.2⟩

theorem starts_of_toupper {s : Bytes}
    (h : (s.map toupper).head? = some (char 'T') ∨ (s.map toupper).head? = some (char 'F')) : Starts s := by
  cases s with
  | nil => rcases h with h | h <;> cases h
  | cons x s =>
    obtain ⟨-, -, hspace, hparen⟩ := ne_of_toupper (h.imp Option.some.inj Option.some.inj)
    exact ⟨x, s, rfl, hspace, hparen⟩

section

variable (hg : g.Forward) (hu : g.Unambiguous)

include hg

theorem accepts_parse_space {w s : Bytes} {t : T} (hw : ∀ x ∈ w, isspace x) (h : Accepts g.parse s t Anything) :
    Accepts g.parse (w ++ s) t Anything := by
  rw [parse_eq hg] at h ⊢
  exact accepts_space_append hw h

/-- No rule takes a constant for a keyword. -/
theorem accepts_constant {word : Bytes} {t : T} (hword : ∀ keyword ∈ g.keywords, Incomparable keyword word)
    (hstart : Starts word) (h : Accepts g.constants word t Anything) : Accepts g.parse word t Anything := by
  rw [← List.append_nil word] at h
  rw [parse_eq hg, ← List.append_nil word]
  refine accepts_skipWhitespace.bind_nil (Accepts.otherwise word ?_ h) fun rest _ => ?_
  · rw [keywords_rules]
    exact hword
  · rw [List.append_nil]
    exact hstart.stops rest

/-- The constants are recognised in either case. -/
theorem accepts_trueWord {s : Bytes} (hs : s.map toupper = ascii "TRUE")
    (hkeywords : ∀ keyword ∈ g.keywords, Incomparable keyword s) :
    Starts s ∧ Accepts g.parse s g.trueValue Anything := by
  have hstart := starts_of_toupper (.inl (congrArg List.head? hs))
  refine ⟨hstart, accepts_constant hg hkeywords hstart (accepts_rest_bind fun rest _ => ?_)⟩
  rw [if_pos (startsWithCI_of_map hs rest)]
  have hlength : s.length = 4 := by rw [← List.length_map toupper, hs]; rfl
  exact accepts_skipped hlength

theorem accepts_falseWord {s : Bytes} (hs : s.map toupper = ascii "FALSE")
    (hkeywords : ∀ keyword ∈ g.keywords, Incomparable keyword s) :
    Starts s ∧ Accepts g.parse s g.falseValue Anything := by
  have hstart := starts_of_toupper (.inr (congrArg List.head? hs))
  have hnot (rest : Bytes) : startsWithCI (ascii "TRUE") (s ++ rest) = false := by
    cases s with
    | nil => cases hs
    | cons x s =>
      have hx : toupper x = char 'F' := (List.cons.inj hs).1
      exact startsWithCI_of_ne (by rw [hx]; decide)
  refine ⟨hstart, accepts_constant hg hkeywords hstart (accepts_rest_bind fun rest _ => ?_)⟩
  rw [hnot, if_neg Bool.false_ne_true, if_pos (startsWithCI_of_map hs rest)]
  have hlength : s.length = 5 := by rw [← List.length_map toupper, hs]; rfl
  exact accepts_skipped hlength

include hu

theorem accepts_rule {rule : Rule T} (hrule : rule ∈ g.rules g.parse) {s : Bytes} {t : T} {next : Bytes → Prop}
    (h : Accepts rule.body (rule.keyword.drop rule.skip ++ s) t next) : Accepts g.parse (rule.keyword ++ s) t next := by
  have hkeyword : rule.keyword ∈ g.keywords := keywords_rules (g := g) g.parse ▸ List.mem_map_of_mem hrule
  obtain ⟨c, keyword, hcons, hspace, -⟩ := starts_of_mem_keywords hu hkeyword
  rw [parse_eq hg]
  refine accepts_skipWhitespace.bind_nil (h.choose ?_ hrule) fun rest _ => ?_
  · rw [keywords_rules]
    exact hu.keywords
  · rw [hcons]
    exact stops_cons hspace

end

theorem accepts_parseBinaryArgs {s s' w w' : Bytes} {lhs rhs : T} (hw : ∀ x ∈ w, isspace x)
    (hw' : ∀ x ∈ w', isspace x) (hlhs : Accepts g.parse s lhs Anything) (hrhs : Accepts g.parse s' rhs Anything) :
    Accepts (parseBinaryArgs g.parse) (ascii "(" ++ (s ++ (w ++ ascii "," ++ (s' ++ (w' ++ ascii ")"))))) (lhs, rhs)
      Anything := by
  have hopen : Accepts (expect (char '(')) (ascii "(") () Anything := accepts_expect (by decide)
  have hcomma : Accepts (closeWith (char ',')) (w ++ ascii ",") () Anything := accepts_closeWith_space hw (by decide)
  have hclose : Accepts (closeWith (char ')')) (w' ++ ascii ")") () Anything := accepts_closeWith_space hw' (by decide)
  refine hopen.bind (hlhs.bind (hcomma.bind ?_ fun _ _ => trivial) fun _ _ => trivial) fun _ _ => trivial
  refine hrhs.bind ?_ fun _ _ => trivial
  exact hclose.bind_end accepts_pure fun _ _ => trivial

theorem mem_rules_of_operators {rule : Rule T} (h : rule ∈ g.operators g.parse) : rule ∈ g.rules g.parse := by
  rw [rules, List.mem_append, List.mem_append]
  exact .inl (.inr h)

section

variable (hg : g.Forward) (hu : g.Unambiguous)

include hg hu

theorem accepts_leaf {rule : Rule T} (hrule : rule ∈ g.atoms ++ g.leaves) (hskip : rule.keyword.drop rule.skip = [])
    {s : Bytes} {t : T} (h : Accepts rule.body s t Anything) :
    Starts (rule.keyword ++ s) ∧ Accepts g.parse (rule.keyword ++ s) t Anything := by
  have hmem : rule ∈ g.rules g.parse := by
    rw [rules, List.append_assoc, List.mem_append, List.mem_append]
    exact (List.mem_append.mp hrule).imp_right .inr
  have hkeyword : rule.keyword ∈ g.keywords := keywords_rules (g := g) g.parse ▸ List.mem_map_of_mem hmem
  refine ⟨(starts_of_mem_keywords hu hkeyword).append s, accepts_rule hg hu hmem ?_⟩
  rwa [hskip]

end

end Grammar

end Rsp.ErdText
