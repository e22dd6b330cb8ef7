import Rsp.Endorsement.TextGrammar

/-!
# Expressions as they stand in a text

An expression of one of the tree languages with the white space between its parts and with any texts for its atoms. The parser reads the text of every expression, wherever it stands; and whatever it reads is the text of an expression. So the texts of the atoms can be exchanged for others that are read as the same trees.
-/

namespace Rsp.ErdText

open RecursiveDescent Proto

inductive BinaryOp where
  | and
  | or
  | equals
deriving DecidableEq, Repr

inductive NaryOp where
  | allOf
  | anyOf
deriving DecidableEq, Repr

def BinaryOp.word : BinaryOp → Bytes
  | .and => ascii "AND"
  | .or => ascii "OR"
  | .equals => ascii "EQ"

def NaryOp.word : NaryOp → Bytes
  | .allOf => ascii "ALLOF"
  | .anyOf => ascii "ANYOF"

mutual

/-- An expression whose atoms are of type `α`. -/
inductive Concrete (α : Type) where
  | atom (space : Space) (a : α)
  | binary (space : Space) (op : BinaryOp) (lhs : Concrete α) (comma : Space) (rhs : Concrete α) (close : Space)
  | empty (space : Space) (op : NaryOp) (close : Space)
  | nary (space : Space) (op : NaryOp) (terms : Terms α)

/-- The terms between the parentheses, with the closing one. -/
inductive Terms (α : Type) where
  | last (term : Concrete α) (close : Space)
  | more (term : Concrete α) (comma : Space) (terms : Terms α)

end

variable {α : Type}

mutual

/-- The text of an expression, given those of its atoms. -/
def Concrete.text (f : α → Bytes) : Concrete α → Bytes
  | .atom space a => space.1 ++ f a
  | .binary space op lhs comma rhs close =>
    space.1 ++ (op.word ++ ascii "(" ++
      (lhs.text f ++ (comma.1 ++ ascii "," ++ (rhs.text f ++ (close.1 ++ ascii ")")))))
  | .empty space op close => space.1 ++ (op.word ++ ascii "(" ++ (close.1 ++ ascii ")"))
  | .nary space op terms => space.1 ++ (op.word ++ ascii "(" ++ terms.text f)

def Terms.text (f : α → Bytes) : Terms α → Bytes
  | .last term close => term.text f ++ (close.1 ++ ascii ")")
  | .more term comma terms => term.text f ++ (comma.1 ++ (ascii "," ++ terms.text f))

end

mutual

def Concrete.atoms : Concrete α → List α
  | .atom _ a => [a]
  | .binary _ _ lhs _ rhs _ => lhs.atoms ++ rhs.atoms
  | .empty _ _ _ => []
  | .nary _ _ terms => terms.atoms

def Terms.atoms : Terms α → List α
  | .last term _ => term.atoms
  | .more term _ terms => term.atoms ++ terms.atoms

end

namespace Grammar

variable {T : Type}

def binary (g : Grammar T) : BinaryOp → T → T → T
  | .and => g.and
  | .or => g.or
  | .equals => g.equals

def nary (g : Grammar T) : NaryOp → List T → T
  | .allOf => g.allOf
  | .anyOf => g.anyOf

end Grammar

variable {T : Type}

mutual

/-- The tree that an expression stands for, given those of its atoms. -/
def Concrete.tree (g : Grammar T) (v : α → T) : Concrete α → T
  | .atom _ a => v a
  | .binary _ op lhs _ rhs _ => g.binary op (lhs.tree g v) (rhs.tree g v)
  | .empty _ op _ => g.nary op []
  | .nary _ op terms => g.nary op (terms.trees g v)

def Terms.trees (g : Grammar T) (v : α → T) : Terms α → List T
  | .last term _ => [term.tree g v]
  | .more term _ terms => term.tree g v :: terms.trees g v

end

mutual

/-- The tree depends on the operators of the language only. -/
theorem Concrete.tree_congr {g g' : Grammar T} {v : α → T} (hbinary : g.binary = g'.binary) (hnary : g.nary = g'.nary)
    (e : Concrete α) : e.tree g v = e.tree g' v := by
  match e with
  | .atom _ a => rw [Concrete.tree, Concrete.tree]
  | .binary _ op lhs _ rhs _ =>
    rw [Concrete.tree, Concrete.tree, hbinary, lhs.tree_congr hbinary hnary, rhs.tree_congr hbinary hnary]
  | .empty _ op _ => rw [Concrete.tree, Concrete.tree, hnary]
  | .nary _ op terms => rw [Concrete.tree, Concrete.tree, hnary, terms.trees_congr hbinary hnary]

theorem Terms.trees_congr {g g' : Grammar T} {v : α → T} (hbinary : g.binary = g'.binary) (hnary : g.nary = g'.nary)
    (terms : Terms α) : terms.trees g v = terms.trees g' v := by
  match terms with
  | .last term _ => rw [Terms.trees, Terms.trees, term.tree_congr hbinary hnary]
  | .more term _ terms =>
    rw [Terms.trees, Terms.trees, term.tree_congr hbinary hnary, terms.trees_congr hbinary hnary]

end

/-- The rounds of the loop that reads the terms. -/
def Terms.length : Terms α → Nat
  | .last _ _ => 1
  | .more _ _ terms => terms.length + 1

theorem Terms.length_le_text (f : α → Bytes) (terms : Terms α) : terms.length ≤ (terms.text f).length := by
  have hone (x : String) (hx : (ascii x).length = 1) (s s' s'' : Bytes) :
      s''.length + 1 ≤ (s ++ (s' ++ (ascii x ++ s''))).length := by
    rw [List.length_append, List.length_append, List.length_append, hx]
    omega
  match terms with
  | .last term close =>
    have hlength := hone ")" rfl (term.text f) close.1 []
    rw [List.append_nil] at hlength
    rw [Terms.text, Terms.length]
    exact hlength
  | .more term comma terms =>
    have hlength := hone "," rfl (term.text f) comma.1 (terms.text f)
    have hterms := terms.length_le_text f
    rw [Terms.text, Terms.length]
    omega

/-- The white space before an expression. -/
def Concrete.space : Concrete α → Space
  | .atom space _ | .binary space _ _ _ _ _ | .empty space _ _ | .nary space _ _ => space

/-- The expression with other white space before it. -/
def Concrete.withSpace (space : Space) : Concrete α → Concrete α
  | .atom _ a => .atom space a
  | .binary _ op lhs comma rhs close => .binary space op lhs comma rhs close
  | .empty _ op close => .empty space op close
  | .nary _ op terms => .nary space op terms

def Terms.space : Terms α → Space
  | .last term _ | .more term _ _ => term.space

def Terms.withSpace (space : Space) : Terms α → Terms α
  | .last term close => .last (term.withSpace space) close
  | .more term comma terms => .more (term.withSpace space) comma terms

def noSpace : Space := ⟨[], List.forall_mem_nil _⟩

def Concrete.flush (e : Concrete α) : Concrete α := e.withSpace noSpace

def Terms.flush (terms : Terms α) : Terms α := terms.withSpace noSpace

theorem Concrete.text_withSpace (f : α → Bytes) (e : Concrete α) (space : Space) :
    (e.withSpace space).text f = space.1 ++ e.flush.text f := by
  rw [Concrete.flush]
  cases e <;> simp only [Concrete.text, Concrete.withSpace, noSpace, List.nil_append]

theorem Concrete.withSpace_space (e : Concrete α) : e.withSpace e.space = e := by cases e <;> rfl

theorem Concrete.text_eq (f : α → Bytes) (e : Concrete α) : e.text f = e.space.1 ++ e.flush.text f := by
  rw [← e.text_withSpace f, e.withSpace_space]

theorem Terms.text_withSpace (f : α → Bytes) (terms : Terms α) (space : Space) :
    (terms.withSpace space).text f = space.1 ++ terms.flush.text f := by
  rw [Terms.flush]
  cases terms with
  | last term close =>
    rw [Terms.withSpace, Terms.withSpace, Terms.text, Terms.text, Concrete.text_withSpace, List.append_assoc]
    rfl
  | more term comma terms =>
    rw [Terms.withSpace, Terms.withSpace, Terms.text, Terms.text, Concrete.text_withSpace, List.append_assoc]
    rfl

theorem Terms.text_eq (f : α → Bytes) (terms : Terms α) : terms.text f = terms.space.1 ++ terms.flush.text f := by
  have hself : terms.withSpace terms.space = terms := by
    cases terms with
    | last term close => rw [Terms.space, Terms.withSpace, term.withSpace_space]
    | more term comma terms => rw [Terms.space, Terms.withSpace, term.withSpace_space]
  rw [← terms.text_withSpace f, hself]

theorem Terms.atoms_withSpace (terms : Terms α) (space : Space) : (terms.withSpace space).atoms = terms.atoms := by
  have hterm (term : Concrete α) : (term.withSpace space).atoms = term.atoms := by
    cases term <;> rw [Concrete.withSpace, Concrete.atoms, Concrete.atoms]
  cases terms <;> rw [Terms.withSpace, Terms.atoms, Terms.atoms, hterm]

theorem Terms.trees_withSpace (g : Grammar T) (v : α → T) (terms : Terms α) (space : Space) :
    (terms.withSpace space).trees g v = terms.trees g v := by
  have hterm (term : Concrete α) : (term.withSpace space).tree g v = term.tree g v := by
    cases term <;> rw [Concrete.withSpace, Concrete.tree, Concrete.tree]
  cases terms <;> rw [Terms.withSpace, Terms.trees, Terms.trees, hterm]

/-! ### Operators -/

namespace Grammar

variable {g : Grammar T}

theorem word_pos (op : BinaryOp) : 0 < op.word.length := by cases op <;> decide

theorem naryWord_pos (op : NaryOp) : 0 < op.word.length := by cases op <;> decide

theorem length_le_keyword (word : Bytes) : word.length ≤ (word ++ ascii "(").length := by
  rw [List.length_append]
  omega

def binaryRule (g : Grammar T) (p : Parser T) (op : BinaryOp) : Rule T :=
  ⟨op.word ++ ascii "(", op.word.length, do let args ← parseBinaryArgs p; return g.binary op args.1 args.2, word_pos op,
    length_le_keyword _⟩

def naryRule (g : Grammar T) (p : Parser T) (op : NaryOp) : Rule T :=
  ⟨op.word ++ ascii "(", op.word.length, do return g.nary op (← parseNaryArgs p), naryWord_pos op, length_le_keyword _⟩

theorem operators_eq (p : Parser T) :
    g.operators p = [BinaryOp.and, .or, .equals].map (g.binaryRule p) ++ [NaryOp.allOf, .anyOf].map (g.naryRule p) := rfl

theorem mem_operators {p : Parser T} {rule : Rule T} :
    rule ∈ g.operators p ↔ (∃ op, rule = g.binaryRule p op) ∨ ∃ op, rule = g.naryRule p op := by
  have hbinary (op : BinaryOp) : op ∈ [BinaryOp.and, .or, .equals] := by cases op <;> decide
  have hnary (op : NaryOp) : op ∈ [NaryOp.allOf, .anyOf] := by cases op <;> decide
  rw [operators_eq, List.mem_append, List.mem_map, List.mem_map]
  constructor
  · rintro (⟨op, -, rfl⟩ | ⟨op, -, rfl⟩)
    · exact .inl ⟨op, rfl⟩
    · exact .inr ⟨op, rfl⟩
  · rintro (⟨op, rfl⟩ | ⟨op, rfl⟩)
    · exact .inl ⟨op, hbinary op, rfl⟩
    · exact .inr ⟨op, hnary op, rfl⟩

theorem starts_binaryWord (op : BinaryOp) (s : Bytes) : Starts (op.word ++ ascii "(" ++ s) := by
  cases op <;> exact ⟨_, _, rfl, by decide, by decide⟩

theorem starts_naryWord (op : NaryOp) (s : Bytes) : Starts (op.word ++ ascii "(" ++ s) := by
  cases op <;> exact ⟨_, _, rfl, by decide, by decide⟩

end Grammar

open Grammar

/-! ### What is read -/

/-- The text of an atom is read as its tree, whatever follows. -/
def Readable (g : Grammar T) (f : α → Bytes) (v : α → T) (a : α) : Prop :=
  Starts (f a) ∧ Accepts g.parse (f a) (v a) Anything

section

variable {g : Grammar T} {f : α → Bytes} {v : α → T}

theorem Concrete.starts_flush {e : Concrete α} (h : ∀ a ∈ e.atoms, Readable g f v a) : Starts (e.flush.text f) := by
  cases e with
  | atom space a =>
    rw [Concrete.atoms, List.forall_mem_singleton] at h
    rw [Concrete.flush, Concrete.withSpace, Concrete.text]
    exact h.1
  | binary space op lhs comma rhs close =>
    rw [Concrete.flush, Concrete.withSpace, Concrete.text]
    exact starts_binaryWord op _
  | empty space op close =>
    rw [Concrete.flush, Concrete.withSpace, Concrete.text]
    exact starts_naryWord op _
  | nary space op terms =>
    rw [Concrete.flush, Concrete.withSpace, Concrete.text]
    exact starts_naryWord op _

theorem Terms.starts_flush {terms : Terms α} (h : ∀ a ∈ terms.atoms, Readable g f v a) : Starts (terms.flush.text f) := by
  cases terms with
  | last term close =>
    rw [Terms.atoms] at h
    rw [Terms.flush, Terms.withSpace, Terms.text]
    exact (Concrete.starts_flush h).append _
  | more term comma terms =>
    rw [Terms.atoms, List.forall_mem_append] at h
    rw [Terms.flush, Terms.withSpace, Terms.text]
    exact (Concrete.starts_flush h.1).append _

/-- A term and what the loop does behind it. -/
theorem accepts_loop_last {s w : Bytes} {t : T} (hw : ∀ x ∈ w, isspace x) (h : Accepts g.parse s t Anything)
    (bound : Nat) (before : List T) :
    Accepts (parseNaryArgs.loop g.parse (bound + 1) before) (s ++ (w ++ ascii ")")) (before ++ [t]) Anything := by
  have hclose : Accepts (expect (char ')')) (ascii ")") () Anything := accepts_expect (by decide)
  refine h.bind ((accepts_skipWhile hw).bind ?_ fun _ _ => stops_cons (by decide)) fun _ _ => trivial
  refine accepts_peek.bind_nil ?_ fun _ _ => rfl
  rw [if_neg (by decide)]
  exact hclose.bind_end accepts_pure fun _ _ => trivial

theorem accepts_loop_more {s w s' : Bytes} {t : T} {ts : List T} (hw : ∀ x ∈ w, isspace x)
    (h : Accepts g.parse s t Anything) (bound : Nat) (before : List T)
    (hrest : Accepts (parseNaryArgs.loop g.parse bound (before ++ [t])) s' ts Anything) :
    Accepts (parseNaryArgs.loop g.parse (bound + 1) before) (s ++ (w ++ (ascii "," ++ s'))) ts Anything := by
  have hcomma : Accepts (Parser.advance 1 : Parser Unit) (ascii ",") () Anything := accepts_advance
  refine h.bind ((accepts_skipWhile hw).bind ?_ fun _ _ => stops_cons (by decide)) fun _ _ => trivial
  refine (accepts_peek (c := char ',')).bind_nil ?_ fun _ _ => rfl
  rw [if_pos rfl]
  exact hcomma.bind hrest fun _ _ => trivial

/-- The closing parenthesis is looked for before the first term. -/
theorem accepts_parseNaryArgs {terms : Terms α} {ts : List T} (h : ∀ a ∈ terms.atoms, Readable g f v a)
    (hloop : ∀ bound, terms.length ≤ bound →
      Accepts (parseNaryArgs.loop g.parse bound []) (terms.flush.text f) ts Anything) :
    Accepts (parseNaryArgs g.parse) (ascii "(" ++ terms.text f) ts Anything := by
  have hopen : Accepts (expect (char '(')) (ascii "(") () Anything := accepts_expect (by decide)
  have hlength : terms.length ≤ (terms.flush.text f).length := by
    have hflush : terms.flush.length = terms.length := by cases terms <;> rfl
    rw [← hflush]
    exact terms.flush.length_le_text f
  obtain ⟨x, s, hcons, hspace, hparen⟩ := Terms.starts_flush h
  rw [terms.text_eq f]
  refine hopen.bind ((accepts_skipWhile terms.space.2).bind ?_ fun rest _ => ?_) fun _ _ => trivial
  · refine (accepts_peek (c := x)).bind_nil ?_ fun _ _ => by rw [hcons]; rfl
    rw [if_neg hparen]
    refine accepts_rest_bind fun rest _ => (hloop _ ?_).mono fun _ _ => trivial
    rw [List.length_append]
    omega
  · rw [hcons]
    exact stops_cons hspace

theorem accepts_noTerms {w : Bytes} (hw : ∀ x ∈ w, isspace x) :
    Accepts (parseNaryArgs g.parse) (ascii "(" ++ (w ++ ascii ")")) [] Anything := by
  have hopen : Accepts (expect (char '(')) (ascii "(") () Anything := accepts_expect (by decide)
  have hclose : Accepts (Parser.advance 1 : Parser Unit) (ascii ")") () Anything := accepts_advance
  refine hopen.bind ((accepts_skipWhile hw).bind ?_ fun _ _ => stops_cons (by decide)) fun _ _ => trivial
  refine (accepts_peek (c := char ')')).bind_nil ?_ fun _ _ => rfl
  rw [if_pos rfl]
  exact hclose.bind_end accepts_pure fun _ _ => trivial

variable (hg : g.Forward) (hu : g.Unambiguous)

include hg hu

theorem accepts_binary {s : Bytes} {op : BinaryOp} {lhs rhs : T}
    (h : Accepts (parseBinaryArgs g.parse) (ascii "(" ++ s) (lhs, rhs) Anything) :
    Accepts g.parse (op.word ++ ascii "(" ++ s) (g.binary op lhs rhs) Anything := by
  have hrule := mem_rules_of_operators (g := g) (mem_operators.mpr (.inl ⟨op, rfl⟩))
  have hdrop : (g.binaryRule g.parse op).keyword.drop (g.binaryRule g.parse op).skip = ascii "(" := List.drop_left
  refine accepts_rule hg hu hrule ?_
  rw [hdrop]
  exact h.bind_end accepts_pure fun _ _ => trivial

theorem accepts_nary {s : Bytes} {op : NaryOp} {ts : List T}
    (h : Accepts (parseNaryArgs g.parse) (ascii "(" ++ s) ts Anything) :
    Accepts g.parse (op.word ++ ascii "(" ++ s) (g.nary op ts) Anything := by
  have hrule := mem_rules_of_operators (g := g) (mem_operators.mpr (.inr ⟨op, rfl⟩))
  have hdrop : (g.naryRule g.parse op).keyword.drop (g.naryRule g.parse op).skip = ascii "(" := List.drop_left
  refine accepts_rule hg hu hrule ?_
  rw [hdrop]
  exact h.bind_end accepts_pure fun _ _ => trivial

omit hu in
theorem accepts_loop_space {w s : Bytes} {bound : Nat} {before ts : List T} (hw : ∀ x ∈ w, isspace x)
    (h : Accepts (parseNaryArgs.loop g.parse bound before) s ts Anything) :
    Accepts (parseNaryArgs.loop g.parse bound before) (w ++ s) ts Anything := by
  cases bound with
  | zero => exact absurd (h 0 [] trivial) (by rintro ⟨⟩)
  | succ bound =>
    rw [parseNaryArgs.loop, parse_eq hg, step, bind_assoc] at h ⊢
    exact accepts_space_append hw h

end

section

variable {g : Grammar T} {f : α → Bytes} {v : α → T}

mutual

/-- The parser reads the text of an expression as its tree, by recursion on the expression. -/
theorem Concrete.accepts_flush (hg : g.Forward) (hu : g.Unambiguous) (e : Concrete α) (h : ∀ a ∈ e.atoms, Readable g f v a) :
    Accepts g.parse (e.flush.text f) (e.tree g v) Anything := by
  match e with
  | .atom space a =>
    rw [Concrete.atoms, List.forall_mem_singleton] at h
    rw [Concrete.flush, Concrete.withSpace, Concrete.text, Concrete.tree]
    exact h.2
  | .binary space op lhs comma rhs close =>
    rw [Concrete.atoms, List.forall_mem_append] at h
    have hlhs := accepts_parse_space hg lhs.space.2 (lhs.accepts_flush hg hu h.1)
    have hrhs := accepts_parse_space hg rhs.space.2 (rhs.accepts_flush hg hu h.2)
    rw [← Concrete.text_eq] at hlhs hrhs
    rw [Concrete.flush, Concrete.withSpace, Concrete.text, Concrete.tree]
    exact accepts_binary hg hu (accepts_parseBinaryArgs comma.2 close.2 hlhs hrhs)
  | .empty space op close =>
    rw [Concrete.flush, Concrete.withSpace, Concrete.text, Concrete.tree]
    exact accepts_nary hg hu (accepts_noTerms close.2)
  | .nary space op terms =>
    rw [Concrete.atoms] at h
    rw [Concrete.flush, Concrete.withSpace, Concrete.text, Concrete.tree]
    exact accepts_nary hg hu (accepts_parseNaryArgs h fun bound hbound => terms.accepts_flush hg hu h [] bound hbound)

theorem Terms.accepts_flush (hg : g.Forward) (hu : g.Unambiguous) (terms : Terms α)
    (h : ∀ a ∈ terms.atoms, Readable g f v a) (before : List T) (bound : Nat) (hbound : terms.length ≤ bound) :
    Accepts (parseNaryArgs.loop g.parse bound before) (terms.flush.text f) (before ++ terms.trees g v) Anything := by
  match terms with
  | .last term close =>
    rw [Terms.length] at hbound
    obtain ⟨bound, rfl⟩ := Nat.exists_eq_add_one.mpr hbound
    rw [Terms.atoms] at h
    rw [Terms.flush, Terms.withSpace, Terms.text, Terms.trees]
    exact accepts_loop_last close.2 (term.accepts_flush hg hu h) bound before
  | .more term comma terms =>
    rw [Terms.length] at hbound
    obtain ⟨bound, rfl⟩ := Nat.exists_eq_add_one.mpr (Nat.zero_lt_of_lt hbound)
    rw [Terms.atoms, List.forall_mem_append] at h
    have hrest := terms.accepts_flush hg hu h.2 (before ++ [term.tree g v]) bound (Nat.le_of_succ_le_succ hbound)
    have hspaced := accepts_loop_space hg terms.space.2 hrest
    rw [← Terms.text_eq, List.append_assoc] at hspaced
    rw [Terms.flush, Terms.withSpace, Terms.text, Terms.trees]
    exact accepts_loop_more comma.2 (term.accepts_flush hg hu h.1) bound before hspaced

end

theorem Concrete.accepts (hg : g.Forward) (hu : g.Unambiguous) {e : Concrete α} (h : ∀ a ∈ e.atoms, Readable g f v a) :
    Accepts g.parse (e.text f) (e.tree g v) Anything := by
  rw [e.text_eq f]
  exact accepts_parse_space hg e.space.2 (e.accepts_flush hg hu h)

end

/-! ### What was read -/

theorem expect_open {c c' : Cursor UInt8} {u : Unit} (h : expect (char '(') c = .ok (u, c'))
    (hopen : c.rest.head? = some (char '(')) : c.rest = ascii "(" ++ c'.rest := by
  obtain ⟨⟨w, hw⟩, hrest⟩ := expect_ok (by decide) h
  cases w with
  | nil => exact hrest
  | cons x w =>
    rw [hrest] at hopen
    obtain rfl : x = char '(' := Option.some.inj hopen
    exact absurd (hw _ List.mem_cons_self) (by decide)

section

variable {p : Parser T} {c c' : Cursor UInt8}

/-- The two operands and what stands between them. -/
theorem parseBinaryArgs_ok {args : T × T} (h : parseBinaryArgs p c = .ok (args, c'))
    (hopen : c.rest.head? = some (char '(')) :
    ∃ (c₁ c₂ c₃ c₄ : Cursor UInt8) (comma close : Space), c.rest = ascii "(" ++ c₁.rest ∧ p c₁ = .ok (args.1, c₂) ∧
      c₂.rest = comma.1 ++ ascii "," ++ c₃.rest ∧ p c₃ = .ok (args.2, c₄) ∧
      c₄.rest = close.1 ++ ascii ")" ++ c'.rest := by
  obtain ⟨_, c₁, hexpect, h⟩ := bind_ok.mp h
  obtain ⟨lhs, c₂, hlhs, h⟩ := bind_ok.mp h
  obtain ⟨_, c₃, hcomma, h⟩ := bind_ok.mp h
  obtain ⟨rhs, c₄, hrhs, h⟩ := bind_ok.mp h
  obtain ⟨_, c₅, hclose, h⟩ := bind_ok.mp h
  obtain ⟨rfl, rfl⟩ := pure_ok.mp h
  obtain ⟨comma, hcomma⟩ := closeWith_ok (by decide) hcomma
  obtain ⟨close, hclose⟩ := closeWith_ok (by decide) hclose
  exact ⟨c₁, c₂, c₃, c₄, comma, close, expect_open hexpect hopen, hlhs, hcomma, hrhs, hclose⟩

/-- A round of the loop reads a term and goes on behind a comma. -/
theorem loop_ok {bound : Nat} {before ts : List T} (h : parseNaryArgs.loop p bound before c = .ok (ts, c')) :
    ∃ (t : T) (c₁ : Cursor UInt8) (space : Space), p c = .ok (t, c₁) ∧
      ((c₁.rest = space.1 ++ ascii ")" ++ c'.rest ∧ ts = before ++ [t]) ∨
        ∃ c₂ bound', bound = bound' + 1 ∧ c₁.rest = space.1 ++ ascii "," ++ c₂.rest ∧
          parseNaryArgs.loop p bound' (before ++ [t]) c₂ = .ok (ts, c')) := by
  cases bound with
  | zero => cases h
  | succ bound =>
    obtain ⟨t, c₁, hterm, h⟩ := bind_ok.mp h
    obtain ⟨_, c₂, hskip, h⟩ := bind_ok.mp h
    rw [bind_of_ok (rfl : peek c₂ = .ok (c₂.rest.head?.getD 0, c₂))] at h
    obtain ⟨space, hspace⟩ := skipWhitespace_ok hskip
    by_cases hcomma : c₂.rest.head?.getD 0 = char ','
    · rw [if_pos hcomma] at h
      have hnext : c₂.rest = ascii "," ++ (c₂.advance 1).rest := cons_of_peek (by decide) hcomma
      refine ⟨t, c₁, space, hterm, .inr ⟨c₂.advance 1, bound, rfl, ?_, h⟩⟩
      rw [List.append_assoc, ← hnext]
      exact hspace
    · rw [if_neg hcomma] at h
      obtain ⟨_, c₃, hclose, h⟩ := bind_ok.mp h
      obtain ⟨rfl, rfl⟩ := pure_ok.mp h
      obtain ⟨space', hrest⟩ := expect_ok (by decide) hclose
      refine ⟨t, c₁, ⟨space.1 ++ space'.1, List.forall_mem_append.mpr ⟨space.2, space'.2⟩⟩, hterm, .inl ⟨?_, rfl⟩⟩
      rw [hspace, hrest]
      simp only [List.append_assoc]
      rfl

/-- Either no terms, or a first round of the loop. -/
theorem parseNaryArgs_ok {ts : List T} (h : parseNaryArgs p c = .ok (ts, c'))
    (hopen : c.rest.head? = some (char '(')) :
    ∃ (space : Space), (c.rest = ascii "(" ++ (space.1 ++ ascii ")" ++ c'.rest) ∧ ts = []) ∨
      ∃ c₁ bound, c.rest = ascii "(" ++ (space.1 ++ c₁.rest) ∧ parseNaryArgs.loop p bound [] c₁ = .ok (ts, c') := by
  obtain ⟨_, c₁, hexpect, h⟩ := bind_ok.mp h
  obtain ⟨_, c₂, hskip, h⟩ := bind_ok.mp h
  rw [bind_of_ok (rfl : peek c₂ = .ok (c₂.rest.head?.getD 0, c₂))] at h
  obtain ⟨space, hspace⟩ := skipWhitespace_ok hskip
  have hrest := expect_open hexpect hopen
  refine ⟨space, ?_⟩
  by_cases hclose : c₂.rest.head?.getD 0 = char ')'
  · rw [if_pos hclose] at h
    obtain ⟨_, c₃, hadvance, h⟩ := bind_ok.mp h
    obtain ⟨-, rfl⟩ := Prod.mk.inj (Except.ok.inj hadvance)
    obtain ⟨rfl, rfl⟩ := pure_ok.mp h
    have hnext : c₂.rest = ascii ")" ++ (c₂.advance 1).rest := cons_of_peek (by decide) hclose
    refine .inl ⟨?_, rfl⟩
    rw [hrest, hspace, List.append_assoc, ← hnext]
  · rw [if_neg hclose] at h
    refine .inr ⟨c₂, c₂.rest.length + 1, ?_, h⟩
    rw [hrest, hspace]

end

/-- What the alternatives of a language itself read is the text of an atom. -/
structure Atomic (g : Grammar T) (f : α → Bytes) (v : α → T) (P : α → Prop) : Prop where
  rule : ∀ rule ∈ g.atoms ++ g.leaves, ∀ (c c' : Cursor UInt8) (t : T), rule.keyword <+: c.rest →
    rule.body (c.advance rule.skip) = .ok (t, c') → ∃ a, P a ∧ c.rest = f a ++ c'.rest ∧ v a = t
  constant : ∀ (c c' : Cursor UInt8) (t : T), g.constants c = .ok (t, c') → ∃ a, P a ∧ c.rest = f a ++ c'.rest ∧ v a = t

/-- What is read from `c` is the text of an expression. -/
def ReadsExpression (g : Grammar T) (f : α → Bytes) (v : α → T) (P : α → Prop) (c : Cursor UInt8) : Prop :=
  ∀ t c', g.parse c = .ok (t, c') → ∃ e : Concrete α, (∀ a ∈ e.atoms, P a) ∧ c.rest = e.text f ++ c'.rest ∧ e.tree g v = t

section

variable {g : Grammar T} {f : α → Bytes} {v : α → T} {P : α → Prop} {c c' : Cursor UInt8}

theorem terms_of_loop {n : Nat} (hparse : ∀ c : Cursor UInt8, c.rest.length ≤ n → ReadsExpression g f v P c)
    (bound : Nat) : ∀ (before ts : List T) (c c' : Cursor UInt8), c.rest.length ≤ n →
      parseNaryArgs.loop g.parse bound before c = .ok (ts, c') →
      ∃ terms : Terms α, (∀ a ∈ terms.atoms, P a) ∧ c.rest = terms.text f ++ c'.rest ∧ ts = before ++ terms.trees g v := by
  induction bound with
  | zero =>
    intro before ts c c' _ h
    cases h
  | succ bound ih =>
    intro before ts c c' hlength h
    obtain ⟨t, c₁, space, hterm, hnext⟩ := loop_ok h
    obtain ⟨e, he, htext, rfl⟩ := hparse c hlength t c₁ hterm
    rcases hnext with ⟨hclose, rfl⟩ | ⟨c₂, bound', hbound, hcomma, hloop⟩
    · refine ⟨.last e space, by rwa [Terms.atoms], ?_, by rw [Terms.trees]⟩
      rw [htext, hclose, Terms.text]
      simp only [List.append_assoc]
    · obtain rfl := Nat.succ.inj hbound
      have hshorter : c₂.rest.length ≤ n := by
        rw [htext, hcomma] at hlength
        simp only [List.length_append] at hlength
        omega
      obtain ⟨terms, hterms, hrest, rfl⟩ := ih _ _ _ _ hshorter hloop
      refine ⟨.more e space terms, by rw [Terms.atoms, List.forall_mem_append]; exact ⟨he, hterms⟩, ?_, ?_⟩
      · rw [htext, hcomma, hrest, Terms.text]
        simp only [List.append_assoc]
      · rw [Terms.trees, List.append_assoc]
        rfl

theorem head?_of_keyword {word : Bytes} (h : word ++ ascii "(" <+: c.rest) :
    c.rest = word ++ (c.advance word.length).rest ∧ (c.advance word.length).rest.head? = some (char '(') := by
  obtain ⟨tail, htail⟩ := h
  have hdrop : (c.advance word.length).rest = ascii "(" ++ tail := by
    show c.rest.drop word.length = _
    rw [← htail, List.append_assoc, List.drop_left]
  refine ⟨?_, by rw [hdrop]; rfl⟩
  rw [hdrop, ← htail, List.append_assoc]

section

variable (hparse : ∀ c₁ : Cursor UInt8, c₁.rest.length < c.rest.length → ReadsExpression g f v P c₁) (space : Space)
  {t : T}

include hparse

theorem expression_of_binary {op : BinaryOp} (hkeyword : (g.binaryRule g.parse op).keyword <+: c.rest)
    (h : (g.binaryRule g.parse op).body (c.advance op.word.length) = .ok (t, c')) :
    ∃ e : Concrete α, (∀ a ∈ e.atoms, P a) ∧ space.1 ++ c.rest = e.text f ++ c'.rest ∧ e.tree g v = t := by
  obtain ⟨hword, hopen⟩ := head?_of_keyword hkeyword
  obtain ⟨args, c₅, hargs, hpure⟩ := bind_ok.mp h
  obtain ⟨rfl, rfl⟩ := pure_ok.mp hpure
  obtain ⟨c₁, c₂, c₃, c₄, comma, close, h₁, hlhs, h₂, hrhs, h₃⟩ := parseBinaryArgs_ok hargs hopen
  have hlength := word_pos op
  obtain ⟨lhs, hlhsAll, hlhsText, hlhsTree⟩ := hparse c₁ (by
    rw [hword, h₁]
    simp only [List.length_append]
    omega) _ _ hlhs
  obtain ⟨rhs, hrhsAll, hrhsText, hrhsTree⟩ := hparse c₃ (by
    rw [hword, h₁, hlhsText, h₂]
    simp only [List.length_append]
    omega) _ _ hrhs
  refine ⟨.binary space op lhs comma rhs close, by rw [Concrete.atoms, List.forall_mem_append]; exact ⟨hlhsAll, hrhsAll⟩, ?_, ?_⟩
  · rw [hword, h₁, hlhsText, h₂, hrhsText, h₃, Concrete.text]
    simp only [List.append_assoc]
  · rw [Concrete.tree, hlhsTree, hrhsTree]

theorem expression_of_nary {op : NaryOp} (hkeyword : (g.naryRule g.parse op).keyword <+: c.rest)
    (h : (g.naryRule g.parse op).body (c.advance op.word.length) = .ok (t, c')) :
    ∃ e : Concrete α, (∀ a ∈ e.atoms, P a) ∧ space.1 ++ c.rest = e.text f ++ c'.rest ∧ e.tree g v = t := by
  obtain ⟨hword, hopen⟩ := head?_of_keyword hkeyword
  obtain ⟨ts, c₅, hargs, hpure⟩ := bind_ok.mp h
  obtain ⟨rfl, rfl⟩ := pure_ok.mp hpure
  have hlength := naryWord_pos op
  obtain ⟨inner, ⟨hclose, rfl⟩ | ⟨c₁, bound, h₁, hloop⟩⟩ := parseNaryArgs_ok hargs hopen
  · refine ⟨.empty space op inner, by rw [Concrete.atoms]; exact List.forall_mem_nil _, ?_, by rw [Concrete.tree]⟩
    rw [hword, hclose, Concrete.text]
    simp only [List.append_assoc]
  · have hshort : c₁.rest.length < c.rest.length := by
      rw [hword, h₁]
      simp only [List.length_append]
      omega
    obtain ⟨terms, hterms, htext, rfl⟩ := terms_of_loop (fun c₂ hle => hparse c₂ (Nat.lt_of_le_of_lt hle hshort)) bound
      [] ts c₁ c₅ (Nat.le_refl _) hloop
    refine ⟨.nary space op (terms.withSpace ⟨inner.1 ++ terms.space.1, List.forall_mem_append.mpr ⟨inner.2, terms.space.2⟩⟩),
      ?_, ?_, ?_⟩
    · rw [Concrete.atoms, Terms.atoms_withSpace]
      exact hterms
    · rw [hword, h₁, htext, terms.text_eq f, Concrete.text, Terms.text_withSpace]
      simp only [List.append_assoc]
    · rw [Concrete.tree, Terms.trees_withSpace, List.nil_append]

end

/-- Whatever the parser reads is the text of an expression, by induction on the text that is left. -/
theorem readsExpression (hg : g.Forward) (ha : Atomic g f v P) (c : Cursor UInt8) : ReadsExpression g f v P c := by
  induction hn : c.rest.length using Nat.strong_induction_on generalizing c with
  | _ n ih =>
    intro t c' h
    subst hn
    rw [parse_eq hg] at h
    obtain ⟨_, c₀, hskip, h⟩ := bind_ok.mp h
    obtain ⟨space, hspace⟩ := skipWhitespace_ok hskip
    have hatom (hread : ∃ a, P a ∧ c₀.rest = f a ++ c'.rest ∧ v a = t) :
        ∃ e : Concrete α, (∀ a ∈ e.atoms, P a) ∧ c.rest = e.text f ++ c'.rest ∧ e.tree g v = t := by
      obtain ⟨a, hP, hrest, hv⟩ := hread
      refine ⟨.atom space a, by rwa [Concrete.atoms, List.forall_mem_singleton], ?_, by rwa [Concrete.tree]⟩
      rw [hspace, hrest, Concrete.text, List.append_assoc]
    rcases choose_ok h with ⟨rule, hrule, hkeyword, hbody⟩ | hconstant
    · rw [rules, List.mem_append, List.mem_append] at hrule
      rcases hrule with (hmem | hoperator) | hmem
      · exact hatom (ha.rule rule (List.mem_append_left _ hmem) c₀ c' t hkeyword hbody)
      · have hshorter (c₁ : Cursor UInt8) (hlength : c₁.rest.length < c₀.rest.length) : ReadsExpression g f v P c₁ := by
          refine ih c₁.rest.length ?_ c₁ rfl
          rw [hspace, List.length_append]
          omega
        rw [hspace]
        rcases mem_operators.mp hoperator with ⟨op, rfl⟩ | ⟨op, rfl⟩
        · exact expression_of_binary hshorter space hkeyword hbody
        · exact expression_of_nary hshorter space hkeyword hbody
      · exact hatom (ha.rule rule (List.mem_append_right _ hmem) c₀ c' t hkeyword hbody)
    · exact hatom (ha.constant c₀ c' t hconstant)

end

/-! ### Languages whose leaves are delimited -/

/-- A text that is read as a tree wherever it stands. -/
structure Reading (g : Grammar T) where
  text : Bytes
  tree : T
  starts : Starts text
  accepts : Accepts g.parse text tree Anything

/-- No leaf looks beyond its own text, and no keyword is like a constant in either case. -/
structure Delimiting (g : Grammar T) : Prop where
  skip : ∀ rule ∈ g.atoms ++ g.leaves, rule.skip = rule.keyword.length
  body : ∀ rule ∈ g.atoms ++ g.leaves, Delimited rule.body
  constants : ∀ keyword ∈ g.keywords,
    Incomparable (keyword.map toupper) (ascii "TRUE") ∧ Incomparable (keyword.map toupper) (ascii "FALSE")

section

variable {g : Grammar T}

theorem Delimiting.forward (hd : Delimiting g) : g.Forward := fun rule hrule => (hd.body rule hrule).peeks.shrinks

/-- The argument that a leaf has read. -/
theorem Delimiting.leaf_ok (hd : Delimiting g) {rule : Rule T} (hrule : rule ∈ g.atoms ++ g.leaves) {c c' : Cursor UInt8}
    {t : T} (hkeyword : rule.keyword <+: c.rest) (h : rule.body (c.advance rule.skip) = .ok (t, c')) :
    ∃ s, c.rest = rule.keyword ++ s ++ c'.rest ∧ Accepts rule.body s t Anything := by
  obtain ⟨tail, htail⟩ := hkeyword
  obtain ⟨s, -, hrest, haccepts⟩ := hd.body rule hrule _ _ _ h
  refine ⟨s, ?_, haccepts⟩
  have hdrop : tail = s ++ c'.rest := by
    rw [← hrest]
    show tail = c.rest.drop rule.skip
    rw [← htail, hd.skip rule hrule, List.drop_left]
  rw [← htail, hdrop, List.append_assoc]

theorem constants_ok {c c' : Cursor UInt8} {t : T} (h : g.constants c = .ok (t, c')) :
    ∃ s, c.rest = s ++ c'.rest ∧
      (s.map toupper = ascii "TRUE" ∧ t = g.trueValue ∨ s.map toupper = ascii "FALSE" ∧ t = g.falseValue) := by
  have hword {word : Bytes} (hstarts : startsWithCI word c.rest = true) :
      (c.rest.take word.length).map toupper = word.map toupper := by
    rw [startsWithCI, decide_eq_true_eq] at hstarts
    exact hstarts.2
  have hsplit (n : Nat) : c.rest = c.rest.take n ++ (c.advance n).rest := (List.take_append_drop n c.rest).symm
  rw [constants, bind_of_ok (rfl : Parser.rest c = .ok (c.rest, c))] at h
  by_cases htrue : startsWithCI (ascii "TRUE") c.rest = true
  · rw [if_pos htrue] at h
    obtain ⟨rfl, rfl⟩ := Prod.mk.inj (Except.ok.inj h)
    exact ⟨_, hsplit 4, .inl ⟨hword htrue, rfl⟩⟩
  rw [if_neg htrue] at h
  by_cases hfalse : startsWithCI (ascii "FALSE") c.rest = true
  · rw [if_pos hfalse] at h
    obtain ⟨rfl, rfl⟩ := Prod.mk.inj (Except.ok.inj h)
    exact ⟨_, hsplit 5, .inr ⟨hword hfalse, rfl⟩⟩
  rw [if_neg hfalse] at h
  cases h

theorem Delimiting.accepts_constant (hd : Delimiting g) {s : Bytes} {t : T}
    (h : s.map toupper = ascii "TRUE" ∧ t = g.trueValue ∨ s.map toupper = ascii "FALSE" ∧ t = g.falseValue) :
    Starts s ∧ Accepts g.parse s t Anything := by
  rcases h with ⟨hs, rfl⟩ | ⟨hs, rfl⟩
  · refine accepts_trueWord hd.forward hs fun keyword hkeyword => .of_map (f := toupper) ?_
    rw [hs]
    exact (hd.constants keyword hkeyword).1
  · refine accepts_falseWord hd.forward hs fun keyword hkeyword => .of_map (f := toupper) ?_
    rw [hs]
    exact (hd.constants keyword hkeyword).2

theorem Delimiting.atomic (hd : Delimiting g) (hu : g.Unambiguous) :
    Atomic g (Reading.text : Reading g → Bytes) Reading.tree (fun _ => True) where
  rule rule hrule c c' t hkeyword hbody := by
    obtain ⟨s, hrest, haccepts⟩ := hd.leaf_ok hrule hkeyword hbody
    have hskip : rule.keyword.drop rule.skip = [] := by rw [hd.skip rule hrule, List.drop_length]
    obtain ⟨hstarts, hparse⟩ := accepts_leaf hd.forward hu hrule hskip haccepts
    exact ⟨⟨rule.keyword ++ s, t, hstarts, hparse⟩, trivial, hrest, rfl⟩
  constant c c' t h := by
    obtain ⟨s, hrest, hword⟩ := constants_ok h
    obtain ⟨hstarts, hparse⟩ := hd.accepts_constant hword
    exact ⟨⟨s, t, hstarts, hparse⟩, trivial, hrest, rfl⟩

/-- Nor do the operators look beyond their text. -/
theorem Delimiting.delimited_parse (hd : Delimiting g) (hu : g.Unambiguous) : Delimited g.parse := by
  intro c t c' h
  obtain ⟨e, -, hrest, rfl⟩ := readsExpression hd.forward (hd.atomic hu) c t c' h
  have hreadable : ∀ a ∈ e.atoms, Readable g Reading.text Reading.tree a := fun a _ => ⟨a.starts, a.accepts⟩
  refine ⟨e.text Reading.text, ?_, hrest, Concrete.accepts hd.forward hu hreadable⟩
  obtain ⟨x, s, hcons, -⟩ := Concrete.starts_flush hreadable
  rw [e.text_eq, hcons]
  simp

end

end Rsp.ErdText
