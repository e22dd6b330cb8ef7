import Rsp.Config.MessageRules
import Rsp.Endorsement.TextVariables

/-!
# Rule files are parsed by inlining

What the lines of a rule file are as texts: declarations of variables, each expression using the names declared before it, and one rule at the end. The array is accepted exactly if its lines are a rule file, and its tree is then the one that `fromString` gives for the rule with every variable replaced by the text it stands for.
-/

namespace Rsp.Config

open RecursiveDescent Proto ErdText Grammar

/-! ### Lines -/

theorem stops_dropWhile (test : UInt8 → Bool) (text : Bytes) : Stops test (text.dropWhile test) := by
  induction text with
  | nil => exact fun x hx => by cases hx
  | cons x text ih =>
    rw [List.dropWhile_cons]
    split_ifs with hx
    · exact ih
    · exact stops_cons (by simpa using hx)

/-- What is cut off at the end of a line. -/
theorem trimmed_append (s : Bytes) : ∃ after, s.dropWhile isspace = trimmed s ++ after := by
  refine ⟨((s.dropWhile isspace).reverse.takeWhile isspace).reverse, ?_⟩
  rw [trimmed, ← List.reverse_append, List.takeWhile_append_dropWhile, List.reverse_reverse]

theorem stops_trimmed (s : Bytes) : Stops isspace (trimmed s) := by
  obtain ⟨after, hafter⟩ := trimmed_append s
  have hstops := stops_dropWhile isspace s
  rw [hafter] at hstops
  intro x hx
  cases hs : trimmed s with
  | nil =>
    rw [hs] at hx
    cases hx
  | cons y tail =>
    rw [hs] at hx hstops
    exact hstops x hx

theorem stops_reverse_trimmed (s : Bytes) : Stops isspace (trimmed s).reverse := by
  rw [trimmed, List.reverse_reverse]
  exact stops_dropWhile isspace _

theorem trimmed_isInfix (s : Bytes) : trimmed s <:+: s := by
  obtain ⟨after, hafter⟩ := trimmed_append s
  refine ⟨s.takeWhile isspace, after, ?_⟩
  rw [List.append_assoc, ← hafter, List.takeWhile_append_dropWhile]

/-- The lines that are neither blank nor comments, without the white space around them. -/
def contentLines (entries : List Bytes) : List Bytes := (entries.map trimmed).filter fun line => !isCommentOrBlank line

/-- The line declares the variable `name`. -/
structure IsLet (line name expr : Bytes) : Prop where
  isName : IsName name
  nonempty : expr ≠ []
  start : Stops isspace expr
  parts : ∃ afterLet afterName afterEquals : Space, afterLet.1 ≠ [] ∧
    line = ascii "let" ++ (afterLet.1 ++ (name ++ (afterName.1 ++ (ascii "=" ++ (afterEquals.1 ++ expr)))))

theorem isFirst_eq (c : UInt8) : isFirst c = isIdChar c true := by
  simp [isFirst, isIdChar]

theorem isRest_eq (c : UInt8) : isRest c = isIdChar c false := by
  simp [isRest, isIdChar, isdigit]

theorem isIdentifier_iff {name : Bytes} : isIdentifier name = true ↔ IsName name := by
  cases name with
  | nil =>
    refine ⟨fun h => (by cases h), ?_⟩
    rintro ⟨first, others, hnil, -⟩
    cases hnil
  | cons first others =>
    have hrest : isRest = fun c => isIdChar c false := funext isRest_eq
    rw [isIdentifier, isFirst_eq, hrest]
    refine ⟨fun h => ⟨first, others, rfl, h⟩, ?_⟩
    rintro ⟨first', others', hcons, h⟩
    obtain ⟨rfl, rfl⟩ := List.cons.inj hcons
    exact h

theorem IsName.not_equals {name : Bytes} (h : IsName name) : name ≠ [] ∧ ∀ c ∈ name, (!isspace c && decide (c ≠ char '=')) = true := by
  obtain ⟨first, others, rfl, hchars⟩ := h
  rw [Bool.and_eq_true, List.all_eq_true] at hchars
  have hchar (c : UInt8) (hc : isIdChar c true = true ∨ isIdChar c false = true) :
      (!isspace c && decide (c ≠ char '=')) = true := by
    revert c
    decide +kernel
  refine ⟨List.cons_ne_nil _ _, ?_⟩
  rw [List.forall_mem_cons]
  exact ⟨hchar first (.inl hchars.1), fun c hc => hchar c (.inr (hchars.2 c hc))⟩

theorem startsWithLet_iff {line : Bytes} :
    startsWithLet line = true ↔ ∃ x rest, isspace x = true ∧ line = ascii "let" ++ x :: rest := by
  rw [startsWithLet, Bool.or_eq_true, Bool.and_eq_true, List.isPrefixOf_iff_prefix, List.isPrefixOf_iff_prefix]
  constructor
  · rintro (⟨tail, rfl⟩ | ⟨⟨tail, rfl⟩, hspace⟩)
    · exact ⟨char ' ', tail, rfl, rfl⟩
    · have hdrop : (ascii "let" ++ tail).drop 3 = tail := rfl
      rw [hdrop] at hspace
      cases tail with
      | nil => cases hspace
      | cons x tail => exact ⟨x, tail, hspace, rfl⟩
  · rintro ⟨x, rest, hspace, rfl⟩
    exact .inr ⟨List.prefix_append _ _, hspace⟩

theorem dropWhile_space_append (space : Space) {rest : Bytes} (h : Stops isspace rest) :
    (space.1 ++ rest).dropWhile isspace = rest := by
  rw [List.dropWhile_append_of_pos space.2]
  cases rest with
  | nil => rfl
  | cons x rest => exact List.dropWhile_cons_of_neg (by rw [h x rfl]; exact Bool.false_ne_true)

theorem tryParseLet_eq_none {line : Bytes} (h : startsWithLet line = false) : tryParseLet line = none := by
  rw [tryParseLet, h, Bool.not_false, if_pos rfl, ite_self]

/-- Where each part of a declaration ends is seen from the part itself. -/
theorem IsLet.tryParseLet {line name expr : Bytes} (h : IsLet line name expr) :
    tryParseLet line = some ⟨name, expr, ""⟩ := by
  obtain ⟨hname, hne, hstart, afterLet, afterName, afterEquals, hspace, rfl⟩ := h
  obtain ⟨hnonempty, hchars⟩ := IsName.not_equals hname
  obtain ⟨x, w, hcons⟩ := List.exists_cons_of_ne_nil hspace
  have hlet (rest : Bytes) : startsWithLet (ascii "let" ++ (afterLet.1 ++ rest)) = true := by
    refine startsWithLet_iff.mpr ⟨x, w ++ rest, afterLet.2 x (by rw [hcons]; exact List.mem_cons_self), ?_⟩
    rw [hcons]
    rfl
  have hlength (rest : Bytes) : ¬ (ascii "let" ++ (afterLet.1 ++ rest)).length < 4 := by
    have hthree : (ascii "let").length = 3 := rfl
    rw [hcons]
    simp only [List.length_append, List.length_cons, hthree]
    omega
  have hdrop (rest : Bytes) : (ascii "let" ++ rest).drop 3 = rest := rfl
  have hafterLet (rest : Bytes) : (afterLet.1 ++ (name ++ rest)).dropWhile isspace = name ++ rest := by
    refine dropWhile_space_append afterLet ?_
    obtain ⟨first, others, rfl⟩ := List.exists_cons_of_ne_nil hnonempty
    have hfirst := hchars first List.mem_cons_self
    rw [Bool.and_eq_true, Bool.not_eq_true'] at hfirst
    exact stops_cons hfirst.1
  have hend (tail : Bytes) : Stops (fun c => !isspace c && c ≠ char '=') (afterName.1 ++ (ascii "=" ++ tail)) := by
    intro c hc
    cases hname : afterName.1 with
    | nil =>
      rw [hname] at hc
      obtain rfl : char '=' = c := Option.some.inj hc
      rfl
    | cons y space =>
      rw [hname] at hc
      obtain rfl : y = c := Option.some.inj hc
      have hy := afterName.2 y (by rw [hname]; exact List.mem_cons_self)
      show (!isspace y && decide (y ≠ char '=')) = false
      rw [hy]
      rfl
  have hequals (tail : Bytes) : (afterName.1 ++ (ascii "=" ++ tail)).dropWhile isspace = ascii "=" ++ tail :=
    dropWhile_space_append afterName (stops_cons (by decide))
  have hhead (tail : Bytes) : (ascii "=" ++ tail).head? = some (char '=') ∧ (ascii "=" ++ tail).drop 1 = tail :=
    ⟨rfl, rfl⟩
  rw [Config.tryParseLet, if_neg (hlength _), hlet, Bool.not_true, if_neg Bool.false_ne_true]
  dsimp only
  rw [hdrop, hafterLet, takeWhile_append_of_stops hchars (hend _), List.drop_left, hequals, (hhead _).1, (hhead _).2,
    dropWhile_space_append afterEquals hstart, if_neg (not_not_intro rfl), isIdentifier_iff.mpr hname, Bool.not_true,
    if_neg Bool.false_ne_true, if_neg]
  rwa [List.isEmpty_iff]

theorem exists_space_append (text : Bytes) : ∃ space : Space, text = space.1 ++ text.dropWhile isspace :=
  ⟨⟨text.takeWhile isspace, List.all_eq_true.mp List.all_takeWhile⟩, List.takeWhile_append_dropWhile.symm⟩

theorem error_ne_empty (text : String) (h : 0 < text.length) (more : String) : text ++ more ≠ "" := by
  intro hempty
  have hlength := congrArg String.length hempty
  rw [String.length_append, String.length_empty] at hlength
  omega

theorem isLet_of_tryParseLet {line : Bytes} {declared : LetLine} (h : tryParseLet line = some declared)
    (hok : declared.error = "") : IsLet line declared.name declared.expr := by
  rw [Config.tryParseLet] at h
  split_ifs at h with hlength hlet
  dsimp only at h
  split_ifs at h with hequals hname hempty
  · obtain rfl := Option.some.inj h
    have hmissing : "let declaration is missing '='" = "" := hok
    exact absurd hmissing (by decide)
  · obtain rfl := Option.some.inj h
    rw [String.append_assoc] at hok
    exact absurd hok (error_ne_empty _ (by decide) _)
  · obtain rfl := Option.some.inj h
    rw [String.append_assoc] at hok
    exact absurd hok (error_ne_empty _ (by decide) _)
  · obtain rfl := Option.some.inj h
    obtain ⟨x, rest, hx, rfl⟩ := startsWithLet_iff.mp (by simpa using hlet)
    have hdrop : (ascii "let" ++ x :: rest).drop 3 = x :: rest := rfl
    rw [hdrop] at hequals hname hempty ⊢
    obtain ⟨afterLet, hafterLet⟩ := exists_space_append (x :: rest)
    have hspace : afterLet.1 ≠ [] := by
      intro hnil
      rw [hnil, List.nil_append] at hafterLet
      have hstops := stops_dropWhile isspace (x :: rest)
      rw [← hafterLet] at hstops
      exact absurd hx (Bool.eq_false_iff.mp (hstops x rfl))
    generalize (x :: rest).dropWhile isspace = afterSpace at hequals hname hempty hafterLet ⊢
    have hparts := takeWhile_append_drop (fun c => !isspace c && decide (c ≠ char '=')) afterSpace
    generalize afterSpace.takeWhile (fun c => !isspace c && decide (c ≠ char '=')) = name at hequals hname hempty hparts ⊢
    obtain ⟨afterName, hafterName⟩ := exists_space_append (afterSpace.drop name.length)
    generalize (afterSpace.drop name.length).dropWhile isspace = assigned at hequals hempty hafterName ⊢
    obtain ⟨value, rfl⟩ := List.head?_eq_some_iff.mp (not_not.mp hequals)
    rw [List.drop_one, List.tail_cons] at hempty ⊢
    obtain ⟨afterEquals, hafterEquals⟩ := exists_space_append value
    refine ⟨isIdentifier_iff.mp (by simpa using hname), ?_, stops_dropWhile isspace value,
      afterLet, afterName, afterEquals, hspace, ?_⟩
    · exact fun hnil => hempty (List.isEmpty_iff.mpr hnil)
    · rw [hafterLet]
      conv_lhs => rw [hparts, hafterName, hafterEquals]
      rfl

/-! ### Macros -/

/-- Neither macro occurs in the text. -/
def WithoutMacros (text : Bytes) : Prop := ¬ myNodeId <:+: text ∧ ¬ fromFilePrefix <:+: text

theorem WithoutMacros.of_isInfix {text part : Bytes} (h : WithoutMacros text) (hpart : part <:+: text) :
    WithoutMacros part :=
  ⟨fun hpart' => h.1 (hpart'.trans hpart), fun hpart' => h.2 (hpart'.trans hpart)⟩

theorem not_isPrefixOf_of_not_isInfix {word text : Bytes} (h : ¬ word <:+: text) : ¬ word.isPrefixOf text = true := by
  rw [List.isPrefixOf_iff_prefix]
  exact fun hstarts => h hstarts.isInfix

variable {nodeIDFromPublicKeyFile : Bytes → Except Fault NodeID} {macros : MacroContext}

theorem expandMyNodeId_eq {nodeId text : Bytes} (h : ¬ myNodeId <:+: text) : expandMyNodeId nodeId 0 text = text := by
  induction text with
  | nil => rfl
  | cons c text ih =>
    rw [expandMyNodeId, if_neg (not_isPrefixOf_of_not_isInfix h), ih fun hpart' => h (hpart'.trans (List.infix_cons List.infix_rfl))]

theorem expandFromFile_eq {text : Bytes} (h : ¬ fromFilePrefix <:+: text) :
    expandFromFile nodeIDFromPublicKeyFile 0 text = .ok text := by
  induction text with
  | nil => rfl
  | cons c text ih =>
    rw [expandFromFile, if_neg (not_isPrefixOf_of_not_isInfix h), ih fun hpart' => h (hpart'.trans (List.infix_cons List.infix_rfl))]
    rfl

theorem WithoutMacros.expandMacros {text : Bytes} (h : WithoutMacros text) :
    expandMacros nodeIDFromPublicKeyFile text macros = .ok text := by
  rw [Config.expandMacros, expandMyNodeId_eq h.1, expandFromFile_eq h.2]

/-! ### Rule files -/

/-- The texts that the declared variables stand for. -/
abbrev Environment := List (Bytes × Bytes)

def Environment.names (env : Environment) : List Bytes := env.map Prod.fst

def Environment.text (env : Environment) (name : Bytes) : Bytes := (env.lookup name).getD []

/-- The variables of the expression are among `names`. -/
def Uses (names : List Bytes) (e : Expression) : Prop := ∀ name, .var name ∈ e.atoms → name ∈ names

/-- Declarations and one rule, after those of `env`; `inlined` is the rule without variables. -/
inductive RuleFile : (env : Environment) → (lines : List Bytes) → (inlined : Bytes) → Prop where
  | rule {env : Environment} {e : Expression} (uses : Uses env.names e) :
    RuleFile env [e.source] (Expression.inlined env.text e)
  | declare {env : Environment} {line name : Bytes} {e : Expression} {lines : List Bytes} {inlined : Bytes}
    (isLet : IsLet line name e.source) (fresh : name ∉ env.names) (uses : Uses env.names e)
    (rest : RuleFile ((name, Expression.inlined env.text e) :: env) lines inlined) : RuleFile env (line :: lines) inlined

/-- The trees that are stored are those of the inlined texts. -/
def Stored (env : Environment) (vars : List (Bytes × ERDAbstractSyntaxTree)) : Prop :=
  List.Forall₂ (fun text tree => text.1 = tree.1 ∧ IsName text.1 ∧ Starts text.2 ∧
    Accepts (parseTree none) text.2 tree.2 Anything) env vars

section

variable {env : Environment} {vars : List (Bytes × ERDAbstractSyntaxTree)}

theorem Stored.lookup (h : Stored env vars) (name : Bytes) :
    (name ∈ env.names ↔ (vars.lookup name).isSome) ∧ (name ∈ env.names → IsName name) ∧
      ∀ tree, vars.lookup name = some tree →
        Starts (env.text name) ∧ Accepts (parseTree none) (env.text name) tree Anything := by
  induction h with
  | nil =>
    refine ⟨?_, fun hmem => ?_, fun tree htree => ?_⟩
    · simp [Environment.names]
    · cases hmem
    · cases htree
  | @cons text tree env vars hhead _ ih =>
    obtain ⟨x, s⟩ := text
    obtain ⟨y, t⟩ := tree
    obtain ⟨rfl, hname, hread⟩ := hhead
    have hnames : Environment.names ((x, s) :: env) = x :: Environment.names env := rfl
    rw [hnames, List.mem_cons, Environment.text, List.lookup_cons, List.lookup_cons]
    by_cases hx : name = x
    · rw [beq_iff_eq.mpr hx]
      refine ⟨by simp [hx], fun _ => hx ▸ hname, fun tree htree => ?_⟩
      obtain rfl := Option.some.inj htree
      exact hread
    · rw [beq_eq_false_iff_ne.mpr hx]
      refine ⟨by rw [ih.1]; simp [hx], fun hmem => ih.2.1 (hmem.resolve_left hx), ih.2.2⟩

theorem Stored.resolves (h : Stored env vars) {e : Expression} :
    Uses env.names e ↔ ∀ a ∈ e.atoms, a.Resolves (vars.lookup ·) := by
  constructor
  · intro huses a ha
    cases a with
    | leaf l => trivial
    | var name =>
      obtain ⟨hmem, hname, -⟩ := h.lookup name
      exact ⟨hname (huses name ha), hmem.mp (huses name ha)⟩
  · intro hresolves name ha
    exact (h.lookup name).1.mpr (hresolves _ ha).2

/-- An expression that is accepted can be stored with its inlined text. -/
theorem Stored.cons (h : Stored env vars) {name : Bytes} {e : Expression} (hname : IsName name)
    (hspace : e.space = noSpace) (huses : Uses env.names e) :
    Stored ((name, Expression.inlined env.text e) :: env)
      ((name, e.tree (treeGrammar none) (Atom.tree (vars.lookup ·))) :: vars) := by
  have hread := Expression.accepts_inlined hspace (h.resolves.mp huses) fun name => (h.lookup name).2.2
  exact List.Forall₂.cons ⟨rfl, hname, hread⟩ h

end

/-! ### Lines of the array -/

theorem rethrow_eq_ok {α : Type} {idx : Nat} {text : String} {x : Except Fault α} {a : α} :
    rethrow idx text x = .ok a ↔ x = .ok a := by
  cases x with
  | ok b => rfl
  | error fault =>
    rw [rethrow]
    split_ifs
    · simp [entryError]
    · rfl

theorem not_isSome_rule (vars : List (Bytes × ERDAbstractSyntaxTree)) : ¬ (RuleState.mk vars none).rule.isSome = true :=
  Bool.false_ne_true

theorem handleLine_of_let {idx : Nat} {vars : List (Bytes × ERDAbstractSyntaxTree)} {line name expr : Bytes}
    {state : RuleState} (hlet : IsLet line name expr) (hmacros : WithoutMacros expr) :
    handleLine nodeIDFromPublicKeyFile macros idx ⟨vars, none⟩ line = .ok state ↔
      vars.lookup name = none ∧ ∃ tree, fromStringWith (resolving (vars.lookup ·)) expr = .ok tree ∧
        state = ⟨(name, tree) :: vars, none⟩ := by
  have hresolver : some (RuleState.mk vars none).resolver = resolving (vars.lookup ·) := rfl
  rw [handleLine, if_neg (not_isSome_rule vars), hlet.tryParseLet]
  dsimp only
  rw [if_neg (not_not_intro rfl), hmacros.expandMacros, hresolver]
  cases hlookup : vars.lookup name with
  | some tree => simp [entryError]
  | none =>
    rw [if_neg (by simp)]
    constructor
    · intro h
      obtain ⟨expanded, hexpanded, h⟩ := bind_eq_ok.mp h
      obtain rfl := Except.ok.inj hexpanded
      obtain ⟨tree, htree, h⟩ := bind_eq_ok.mp h
      exact ⟨rfl, tree, rethrow_eq_ok.mp htree, (Except.ok.inj h).symm⟩
    · rintro ⟨-, tree, htree, rfl⟩
      refine bind_eq_ok.mpr ⟨expr, rfl, bind_eq_ok.mpr ⟨tree, rethrow_eq_ok.mpr htree, rfl⟩⟩

theorem handleLine_of_rule {idx : Nat} {vars : List (Bytes × ERDAbstractSyntaxTree)} {line : Bytes}
    {state : RuleState} (hrule : tryParseLet line = none) (hmacros : WithoutMacros line) :
    handleLine nodeIDFromPublicKeyFile macros idx ⟨vars, none⟩ line = .ok state ↔
      ∃ tree, fromStringWith (resolving (vars.lookup ·)) line = .ok tree ∧ state = ⟨vars, some tree⟩ := by
  have hresolver : some (RuleState.mk vars none).resolver = resolving (vars.lookup ·) := rfl
  rw [handleLine, if_neg (not_isSome_rule vars), hrule]
  dsimp only
  rw [hmacros.expandMacros, hresolver]
  constructor
  · intro h
    obtain ⟨expanded, hexpanded, h⟩ := bind_eq_ok.mp h
    obtain rfl := Except.ok.inj hexpanded
    obtain ⟨tree, htree, h⟩ := bind_eq_ok.mp h
    exact ⟨tree, rethrow_eq_ok.mp htree, (Except.ok.inj h).symm⟩
  · rintro ⟨tree, htree, rfl⟩
    exact bind_eq_ok.mpr ⟨line, rfl, bind_eq_ok.mpr ⟨tree, rethrow_eq_ok.mpr htree, rfl⟩⟩

/-- A line is a declaration, or it does not begin like one, or it is refused. -/
theorem handleLine_cases {idx : Nat} {vars : List (Bytes × ERDAbstractSyntaxTree)} {line : Bytes} {state : RuleState}
    (h : handleLine nodeIDFromPublicKeyFile macros idx ⟨vars, none⟩ line = .ok state) :
    (∃ name expr, IsLet line name expr) ∨ tryParseLet line = none := by
  cases hlet : tryParseLet line with
  | none => exact .inr rfl
  | some declared =>
    refine .inl ⟨declared.name, declared.expr, isLet_of_tryParseLet hlet ?_⟩
    by_contra herror
    rw [handleLine, if_neg (not_isSome_rule vars), hlet] at h
    dsimp only at h
    rw [if_pos herror] at h
    cases h


/-- No expression begins like a declaration. -/
theorem not_startsWithLet {resolver : Option VariableResolver} {line : Bytes} {tree : ERDAbstractSyntaxTree}
    (h : fromStringWith resolver line = .ok tree) : startsWithLet line = false := by
  rw [Bool.eq_false_iff]
  intro hlet
  obtain ⟨x, rest, -, rfl⟩ := startsWithLet_iff.mp hlet
  have hkeywords : ∀ keyword ∈ (treeGrammar resolver).keywords, Incomparable keyword (ascii "let") := by
    have hsame : (treeGrammar resolver).keywords = (treeGrammar none).keywords := rfl
    rw [hsame]
    decide
  have hstart : Stops isspace (ascii "let" ++ x :: rest) := stops_cons (by decide)
  have hne : ascii "let" ++ x :: rest ≠ [] := List.cons_ne_nil _ _
  obtain ⟨c', after, hparse, -⟩ := fromStringWith_ok hne hstart h
  rw [parseTree, parse_eq (treeGrammar_delimiting resolver).forward] at hparse
  have hstay : skipWhitespace ⟨0, ascii "let" ++ x :: rest⟩ = .ok ((), ⟨0, ascii "let" ++ x :: rest⟩) :=
    accepts_skipWhitespace 0 _ hstart
  rw [step, bind_of_ok hstay] at hparse
  rcases choose_ok hparse with ⟨rule, hrule, hkeyword, -⟩ | hconstant
  · have hmem : rule.keyword ∈ (treeGrammar resolver).keywords := by
      rw [← keywords_rules (treeGrammar resolver).parse]
      exact List.mem_map_of_mem hrule
    exact (hkeywords _ hmem).not_isPrefixOf _ (List.isPrefixOf_iff_prefix.mpr hkeyword)
  · obtain ⟨s, hrest, hword⟩ := constants_ok hconstant
    cases s with
    | nil => rcases hword with ⟨hs, -⟩ | ⟨hs, -⟩ <;> cases hs
    | cons y s =>
      obtain rfl : char 'l' = y := (List.cons.inj hrest).1
      rcases hword with ⟨hs, -⟩ | ⟨hs, -⟩
      · exact absurd (List.cons.inj hs).1 (by decide)
      · exact absurd (List.cons.inj hs).1 (by decide)

theorem contentLines_cons (raw : Bytes) (entries : List Bytes) :
    contentLines (raw :: entries) =
      if isCommentOrBlank (trimmed raw) then contentLines entries else trimmed raw :: contentLines entries := by
  rw [contentLines, List.map_cons, List.filter_cons]
  cases isCommentOrBlank (trimmed raw) <;> rfl

theorem handleEntries_cons {idx : Nat} {state : RuleState} (raw : Bytes) (entries : List (Option Bytes)) :
    handleEntries nodeIDFromPublicKeyFile macros idx state (some raw :: entries) =
      if isCommentOrBlank (trimmed raw) then handleEntries nodeIDFromPublicKeyFile macros (idx + 1) state entries
      else handleLine nodeIDFromPublicKeyFile macros idx state (trimmed raw) >>= fun state =>
        handleEntries nodeIDFromPublicKeyFile macros (idx + 1) state entries := rfl

/-- Nothing but comments may follow the rule. -/
theorem handleEntries_of_rule {idx : Nat} {vars : List (Bytes × ERDAbstractSyntaxTree)} {tree : ERDAbstractSyntaxTree}
    {entries : List Bytes} {state : RuleState} :
    handleEntries nodeIDFromPublicKeyFile macros idx ⟨vars, some tree⟩ (entries.map some) = .ok state ↔
      contentLines entries = [] ∧ state = ⟨vars, some tree⟩ := by
  induction entries generalizing idx with
  | nil =>
    rw [List.map_nil, handleEntries, Except.ok.injEq]
    exact ⟨fun h => ⟨rfl, h.symm⟩, fun h => h.2.symm⟩
  | cons raw entries ih =>
    rw [List.map_cons, handleEntries_cons, contentLines_cons]
    split_ifs with hblank
    · exact ih
    · have hline : handleLine nodeIDFromPublicKeyFile macros idx ⟨vars, some tree⟩ (trimmed raw) =
          entryError idx "content appears after the rule line; the rule line must be last" := rfl
      rw [hline]
      refine ⟨fun h => (by cases h), fun h => (by cases h.1)⟩

theorem trimmed_ne_nil {raw : Bytes} (h : ¬ isCommentOrBlank (trimmed raw) = true) : trimmed raw ≠ [] := by
  intro hnil
  rw [hnil] at h
  exact h rfl

theorem IsLet.stops_reverse {line name expr : Bytes} (h : IsLet line name expr) (hline : Stops isspace line.reverse) :
    Stops isspace expr.reverse := by
  obtain ⟨-, hne, -, afterLet, afterName, afterEquals, -, rfl⟩ := h
  simp only [List.reverse_append, List.append_assoc] at hline
  obtain ⟨x, tail, hcons⟩ := List.exists_cons_of_ne_nil (mt List.reverse_eq_nil_iff.mp hne)
  rw [hcons] at hline ⊢
  exact fun y hy => hline y hy

theorem IsLet.isInfix {line name expr : Bytes} (h : IsLet line name expr) : expr <:+: line := by
  obtain ⟨-, -, -, afterLet, afterName, afterEquals, -, rfl⟩ := h
  refine List.IsSuffix.isInfix ?_
  simp only [← List.append_assoc]
  exact List.suffix_append _ _

/-- An accepted array is a rule file, by induction on its entries. -/
theorem exists_ruleFile {entries : List Bytes} (hmacros : ∀ raw ∈ entries, WithoutMacros raw) {idx : Nat}
    {env : Environment} {vars : List (Bytes × ERDAbstractSyntaxTree)} {state : RuleState} {tree : ERDAbstractSyntaxTree}
    (hstored : Stored env vars) (htree : state.rule = some tree)
    (h : handleEntries nodeIDFromPublicKeyFile macros idx ⟨vars, none⟩ (entries.map some) = .ok state) :
    ∃ inlined, RuleFile env (contentLines entries) inlined := by
  induction entries generalizing idx env vars with
  | nil =>
    obtain rfl := Except.ok.inj h
    cases htree
  | cons raw entries ih =>
    rw [List.forall_mem_cons] at hmacros
    rw [List.map_cons, handleEntries_cons] at h
    rw [contentLines_cons]
    split_ifs at h ⊢ with hblank
    · exact ih hmacros.2 hstored h
    · obtain ⟨middle, hline, h⟩ := bind_eq_ok.mp h
      have hclean := hmacros.1.of_isInfix (trimmed_isInfix raw)
      have hend := stops_reverse_trimmed raw
      rcases handleLine_cases hline with ⟨name, expr, hlet⟩ | hrule
      · obtain ⟨hlookup, found, hfound, rfl⟩ := (handleLine_of_let hlet (hclean.of_isInfix hlet.isInfix)).mp hline
        obtain ⟨e, hspace, hresolves, rfl, rfl⟩ :=
          exists_expression hlet.nonempty hlet.start (hlet.stops_reverse hend) hfound
        have huses := hstored.resolves.mpr hresolves
        obtain ⟨inlined, hrest⟩ := ih hmacros.2 (hstored.cons hlet.isName hspace huses) h
        refine ⟨inlined, .declare hlet (fun hmem => ?_) huses hrest⟩
        rw [(hstored.lookup name).1, hlookup] at hmem
        cases hmem
      · obtain ⟨found, hfound, rfl⟩ := (handleLine_of_rule hrule hclean).mp hline
        obtain ⟨e, hspace, hresolves, hsource, -⟩ :=
          exists_expression (trimmed_ne_nil hblank) (stops_trimmed raw) hend hfound
        obtain ⟨hnone, -⟩ := handleEntries_of_rule.mp h
        rw [hnone, hsource]
        exact ⟨_, .rule (hstored.resolves.mpr hresolves)⟩

/-- A rule file is accepted, with the tree of its inlined text. -/
theorem RuleFile.handleEntries {entries : List Bytes} (hmacros : ∀ raw ∈ entries, WithoutMacros raw) (idx : Nat)
    {env : Environment} {vars : List (Bytes × ERDAbstractSyntaxTree)} {inlined : Bytes}
    (hstored : Stored env vars) (h : RuleFile env (contentLines entries) inlined) :
    ∃ state tree, handleEntries nodeIDFromPublicKeyFile macros idx ⟨vars, none⟩ (entries.map some) = .ok state ∧
      state.rule = some tree ∧ fromString inlined = .ok tree := by
  induction entries generalizing idx env vars with
  | nil => cases h
  | cons raw entries ih =>
    rw [List.forall_mem_cons] at hmacros
    rw [contentLines_cons] at h
    rw [List.map_cons, handleEntries_cons]
    split_ifs at h ⊢ with hblank
    · exact ih hmacros.2 (idx + 1) hstored h
    · have hclean := hmacros.1.of_isInfix (trimmed_isInfix raw)
      generalize hline : trimmed raw = line at h hclean ⊢
      generalize hlines : contentLines entries = lines at h
      cases h with
      | rule huses =>
        have hspace := Expression.space_eq (hline ▸ stops_trimmed raw)
        have hresolves := hstored.resolves.mp huses
        have hfound := Expression.fromStringWith_source hspace hresolves
        have hrule := tryParseLet_eq_none (not_startsWithLet hfound)
        obtain ⟨hstarts, haccepts⟩ := Expression.accepts_inlined hspace hresolves fun name => (hstored.lookup name).2.2
        refine ⟨⟨vars, some _⟩, _, bind_eq_ok.mpr ⟨_, (handleLine_of_rule hrule hclean).mpr ⟨_, hfound, rfl⟩, ?_⟩, rfl,
          fromStringWith_of_accepts hstarts haccepts⟩
        exact handleEntries_of_rule.mpr ⟨hlines, rfl⟩
      | declare hlet hfresh huses hrest =>
        have hspace := Expression.space_eq hlet.start
        have hfound := Expression.fromStringWith_source hspace (hstored.resolves.mp huses)
        rw [(hstored.lookup _).1, Option.not_isSome_iff_eq_none] at hfresh
        rw [← hlines] at hrest
        obtain ⟨state, tree, hentries, htree, hinlined⟩ := ih hmacros.2 (idx + 1) (hstored.cons hlet.isName hspace huses) hrest
        refine ⟨state, tree, bind_eq_ok.mpr ⟨_, ?_, hentries⟩, htree, hinlined⟩
        exact (handleLine_of_let hlet (hclean.of_isInfix hlet.isInfix)).mpr ⟨hfresh, _, hfound, rfl⟩

variable (nodeIDFromPublicKeyFile macros)

theorem buildMessageRulesTree_eq_ok {entries : List (Option Bytes)} {tree : ERDAbstractSyntaxTree} :
    buildMessageRulesTree nodeIDFromPublicKeyFile macros (some entries) = .ok tree ↔
      ∃ state, Config.handleEntries nodeIDFromPublicKeyFile macros 0 {} entries = .ok state ∧ state.rule = some tree := by
  rw [buildMessageRulesTree, bind_eq_ok]
  refine exists_congr fun state => and_congr_right fun _ => ?_
  cases state.rule with
  | none => simp
  | some found => simp

/-- An array without macros is accepted exactly if its lines are a rule file, and then its tree is the one that `fromString` gives for the rule with every variable replaced by the text it stands for. -/
theorem buildMessageRulesTree_inlines (entries : List Bytes) (hmacros : ∀ raw ∈ entries, WithoutMacros raw) :
    ((∃ tree, buildMessageRulesTree nodeIDFromPublicKeyFile macros (some (entries.map some)) = .ok tree) ↔
      ∃ inlined, RuleFile [] (contentLines entries) inlined) ∧
    ∀ inlined, RuleFile [] (contentLines entries) inlined →
      buildMessageRulesTree nodeIDFromPublicKeyFile macros (some (entries.map some)) = fromString inlined := by
  have hfile (inlined : Bytes) (h : RuleFile [] (contentLines entries) inlined) :
      ∃ tree, buildMessageRulesTree nodeIDFromPublicKeyFile macros (some (entries.map some)) = .ok tree ∧
        fromString inlined = .ok tree := by
    obtain ⟨state, tree, hentries, htree, hinlined⟩ := h.handleEntries hmacros 0 (.nil : Stored [] [])
    exact ⟨tree, (buildMessageRulesTree_eq_ok _ _).mpr ⟨state, hentries, htree⟩, hinlined⟩
  refine ⟨⟨?_, ?_⟩, fun inlined h => ?_⟩
  · rintro ⟨tree, h⟩
    obtain ⟨state, hentries, htree⟩ := (buildMessageRulesTree_eq_ok _ _).mp h
    exact exists_ruleFile hmacros (.nil : Stored [] []) htree hentries
  · rintro ⟨inlined, h⟩
    obtain ⟨tree, hbuild, -⟩ := hfile inlined h
    exact ⟨tree, hbuild⟩
  · obtain ⟨tree, hbuild, hinlined⟩ := hfile inlined h
    rw [hbuild, hinlined]

/-- A comment, a declaration and a rule that uses it. -/
def sampleRules : List Bytes :=
  [ascii "# either", ascii " let a = OR(TRUE,false)", ascii "AND($\x7ba\x7d,ENDORSEMENT_VALUE(ab)) "]

def sampleInlined : Bytes := ascii "AND(OR(TRUE,false),ENDORSEMENT_VALUE(ab))"

theorem sampleRules_withoutMacros : ∀ raw ∈ sampleRules, WithoutMacros raw := by
  rw [sampleRules, List.forall_mem_cons, List.forall_mem_cons, List.forall_mem_singleton]
  exact ⟨⟨by decide, by decide⟩, ⟨by decide, by decide⟩, by decide, by decide⟩

theorem sampleRules_ruleFile : RuleFile [] (contentLines sampleRules) sampleInlined := by
  have htrue : IsLeaf (ascii "TRUE") .trueValue := .inl (.inl ⟨rfl, rfl⟩)
  have hfalse : IsLeaf (ascii "false") .falseValue := .inl (.inr ⟨rfl, rfl⟩)
  have hvalue : IsLeaf (ascii "ENDORSEMENT_VALUE(ab)") (.endorsement (some (.valueEquals [0xab]))) :=
    .inr ⟨_, .tail _ (.tail _ (.head _)), ascii "ab)", 3, rfl, rfl⟩
  let choice : Expression :=
    .binary noSpace .or (.atom noSpace (.leaf ⟨_, _, htrue⟩)) noSpace (.atom noSpace (.leaf ⟨_, _, hfalse⟩)) noSpace
  let rule : Expression :=
    .binary noSpace .and (.atom noSpace (.var (ascii "a"))) noSpace (.atom noSpace (.leaf ⟨_, _, hvalue⟩)) noSpace
  have hblank : ∀ x ∈ ascii " ", isspace x := List.all_eq_true.mp rfl
  have hlet : IsLet (ascii "let a = OR(TRUE,false)") (ascii "a") choice.source :=
    ⟨⟨_, _, rfl, rfl⟩, List.cons_ne_nil _ _, stops_cons (by decide), ⟨_, hblank⟩, ⟨_, hblank⟩, ⟨_, hblank⟩,
      List.cons_ne_nil _ _, rfl⟩
  have hlines : contentLines sampleRules = [ascii "let a = OR(TRUE,false)", rule.source] := rfl
  rw [hlines]
  refine .declare hlet List.not_mem_nil ?_ (.rule ?_)
  · intro name hmem
    rcases List.mem_cons.mp hmem with hname | hname
    · cases hname
    · cases List.mem_singleton.mp hname
  · intro name hmem
    rcases List.mem_cons.mp hmem with hname | hname
    · obtain rfl := Atom.var.inj hname
      exact List.mem_cons_self
    · cases List.mem_singleton.mp hname

theorem buildMessageRulesTree_inlines_sample :
    RuleFile [] (contentLines sampleRules) sampleInlined ∧
      buildMessageRulesTree (fun _ => .error .abort) ⟨[]⟩ (some (sampleRules.map some)) = fromString sampleInlined :=
  ⟨sampleRules_ruleFile,
    (buildMessageRulesTree_inlines (fun _ => .error .abort) ⟨[]⟩ sampleRules sampleRules_withoutMacros).2 _
      sampleRules_ruleFile⟩

end Rsp.Config
