import Rsp.Endorsement.TextTokens
import Rsp.ResourceManager.QueryTokens

/-!
# Printing and parsing queries

The tokens of a query expression with parentheses only where the grammar needs them, and that the parser gets the expression back from every text written from them. The parser goes by levels: unary expressions, chains of AND, chains of OR. A chain is parsed by a loop that collects its operands from the left, so what is proved about it is that, before the loop goes on, it has collected the expression read so far.
-/

namespace Rsp.Query

/-! ### Tokens of an expression -/

def QueryOperator.token : QueryOperator → QueryToken
  | .equal => ⟨.equal, [61]⟩
  | .notEqual => ⟨.notEqual, [33, 61]⟩
  | .has => ⟨.has, ascii "HAS"⟩

def QueryValue.token : QueryValue → QueryToken
  | .string value => ⟨.string, value⟩
  | .integer value => ⟨.integer, ErdText.decimal value.toNat⟩

def inParentheses (tokens : List QueryToken) : List QueryToken := ⟨.leftParen, [40]⟩ :: (tokens ++ [⟨.rightParen, [41]⟩])

/-- Tokens of an operand, in parentheses if it needs them. -/
def operand (needed : Bool) (tokens : List QueryToken) : List QueryToken := if needed then inParentheses tokens else tokens

namespace QueryExpression

def isAnd : QueryExpression → Bool
  | .and _ _ => true
  | _ => false

def isOr : QueryExpression → Bool
  | .or _ _ => true
  | _ => false

/-- The tokens of an expression. Parentheses stand around an OR below an AND, an AND or OR below a NOT, and a right operand with the operator of its parent. -/
def tokens : QueryExpression → List QueryToken
  | .empty => []
  | .comparison field operator value => [⟨.identifier, field⟩, operator.token, value.token]
  | .and left right => operand left.isOr left.tokens ++ ⟨.and, ascii "AND"⟩ :: operand (right.isAnd || right.isOr) right.tokens
  | .or left right => left.tokens ++ ⟨.or, ascii "OR"⟩ :: operand right.isOr right.tokens
  | .not left => ⟨.not, ascii "NOT"⟩ :: operand (left.isAnd || left.isOr) left.tokens

/-- Built from comparisons whose fields are identifiers and no keywords. -/
def Printable : QueryExpression → Prop
  | .empty => False
  | .comparison field _ _ => IsWord field ∧ identifierToken field = ⟨.identifier, field⟩
  | .and left right | .or left right => left.Printable ∧ right.Printable
  | .not left => left.Printable

end QueryExpression

/-! ### Parsing a list of tokens -/

/-- On the tokens, before whatever follows, the parser returns the expression, with any fuel from a bound on. -/
def Parses (parser : Nat → QueryParser → Except Fault (QueryExpression × QueryParser)) (bound : Nat)
    (tokens : List QueryToken) (expression : QueryExpression) (follows : List QueryToken → Prop) : Prop :=
  ∀ p rest, Stands p (tokens ++ rest) → follows rest →
    ∃ p', Stands p' rest ∧ ∀ fuel, bound ≤ fuel → parser fuel p = .ok (expression, p')

/-- On the tokens the parser comes to its loop with the expression, and has used up less fuel than there are tokens. -/
def Collects (parser : Nat → QueryParser → Except Fault (QueryExpression × QueryParser))
    (loop : Nat → QueryExpression → QueryParser → Except Fault (QueryExpression × QueryParser)) (bound : Nat)
    (tokens : List QueryToken) (expression : QueryExpression) (follows : List QueryToken → Prop) : Prop :=
  ∀ p rest, Stands p (tokens ++ rest) → follows rest →
    ∃ p', Stands p' rest ∧ ∀ fuel, bound ≤ fuel → ∃ fuel', fuel ≤ fuel' + tokens.length ∧
      parser fuel p = loop fuel' expression p'

/-- The first token is none of the type. -/
def NotBefore (type : QueryTokenType) (tokens : List QueryToken) : Prop := ∀ token ∈ tokens.head?, token.type ≠ type

theorem Stands.type_ne {p : QueryParser} {tokens : List QueryToken} {type : QueryTokenType} (h : Stands p tokens)
    (hbefore : NotBefore type tokens) (hend : type ≠ .endOfQuery) : p.current.type ≠ type := by
  cases h with
  | done hdone => exact fun heq => hend (heq.symm.trans hdone)
  | token => exact hbefore _ rfl

/-- A comparison comes to its literal. -/
theorem parseComparison_literal {field : Bytes} {operator : QueryOperator} {literal : QueryToken} {p : QueryParser}
    {rest : List QueryToken} (h : Stands p ([⟨.identifier, field⟩, operator.token, literal] ++ rest)) :
    ∃ p₂ p₃, p₂.current = literal ∧ p₂.consume literal.type = .ok p₃ ∧ Stands p₃ rest ∧
      parseComparison p = (parseLiteral p₂).map fun read => (.comparison field operator read.1, read.2) := by
  obtain ⟨hfield, p₁, hconsume, h⟩ := h.consume
  obtain ⟨hoperator, p₂, hconsume₂, h⟩ := h.consume
  obtain ⟨hvalue, p₃, hconsume₃, h⟩ := h.consume
  refine ⟨p₂, p₃, hvalue, hconsume₃, h, ?_⟩
  have hop : parseOperator p₁ = .ok (operator, p₂) := by
    cases operator <;> simp only [QueryOperator.token] at hoperator hconsume₂ <;>
      simp only [parseOperator, hoperator, hconsume₂] <;> rfl
  have htype : p.current.type = .identifier := by rw [hfield]
  have hconsume₁ : p.consume .identifier = .ok p₁ := hconsume
  unfold parseComparison
  rw [if_neg (not_not.mpr htype), hconsume₁]
  change (parseOperator p₁ >>= _) = _
  rw [hop, hfield]
  change (parseLiteral p₂ >>= _) = _
  cases parseLiteral p₂ <;> rfl

theorem mem_decimal_bounds {n : Nat} {c : UInt8} (h : c ∈ ErdText.decimal n) : 48 ≤ c ∧ c ≤ 57 :=
  of_decide_eq_true (ErdText.isdigit_of_mem_decimal h)

theorem isDigit_of_mem_decimal {n : Nat} {c : UInt8} (h : c ∈ ErdText.decimal n) : isDigit c = true := by
  obtain ⟨hlow, hhigh⟩ := mem_decimal_bounds h
  rw [isDigit, decide_eq_true hlow, decide_eq_true hhigh]
  rfl

theorem stoul_decimal (n : UInt32) : stoul (ErdText.decimal n.toNat) = .ok n.toNat := by
  have hvalue : (ErdText.decimal n.toNat).foldl (fun value digit => 10 * value + (digit.toNat - 48)) 0 = n.toNat := by
    conv_rhs => rw [← ErdText.digitsValue_decimal n.toNat]
    rw [ErdText.digitsValue]
    refine List.foldl_ext _ _ _ fun value digit hdigit => ?_
    have hle : (48 : UInt8) ≤ digit := (mem_decimal_bounds hdigit).1
    have hzero : ErdText.char '0' = 48 := rfl
    rw [hzero, UInt8.toNat_sub_of_le _ _ hle]
    rfl
  have hlt := n.toNat_lt
  rw [stoul]
  simp only [hvalue]
  rw [if_neg (by omega)]

theorem parseLiteral_token (value : QueryValue) {p p' : QueryParser} (hcurrent : p.current = value.token)
    (hconsume : p.consume value.token.type = .ok p') : parseLiteral p = .ok (value, p') := by
  cases value with
  | string text =>
    simp only [QueryValue.token] at hcurrent hconsume
    unfold parseLiteral
    simp only [hcurrent, hconsume]
    rfl
  | integer n =>
    simp only [QueryValue.token] at hcurrent hconsume
    unfold parseLiteral
    simp only [hcurrent, hconsume, stoul_decimal]
    change Except.ok (QueryValue.integer (UInt32.ofNat n.toNat), p') = _
    rw [UInt32.ofNat_toNat]

/-! ### The levels of the grammar -/

section

variable {fuel : Nat} {p p₁ p₂ p₃ : QueryParser} {expression left right : QueryExpression}

theorem parseUnary_of_not (hcurrent : p.current.type = .not) (hconsume : p.consume .not = .ok p₁)
    (h : parseUnary fuel p₁ = .ok (expression, p₂)) : parseUnary (fuel + 1) p = .ok (.not expression, p₂) := by
  rw [parseUnary, if_pos hcurrent, hconsume]
  change (parseUnary fuel p₁ >>= _) = _
  rw [h]
  rfl

theorem parseUnary_of_primary (hcurrent : p.current.type ≠ .not) : parseUnary (fuel + 1) p = parsePrimary fuel p := by
  rw [parseUnary, if_neg hcurrent]

theorem parsePrimary_of_paren (hcurrent : p.current.type = .leftParen) (hconsume : p.consume .leftParen = .ok p₁)
    (h : parseOr fuel p₁ = .ok (expression, p₂)) (hclose : p₂.consume .rightParen = .ok p₃) :
    parsePrimary (fuel + 1) p = .ok (expression, p₃) := by
  rw [parsePrimary, if_pos hcurrent, hconsume]
  change (parseOr fuel p₁ >>= _) = _
  rw [h]
  change (p₂.consume .rightParen >>= _) = _
  rw [hclose]
  rfl

theorem parseAnd_of_unary (h : parseUnary fuel p = .ok (expression, p₁)) :
    parseAnd (fuel + 1) p = parseAndLoop fuel expression p₁ := by
  rw [parseAnd, h]
  rfl

theorem parseAndLoop_of_and (hcurrent : p.current.type = .and) (hconsume : p.consume .and = .ok p₁)
    (h : parseUnary fuel p₁ = .ok (right, p₂)) : parseAndLoop (fuel + 1) left p = parseAndLoop fuel (.and left right) p₂ := by
  rw [parseAndLoop, if_pos hcurrent, hconsume]
  change (parseUnary fuel p₁ >>= _) = _
  rw [h]
  rfl

theorem parseAndLoop_of_not_and (hcurrent : p.current.type ≠ .and) :
    parseAndLoop (fuel + 1) expression p = .ok (expression, p) := by
  rw [parseAndLoop, if_neg hcurrent]

theorem parseOr_of_and (h : parseAnd fuel p = .ok (expression, p₁)) :
    parseOr (fuel + 1) p = parseOrLoop fuel expression p₁ := by
  rw [parseOr, h]
  rfl

theorem parseOrLoop_of_or (hcurrent : p.current.type = .or) (hconsume : p.consume .or = .ok p₁)
    (h : parseAnd fuel p₁ = .ok (right, p₂)) : parseOrLoop (fuel + 1) left p = parseOrLoop fuel (.or left right) p₂ := by
  rw [parseOrLoop, if_pos hcurrent, hconsume]
  change (parseAnd fuel p₁ >>= _) = _
  rw [h]
  rfl

theorem parseOrLoop_of_not_or (hcurrent : p.current.type ≠ .or) :
    parseOrLoop (fuel + 1) expression p = .ok (expression, p) := by
  rw [parseOrLoop, if_neg hcurrent]

end

/-! ### From level to level -/

section

variable {tokens leftTokens rightTokens : List QueryToken} {expression left right : QueryExpression}

theorem parses_unary_comparison (field : Bytes) (operator : QueryOperator) (value : QueryValue) {literal : QueryToken}
    (hliteral : ∀ p p' : QueryParser, p.current = literal → p.consume literal.type = .ok p' → parseLiteral p = .ok (value, p')) :
    Parses parseUnary 2 [⟨.identifier, field⟩, operator.token, literal] (.comparison field operator value) fun _ => True := by
  intro p rest h _
  have hfirst := h.consume.1
  obtain ⟨p₂, p₃, hcurrent, hconsume, h, hparse⟩ := parseComparison_literal h
  refine ⟨p₃, h, fun fuel hfuel => ?_⟩
  obtain ⟨fuel, rfl⟩ : ∃ n, fuel = n + 2 := ⟨fuel - 2, by omega⟩
  have htype : p.current.type = .identifier := by rw [hfirst]
  rw [parseUnary_of_primary (by rw [htype]; decide), parsePrimary, if_neg (by rw [htype]; decide), hparse,
    hliteral p₂ p₃ hcurrent hconsume]
  rfl

theorem Parses.mono {parser : Nat → QueryParser → Except Fault (QueryExpression × QueryParser)} {a b : Nat}
    {follows : List QueryToken → Prop} (h : Parses parser a tokens expression follows) (hle : a ≤ b) :
    Parses parser b tokens expression follows := by
  intro p rest hstands hrest
  obtain ⟨p', hstands, hparse⟩ := h p rest hstands hrest
  exact ⟨p', hstands, fun fuel hfuel => hparse fuel (le_trans hle hfuel)⟩

theorem Parses.not {bound : Nat} (h : Parses parseUnary bound tokens expression fun _ => True) :
    Parses parseUnary (bound + 1) (⟨.not, ascii "NOT"⟩ :: tokens) (.not expression) fun _ => True := by
  intro p rest hstands _
  obtain ⟨hcurrent, p₁, hconsume, hstands⟩ := hstands.consume
  obtain ⟨p₂, hstands, hparse⟩ := h p₁ rest hstands trivial
  refine ⟨p₂, hstands, fun fuel hfuel => ?_⟩
  obtain ⟨fuel, rfl⟩ : ∃ n, fuel = n + 1 := ⟨fuel - 1, by omega⟩
  exact parseUnary_of_not (by rw [hcurrent]) hconsume (hparse fuel (by omega))

theorem Parses.inParentheses {bound : Nat}
    (h : Parses parseOr bound tokens expression fun rest => NotBefore .and rest ∧ NotBefore .or rest) :
    Parses parseUnary (bound + 2) (inParentheses tokens) expression fun _ => True := by
  intro p rest hstands _
  obtain ⟨hcurrent, p₁, hconsume, hstands⟩ := hstands.consume
  change Stands p₁ (tokens ++ [_] ++ rest) at hstands
  rw [List.append_assoc] at hstands
  have hclosed {type : QueryTokenType} (htype : type ≠ .rightParen) :
      NotBefore type ([⟨.rightParen, [41]⟩] ++ rest) := by
    intro token htoken
    obtain rfl := Option.some.inj htoken
    exact htype.symm
  obtain ⟨p₂, hstands, hparse⟩ := h p₁ _ hstands ⟨hclosed (by decide), hclosed (by decide)⟩
  obtain ⟨-, p₃, hclose, hstands⟩ := hstands.consume
  refine ⟨p₃, hstands, fun fuel hfuel => ?_⟩
  obtain ⟨fuel, rfl⟩ : ∃ n, fuel = n + 2 := ⟨fuel - 2, by omega⟩
  rw [parseUnary_of_primary (by rw [hcurrent]; decide)]
  exact parsePrimary_of_paren (by rw [hcurrent]) hconsume (hparse fuel (by omega)) hclose

/-- A single operand is a chain of AND. -/
theorem Parses.collects_and {bound : Nat} (h : Parses parseUnary bound tokens expression fun _ => True) (hne : tokens ≠ []) :
    Collects parseAnd parseAndLoop (bound + 1) tokens expression fun _ => True := by
  intro p rest hstands _
  obtain ⟨p₁, hstands, hparse⟩ := h p rest hstands trivial
  refine ⟨p₁, hstands, fun fuel hfuel => ?_⟩
  obtain ⟨fuel, rfl⟩ : ∃ n, fuel = n + 1 := ⟨fuel - 1, by omega⟩
  have hpos := List.length_pos_of_ne_nil hne
  exact ⟨fuel, by omega, parseAnd_of_unary (hparse fuel (by omega))⟩

/-- One more operand of a chain of AND. The loop has used up less fuel than there are tokens so far, so what is left is enough for the operand. -/
theorem Collects.and {a b : Nat} (hleft : Collects parseAnd parseAndLoop a leftTokens left fun _ => True)
    (hright : Parses parseUnary b rightTokens right fun _ => True) (ha : a ≤ 4 * leftTokens.length)
    (hb : b ≤ 4 * rightTokens.length) :
    Collects parseAnd parseAndLoop (4 * (leftTokens ++ ⟨.and, ascii "AND"⟩ :: rightTokens).length - 1)
      (leftTokens ++ ⟨.and, ascii "AND"⟩ :: rightTokens) (.and left right) fun _ => True := by
  intro p rest hstands _
  rw [List.append_assoc] at hstands
  obtain ⟨p₁, hstands, hcollect⟩ := hleft p _ hstands trivial
  obtain ⟨hcurrent, p₂, hconsume, hstands⟩ := hstands.consume
  obtain ⟨p₃, hstands, hparse⟩ := hright p₂ rest hstands trivial
  refine ⟨p₃, hstands, fun fuel hfuel => ?_⟩
  rw [List.length_append, List.length_cons] at hfuel ⊢
  obtain ⟨left', hleft', hloop⟩ := hcollect fuel (by omega)
  obtain ⟨fuel', rfl⟩ : ∃ n, left' = n + 1 := ⟨left' - 1, by omega⟩
  refine ⟨fuel', by omega, ?_⟩
  rw [hloop]
  exact parseAndLoop_of_and (by rw [hcurrent]) hconsume (hparse fuel' (by omega))

theorem Collects.parses_and {bound : Nat} (h : Collects parseAnd parseAndLoop bound tokens expression fun _ => True)
    (hbound : tokens.length < bound) : Parses parseAnd bound tokens expression (NotBefore .and) := by
  intro p rest hstands hrest
  obtain ⟨p₁, hstands, hcollect⟩ := h p rest hstands trivial
  refine ⟨p₁, hstands, fun fuel hfuel => ?_⟩
  obtain ⟨left, hleft, hloop⟩ := hcollect fuel hfuel
  obtain ⟨fuel', rfl⟩ : ∃ n, left = n + 1 := ⟨left - 1, by omega⟩
  rw [hloop]
  exact parseAndLoop_of_not_and (hstands.type_ne hrest (by decide))

/-- A single operand is a chain of OR. -/
theorem Parses.collects_or {bound : Nat} (h : Parses parseAnd bound tokens expression (NotBefore .and)) (hne : tokens ≠ []) :
    Collects parseOr parseOrLoop (bound + 1) tokens expression (NotBefore .and) := by
  intro p rest hstands hrest
  obtain ⟨p₁, hstands, hparse⟩ := h p rest hstands hrest
  refine ⟨p₁, hstands, fun fuel hfuel => ?_⟩
  obtain ⟨fuel, rfl⟩ : ∃ n, fuel = n + 1 := ⟨fuel - 1, by omega⟩
  have hpos := List.length_pos_of_ne_nil hne
  exact ⟨fuel, by omega, parseOr_of_and (hparse fuel (by omega))⟩

theorem Collects.or {a b : Nat} (hleft : Collects parseOr parseOrLoop a leftTokens left (NotBefore .and))
    (hright : Parses parseAnd b rightTokens right (NotBefore .and)) (ha : a ≤ 4 * leftTokens.length)
    (hb : b ≤ 4 * rightTokens.length) :
    Collects parseOr parseOrLoop (4 * (leftTokens ++ ⟨.or, ascii "OR"⟩ :: rightTokens).length)
      (leftTokens ++ ⟨.or, ascii "OR"⟩ :: rightTokens) (.or left right) (NotBefore .and) := by
  intro p rest hstands hrest
  rw [List.append_assoc] at hstands
  have hor : NotBefore .and (⟨.or, ascii "OR"⟩ :: (rightTokens ++ rest)) := by
    intro token htoken
    obtain rfl := Option.some.inj htoken
    decide
  obtain ⟨p₁, hstands, hcollect⟩ := hleft p _ hstands hor
  obtain ⟨hcurrent, p₂, hconsume, hstands⟩ := hstands.consume
  obtain ⟨p₃, hstands, hparse⟩ := hright p₂ rest hstands hrest
  refine ⟨p₃, hstands, fun fuel hfuel => ?_⟩
  rw [List.length_append, List.length_cons] at hfuel ⊢
  obtain ⟨left', hleft', hloop⟩ := hcollect fuel (by omega)
  obtain ⟨fuel', rfl⟩ : ∃ n, left' = n + 1 := ⟨left' - 1, by omega⟩
  refine ⟨fuel', by omega, ?_⟩
  rw [hloop]
  exact parseOrLoop_of_or (by rw [hcurrent]) hconsume (hparse fuel' (by omega))

theorem Collects.parses_or {bound : Nat} (h : Collects parseOr parseOrLoop bound tokens expression (NotBefore .and))
    (hbound : tokens.length < bound) :
    Parses parseOr bound tokens expression fun rest => NotBefore .and rest ∧ NotBefore .or rest := by
  intro p rest hstands hrest
  obtain ⟨p₁, hstands, hcollect⟩ := h p rest hstands hrest.1
  refine ⟨p₁, hstands, fun fuel hfuel => ?_⟩
  obtain ⟨left, hleft, hloop⟩ := hcollect fuel hfuel
  obtain ⟨fuel', rfl⟩ : ∃ n, left = n + 1 := ⟨left - 1, by omega⟩
  rw [hloop]
  exact parseOrLoop_of_not_or (hstands.type_ne hrest.2 (by decide))

end

/-! ### Expressions at every level -/

theorem length_inParentheses (tokens : List QueryToken) : (inParentheses tokens).length = tokens.length + 2 := by
  simp only [inParentheses, List.length_cons, List.length_append, List.length_nil]

/-- What the parser makes of the tokens of an expression. An AND or OR has tokens of its own level, and the levels above take any expression of those below. -/
structure ParsesBack (expression : QueryExpression) : Prop where
  length_pos : 1 ≤ expression.tokens.length
  unary : (expression.isAnd || expression.isOr) = false →
    Parses parseUnary (4 * expression.tokens.length - 2) expression.tokens expression fun _ => True
  chain : expression.isOr = false →
    Collects parseAnd parseAndLoop (4 * expression.tokens.length - 1) expression.tokens expression fun _ => True
  whole : Collects parseOr parseOrLoop (4 * expression.tokens.length) expression.tokens expression (NotBefore .and)

namespace ParsesBack

variable {expression left right : QueryExpression}

theorem parses_or (h : ParsesBack expression) :
    Parses parseOr (4 * expression.tokens.length) expression.tokens expression
      fun rest => NotBefore .and rest ∧ NotBefore .or rest := by
  have hpos := h.length_pos
  exact h.whole.parses_or (by omega)

theorem inParentheses (h : ParsesBack expression) :
    Parses parseUnary (4 * (inParentheses expression.tokens).length - 2) (inParentheses expression.tokens) expression
      fun _ => True := by
  apply h.parses_or.inParentheses.mono
  rw [length_inParentheses]
  omega

theorem operand_pos (h : ParsesBack expression) (needed : Bool) : 1 ≤ (operand needed expression.tokens).length := by
  have hpos := h.length_pos
  unfold operand
  split_ifs
  · rw [length_inParentheses]
    omega
  · exact hpos

/-- An operand of a NOT or the right one of an AND. -/
theorem unaryOperand (h : ParsesBack expression) :
    Parses parseUnary (4 * (operand (expression.isAnd || expression.isOr) expression.tokens).length - 2)
      (operand (expression.isAnd || expression.isOr) expression.tokens) expression fun _ => True := by
  unfold operand
  split_ifs with hneeded
  · exact h.inParentheses
  · exact h.unary (Bool.eq_false_of_not_eq_true hneeded)

theorem collects_and {tokens : List QueryToken}
    (h : Parses parseUnary (4 * tokens.length - 2) tokens expression fun _ => True) (hpos : 1 ≤ tokens.length) :
    Collects parseAnd parseAndLoop (4 * tokens.length - 1) tokens expression fun _ => True := by
  have hcollects := h.collects_and (List.ne_nil_of_length_pos hpos)
  rwa [show 4 * tokens.length - 2 + 1 = 4 * tokens.length - 1 by omega] at hcollects

/-- The left operand of an AND, or the right one of an OR. -/
theorem chainOperand (h : ParsesBack expression) :
    Collects parseAnd parseAndLoop (4 * (operand expression.isOr expression.tokens).length - 1)
      (operand expression.isOr expression.tokens) expression fun _ => True := by
  unfold operand
  split_ifs with hneeded
  · apply collects_and h.inParentheses
    rw [length_inParentheses]
    omega
  · exact h.chain (Bool.eq_false_of_not_eq_true hneeded)

theorem of_chain (hpos : 1 ≤ expression.tokens.length)
    (hunary : (expression.isAnd || expression.isOr) = false →
      Parses parseUnary (4 * expression.tokens.length - 2) expression.tokens expression fun _ => True)
    (hchain : Collects parseAnd parseAndLoop (4 * expression.tokens.length - 1) expression.tokens expression fun _ => True) :
    ParsesBack expression := by
  refine ⟨hpos, hunary, fun _ => hchain, ?_⟩
  have hcollects := (hchain.parses_and (by omega)).collects_or (List.ne_nil_of_length_pos hpos)
  rwa [show 4 * expression.tokens.length - 1 + 1 = 4 * expression.tokens.length by omega] at hcollects

theorem of_unary (hpos : 1 ≤ expression.tokens.length)
    (hunary : Parses parseUnary (4 * expression.tokens.length - 2) expression.tokens expression fun _ => True) :
    ParsesBack expression :=
  of_chain hpos (fun _ => hunary) (collects_and hunary hpos)

theorem not (h : ParsesBack expression) : ParsesBack (.not expression) := by
  have hpos := h.operand_pos (expression.isAnd || expression.isOr)
  refine of_unary (Nat.succ_pos _) (h.unaryOperand.not.mono ?_)
  rw [QueryExpression.tokens, List.length_cons]
  omega

theorem and (hleft : ParsesBack left) (hright : ParsesBack right) : ParsesBack (.and left right) := by
  refine of_chain ?_ (fun h => Bool.noConfusion h) ?_
  · rw [QueryExpression.tokens, List.length_append, List.length_cons]
    omega
  · exact hleft.chainOperand.and hright.unaryOperand (by omega) (by omega)

theorem or (hleft : ParsesBack left) (hright : ParsesBack right) : ParsesBack (.or left right) := by
  have hpos := hright.operand_pos right.isOr
  have hparses := hright.chainOperand.parses_and (by omega)
  refine ⟨?_, fun h => Bool.noConfusion h, fun h => Bool.noConfusion h, ?_⟩
  · rw [QueryExpression.tokens, List.length_append, List.length_cons]
    omega
  · exact hleft.whole.or hparses le_rfl (by omega)

end ParsesBack

theorem parsesBack {expression : QueryExpression} (h : expression.Printable) : ParsesBack expression := by
  induction expression with
  | empty => exact h.elim
  | comparison field operator value =>
    have hunary := parses_unary_comparison field operator value fun _ _ => parseLiteral_token value
    exact ParsesBack.of_unary (Nat.succ_pos _) (hunary.mono (show 2 ≤ 10 by decide))
  | and left right hleft hright => exact (hleft h.1).and (hright h.2)
  | or left right hleft hright => exact (hleft h.1).or (hright h.2)
  | not left hleft => exact (hleft h).not

/-! ### Texts -/

theorem parseQueryExpression_of_parses {tokens : List QueryToken} {expression : QueryExpression} {text : Bytes}
    (hparses : Parses parseOr (4 * tokens.length) tokens expression fun rest => NotBefore .and rest ∧ NotBefore .or rest)
    (hspells : Spells tokens text) (hpos : 1 ≤ tokens.length) : parseQueryExpression text = .ok expression := by
  have hlength := hspells.length_le
  have hne : text ≠ [] := List.ne_nil_of_length_pos (le_trans hpos hlength)
  obtain ⟨p, hinit, hstands⟩ := hspells.exists_stands
  rw [← List.append_nil tokens] at hstands
  have hnone (type : QueryTokenType) : NotBefore type [] := fun _ htoken => nomatch htoken
  obtain ⟨p', hstands, hparse⟩ := hparses p [] hstands ⟨hnone .and, hnone .or⟩
  have hend : p'.current.type = .endOfQuery := by
    cases hstands with
    | done hend => exact hend
  rw [parseQueryExpression, if_neg (by simpa using hne), parse, hinit]
  change (parseOr (8 * (text.length + 1)) p >>= _) = _
  rw [hparse (8 * (text.length + 1)) (by omega)]
  exact if_neg (not_not.mpr hend)

theorem parseQueryExpression_of_spells {expression : QueryExpression} {text : Bytes} (hprintable : expression.Printable)
    (hspells : Spells expression.tokens text) : parseQueryExpression text = .ok expression :=
  parseQueryExpression_of_parses (parsesBack hprintable).parses_or hspells (parsesBack hprintable).length_pos

/-- A string with a backslash before every quote and backslash. -/
def escape (value : Bytes) : Bytes := value.flatMap fun c => if c == 34 || c == 92 then [92, c] else [c]

theorem escapes_escape (value : Bytes) : Escapes value (escape value) := by
  induction value with
  | nil => exact .nil
  | cons c value ih =>
    rw [escape, List.flatMap_cons]
    split_ifs with hc
    · exact .escaped ih
    · rw [Bool.or_eq_true, not_or, beq_iff_eq, beq_iff_eq] at hc
      exact .plain hc.1 hc.2 ih

def QueryToken.print (token : QueryToken) : Bytes :=
  match token.type with
  | .string => 34 :: (escape token.text ++ [34])
  | _ => token.text

/-- An expression in one fixed layout: a blank before every token. -/
def QueryExpression.print (expression : QueryExpression) : Bytes := expression.tokens.flatMap fun token => 32 :: token.print

theorem spells_print {tokens : List QueryToken} (h : ∀ token ∈ tokens, SpelledAs token token.print) :
    Spells tokens (tokens.flatMap fun token => 32 :: token.print) := by
  induction tokens with
  | nil => exact .done fun _ hc => nomatch hc
  | cons token tokens ih =>
    have hends : (tokens.flatMap fun token => 32 :: token.print).head?.all (fun c => !runsOn token.type c) = true := by
      cases tokens with
      | nil => rfl
      | cons other others =>
        show (!runsOn token.type 32) = true
        cases token.type <;> decide
    have hspace : ∀ c ∈ ([32] : Bytes), isSpace c = true := by
      intro c hc
      rw [List.mem_singleton.mp hc]
      decide
    exact .token hspace (h token List.mem_cons_self) hends (ih fun token htoken => h token (List.mem_cons_of_mem _ htoken))

theorem spelledAs_operator (operator : QueryOperator) : SpelledAs operator.token operator.token.print := by
  cases operator with
  | equal => exact .equal
  | notEqual => exact .notEqual
  | has => exact .word rfl (isWord_of_all rfl rfl)

theorem spelledAs_value (value : QueryValue) : SpelledAs value.token value.token.print := by
  cases value with
  | string value => exact .string (escapes_escape value)
  | integer value => exact .integer (ErdText.decimal_ne_nil _) fun c hc => isDigit_of_mem_decimal hc

theorem mem_operand {needed : Bool} {tokens : List QueryToken} {token : QueryToken} (h : token ∈ operand needed tokens) :
    token ∈ tokens ∨ token = ⟨.leftParen, [40]⟩ ∨ token = ⟨.rightParen, [41]⟩ := by
  unfold operand at h
  split_ifs at h
  · rw [inParentheses, List.mem_cons, List.mem_append, List.mem_singleton] at h
    tauto
  · exact .inl h

theorem spelledAs_operand {needed : Bool} {tokens : List QueryToken} (h : ∀ token ∈ tokens, SpelledAs token token.print) :
    ∀ token ∈ operand needed tokens, SpelledAs token token.print := by
  intro token htoken
  obtain htoken | rfl | rfl := mem_operand htoken
  · exact h token htoken
  · exact .leftParen
  · exact .rightParen

theorem spelledAs_of_mem_tokens {expression : QueryExpression} (h : expression.Printable) :
    ∀ token ∈ expression.tokens, SpelledAs token token.print := by
  induction expression with
  | empty => exact h.elim
  | comparison field operator value =>
    rw [QueryExpression.tokens, List.forall_mem_cons, List.forall_mem_cons, List.forall_mem_singleton]
    exact ⟨.word h.2 h.1, spelledAs_operator operator, spelledAs_value value⟩
  | and left right hleft hright =>
    rw [QueryExpression.tokens, List.forall_mem_append, List.forall_mem_cons]
    exact ⟨spelledAs_operand (hleft h.1), .word rfl (isWord_of_all rfl rfl), spelledAs_operand (hright h.2)⟩
  | or left right hleft hright =>
    rw [QueryExpression.tokens, List.forall_mem_append, List.forall_mem_cons]
    exact ⟨hleft h.1, .word rfl (isWord_of_all rfl rfl), spelledAs_operand (hright h.2)⟩
  | not left hleft =>
    rw [QueryExpression.tokens, List.forall_mem_cons]
    exact ⟨.word rfl (isWord_of_all rfl rfl), spelledAs_operand (hleft h)⟩

/-- An expression can be written, and the parser reads it back from every text its tokens are written in, whatever the white space between them and whichever characters of the strings are escaped. -/
theorem parseQueryExpression_printed {expression : QueryExpression} (h : expression.Printable) :
    Spells expression.tokens expression.print ∧
      ∀ text, Spells expression.tokens text → parseQueryExpression text = .ok expression :=
  ⟨spells_print (spelledAs_of_mem_tokens h), fun _ hspells => parseQueryExpression_of_spells h hspells⟩

theorem parseQueryExpression_printed_nested :
    let expression : QueryExpression :=
      .and (.or (.comparison (ascii "a") .has (.string (ascii "\""))) (.not (.comparison (ascii "b") .equal (.integer 5))))
        (.comparison (ascii "c") .notEqual (.integer 7))
    expression.print = ascii " ( a HAS \"\\\"\" OR NOT b = 5 ) AND c != 7" ∧
      parseQueryExpression expression.print = .ok expression := by
  intro expression
  have hprintable : expression.Printable :=
    ⟨⟨⟨isWord_of_all rfl rfl, rfl⟩, isWord_of_all rfl rfl, rfl⟩, isWord_of_all rfl rfl, rfl⟩
  obtain ⟨hspells, hparse⟩ := parseQueryExpression_printed hprintable
  exact ⟨by decide +kernel, hparse _ hspells⟩

end Rsp.Query
