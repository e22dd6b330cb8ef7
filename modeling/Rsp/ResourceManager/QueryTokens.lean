import Rsp.ResourceManager.Query

/-!
# The tokens of a query text

How a list of tokens can be written: any white space before, between and behind them, any choice of escapes in a string, and words and numbers that do not run on into what follows. The lexer reads such a text back, so the parser, which asks for one token at a time, can be seen as standing before a list of tokens.
-/

namespace Rsp.Query

/-! ### Writing tokens -/

/-- The characters of a string as they stand between quotes: a backslash may stand before any of them, and has to before a quote or a backslash. -/
inductive Escapes : Bytes → Bytes → Prop
  | nil : Escapes [] []
  | plain {c : UInt8} {value text : Bytes} (hquote : c ≠ 34) (hbackslash : c ≠ 92) (h : Escapes value text) :
    Escapes (c :: value) (c :: text)
  | escaped {c : UInt8} {value text : Bytes} (h : Escapes value text) : Escapes (c :: value) (92 :: c :: text)

/-- The text is a word: it begins with a letter or an underscore. -/
def IsWord (text : Bytes) : Prop :=
  (text.head?.any fun c => isAlpha c || c == 95) = true ∧ ∀ c ∈ text, isIdentifierPart c = true

theorem isWord_of_all {text : Bytes} (hstart : (text.head?.any fun c => isAlpha c || c == 95) = true)
    (hparts : text.all isIdentifierPart = true) : IsWord text := ⟨hstart, List.all_eq_true.mp hparts⟩

/-- The token is written as the text. -/
inductive SpelledAs : QueryToken → Bytes → Prop
  | word {type : QueryTokenType} {text : Bytes} (htoken : identifierToken text = ⟨type, text⟩) (hword : IsWord text) :
    SpelledAs ⟨type, text⟩ text
  | integer {digits : Bytes} (hne : digits ≠ []) (hdigits : ∀ c ∈ digits, isDigit c = true) :
    SpelledAs ⟨.integer, digits⟩ digits
  | string {value text : Bytes} (h : Escapes value text) : SpelledAs ⟨.string, value⟩ (34 :: (text ++ [34]))
  | leftParen : SpelledAs ⟨.leftParen, [40]⟩ [40]
  | rightParen : SpelledAs ⟨.rightParen, [41]⟩ [41]
  | equal : SpelledAs ⟨.equal, [61]⟩ [61]
  | notEqual : SpelledAs ⟨.notEqual, [33, 61]⟩ [33, 61]

/-- A token of the type would go on with the character. -/
def runsOn (type : QueryTokenType) (c : UInt8) : Bool :=
  match type with
  | .identifier | .has | .and | .or | .not => isIdentifierPart c
  | .integer => isDigit c
  | _ => false

/-- The text is written from the tokens. -/
inductive Spells : List QueryToken → Bytes → Prop
  | done {space : Bytes} (hspace : ∀ c ∈ space, isSpace c = true) : Spells [] space
  | token {token : QueryToken} {tokens : List QueryToken} {space text rest : Bytes}
    (hspace : ∀ c ∈ space, isSpace c = true) (htext : SpelledAs token text)
    (hends : rest.head?.all (fun c => !runsOn token.type c) = true) (h : Spells tokens rest) :
    Spells (token :: tokens) (space ++ text ++ rest)

/-! ### Reading them -/

theorem readString_escapes {value text : Bytes} (h : Escapes value text) (read rest : Bytes) :
    readString read (text ++ 34 :: rest) = .ok (⟨.string, read ++ value⟩, rest) := by
  induction h generalizing read with
  | nil => rw [List.nil_append, readString, List.append_nil]
  | @plain c value text hquote hbackslash h ih =>
    have hstep : readString read (c :: (text ++ 34 :: rest)) = readString (read ++ [c]) (text ++ 34 :: rest) := by
      rw [readString]
      · exact fun heq => hquote heq
      · exact fun heq => absurd heq hbackslash
      · exact fun _ _ heq => absurd heq hbackslash
    rw [List.cons_append, hstep, ih, List.append_assoc]
    rfl
  | @escaped c value text h ih =>
    have hstep : readString read (92 :: c :: (text ++ 34 :: rest)) = readString (read ++ [c]) (text ++ 34 :: rest) := by
      rw [readString]
    rw [List.cons_append, List.cons_append, hstep, ih, List.append_assoc]
    rfl

theorem takeWhile_of_ends {p : UInt8 → Bool} {text rest : Bytes} (htext : ∀ c ∈ text, p c = true)
    (hends : rest.head?.all (fun c => !p c) = true) :
    (text ++ rest).takeWhile p = text ∧ (text ++ rest).dropWhile p = rest := by
  have hrest : rest.takeWhile p = [] ∧ rest.dropWhile p = rest := by
    cases rest with
    | nil => exact ⟨rfl, rfl⟩
    | cons c rest =>
      have hc : p c = false := by simpa using hends
      exact ⟨List.takeWhile_cons_of_neg (by simp [hc]), List.dropWhile_cons_of_neg (by simp [hc])⟩
  rw [List.takeWhile_append_of_pos htext, List.dropWhile_append_of_pos htext, hrest.1, hrest.2, List.append_nil]
  exact ⟨rfl, rfl⟩

theorem dropWhile_space {space : Bytes} (hspace : ∀ c ∈ space, isSpace c = true) {c : UInt8} (rest : Bytes)
    (hc : isSpace c = false) : (space ++ c :: rest).dropWhile isSpace = c :: rest := by
  rw [List.dropWhile_append_of_pos hspace, List.dropWhile_cons_of_neg (by simp [hc])]

theorem not_isDigit_of_startsWord {c : UInt8} (hc : (isAlpha c || c == 95) = true) : isDigit c = false := by
  by_contra hdigit
  simp only [isAlpha, isLower, isDigit, Bool.or_eq_true, Bool.and_eq_true, beq_iff_eq, Bool.not_eq_false, decide_eq_true_eq,
    UInt8.le_iff_toNat_le, ← UInt8.toNat_inj] at hc hdigit
  simp at hc hdigit
  omega

theorem not_isSpace_of_startsWord {c : UInt8} (hc : (isAlpha c || c == 95) = true) : isSpace c = false := by
  by_contra hspace
  simp only [isAlpha, isLower, isSpace, Bool.or_eq_true, Bool.and_eq_true, beq_iff_eq, Bool.not_eq_false, decide_eq_true_eq,
    UInt8.le_iff_toNat_le, ← UInt8.toNat_inj] at hc hspace
  simp at hc hspace
  omega

theorem not_isSpace_of_isDigit {c : UInt8} (hc : isDigit c = true) : isSpace c = false := by
  by_contra hspace
  simp only [isDigit, isSpace, Bool.or_eq_true, Bool.and_eq_true, beq_iff_eq, Bool.not_eq_false, decide_eq_true_eq,
    UInt8.le_iff_toNat_le, ← UInt8.toNat_inj] at hc hspace
  simp at hc hspace
  omega

/-- The lexer at a character that is no bracket, no quote and no operator. -/
theorem next_of_not_symbol {c : UInt8} {input rest : Bytes} (hinput : input.dropWhile isSpace = c :: rest)
    (hc : c ∉ [40, 41, 61, 33, 34]) :
    next input =
      if isDigit c then .ok (⟨.integer, (c :: rest).takeWhile isDigit⟩, (c :: rest).dropWhile isDigit)
      else if isAlpha c || c == 95 then
        .ok (identifierToken ((c :: rest).takeWhile isIdentifierPart), (c :: rest).dropWhile isIdentifierPart)
      else .error (.runtimeError "invalid character in resource query") := by
  rw [next, hinput]
  simp only [List.mem_cons, List.not_mem_nil, or_false, not_or] at hc
  split
  · next h => cases h
  · next h => exact absurd (List.cons.inj h).1 hc.1
  · next h => exact absurd (List.cons.inj h).1 hc.2.1
  · next h => exact absurd (List.cons.inj h).1 hc.2.2.1
  · next h => exact absurd (List.cons.inj h).1 hc.2.2.2.1
  · next h => exact absurd (List.cons.inj h).1 hc.2.2.2.2
  · next h =>
    obtain ⟨rfl, rfl⟩ := List.cons.inj h
    rfl

theorem runsOn_of_identifierToken {type : QueryTokenType} {text : Bytes} (h : identifierToken text = ⟨type, text⟩) (c : UInt8) :
    runsOn type c = isIdentifierPart c := by
  simp only [identifierToken] at h
  split_ifs at h <;> cases h <;> rfl

/-- A token as it is written is read back, whatever follows that does not belong to it. -/
theorem next_spelled {token : QueryToken} {space text rest : Bytes} (hspace : ∀ c ∈ space, isSpace c = true)
    (htext : SpelledAs token text) (hends : rest.head?.all (fun c => !runsOn token.type c) = true) :
    next (space ++ text ++ rest) = .ok (token, rest) := by
  rw [List.append_assoc]
  cases htext with
  | @word type text htoken hword =>
    obtain ⟨hstart, hparts⟩ := hword
    cases text with
    | nil => cases hstart
    | cons c text =>
      have hc : (isAlpha c || c == 95) = true := hstart
      have hsymbol : c ∉ [40, 41, 61, 33, 34] := by
        intro hmem
        have hnone : ([40, 41, 61, 33, 34].any fun c => isAlpha c || c == 95) = false := by decide
        exact absurd (List.any_eq_true.mpr ⟨c, hmem, hc⟩) (by rw [hnone]; exact Bool.false_ne_true)
      have hrunsOn : rest.head?.all (fun c => !isIdentifierPart c) = true := by
        simpa only [runsOn_of_identifierToken htoken] using hends
      obtain ⟨htake, hdrop⟩ := takeWhile_of_ends hparts hrunsOn
      rw [List.cons_append, next_of_not_symbol (dropWhile_space hspace (text ++ rest) (not_isSpace_of_startsWord hc)) hsymbol,
        not_isDigit_of_startsWord hc, if_neg Bool.false_ne_true, if_pos hc, ← List.cons_append, htake, hdrop, htoken]
  | integer hne hdigits =>
    cases text with
    | nil => exact absurd rfl hne
    | cons c digits =>
      have hc : isDigit c = true := hdigits c List.mem_cons_self
      have hsymbol : c ∉ [40, 41, 61, 33, 34] := by
        intro hmem
        have hnone : ([40, 41, 61, 33, 34].any isDigit) = false := by decide
        exact absurd (List.any_eq_true.mpr ⟨c, hmem, hc⟩) (by rw [hnone]; exact Bool.false_ne_true)
      obtain ⟨htake, hdrop⟩ := takeWhile_of_ends hdigits hends
      rw [List.cons_append, next_of_not_symbol (dropWhile_space hspace (digits ++ rest) (not_isSpace_of_isDigit hc)) hsymbol, if_pos hc,
        ← List.cons_append, htake, hdrop]
  | @string value text h =>
    rw [next, List.cons_append, dropWhile_space hspace _ rfl, List.append_assoc]
    exact readString_escapes h [] rest
  | leftParen =>
    rw [next, List.cons_append, dropWhile_space hspace _ rfl]
    rfl
  | rightParen =>
    rw [next, List.cons_append, dropWhile_space hspace _ rfl]
    rfl
  | equal =>
    rw [next, List.cons_append, dropWhile_space hspace _ rfl]
    rfl
  | notEqual =>
    rw [next, List.cons_append, dropWhile_space hspace _ rfl]
    rfl

/-! ### The parser before a list of tokens -/

/-- The tokens that the parser will see. -/
inductive Stands : QueryParser → List QueryToken → Prop
  | done {p : QueryParser} (h : p.current.type = .endOfQuery) : Stands p []
  | token {p p' : QueryParser} {tokens : List QueryToken} (hnext : QueryParser.ofInput p.rest = .ok p')
    (h : Stands p' tokens) : Stands p (p.current :: tokens)

theorem ofInput_of_next {input rest : Bytes} {token : QueryToken} (h : next input = .ok (token, rest)) :
    QueryParser.ofInput input = .ok ⟨token, rest⟩ := by
  rw [QueryParser.ofInput, h]
  rfl

theorem Spells.exists_stands {tokens : List QueryToken} {text : Bytes} (h : Spells tokens text) :
    ∃ p, QueryParser.ofInput text = .ok p ∧ Stands p tokens := by
  induction h with
  | @done space hspace =>
    have hdrop : space.dropWhile isSpace = [] := by
      rw [← List.append_nil space, List.dropWhile_append_of_pos hspace]
      rfl
    have hnext : next space = .ok (⟨.endOfQuery, []⟩, []) := by rw [next, hdrop]
    exact ⟨_, ofInput_of_next hnext, .done rfl⟩
  | token hspace htext hends _ ih =>
    obtain ⟨p', hp', hstands⟩ := ih
    exact ⟨_, ofInput_of_next (next_spelled hspace htext hends), .token hp' hstands⟩

theorem SpelledAs.ne_nil {token : QueryToken} {text : Bytes} (h : SpelledAs token text) : text ≠ [] := by
  rintro rfl
  cases h with
  | word htoken hword => cases hword.1
  | integer hne => exact hne rfl

theorem Spells.length_le {tokens : List QueryToken} {text : Bytes} (h : Spells tokens text) : tokens.length ≤ text.length := by
  induction h with
  | done => exact Nat.zero_le _
  | token hspace htext hends _ ih =>
    have hpos := List.length_pos_of_ne_nil htext.ne_nil
    rw [List.length_cons, List.length_append, List.length_append]
    omega

/-- Consuming the token that stands first. -/
theorem Stands.consume {p : QueryParser} {token : QueryToken} {tokens : List QueryToken} (h : Stands p (token :: tokens)) :
    p.current = token ∧ ∃ p', p.consume token.type = .ok p' ∧ Stands p' tokens := by
  cases h with
  | @token p p' tokens hnext h =>
    refine ⟨rfl, p', ?_, h⟩
    rw [QueryParser.consume, if_neg (not_not.mpr rfl), hnext]

end Rsp.Query
