import Rsp.Proto.Messages

/-!
# Resource queries

The query language of the resource manager (`QueryLexer`, `QueryParser` and the matching functions of `resource_manager.cpp`): comparisons of the fields of an advertised service, combined by AND, OR and NOT. The parser asks the lexer for one token at a time, so an error in the text is only reported when parsing gets there.
-/

namespace Rsp.Query

open Proto

inductive QueryTokenType where
  | identifier | string | integer | equal | notEqual | has | and | or | not | leftParen | rightParen | endOfQuery
deriving DecidableEq, Repr

structure QueryToken where
  type : QueryTokenType := .endOfQuery
  text : Bytes := []
deriving DecidableEq, Repr

/-! ### Character classes of the C locale -/

def isSpace (c : UInt8) : Bool := c == 32 || (9 ≤ c && c ≤ 13)

def isDigit (c : UInt8) : Bool := 48 ≤ c && c ≤ 57

def isLower (c : UInt8) : Bool := 97 ≤ c && c ≤ 122

def isAlpha (c : UInt8) : Bool := (65 ≤ c && c ≤ 90) || isLower c

def toUpper (c : UInt8) : UInt8 := if isLower c then c - 32 else c

/-- The characters an identifier goes on with: letters, digits, underscore and dot. -/
def isIdentifierPart (c : UInt8) : Bool := isAlpha c || isDigit c || c == 95 || c == 46

/-! ### The lexer -/

/-- The rest of a string literal after its opening quote; a backslash keeps the next character as it is. -/
def readString (value : Bytes) : Bytes → Except Fault (QueryToken × Bytes)
  | [] => .error (.runtimeError "unterminated string in resource query")
  | 34 :: rest => .ok (⟨.string, value⟩, rest)
  | [92] => .error (.runtimeError "unterminated escape in resource query string")
  | 92 :: escaped :: rest => readString (value ++ [escaped]) rest
  | c :: rest => readString (value ++ [c]) rest

/-- Keywords are recognized in any case, and keep their spelling. -/
def identifierToken (value : Bytes) : QueryToken :=
  let upper := value.map toUpper
  if upper = ascii "AND" then ⟨.and, value⟩
  else if upper = ascii "OR" then ⟨.or, value⟩
  else if upper = ascii "NOT" then ⟨.not, value⟩
  else if upper = ascii "HAS" then ⟨.has, value⟩
  else ⟨.identifier, value⟩

/-- `QueryLexer::next`: the next token and what is left of the input. -/
def next (input : Bytes) : Except Fault (QueryToken × Bytes) :=
  match input.dropWhile isSpace with
  | [] => .ok (⟨.endOfQuery, []⟩, [])
  | 40 :: rest => .ok (⟨.leftParen, [40]⟩, rest)
  | 41 :: rest => .ok (⟨.rightParen, [41]⟩, rest)
  | 61 :: rest => .ok (⟨.equal, [61]⟩, rest)
  | 33 :: 61 :: rest => .ok (⟨.notEqual, [33, 61]⟩, rest)
  | 34 :: rest => readString [] rest
  | c :: rest =>
    let text := c :: rest
    if isDigit c then .ok (⟨.integer, text.takeWhile isDigit⟩, text.dropWhile isDigit)
    else if isAlpha c || c == 95 then
      .ok (identifierToken (text.takeWhile isIdentifierPart), text.dropWhile isIdentifierPart)
    else .error (.runtimeError "invalid character in resource query")

/-! ### The parser -/

inductive QueryOperator where
  | equal | notEqual | has
deriving DecidableEq, Repr

inductive QueryValue where
  | string (value : Bytes)
  | integer (value : UInt32)
deriving DecidableEq, Repr

inductive QueryExpression where
  | empty
  | comparison (field : Bytes) (operator : QueryOperator) (value : QueryValue)
  | and (left right : QueryExpression)
  | or (left right : QueryExpression)
  | not (left : QueryExpression)
deriving DecidableEq, Repr

/-- The parser's lookahead token and the input behind it. -/
structure QueryParser where
  current : QueryToken
  rest : Bytes
deriving DecidableEq, Repr

def QueryParser.ofInput (input : Bytes) : Except Fault QueryParser := do
  let (current, rest) ← next input
  return ⟨current, rest⟩

def QueryParser.consume (p : QueryParser) (expected : QueryTokenType) : Except Fault QueryParser :=
  if p.current.type ≠ expected then .error (.runtimeError "unexpected token in resource query")
  else QueryParser.ofInput p.rest

/-- `std::stoul` on a string of digits, for a 64-bit `unsigned long`. -/
def stoul (digits : Bytes) : Except Fault Nat :=
  let value := digits.foldl (fun value digit => 10 * value + (digit.toNat - 48)) 0
  if 2 ^ 64 ≤ value then .error (.exception "stoul") else .ok value

def parseOperator (p : QueryParser) : Except Fault (QueryOperator × QueryParser) :=
  match p.current.type with
  | .equal => do return (.equal, ← p.consume .equal)
  | .notEqual => do return (.notEqual, ← p.consume .notEqual)
  | .has => do return (.has, ← p.consume .has)
  | _ => .error (.runtimeError "expected operator in resource query")

def parseLiteral (p : QueryParser) : Except Fault (QueryValue × QueryParser) :=
  match p.current.type with
  | .string => do return (.string p.current.text, ← p.consume .string)
  | .integer => do
    let value ← stoul p.current.text
    return (.integer (UInt32.ofNat value), ← p.consume .integer)
  | _ => .error (.runtimeError "expected literal in resource query")

def parseComparison (p : QueryParser) : Except Fault (QueryExpression × QueryParser) :=
  if p.current.type ≠ .identifier then .error (.runtimeError "expected field name in resource query")
  else do
    let afterField ← p.consume .identifier
    let (operator, afterOperator) ← parseOperator afterField
    let (value, afterLiteral) ← parseLiteral afterOperator
    return (.comparison p.current.text operator value, afterLiteral)

-- The fuel bounds the depth of calls; `parse` hands out more than any text of its length can use.
mutual

def parseOr : Nat → QueryParser → Except Fault (QueryExpression × QueryParser)
  | 0, _ => .error .abort
  | fuel + 1, p => do
    let (expression, p) ← parseAnd fuel p
    parseOrLoop fuel expression p

def parseOrLoop : Nat → QueryExpression → QueryParser → Except Fault (QueryExpression × QueryParser)
  | 0, _, _ => .error .abort
  | fuel + 1, expression, p =>
    if p.current.type = .or then do
      let p ← p.consume .or
      let (right, p) ← parseAnd fuel p
      parseOrLoop fuel (.or expression right) p
    else .ok (expression, p)

def parseAnd : Nat → QueryParser → Except Fault (QueryExpression × QueryParser)
  | 0, _ => .error .abort
  | fuel + 1, p => do
    let (expression, p) ← parseUnary fuel p
    parseAndLoop fuel expression p

def parseAndLoop : Nat → QueryExpression → QueryParser → Except Fault (QueryExpression × QueryParser)
  | 0, _, _ => .error .abort
  | fuel + 1, expression, p =>
    if p.current.type = .and then do
      let p ← p.consume .and
      let (right, p) ← parseUnary fuel p
      parseAndLoop fuel (.and expression right) p
    else .ok (expression, p)

def parseUnary : Nat → QueryParser → Except Fault (QueryExpression × QueryParser)
  | 0, _ => .error .abort
  | fuel + 1, p =>
    if p.current.type = .not then do
      let p ← p.consume .not
      let (left, p) ← parseUnary fuel p
      return (.not left, p)
    else parsePrimary fuel p

def parsePrimary : Nat → QueryParser → Except Fault (QueryExpression × QueryParser)
  | 0, _ => .error .abort
  | fuel + 1, p =>
    if p.current.type = .leftParen then do
      let p ← p.consume .leftParen
      let (expression, p) ← parseOr fuel p
      let p ← p.consume .rightParen
      return (expression, p)
    else parseComparison p

end

def parse (input : Bytes) : Except Fault QueryExpression := do
  let p ← QueryParser.ofInput input
  let (expression, p) ← parseOr (8 * (input.length + 1)) p
  if p.current.type ≠ .endOfQuery then .error (.runtimeError "unexpected token at end of resource query")
  else .ok expression

def parseQueryExpression (query : Bytes) : Except Fault QueryExpression :=
  if query.isEmpty then .ok .empty else parse query

/-! ### Matching -/

structure ServiceCandidate where
  nodeId : NodeID
  schema : ServiceSchema

/-- `stringComparisonMatches` and `integerComparisonMatches`. -/
def comparisonMatches {α : Type} [DecidableEq α] (actual : α) (operator : QueryOperator) (expected : α) : Bool :=
  match operator with
  | .equal => actual = expected
  | .notEqual => actual ≠ expected
  | .has => false

def bytesToHex (bytes : Bytes) : Bytes := bytes.flatMap fun byte => hexDigits 2 byte.toNat

/-- An unknown field, and a literal of the wrong kind, never match. -/
def matchesComparison (field : Bytes) (operator : QueryOperator) (value : QueryValue)
    (candidate : ServiceCandidate) : Bool :=
  let schema := candidate.schema
  if field = ascii "service.schema_version" then
    match value with
    | .integer expected => comparisonMatches schema.schemaVersion operator expected
    | .string _ => false
  else match value with
    | .integer _ => false
    | .string expected =>
      if field = ascii "node.id" then comparisonMatches candidate.nodeId.toString operator expected
      else if field = ascii "service.proto_file_name" then
        comparisonMatches schema.protoFileName operator expected
      else if field = ascii "service.schema_hash" then
        comparisonMatches (bytesToHex schema.schemaHash) operator expected
      else if field = ascii "service.accepted_type_urls" then
        match operator with
        | .has | .equal => schema.acceptedTypeUrls.contains expected
        | .notEqual => !schema.acceptedTypeUrls.contains expected
      else false

def matchesExpression : QueryExpression → ServiceCandidate → Bool
  | .empty, _ => true
  | .comparison field operator value, candidate => matchesComparison field operator value candidate
  | .and left right, candidate => matchesExpression left candidate && matchesExpression right candidate
  | .or left right, candidate => matchesExpression left candidate || matchesExpression right candidate
  | .not left, candidate => !matchesExpression left candidate

end Rsp.Query
