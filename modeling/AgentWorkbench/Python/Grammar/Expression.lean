import AgentWorkbench.Python.Grammar.Basic

/-!
The rules of expressions.
-/
namespace AgentWorkbench.Python.Grammar

open Parse

variable (p : Goal → Parse Node)

/-! Parameters. -/

def annotation (allowed : Bool) : Parse (List Node) :=
  if allowed then
    (do
      let _ ← op ":"
      let star ← accept? (.op "*")
      let type ← p .expr
      return [match star with
        | some token => .onward token .splat [type]
        | none => type]) <|> pure []
  else pure []

def defaultValue : Parse (List Node) :=
  (do let _ ← op "="; return [← p .expr]) <|> pure []

/-- One parameter; those of a lambda have no annotations. -/
def parameter (annotated : Bool) : Parse Node :=
  (do return .leaf (← op "/") .slash) <|>
  (do
    let star ← op "*"
    match ← Parse.optional name with
    | none => return .leaf star .starParameter
    | some (_, token) =>
      let type ← annotation p annotated
      return .mk .starParameter star.start ((type.getLast?.map Node.stop).getD token.stop) type) <|>
  (do
    let stars ← op "**"
    let (_, token) ← name
    let type ← annotation p annotated
    return .mk .mappingParameter stars.start ((type.getLast?.map Node.stop).getD token.stop)
      type) <|>
  (do
    let (text, token) ← name
    let type ← annotation p annotated
    let value ← defaultValue p
    return .onward token (.parameter text) (type ++ value))

def parameters (annotated : Bool) : Parse (List Node) :=
  (do return (← commaList (parameter p annotated)).1) <|> pure []

/-! Lists of expressions. -/

def splat : Parse Node := do
  let star ← op "*"
  return .onward star .splat [← p .expr]

def splatOrExpr : Parse Node := splat p <|> p .expr

def splatOrNamed : Parse Node := splat p <|> p .named

def expressions : Parse Node := do
  let (nodes, trailing) ← commaList (splatOrExpr p)
  return .bareTuple nodes trailing

def yieldExpression : Parse Node := do
  let token ← keyword "yield"
  (do
    let _ ← keyword "from"
    return .onward token .expression [← p .expr]) <|>
  (do return .onward token .expression [← expressions p]) <|>
  pure (.leaf token .expression)

def value : Parse Node := yieldExpression p <|> expressions p

def target : Parse Node := do
  let star ← accept? (.op "*")
  let node ← p .primary
  let node := match star with
    | some token => .onward token .splat [node]
    | none => node
  guard node.isTarget
  return node

def targets : Parse Node := do
  let (nodes, trailing) ← commaList (target p)
  return .bareTuple nodes trailing

/-! Comprehensions. -/

def comprehensionClause : Parse (List Node) := do
  let _ ← accept? (.keyword "async")
  let _ ← keyword "for"
  let target ← targets p
  let _ ← keyword "in"
  let source ← p .operators
  let conditions ← many (do let _ ← keyword "if"; p .operators)
  return target :: source :: conditions

def comprehensionClauses : Parse (List Node) := do
  return (← many1 (comprehensionClause p)).flatten

/-! Bracketed expressions. -/

/-- More parts after the first one, up to a closing bracket: the parts, whether there was a comma,
and the bracket. -/
def remaining (part : Parse Node) (close : String) : Parse (List Node × Bool × Token) := do
  let rest ← many (do let _ ← op ","; part)
  let trailing ← accept? (.op ",")
  return (rest, trailing.isSome || !rest.isEmpty, ← op close)

def isSplat (node : Node) : Bool := node.kind = .splat

/-- What an opening parenthesis starts: an empty tuple, a parenthesised expression, a generator or
a tuple. -/
def parenthesized : Parse Node := do
  let first ← op "("
  (do return .between first (← op ")") .tuple []) <|>
  (do
    let node ← yieldExpression p
    return .between first (← op ")") .group [node]) <|>
  (do
    let node ← splatOrNamed p
    (do
      guard !(isSplat node)
      let clauses ← comprehensionClauses p
      return .between first (← op ")") .generator (node :: clauses)) <|>
    (do
      let (rest, commas, close) ← remaining (splatOrNamed p) ")"
      if commas then return .between first close .tuple (node :: rest)
      guard !(isSplat node)
      return .between first close .group [node]))

def list : Parse Node := do
  let first ← op "["
  (do return .between first (← op "]") .list []) <|>
  (do
    let node ← splatOrNamed p
    (do
      guard !(isSplat node)
      let clauses ← comprehensionClauses p
      return .between first (← op "]") .expression (node :: clauses)) <|>
    (do
      let (rest, _, close) ← remaining (splatOrNamed p) "]"
      return .between first close .list (node :: rest)))

def mappingSplat : Parse Node := do
  let stars ← op "**"
  return .onward stars .mappingSplat [← p .expr]

def mappingItem : Parse Node :=
  mappingSplat p <|>
  (do
    let key ← p .expr
    let _ ← op ":"
    return .spanning .expression [key, ← p .expr])

/-- Dictionaries and sets. The first part decides which of them it is. -/
def braced : Parse Node := do
  let first ← op "\x7b"
  (do return .between first (← op "\x7d") .expression []) <|>
  (do
    let node ← mappingSplat p
    let (rest, _, close) ← remaining (mappingItem p) "\x7d"
    return .between first close .expression (node :: rest)) <|>
  (do
    let node ← splatOrNamed p
    let item ← Parse.optional (do
      let _ ← op ":"
      return Node.spanning .expression [node, ← p .expr])
    let (node, part) := match item with
      | some item => (item, mappingItem p)
      | none => (node, splatOrNamed p)
    (do
      guard !(isSplat node)
      let clauses ← comprehensionClauses p
      return .between first (← op "\x7d") .expression (node :: clauses)) <|>
    (do
      let (rest, _, close) ← remaining part "\x7d"
      return .between first close .expression (node :: rest)))

/-! Strings. -/

/-- An interpolation: an expression, an equals sign that shows it, a conversion, and a format
specification in which expressions may be interpolated. -/
def interpolation : Parse Node := do
  let first ← accept .interpolationStart
  let node ← yieldExpression p <|> (do
    let (nodes, trailing) ← commaList (splatOrNamed p)
    return .bareTuple nodes trailing)
  let _ ← accept? (.op "=")
  let _ ← accept? .conversion
  let nested ← (do let _ ← op ":"; many (p .interpolation)) <|> pure []
  return .between first (← accept .interpolationEnd) .interpolation (node :: nested)

def formatPart : Parse Node :=
  (do
    let (content, token) ← formatText
    return .leaf token (.segment content)) <|>
  p .interpolation

def stringPiece : Parse Node :=
  (do
    let (flags, content, token) ← plainString
    let segments := if content.isEmpty then [] else [Node.leaf token (.segment content)]
    return .between token token (.string flags) segments) <|>
  (do
    let (flags, token) ← formatStart
    let parts ← many (formatPart p)
    return .between token (← accept .formatEnd) (.string flags) parts)

def strings : Parse Node := do
  let pieces ← many1 (stringPiece p)
  match pieces with
  | [piece] => return piece
  | _ => return .spanning .concatenation pieces

/-! Primaries. -/

def atom : Parse Node :=
  (do
    let (text, token) ← name
    return .leaf token (.identifier text)) <|>
  (do
    let token ← oneOf [.number, .keyword "True", .keyword "False", .keyword "None", .op "..."]
    return .leaf token .constant) <|>
  strings p <|> parenthesized p <|> list p <|> braced p

def keywordArgument : Parse Node := do
  let (text, token) ← name
  let _ ← op "="
  return .onward token (.keywordArgument text) [← p .expr]

def argument : Parse Node :=
  splat p <|> mappingSplat p <|> keywordArgument p <|> p .named

def isPlainArgument (node : Node) : Bool :=
  match node.kind with
  | .splat | .mappingSplat | .keywordArgument _ => false
  | _ => true

/-- The arguments of a call; a generator may stand there alone without parentheses of its own. -/
def callArguments : Parse Node := do
  let first ← op "("
  (do return .between first (← op ")") .arguments []) <|>
  (do
    let node ← argument p
    (do
      guard (isPlainArgument node)
      let clauses ← comprehensionClauses p
      return .between first (← op ")") .generator (node :: clauses)) <|>
    (do
      let (rest, _, close) ← remaining (argument p) ")"
      return .between first close .arguments (node :: rest)))

def subscriptPart : Parse Node :=
  splat p <|>
  (do
    let lower ← Parse.optional (p .named)
    match ← accept? (.op ":"), lower with
    | none, none => failure
    | none, some node => return node
    | some colon, _ =>
      let upper ← Parse.optional (p .expr)
      let secondColon ← accept? (.op ":")
      let step ← if secondColon.isSome then Parse.optional (p .expr) else pure none
      let children := lower.toList ++ upper.toList ++ step.toList
      let start := (lower.map Node.start).getD colon.start
      let stop := ((step.map Node.stop).or (secondColon.map (·.stop))).or (upper.map Node.stop)
      return .mk .expression start (stop.getD colon.stop) children)

def trailer (base : Node) : Parse Node :=
  (do
    let _ ← op "."
    let (text, token) ← name
    return .mk (.attribute text) base.start token.stop [base]) <|>
  (do
    let arguments ← callArguments p
    return .spanning .call [base, arguments]) <|>
  (do
    let _ ← op "["
    let (parts, _) ← commaList (subscriptPart p)
    let close ← op "]"
    return .mk .subscript base.start close.stop (base :: parts))

/-- A base with its trailers, not more of them than there are tokens in a list: each takes one. -/
def trailers : (budget : List Token) → Node → Parse Node
  | [], base => pure base
  | _ :: budget, base => do
    match ← Parse.optional (trailer p base) with
    | some node => trailers budget node
    | none => return base

def primary : Parse Node := do
  let base ← atom p
  trailers p (← get) base

/-! Operators. -/

def operand : Parse Node :=
  (do
    let sign ← oneOf [.op "+", .op "-", .op "~"]
    return .onward sign .expression [← p .operand]) <|>
  (do
    let token ← keyword "await"
    return .onward token .expression [← p .primary]) <|>
  primary p

def binaryOperators : List TokenKind :=
  ["+", "-", "*", "/", "//", "%", "@", "**", "<<", ">>", "&", "|", "^", "<", ">", "<=", ">=",
    "==", "!="].map .op ++ [.keyword "in"]

def binaryOperator : Parse Unit :=
  (do let _ ← oneOf binaryOperators) <|>
  (do
    let _ ← keyword "is"
    let _ ← accept? (.keyword "not")) <|>
  (do
    let _ ← keyword "not"
    let _ ← keyword "in")

def negation : Parse Node :=
  (do
    let token ← keyword "not"
    return .onward token .expression [← p .negation]) <|>
  (do
    let first ← p .operand
    let rest ← many (do binaryOperator; p .operand)
    return .chain first rest)

def operators : Parse Node := do
  let first ← p .negation
  let rest ← many (do let _ ← oneOf [.keyword "and", .keyword "or"]; p .negation)
  return .chain first rest

def lambda : Parse Node := do
  let token ← keyword "lambda"
  let params ← parameters p false
  let _ ← op ":"
  return .onward token .expression (params ++ [← p .expr])

def expression : Parse Node :=
  lambda p <|>
  (do
    let node ← p .operators
    (do
      let _ ← keyword "if"
      let condition ← p .operators
      let _ ← keyword "else"
      return .spanning .expression [node, condition, ← p .expr]) <|>
    pure node)

def isIdentifier (node : Node) : Bool :=
  match node.kind with
  | .identifier _ => true
  | _ => false

def named : Parse Node := do
  let node ← p .expr
  (do
    guard (isIdentifier node)
    let _ ← op ":="
    return .spanning .expression [node, ← p .expr]) <|>
  pure node

end AgentWorkbench.Python.Grammar
