import AgentWorkbench.Python.Grammar.Pattern

/-!
The rules of statements. A logical line is read as a block of its statements.
-/
namespace AgentWorkbench.Python.Grammar

open Parse

variable (p : Goal → Parse Node)

/-! Simple statements. -/

/-- A chain of assignments: each value but the last is a target in turn. There are not more of
them than tokens in a list. -/
def assignmentChain : (budget : List Token) → Node → Parse Node
  | [], _ => failure
  | _ :: budget, target => do
    guard target.isTarget
    let _ ← op "="
    let node ← value p
    if (← peek) = some (.op "=") then
      return .spanning (.assignment false) [target, ← assignmentChain budget node]
    else return .spanning (.assignment false) [target, node]

def augmentedOperators : List TokenKind :=
  ["+=", "-=", "*=", "/=", "//=", "%=", "@=", "&=", "|=", "^=", ">>=", "<<=", "**="].map .op

def isSingleTarget (node : Node) : Bool :=
  match node.kind with
  | .identifier _ | .attribute _ | .subscript | .group => node.isTarget
  | _ => false

def expressionStatement : Parse Node :=
  (do return .spanning .expressionStatement [← yieldExpression p]) <|>
  (do
    let (nodes, trailing) ← commaList (splatOrExpr p)
    let first := Node.bareTuple nodes trailing
    (do
      let chain ← assignmentChain p (← get) first
      return .spanning .expressionStatement [chain]) <|>
    (do
      guard (isSingleTarget first)
      let _ ← op ":"
      let type ← p .expr
      let value ← (do let _ ← op "="; return [← value p]) <|> pure []
      let annotated := Node.spanning (.assignment true) (first :: type :: value)
      return .spanning .expressionStatement [annotated]) <|>
    (do
      guard (isSingleTarget first)
      let _ ← oneOf augmentedOperators
      return .spanning .expressionStatement [.spanning .expression [first, ← value p]]) <|>
    pure (.spanning .expressionStatement nodes))

def atStatementEnd : Parse Unit := do
  let next ← peek
  guard (next = some .newline || next = some (.op ";"))

def startsOperand : TokenKind → Bool
  | .name _ | .number | .string .. | .formatStart _ => true
  | .keyword word => ["None", "True", "False", "lambda", "await"].contains word
  | _ => false

def printStatement : Parse Node := do
  let token ← word "print"
  match ← peek with
  | some kind => guard (startsOperand kind)
  | none => failure
  let (nodes, _) ← commaList (p .expr)
  return .onward token .statement nodes

def keywordStatement (text : String) (parts : Parse (List Node)) : Parse Node := do
  let token ← keyword text
  return .onward token .statement (← parts)

def nothing : Parse (List Node) := pure []

def importedName : Parse Unit := do
  dottedName
  let _ ← Parse.optional (do let _ ← keyword "as"; name)

def names (part : Parse Unit) : Parse Unit := do
  part
  let _ ← many (do let _ ← op ","; part)

def fromImport : Parse (List Node) := do
  let dots ← many (oneOf [.op ".", .op "..."])
  let package ← Parse.optional dottedName
  guard (!dots.isEmpty || package.isSome)
  let _ ← keyword "import"
  (do let _ ← op "*") <|>
    (do
      let _ ← op "("
      let _ ← commaList importedName
      let _ ← op ")") <|>
    names importedName
  return []

def simpleStatement : Parse Node :=
  keywordStatement "pass" nothing <|>
  keywordStatement "break" nothing <|>
  keywordStatement "continue" nothing <|>
  keywordStatement "del" (do return [← expressions p]) <|>
  keywordStatement "assert" (do return (← commaList (p .expr)).1) <|>
  keywordStatement "return" (do return (← Parse.optional (expressions p)).toList) <|>
  keywordStatement "raise" ((do
    let node ← p .expr
    let cause ← (do let _ ← keyword "from"; return [← p .expr]) <|> pure []
    return node :: cause) <|> nothing) <|>
  keywordStatement "import" (do names importedName; return []) <|>
  keywordStatement "from" fromImport <|>
  keywordStatement "global" (do names (do let _ ← name); return []) <|>
  keywordStatement "nonlocal" (do names (do let _ ← name); return []) <|>
  (do
    let node ← expressionStatement p
    atStatementEnd
    return node) <|>
  printStatement p

def simpleLine : Parse Node := do
  let first ← simpleStatement p
  let rest ← many (do let _ ← op ";"; simpleStatement p)
  let _ ← accept? (.op ";")
  let _ ← accept .newline
  return .spanning .block (first :: rest)

/-! Compound statements. -/

def blockOf (lines : List Node) : Node :=
  .spanning .block (lines.flatMap Node.children)

/-- What follows the colon of a compound statement: an indented block, or simple statements on the
same line. -/
def suite : Parse Node := do
  let _ ← op ":"
  (do
    let _ ← accept .newline
    let _ ← accept .indent
    let lines ← many1 (p .line)
    let _ ← accept .dedent
    return blockOf lines) <|>
  simpleLine p

def clause (text : String) : Parse (List Node) :=
  (do let _ ← keyword text; return [← suite p]) <|> pure []

def ifStatement : Parse Node := do
  let token ← keyword "if"
  let condition ← p .named
  let body ← suite p
  let others ← many (do
    let _ ← keyword "elif"
    let condition ← p .named
    return [condition, ← suite p])
  let last ← clause p "else"
  return .onward token .statement (condition :: body :: others.flatten ++ last)

def whileStatement : Parse Node := do
  let token ← keyword "while"
  let condition ← p .named
  let body ← suite p
  return .onward token .statement (condition :: body :: (← clause p "else"))

def forStatement : Parse Node := do
  let token ← keyword "for"
  let target ← targets p
  let _ ← keyword "in"
  let source ← expressions p
  let body ← suite p
  return .onward token .statement (target :: source :: body :: (← clause p "else"))

def exceptClause : Parse (List Node) := do
  let _ ← keyword "except"
  let _ ← accept? (.op "*")
  let caught ← (do
    let node ← p .expr
    let _ ← Parse.optional (do let _ ← keyword "as"; name)
    return [node]) <|> pure []
  return caught ++ [← suite p]

def tryStatement : Parse Node := do
  let token ← keyword "try"
  let body ← suite p
  let handlers ← many (exceptClause p)
  let otherwise ← clause p "else"
  let last ← clause p "finally"
  guard (!handlers.isEmpty || !last.isEmpty)
  return .onward token .statement (body :: handlers.flatten ++ otherwise ++ last)

def withItem : Parse (List Node) := do
  let node ← p .expr
  let name ← (do let _ ← keyword "as"; return [← target p]) <|> pure []
  return node :: name

/-- The items of a `with` statement; parentheses may stand around all of them. -/
def withItems : Parse (List Node) :=
  (do
    let _ ← op "("
    let (items, _) ← commaList (withItem p)
    let _ ← op ")"
    guard ((← peek) = some (.op ":"))
    return items.flatten) <|>
  (do
    let first ← withItem p
    let rest ← many (do let _ ← op ","; withItem p)
    return first ++ rest.flatten)

def withStatement : Parse Node := do
  let token ← keyword "with"
  let items ← withItems p
  return .onward token .statement (items ++ [← suite p])

/-- A function definition; `asyncToken` stands before it if it is asynchronous. -/
def functionDefinition (asyncToken : Option Token) : Parse Node := do
  let token ← keyword "def"
  let (text, _) ← name
  let first ← op "("
  let params ← parameters p true
  let last ← op ")"
  let result ← (do let _ ← op "->"; return [← p .expr]) <|> pure []
  let body ← suite p
  return .onward (asyncToken.getD token) (.function text asyncToken.isSome)
    (.between first last .parameters params :: result ++ [body])

def classDefinition : Parse Node := do
  let token ← keyword "class"
  let _ ← name
  let bases ← Parse.optional (callArguments p)
  return .onward token .statement (bases.toList ++ [← suite p])

def asyncFunction : Parse Node := do
  let token ← keyword "async"
  functionDefinition p (some token)

def asyncStatement : Parse Node := do
  let token ← keyword "async"
  let node ← forStatement p <|> withStatement p
  return .onward token .statement [node]

def decorator : Parse Node := do
  let token ← op "@"
  let node ← p .named
  let _ ← accept .newline
  return .onward token .expression [node]

def decoratedDefinition : Parse Node := do
  let decorators ← many1 (decorator p)
  let definition ← functionDefinition p none <|> asyncFunction p <|> classDefinition p
  return .spanning .decorated (decorators ++ [definition])

def caseClause : Parse (List Node) := do
  let _ ← word "case"
  casePatterns p
  let condition ← (do let _ ← keyword "if"; return [← p .named]) <|> pure []
  return condition ++ [← suite p]

/-- A `match` statement. The word is a name elsewhere; here a block of cases follows it. -/
def matchStatement : Parse Node := do
  let token ← word "match"
  let (subjects, _) ← commaList (splatOrNamed p)
  let _ ← op ":"
  let _ ← accept .newline
  let _ ← accept .indent
  let cases ← many1 (caseClause p)
  let _ ← accept .dedent
  return .onward token .statement (subjects ++ cases.flatten)

def compoundStatement : Parse Node :=
  functionDefinition p none <|> classDefinition p <|> ifStatement p <|> forStatement p <|>
  whileStatement p <|> tryStatement p <|> withStatement p <|> decoratedDefinition p <|>
  asyncFunction p <|> asyncStatement p <|> matchStatement p

def line : Parse Node :=
  (do
    let node ← compoundStatement p
    return .spanning .block [node]) <|>
  simpleLine p

end AgentWorkbench.Python.Grammar
