import AgentWorkbench.Python.Grammar.Expression

/-!
The rules of the patterns of `match` statements. Nothing in a pattern is a call, so patterns are
read without keeping their parts.
-/
namespace AgentWorkbench.Python.Grammar

open Parse

variable (p : Goal → Parse Node)

/-- Parts between commas inside brackets; there may be none. -/
def patternParts (part : Parse Unit) (close : String) : Parse Token := do
  let _ ← Parse.optional (commaList part)
  op close

def numberPattern : Parse Unit := do
  let _ ← accept? (.op "-")
  let _ ← accept .number
  let _ ← Parse.optional (do
    let _ ← oneOf [.op "+", .op "-"]
    accept .number)

def dottedName : Parse Unit := do
  let _ ← name
  let _ ← many (do let _ ← op "."; name)

def starPattern : Parse Unit := do
  let _ ← op "*"
  let _ ← name

def subpattern : Parse Unit := do
  let _ ← p .pattern

def subpatternOrStar : Parse Unit := starPattern <|> subpattern p

def keywordPattern : Parse Unit :=
  (do
    let _ ← name
    let _ ← op "="
    subpattern p) <|>
  subpattern p

def literalPattern : Parse Unit :=
  numberPattern <|>
  (do let _ ← strings p) <|>
  (do let _ ← oneOf [.keyword "True", .keyword "False", .keyword "None"])

def mappingPattern : Parse Unit :=
  (do
    let _ ← op "**"
    let _ ← name) <|>
  (do
    literalPattern p <|> dottedName
    let _ ← op ":"
    subpattern p)

def closedPattern : Parse Unit :=
  literalPattern p <|>
  (do
    dottedName
    let _ ← Parse.optional (do
      let _ ← op "("
      patternParts (keywordPattern p) ")")) <|>
  (do
    let _ ← op "("
    let _ ← patternParts (subpatternOrStar p) ")") <|>
  (do
    let _ ← op "["
    let _ ← patternParts (subpatternOrStar p) "]") <|>
  (do
    let _ ← op "\x7b"
    let _ ← patternParts (mappingPattern p) "\x7d")

def pattern : Parse Node := do
  closedPattern p
  let _ ← many (do let _ ← op "|"; closedPattern p)
  let _ ← Parse.optional (do let _ ← keyword "as"; name)
  return .spanning .expression []

def casePatterns : Parse Unit := do
  let _ ← commaList (subpatternOrStar p)

end AgentWorkbench.Python.Grammar
