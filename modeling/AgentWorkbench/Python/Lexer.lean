import AgentWorkbench.Python.Token
import AgentWorkbench.Text.Identifier

/-!
Splitting Python source into tokens. Inside brackets line breaks are blanks; outside, they end a
logical line, and the indentation of the next one opens a block after a colon or closes blocks. A
tab counts eight columns. Inside a format string the lexer is in literal text, in the expression
of an interpolation, or in its format specification.
-/
namespace AgentWorkbench.Python

open Text

inductive LexContext where
  | bracket (close : Char)
  /-- The literal text of a format string with this closing quote. -/
  | format (raw : Bool) (quote : List Char)
  | interpolation
  | specification
  deriving DecidableEq, Repr

structure LexState where
  /-- Innermost first. -/
  contexts : List LexContext := []
  /-- The columns of the open blocks, innermost first. -/
  blocks : List Nat := [0]
  /-- The column of the line's first token, as far as it is known. -/
  column : Nat := 0
  lineOpen : Bool := false
  /-- The kinds of the last two tokens, the last one first. -/
  last : List TokenKind := []
  deriving Repr

structure Lexed where
  tokens : List Token
  state : LexState
  taken : Nat
  rest : List Char

namespace Lexer

def remember (s : LexState) (kind : TokenKind) : LexState :=
  { s with last := kind :: s.last.take 1 }

def single (s : LexState) (pos : Nat) (kind : TokenKind) (length : Nat) (rest : List Char) :
    Lexed where
  tokens := [⟨kind, pos, pos + length⟩]
  state := remember s kind
  taken := length
  rest := rest

/-! Words and numbers. -/

def isHexDigit (c : Char) : Bool := (digitValue? 16 c).isSome

def isDigitOrMark (p : Char → Bool) (c : Char) : Bool := p c || c = '_'

/-- What one scanner takes, and another one of what the first one leaves. -/
def inTurn (f g : List Char → Nat) (cs : List Char) : Nat := f cs + g (cs.drop (f cs))

def digitsLength (cs : List Char) : Nat :=
  (cs.takeWhile (isDigitOrMark Char.isDigit)).length

def signLength : List Char → Nat
  | '+' :: _ | '-' :: _ => 1
  | _ => 0

/-- Whether an exponent goes on with digits after its letter. -/
def hasExponent (cs : List Char) : Bool :=
  (cs.drop (signLength cs)).head?.any Char.isDigit

/-- How many characters an exponent takes: its letter, a sign and digits. -/
def exponentLength : List Char → Nat
  | e :: rest =>
    if (e = 'e' || e = 'E') && hasExponent rest then 1 + inTurn signLength digitsLength rest else 0
  | [] => 0

def fractionLength : List Char → Nat
  | '.' :: rest => 1 + digitsLength rest
  | _ => 0

def imaginaryLength : List Char → Nat
  | 'j' :: _ | 'J' :: _ => 1
  | _ => 0

/-- The digits of a number whose prefix has this letter. -/
def baseDigit? (letter : Char) : Option (Char → Bool) :=
  if letter = 'x' ∨ letter = 'X' then some isHexDigit
  else if letter = 'o' ∨ letter = 'O' then some isOctal
  else if letter = 'b' ∨ letter = 'B' then some fun c => c = '0' || c = '1'
  else none

/-- How many digits a number has after a prefix that names its base. -/
def basedLength : List Char → Nat
  | '0' :: letter :: rest =>
    match baseDigit? letter with
    | some p => (rest.takeWhile (isDigitOrMark p)).length
    | none => 0
  | _ => 0

def numberLength (cs : List Char) : Nat :=
  if basedLength cs ≠ 0 then basedLength cs + 2
  else inTurn digitsLength (inTurn fractionLength (inTurn exponentLength imaginaryLength)) cs

def startsNumber : List Char → Bool
  | '.' :: c :: _ => c.isDigit
  | c :: _ => c.isDigit
  | [] => false

/-! Strings. -/

def isPrefixLetter (c : Char) : Bool := ['r', 'b', 'f', 'u'].contains c.toLower

/-- The quote at the front: three of one kind, or one. -/
def quote? : List Char → Option (List Char × List Char)
  | c :: rest =>
    if StringPrefix.isQuote c then
      match rest with
      | d :: e :: more => if d = c ∧ e = c then some ([c, c, c], more) else some ([c], rest)
      | _ => some ([c], rest)
    else none
  | [] => none

def stringStart? (cs : List Char) : Option (List Char × List Char × List Char) :=
  let letters := cs.takeWhile isPrefixLetter
  (quote? (cs.drop letters.length)).map fun (quote, rest) => (letters, quote, rest)

/-- The content of a string up to its closing quote, and the text after the quote. A backslash
takes the next character with it; only a tripled quote lets the content span lines. -/
def stringContent? (quote : List Char) : List Char → Option (List Char × List Char)
  | '\\' :: '\r' :: '\n' :: rest => extend ['\\', '\r', '\n'] (stringContent? quote rest)
  | '\\' :: c :: rest => extend ['\\', c] (stringContent? quote rest)
  | c :: rest =>
    if quote.isPrefixOf (c :: rest) then some ([], (c :: rest).drop quote.length)
    else if c.toNat = 0 ∨ (c = '\n' ∧ quote.length = 1) then none
    else extend [c] (stringContent? quote rest)
  | [] => none
where
  extend (front : List Char) : Option (List Char × List Char) → Option (List Char × List Char) :=
    Option.map fun (content, after) => (front ++ content, after)

/-- The characters that may still belong to an escape of a raw string after `c`: a line break may
follow an escaped quote or backslash. -/
def escapeTail (c : Char) : List Char :=
  if c = '\r' then ['\n'] else if c = '\n' then [] else ['\r', '\n']

/-- Whether a text consists of escaped quotes, backslashes and line breaks alone; the characters
`more` may go on with an escape. -/
def escapesOnly (quote : Char) : (more : List Char) → List Char → Bool
  | _, [] => true
  | more, c :: rest =>
    if more.contains c then escapesOnly quote (escapeTail c) rest
    else c = '\\' && escapesOnly quote [quote, '\\', '\r', '\n'] rest

def isBrace (c : Char) : Bool := c = '\x7b' || c = '\x7d'

/-- The text of a raw string's content. Escapes before the closing quote belong to the text only
after another character of the same stretch; a quote inside the string ends a stretch, and so does
a brace of a format string. -/
def rawText (quote : Char) (format : Bool) : (start escaped : Bool) → List Char → List Char
  | _, _, [] => []
  | start, escaped, c :: rest =>
    if start && escapesOnly quote [] (c :: rest) then []
    else
      c :: rawText quote format ((format && isBrace c) || (!escaped && c = quote))
        (!escaped && c = '\\') rest

def closedText (flags : StringPrefix) (quote content : List Char) : List Char :=
  if flags.raw then rawText (quote.headD '"') flags.format true false content else content

inductive FormatStop where
  | quote
  | brace
  deriving DecidableEq, Repr

/-- The literal text of a format string up to its closing quote or the next interpolation, and
the text from there on. Doubled braces, escapes and named characters belong to the text. -/
def formatContent? (raw : Bool) (quote : List Char) :
    List Char → Option (List Char × FormatStop × List Char)
  | '\x7b' :: '\x7b' :: rest => extend ['\x7b', '\x7b'] (formatContent? raw quote rest)
  | '\x7d' :: '\x7d' :: rest => extend ['\x7d', '\x7d'] (formatContent? raw quote rest)
  | '\x7b' :: rest => some ([], .brace, rest)
  | '\x7d' :: _ => none
  | '\\' :: '\r' :: '\n' :: rest => extend ['\\', '\r', '\n'] (formatContent? raw quote rest)
  | '\\' :: 'N' :: '\x7b' :: rest =>
    if raw then extend ['\\', 'N'] (formatContent? raw quote ('\x7b' :: rest))
    else extend ['\\', 'N', '\x7b'] (named? rest)
  | '\\' :: c :: rest =>
    if c = '\x7b' ∨ c = '\x7d' then extend ['\\'] (formatContent? raw quote (c :: rest))
    else extend ['\\', c] (formatContent? raw quote rest)
  | c :: rest =>
    if quote.isPrefixOf (c :: rest) then some ([], .quote, (c :: rest).drop quote.length)
    else if c.toNat = 0 ∨ (c = '\n' ∧ quote.length = 1) then none
    else extend [c] (formatContent? raw quote rest)
  | [] => none
where
  extend (front : List Char) : Option (List Char × FormatStop × List Char) →
      Option (List Char × FormatStop × List Char) :=
    Option.map fun (content, stop, after) => (front ++ content, stop, after)
  /-- The rest of a character's name up to its closing brace, then on with the text. -/
  named? : List Char → Option (List Char × FormatStop × List Char)
    | '\x7d' :: rest => extend ['\x7d'] (formatContent? raw quote rest)
    | c :: rest => if c = '\n' then none else extend [c] (named? rest)
    | [] => none

/-! One step. -/

def formatStep (s : LexState) (raw : Bool) (quote : List Char) (outer : List LexContext)
    (pos : Nat) (cs : List Char) : Option Lexed := do
  let (content, stop, rest) ← formatContent? raw quote cs
  let width := content.length
  let text (cs : List Char) : List Token :=
    if cs.isEmpty then [] else [⟨.formatText cs, pos, pos + width⟩]
  match stop with
  | .quote =>
    let length := width + quote.length
    let flags : StringPrefix := { raw, format := true }
    return {
      tokens := text (closedText flags quote content) ++ [⟨.formatEnd, pos + width, pos + length⟩]
      state := remember { s with contexts := outer } .formatEnd
      taken := length
      rest := rest }
  | .brace =>
    return {
      tokens := text content ++ [⟨.interpolationStart, pos + width, pos + width + 1⟩]
      state := remember { s with contexts := .interpolation :: s.contexts } .interpolationStart
      taken := width + 1
      rest := rest }

/-- A step inside a format specification: its text is passed over. -/
def specificationStep (s : LexState) (outer : List LexContext) (pos : Nat) :
    List Char → Option Lexed
  | '\x7b' :: rest =>
    some (single { s with contexts := .interpolation :: s.contexts } pos .interpolationStart 1
      rest)
  | '\x7d' :: rest =>
    some (single { s with contexts := outer } pos .interpolationEnd 1 rest)
  | _ :: rest => some { tokens := [], state := s, taken := 1, rest }
  | [] => none

def stringToken? (s : LexState) (pos : Nat) (letters quote rest : List Char) : Option Lexed :=
  let flags := StringPrefix.ofLetters letters
  let opening := letters.length + quote.length
  if flags.format then
    some (single { s with contexts := .format flags.raw quote :: s.contexts } pos
      (.formatStart flags) opening rest)
  else do
    let (content, after) ← stringContent? quote rest
    return single s pos (.string flags (closedText flags quote content))
      (opening + content.length + quote.length) after

/-- Whether a colon with an equals sign names a value at the front of an interpolation. -/
def namesValue : List TokenKind → Bool
  | [.name _, .interpolationStart] => true
  | _ => false

/-- The operator or delimiter that starts here, with its effect on the contexts. -/
def operatorToken? (s : LexState) (pos : Nat) (cs : List Char) : Option Lexed := do
  match s.contexts, cs with
  | .interpolation :: outer, '\x7d' :: rest =>
    return single { s with contexts := outer } pos .interpolationEnd 1 rest
  | .interpolation :: _, '!' :: c :: rest =>
    if c ≠ '=' then
      if 'a' ≤ c ∧ c ≤ 'z' then return single s pos .conversion 2 rest else failure
  | .interpolation :: outer, ':' :: rest =>
    if !(rest.head? = some '=' && namesValue s.last) then
      return single { s with contexts := .specification :: outer } pos (.op ":") 1 rest
  | _, _ => pure ()
  let op ← operator? cs
  let length := op.length
  let rest := cs.drop length
  let pushed (close : Char) :=
    single { s with contexts := .bracket close :: s.contexts } pos (.op op) length rest
  if op = "(" then return pushed ')'
  else if op = "[" then return pushed ']'
  else if op = "\x7b" then return pushed '\x7d'
  else if op = ")" ∨ op = "]" ∨ op = "\x7d" then
    match s.contexts with
    | .bracket close :: outer =>
      if [close] = op.toList then
        return single { s with contexts := outer } pos (.op op) length rest
      else failure
    | _ => failure
  else return single s pos (.op op) length rest

def token? (s : LexState) (pos : Nat) (cs : List Char) : Option Lexed :=
  match stringStart? cs with
  | some (letters, quote, rest) => stringToken? s pos letters quote rest
  | none =>
    match cs with
    | [] => none
    | c :: rest =>
      if isIdentStart c then
        let word := c :: rest.takeWhile isIdentRest
        some (single s pos (.ofWord word) word.length (cs.drop word.length))
      else if startsNumber cs then
        let length := numberLength cs
        some (single s pos .number length (cs.drop length))
      else operatorToken? s pos cs

def closeBlocks (pos column : Nat) : List Nat → List Token × List Nat
  | [] => ([], [])
  | [base] => ([], [base])
  | top :: next :: blocks =>
    if column < top then
      let (tokens, left) := closeBlocks pos column (next :: blocks)
      (⟨.dedent, pos, pos⟩ :: tokens, left)
    else ([], top :: next :: blocks)

/-- Starts a logical line: opens a block after a colon, or closes blocks. -/
def openLine (s : LexState) (pos : Nat) : List Token × LexState :=
  let s := { s with lineOpen := true }
  if [.newline, .op ":"].isPrefixOf s.last ∧ s.blocks.headD 0 < s.column then
    ([⟨.indent, pos, pos⟩], { s with blocks := s.column :: s.blocks })
  else
    let (tokens, blocks) := closeBlocks pos s.column s.blocks
    (tokens, { s with blocks })

def skipped (s : LexState) (taken : Nat) (rest : List Char) : Lexed :=
  { tokens := [], state := s, taken, rest }

def codeStep (s : LexState) (pos : Nat) (cs : List Char) : Option Lexed :=
  match cs with
  | [] => none
  | '\n' :: rest =>
    if s.contexts.isEmpty then
      if s.lineOpen then
        some (single { s with lineOpen := false, column := 0 } pos .newline 1 rest)
      else some (skipped { s with column := 0 } 1 rest)
    else some (skipped s 1 rest)
  | '\\' :: '\n' :: rest => some (skipped s 2 rest)
  | '\\' :: '\r' :: '\n' :: rest => some (skipped s 3 rest)
  | '#' :: rest =>
    let comment := rest.takeWhile (· ≠ '\n')
    if comment.any (·.toNat = 0) then none
    else some (skipped s (comment.length + 1) (rest.drop comment.length))
  | c :: rest =>
    if c = ' ' then some (skipped { s with column := s.column + 1 } 1 rest)
    else if c = '\t' then some (skipped { s with column := s.column + 8 } 1 rest)
    else if c = '\r' ∨ c = '\x0c' then some (skipped { s with column := 0 } 1 rest)
    else if c = '\uFEFF' ∧ pos = 0 then some (skipped s 1 rest)
    else if s.contexts.isEmpty ∧ !s.lineOpen then do
      let (opening, s) := openLine s pos
      let lexed ← token? s pos cs
      return { lexed with tokens := opening ++ lexed.tokens }
    else token? s pos cs

def step (s : LexState) (pos : Nat) (cs : List Char) : Option Lexed :=
  match s.contexts with
  | .format raw quote :: outer => formatStep s raw quote outer pos cs
  | .specification :: outer => specificationStep s outer pos cs
  | _ => codeStep s pos cs

/-- The tokens that end the source: the last line break if it is missing, and the ends of the
open blocks. -/
def closing (s : LexState) (pos : Nat) : Option (List Token) :=
  if s.contexts.isEmpty then
    let newline : List Token := if s.lineOpen then [⟨.newline, pos, pos⟩] else []
    some (newline ++ (closeBlocks pos 0 s.blocks).1)
  else none

def tokensFrom : (fuel : Nat) → LexState → (pos : Nat) → List Char → Option (List Token)
  | 0, _, _, _ => none
  | _ + 1, s, pos, [] => closing s pos
  | fuel + 1, s, pos, c :: cs => do
    let lexed ← step s pos (c :: cs)
    let more ← tokensFrom fuel lexed.state (pos + lexed.taken) lexed.rest
    return lexed.tokens ++ more

end Lexer

/-- The tokens of a source; `none` if a character or a string cannot be read. -/
def tokenize (source : List Char) : Option (List Token) :=
  Lexer.tokensFrom (source.length + 1) {} 0 source

end AgentWorkbench.Python
