import AgentWorkbench.Session.Plan
import AgentWorkbench.Workspace.Basic

/-!
Running programs in a workspace. The programs that there are come down to a shell with a few
commands: lists of simple commands with quoting, variables and output to standard error.
-/
namespace AgentWorkbench

namespace Shell

inductive WordPart where
  | text (s : List Char)
  | variableValue (name : List Char)
  deriving DecidableEq, Repr

abbrev Word := List WordPart

inductive Token where
  | word (w : Word)
  /-- Ends a command whatever it gives. -/
  | separator (isNewline : Bool)
  | andThen
  | orElse
  | toStderr
  deriving DecidableEq, Repr

def isNameChar (c : Char) : Bool := c.isAlphanum || c = '_'

def variableName? (cs : List Char) : Option (List Char × List Char) :=
  match cs with
  | '$' :: rest => some (['$'], rest)
  | '?' :: rest => some (['?'], rest)
  | '\x7b' :: rest =>
    let name := rest.takeWhile isNameChar
    match rest.drop name.length with
    | '\x7d' :: after => some (name, after)
    | _ => none
  | _ =>
    let name := cs.takeWhile isNameChar
    if name.isEmpty then none else some (name, cs.drop name.length)

inductive Quote where
  | none
  | single
  | double
  deriving DecidableEq, Repr

structure LexState where
  quote : Quote := .none
  /-- The word so far; there may be one without any part, such as two quotes. -/
  current : Option Word := none
  tokens : List Token := []

namespace LexState

def add (s : LexState) (part : WordPart) : LexState :=
  { s with current := some (s.current.getD [] ++ [part]) }

def endWord (s : LexState) : LexState :=
  { s with current := .none, tokens := s.tokens ++ (s.current.map Token.word).toList }

def push (s : LexState) (t : Token) : LexState :=
  let s := s.endWord
  { s with tokens := s.tokens ++ [t] }

def quoted (s : LexState) (quote : Quote) : LexState :=
  { s with quote, current := some (s.current.getD []) }

end LexState

/-- Reads tokens; `none` if a quote is not closed. -/
def lex : (fuel : Nat) → LexState → List Char → Option (List Token)
  | 0, _, _ => none
  | fuel + 1, s, cs =>
    match s.quote, cs with
    | .none, [] => some s.endWord.tokens
    | _, [] => none
    | .single, '\'' :: rest => lex fuel { s with quote := .none } rest
    | .single, c :: rest => lex fuel (s.add (.text [c])) rest
    | .double, '"' :: rest => lex fuel { s with quote := .none } rest
    | .double, '\\' :: c :: rest =>
      if ['"', '\\', '$', '\x60'].contains c then lex fuel (s.add (.text [c])) rest
      else lex fuel (s.add (.text ['\\', c])) rest
    | .none, '\\' :: c :: rest => lex fuel (s.add (.text [c])) rest
    | .none, '\'' :: rest => lex fuel (s.quoted .single) rest
    | .none, '"' :: rest => lex fuel (s.quoted .double) rest
    | .none, '&' :: '&' :: rest => lex fuel (s.push .andThen) rest
    | .none, '|' :: '|' :: rest => lex fuel (s.push .orElse) rest
    | .none, '>' :: '&' :: '2' :: rest => lex fuel (s.push .toStderr) rest
    | .none, ';' :: rest => lex fuel (s.push (.separator false)) rest
    | .none, '\n' :: rest => lex fuel (s.push (.separator true)) rest
    | _, '$' :: rest =>
      match variableName? rest with
      | some (name, after) => lex fuel (s.add (.variableValue name)) after
      | none => lex fuel (s.add (.text ['$'])) rest
    | .none, c :: rest =>
      if c = ' ' ∨ c = '\t' then lex fuel s.endWord rest
      else if c = '#' ∧ s.current.isNone then lex fuel s (rest.dropWhile (· ≠ '\n'))
      else lex fuel (s.add (.text [c])) rest
    | .double, c :: rest => lex fuel (s.add (.text [c])) rest

/-- What a program gives: its output, and its exit code unless a signal ended it. -/
structure Outcome where
  stdout : String := ""
  stderr : String := ""
  exit : Option Nat := some 0
  deriving DecidableEq, Repr

structure State where
  workspace : Workspace
  env : EnvVars
  stdin : List Char
  stdout : List Char := []
  stderr : List Char := []
  status : Nat := 0
  line : Nat := 1
  /-- The end of the shell; `some none` if a signal ended it. -/
  finished : Option (Option Nat) := none

namespace State

/-- The word for the shell's own process number. -/
def ownProcess : String := "$$"

def value (s : State) (name : List Char) : String :=
  if name = ['$'] then ownProcess
  else if name = ['?'] then Nat.repr s.status
  else (s.env.get? (String.ofList name)).getD ""

def expand (s : State) (w : Word) : String :=
  String.join (w.map fun
    | .text cs => String.ofList cs
    | .variableValue name => s.value name)

def print (s : State) (toStderr : Bool) (cs : List Char) : State :=
  if toStderr then { s with stderr := s.stderr ++ cs } else { s with stdout := s.stdout ++ cs }

end State

/-- The characters that a format of one string argument prints. -/
def formatted : List Char → List String → List Char
  | '\\' :: 'n' :: rest, args => '\n' :: formatted rest args
  | '\\' :: 't' :: rest, args => '\t' :: formatted rest args
  | '\\' :: '\\' :: rest, args => '\\' :: formatted rest args
  | '%' :: '%' :: rest, args => '%' :: formatted rest args
  | '%' :: 's' :: rest, args => (args.headD "").toList ++ formatted rest args.tail
  | '%' :: 'd' :: rest, args => (args.headD "0").toList ++ formatted rest args.tail
  | c :: rest, args => c :: formatted rest args
  | [], _ => []

def lineOf (cs : List Char) : List Char := cs ++ ['\n']

def joined (args : List String) : List Char := (" ".intercalate args).toList

/-- The arguments of a command that prints files: each file in turn, or standard input. -/
def printFiles (s : State) (toStderr : Bool) : List String → State
  | [] => s
  | path :: rest =>
    match s.workspace.file? (FilePath.names path) with
    | some content => printFiles (s.print toStderr content.toList) toStderr rest
    | none =>
      let message := "cat: " ++ path ++ ": No such file or directory"
      printFiles { s.print true (lineOf message.toList) with status := 1 } toStderr rest

/-- Runs a simple command; `name` is how the shell calls itself. -/
def command (name : String) (toStderr : Bool) (s : State) : List String → State
  | [] => s
  | "echo" :: "-n" :: args => { s.print toStderr (joined args) with status := 0 }
  | "echo" :: args => { s.print toStderr (lineOf (joined args)) with status := 0 }
  | "printf" :: format :: args =>
    { s.print toStderr (formatted format.toList args) with status := 0 }
  | ["cat"] => { s.print toStderr s.stdin with stdin := [], status := 0 }
  | "cat" :: paths => printFiles { s with status := 0 } toStderr paths
  | ["ls"] =>
    let names := s.workspace.topNames.filter (·.toList.head? ≠ some '.')
    { s.print toStderr (names.flatMap fun n => lineOf n.toList) with status := 0 }
  | ["read", key] =>
    let line := s.stdin.takeWhile (· ≠ '\n')
    let rest := s.stdin.drop line.length
    { s with
      env := s.env.set key (String.ofList line)
      stdin := rest.drop 1
      status := if rest.isEmpty then 1 else 0 }
  | ["true"] | [":"] => { s with status := 0 }
  | ["false"] => { s with status := 1 }
  | ["exit"] => { s with finished := some (some s.status) }
  | ["exit", code] => { s with finished := some (some (code.toNat?.getD 2 % 256)) }
  | ["kill", "-9", target] =>
    if target = State.ownProcess then { s with finished := some none } else s
  | ["kill", "-KILL", target] =>
    if target = State.ownProcess then { s with finished := some none } else s
  | other :: _ =>
    let message := name ++ ": " ++ Nat.repr s.line ++ ": " ++ other ++ ": not found"
    { s.print true (lineOf message.toList) with status := 127 }

/-- Runs the tokens of a list of commands. `words` are those of the command so far, and `active`
says whether it is run at all. -/
def runTokens (name : String) : (words : List String) → (toStderr active : Bool) → State →
    List Token → State
  | words, toStderr, active, s, [] =>
    if active ∧ s.finished.isNone then command name toStderr s words else s
  | words, toStderr, active, s, token :: rest =>
    let done : State :=
      if active ∧ s.finished.isNone then command name toStderr s words else s
    match token with
    | .word w => runTokens name (words ++ [s.expand w]) toStderr active s rest
    | .toStderr => runTokens name words true active s rest
    | .separator isNewline =>
      runTokens name [] false true
        { done with line := if isNewline then done.line + 1 else done.line } rest
    | .andThen => runTokens name [] false (done.status = 0) done rest
    | .orElse => runTokens name [] false (done.status ≠ 0) done rest

def run (name : String) (s : State) (script : List Char) : Outcome :=
  match lex (script.length + 1) {} script with
  | none =>
    { stderr := name ++ ": 1: Syntax error: Unterminated quoted string\n", exit := some 2 }
  | some tokens =>
    let s := runTokens name [] false true s tokens
    { stdout := String.ofList s.stdout
      stderr := String.ofList s.stderr
      exit := s.finished.getD (some s.status) }

end Shell

namespace Workspace

/-- The programs other than the shell that are found by their names. -/
def knownPrograms : List String := ["echo", "printf", "cat", "ls", "true", "false"]

def launchError? (w : Workspace) (launch : Launch) (env : EnvVars) : Option FileError :=
  let texts := launch.program :: launch.args ++ env.flatMap fun (key, value) => [key, value]
  if texts.any FilePath.hasNul then some .nulInArgument
  else if launch.program.toList.contains '/' then
    let names := FilePath.names launch.program
    if w.isFile names ∨ w.isDirectory names then some .permissionDenied
    else some ((w.walkError? [] names).getD .notFound)
  else if launch.program = "sh" ∨ knownPrograms.contains launch.program then none
  else some .notFound

def execute (w : Workspace) (launch : Launch) (env : EnvVars) (stdin : String) :
    Except WorkerError Shell.Outcome :=
  match w.launchError? launch env with
  | some e => .error (.launch launch.program e.message)
  | none =>
    let s : Shell.State := { workspace := w, env, stdin := stdin.toList }
    .ok <|
      if launch.program = "sh" then
        match launch.args with
        | "-c" :: script :: _ => Shell.run "sh" s script.toList
        | path :: _ =>
          match w.file? (FilePath.names path) with
          | some script => Shell.run path s script.toList
          | none =>
            { stderr := "sh: 0: cannot open " ++ path ++ ": No such file\n", exit := some 2 }
        | [] => Shell.run "sh" { s with stdin := [] } stdin.toList
      else
        let s := Shell.command launch.program false s (launch.program :: launch.args)
        { stdout := String.ofList s.stdout, stderr := String.ofList s.stderr,
          exit := some s.status }

end Workspace

end AgentWorkbench
