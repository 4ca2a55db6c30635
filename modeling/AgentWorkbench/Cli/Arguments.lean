import AgentWorkbench.Frame.Basic

/-!
The command line: three commands with a file each, and their options. An option with a value may
have it as the next argument, after an equals sign, or, if it is a short one, right after its
letter. After two dashes everything is a file name.
-/
namespace AgentWorkbench

inductive Command where
  | instrument (file : String) (output : Option String)
  | extract (file : String)
  /-- Print a frame's payload, or all but the frames. -/
  | frames (file : String) (kind : FrameKind) (strip : Bool)
  deriving DecidableEq, Repr

namespace Command

structure OptionSpec where
  long : String
  short : Option Char
  takesValue : Bool
  deriving DecidableEq, Repr

def outputOption : OptionSpec := { long := "output", short := some 'o', takesValue := true }

def kindOption : OptionSpec := { long := "kind", short := some 'k', takesValue := true }

def stripOption : OptionSpec := { long := "strip", short := none, takesValue := false }

structure Parsed where
  options : List (String × String) := []
  files : List String := []
  deriving DecidableEq, Repr

namespace Parsed

/-- Adds an option, which must not be there twice. -/
def addOption (p : Parsed) (spec : OptionSpec) (value : String) : Option Parsed :=
  if p.options.any (·.1 = spec.long) then none
  else some { p with options := p.options ++ [(spec.long, value)] }

def addFile (p : Parsed) (file : String) : Parsed := { p with files := p.files ++ [file] }

def value? (p : Parsed) (spec : OptionSpec) : Option String :=
  (p.options.find? (·.1 = spec.long)).map (·.2)

end Parsed

inductive Form where
  | endOfOptions
  | long (name : List Char) (value : Option (List Char))
  | short (letter : Char) (rest : List Char)
  | plain
  deriving DecidableEq, Repr

def form (argument : String) : Form :=
  match argument.toList with
  | ['-', '-'] => .endOfOptions
  | '-' :: '-' :: rest =>
    let name := rest.takeWhile (· ≠ '=')
    match rest.drop name.length with
    | _ :: value => .long name (some value)
    | [] => .long name none
  | '-' :: c :: rest => .short c rest
  | _ => .plain

/-- The value given along with a short option. -/
def attachedValue : List Char → Option (List Char)
  | [] => none
  | '=' :: value => some value
  | value => some value

/-- The option of an argument, and the value it carries; `none` for an unknown option. -/
def option? (specs : List OptionSpec) : Form → Option (OptionSpec × Option (List Char))
  | .long name value => do
    let spec ← specs.find? (·.long.toList = name)
    guard (spec.takesValue || value.isNone)
    return (spec, value)
  | .short letter rest => do
    let spec ← specs.find? (·.short = some letter)
    guard (spec.takesValue || rest.isEmpty)
    return (spec, attachedValue rest)
  | _ => none

/-- Reads arguments. `waiting` is an option whose value is the next argument. -/
def parseArguments (specs : List OptionSpec) :
    (waiting : Option OptionSpec) → Parsed → List String → Option Parsed
  | none, p, [] => some p
  | some _, _, [] => none
  | some spec, p, argument :: rest => do
    guard (form argument = .plain)
    parseArguments specs none (← p.addOption spec argument) rest
  | none, p, argument :: rest =>
    match form argument with
    | .endOfOptions => some { p with files := p.files ++ rest }
    | .plain => parseArguments specs none (p.addFile argument) rest
    | other => do
      let (spec, value) ← option? specs other
      match value with
      | some value =>
        parseArguments specs none (← p.addOption spec (String.ofList value)) rest
      | none =>
        if spec.takesValue then parseArguments specs (some spec) p rest
        else parseArguments specs none (← p.addOption spec "") rest

/-- The only file, whose name must not be empty. -/
def onlyFile? (p : Parsed) : Option String :=
  match p.files with
  | [file] => if file = "" then none else some file
  | _ => none

def parse? : List String → Option Command
  | "instrument" :: rest => do
    let p ← parseArguments [outputOption] none {} rest
    let output := p.value? outputOption
    guard (output ≠ some "")
    return instrument (← onlyFile? p) output
  | "extract" :: rest => do
    let p ← parseArguments [] none {} rest
    return extract (← onlyFile? p)
  | "frames" :: rest => do
    let p ← parseArguments [kindOption, stripOption] none {} rest
    let kind ← FrameKind.parse? ((p.value? kindOption).getD FrameKind.graph.name)
    return frames (← onlyFile? p) kind (p.value? stripOption).isSome
  | _ => none

end Command

end AgentWorkbench
