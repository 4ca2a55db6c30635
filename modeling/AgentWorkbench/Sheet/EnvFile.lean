import AgentWorkbench.Sheet.SourceFile
import AgentWorkbench.Text.Lines
import AgentWorkbench.Text.Search

/-!
Environment files: one `KEY=value` on a line, blank lines and comment lines aside. Variables keep
the order in which they were first declared; a later value takes the place of an earlier one.
-/
namespace AgentWorkbench

/-- Variables in the order of their first declaration, each key once. -/
abbrev EnvVars := List (String × String)

namespace EnvVars

/-- Sets a variable: in place if it is there, at the end if it is new. -/
def set (key value : String) : EnvVars → EnvVars
  | [] => [(key, value)]
  | (k, v) :: rest => if k = key then (key, value) :: rest else (k, v) :: set key value rest

def get? (vars : EnvVars) (key : String) : Option String :=
  (vars.find? (·.1 = key)).map (·.2)

/-- Lays the variables of `overlay` over those of `base`. -/
def merge (base overlay : EnvVars) : EnvVars :=
  overlay.foldl (fun vars (key, value) => vars.set key value) base

def ofLine? (line : List Char) : Option (String × String) :=
  let trimmed := Text.trim line
  if trimmed.head? = some '#' then none
  else
    match Text.cutAt ['='] trimmed with
    | some (key, value) =>
      if key.isEmpty then none else some (String.ofList key, String.ofList value)
    | none => none

def parse (content : String) : EnvVars :=
  (Text.lines content.toList).foldl (fun vars line =>
    match ofLine? line with
    | some (key, value) => vars.set key value
    | none => vars) []

def fileSuffix : String := ".env"

def isEnvFile (filename : String) : Bool :=
  fileSuffix.toList.isSuffixOf filename.toList

def ofFiles (files : List SourceFile) : EnvVars :=
  (files.filter (isEnvFile ·.filename)).foldl (fun vars file => vars.merge (parse file.code)) []

end EnvVars

end AgentWorkbench
