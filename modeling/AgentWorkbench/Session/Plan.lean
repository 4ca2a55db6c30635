import AgentWorkbench.Config
import AgentWorkbench.Extraction.Pipeline
import AgentWorkbench.Instrument.Basic
import AgentWorkbench.Session.Error
import AgentWorkbench.Sheet.EnvFile

/-!
What a session does with a sheet: which files it uploads, what it starts, and with which
variables. The first file decides the language. The entry file is uploaded instrumented, or its
graph is extracted before the run.
-/
namespace AgentWorkbench

/-- A command line, from inside the workspace. -/
structure Launch where
  program : String
  args : List String
  deriving DecidableEq, Repr, Inhabited

namespace Launch

def text (launch : Launch) : String :=
  launch.program ++ String.join (launch.args.map (" " ++ ·))

end Launch

structure RunPlan where
  language : Language
  entry : String
  launch : Launch
  uploads : List SourceFile
  env : EnvVars
  /-- The graph, if it is extracted before the run. -/
  staticGraph : Option PipelineGraph
  deriving Repr

namespace RunPlan

def modifyFirst (name : String) (f : SourceFile → SourceFile) : List SourceFile → List SourceFile
  | [] => []
  | file :: rest =>
    if file.filename = name then f file :: rest else file :: modifyFirst name f rest

def instrumentFile (file : SourceFile) : SourceFile :=
  { file with code := instrument file.code }

def build (config : Config) (files : List SourceFile) (language : Language) (entry : String) :
    RunPlan :=
  let graphs := language.extractsGraph
  { language
    entry
    launch := { program := config.interpreter language, args := [entry] }
    uploads :=
      if graphs ∧ config.graphMode = .runtime then modifyFirst entry instrumentFile files
      else files
    env := EnvVars.ofFiles files
    staticGraph :=
      if graphs ∧ config.graphMode = .static then
        (files.find? (·.filename = entry)).map (Extraction.extract ·.code)
      else none }

def prepare (config : Config) (files : List SourceFile) : Except SessionError RunPlan :=
  match files with
  | [] => .error .noFiles
  | first :: _ =>
    match Language.parse? first.language with
    | none => .error (.unsupportedLanguage first.language)
    | some language =>
      match selectEntry files language with
      | none => .error .noFiles
      | some entry => .ok (build config files language entry.filename)

end RunPlan

end AgentWorkbench
