import AgentWorkbench.Number.Bounded
import AgentWorkbench.Sheet.SourceFile
import AgentWorkbench.Text.Blank

/-!
The configuration of a server, read from environment variables. A variable that is unset or blank
leaves its default; the first invalid one in the order of reading is reported.
-/
namespace AgentWorkbench

inductive GraphMode where
  /-- The program is instrumented and prints its graph when it runs. -/
  | runtime
  /-- The graph is extracted before the program runs. -/
  | static
  deriving DecidableEq, Repr, Inhabited

namespace GraphMode

def name : GraphMode → String
  | runtime => "runtime"
  | static => "static"

def parse? (text : List Char) : Option GraphMode :=
  let name := Text.lowerAscii (Text.trim text)
  if name = "runtime".toList then some runtime
  else if name = "static".toList then some static
  else none

end GraphMode

structure Config where
  databasePath : String := "flowgraph.db"
  port : Nat := 3001
  /-- Where workspaces are made; the system's directory for temporary files if there is none. -/
  workRoot : Option String := none
  pythonCommand : String := "python3"
  nodeCommand : String := "node"
  /-- The bound on connecting to the worker and uploading, in milliseconds. -/
  setupTimeout : Nat := 20000
  graphMode : GraphMode := .runtime
  deriving DecidableEq, Repr, Inhabited

structure ConfigError where
  variableName : String
  value : String
  reason : String
  deriving DecidableEq, Repr

namespace ConfigError

def message (e : ConfigError) : String :=
  "invalid value '" ++ e.value ++ "' for " ++ e.variableName ++ ": " ++ e.reason

end ConfigError

namespace Config

def portVariable : String := "FLOWGRAPH_PORT"

def setupTimeoutVariable : String := "FLOWGRAPH_SETUP_TIMEOUT_SECS"

def graphModeVariable : String := "FLOWGRAPH_GRAPH_MODE"

/-- A number up to `bound`, blanks around it aside. -/
def number (name : String) (bound : Nat) (value : String) : Except ConfigError Nat :=
  match parseBounded bound (Text.trim value.toList) with
  | .ok n => .ok n
  | .error e => .error { variableName := name, value, reason := e.message }

def readPort (value : String) : Except ConfigError Nat :=
  number portVariable 0xFFFF value

/-- A number of seconds, in milliseconds. -/
def readSetupTimeout (value : String) : Except ConfigError Nat := do
  let seconds ← number setupTimeoutVariable 0xFFFFFFFFFFFFFFFF value
  if seconds = 0 then
    throw { variableName := setupTimeoutVariable, value := "0", reason := "must be at least 1" }
  return seconds * 1000

def readGraphMode (value : String) : Except ConfigError GraphMode :=
  match GraphMode.parse? value.toList with
  | some mode => .ok mode
  | none =>
    .error { variableName := graphModeVariable, value, reason := "expected 'runtime' or 'static'" }

def ofVariables (lookup : String → Option String) : Except ConfigError Config := do
  let set (name : String) : Option String := (lookup name).filter (!Text.isBlankText ·)
  let base : Config := {}
  return {
    databasePath := (set "FLOWGRAPH_DB_PATH").getD base.databasePath
    port := ← ((set portVariable).mapM readPort).map (·.getD base.port)
    workRoot := set "FLOWGRAPH_WORK_ROOT"
    pythonCommand := (set "PYTHON_CMD").getD base.pythonCommand
    nodeCommand := (set "NODE_CMD").getD base.nodeCommand
    setupTimeout :=
      ← ((set setupTimeoutVariable).mapM readSetupTimeout).map (·.getD base.setupTimeout)
    graphMode := ← ((set graphModeVariable).mapM readGraphMode).map (·.getD base.graphMode) }

def interpreter (config : Config) : Language → String
  | .python => config.pythonCommand
  | .javascript => config.nodeCommand

end Config

end AgentWorkbench
