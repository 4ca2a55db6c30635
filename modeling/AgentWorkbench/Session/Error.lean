import AgentWorkbench.Store.Basic

/-!
What can go wrong with a worker, and what ends a session before its process runs.
-/
namespace AgentWorkbench

inductive WorkerError where
  | connect (reason : String)
  /-- A path that would leave the workspace, or names nothing in it. -/
  | invalidPath (path : String)
  | io (activity reason : String)
  | launch (program reason : String)
  | missingStream (stream : String)
  deriving DecidableEq, Repr

namespace WorkerError

def message : WorkerError → String
  | connect reason => "failed to connect to worker: " ++ reason
  | invalidPath path => "invalid upload path '" ++ path ++ "'"
  | io activity reason => activity ++ ": " ++ reason
  | launch program reason => "failed to launch '" ++ program ++ "': " ++ reason
  | missingStream stream => "process " ++ stream ++ " stream was not captured"

end WorkerError

inductive SessionError where
  | sheetNotFound (sheet : SheetId)
  | noFiles
  | unsupportedLanguage (name : String)
  | setupTimeout (milliseconds : Nat)
  | worker (error : WorkerError)
  | storage (error : StorageError)
  deriving DecidableEq, Repr

namespace SessionError

def ofStorage : StorageError → SessionError
  | .sheetNotFound sheet => sheetNotFound sheet
  | e => storage e

def message : SessionError → String
  | sheetNotFound sheet => "sheet not found: " ++ sheet.text
  | noFiles => "sheet has no files"
  | unsupportedLanguage name => "unsupported language: " ++ name
  | setupTimeout milliseconds => "setup timed out after " ++ Nat.repr (milliseconds / 1000) ++ "s"
  | worker e => e.message
  | storage e => "storage error: " ++ e.message

end SessionError

end AgentWorkbench
