/-!
The phases of a session. The last two are its ends.
-/
namespace AgentWorkbench

inductive Phase where
  | preparing
  | uploading
  | running
  | draining
  | completed
  | failed
  deriving DecidableEq, Repr

namespace Phase

def name : Phase → String
  | preparing => "preparing"
  | uploading => "uploading"
  | running => "running"
  | draining => "draining"
  | completed => "completed"
  | failed => "failed"

def all : List Phase := [preparing, uploading, running, draining, completed, failed]

end Phase

end AgentWorkbench
