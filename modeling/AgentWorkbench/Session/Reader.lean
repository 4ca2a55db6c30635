import AgentWorkbench.Session.Output
import AgentWorkbench.Text.Utf8

/-!
The readers of a process's two output streams. A reader decodes what it reads and then has
actions to do, one by one, before it reads on; the actions of the two readers may be done in any
order between each other.
-/
namespace AgentWorkbench

inductive OutputStream where
  | stdout
  | stderr
  deriving DecidableEq, Repr

inductive ReaderAction where
  | forward (text : List Char)
  | collect (text : List Char)
  | saveGraph (graph : PipelineGraph)
  | announceGraph
  deriving Repr

structure ReaderTask where
  decoder : Text.Utf8.Decoder := {}
  pending : List ReaderAction := []
  /-- The stream has ended, or could not be read any further. -/
  ended : Bool := false
  deriving Repr, Inhabited

namespace ReaderTask

/-- The actions that a decoded text leads to. -/
def deliveries (stream : OutputStream) (text : List Char) : List ReaderAction :=
  if text.isEmpty then []
  else
    match stream with
    | .stdout => [.forward text, .collect text]
    | .stderr => [.forward text]

def isIdle (r : ReaderTask) : Bool := r.pending.isEmpty && !r.ended

def isDone (r : ReaderTask) : Bool := r.pending.isEmpty && r.ended

def read (stream : OutputStream) (r : ReaderTask) (octets : List UInt8) : ReaderTask :=
  if r.isIdle then
    let (text, decoder) := r.decoder.decode octets
    { r with decoder, pending := deliveries stream text }
  else r

/-- Takes the end of the stream, which settles an unfinished character. -/
def close (stream : OutputStream) (r : ReaderTask) : ReaderTask :=
  if r.isIdle then
    { decoder := {}, pending := deliveries stream r.decoder.finish, ended := true }
  else r

end ReaderTask

end AgentWorkbench
