import AgentWorkbench.Text.Utf8

/-!
The way of a client's input to the standard input of a process. Input is taken only while a
process is attached and its forwarder runs; the forwarder writes it in order and stops at the
first write that fails.
-/
namespace AgentWorkbench

structure StdinPort where
  attached : Bool := false
  forwarding : Bool := false
  /-- Inputs taken and not yet written. -/
  queue : List (List UInt8) := []
  written : List UInt8 := []
  deriving DecidableEq, Repr, Inhabited

namespace StdinPort

def isOpen (p : StdinPort) : Bool := p.attached && p.forwarding

/-- Takes input or drops it. -/
def accept (p : StdinPort) (input : String) : StdinPort :=
  if p.isOpen then { p with queue := p.queue ++ [Text.Utf8.encode input.toList] } else p

def attach (p : StdinPort) : StdinPort :=
  { p with attached := true, forwarding := true }

/-- Detaches the process and stops the forwarder; what is still queued is lost. -/
def detach (p : StdinPort) : StdinPort :=
  { p with attached := false, forwarding := false, queue := [] }

def write (p : StdinPort) : StdinPort :=
  match p.queue with
  | octets :: rest =>
    if p.forwarding then { p with queue := rest, written := p.written ++ octets } else p
  | [] => p

/-- The write of the next input fails after so many octets, which stops the forwarder. -/
def failWrite (p : StdinPort) (octets : Nat) : StdinPort :=
  match p.queue with
  | next :: _ =>
    if p.forwarding then
      { p with forwarding := false, queue := [], written := p.written ++ next.take octets }
    else p
  | [] => p

def flush (p : StdinPort) (fails : Bool) : StdinPort :=
  if fails then p.failWrite 0
  else if p.forwarding then { p with queue := [], written := p.written ++ p.queue.flatten }
  else p

end StdinPort

end AgentWorkbench
