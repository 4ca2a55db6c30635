import AgentWorkbench.Server.Basic
import AgentWorkbench.Text.Search

/-!
A client at the terminal: what it sends, and what it waits for before it goes on. The session runs
as far as it can after everything that the client sends. When the client is done its connection
closes, and the session ends where it is.
-/
namespace AgentWorkbench

inductive ClientAction where
  | send (text : String)
  | other
  /-- Receive until the texts received hold this one. -/
  | await (text : String)
  deriving DecidableEq, Repr

structure Conversation where
  rehearsal : Option Rehearsal := none
  received : Nat := 0
  waits : List Bool := []

namespace Conversation

def sent (c : Conversation) : List ServerMessage :=
  (c.rehearsal.map (·.session.sent)).getD []

def texts (c : Conversation) : List String := (c.sent.take c.received).map ServerMessage.text

/-- How many messages have to be received until their texts hold `wanted`, if that ever happens. -/
def enough? (wanted : List Char) (messages : List ServerMessage) (received : Nat) : Option Nat :=
  (List.range (messages.length + 1 - received)).map (received + ·) |>.find? fun count =>
    Text.contains wanted ((messages.take count).flatMap (·.text.toList))

def await (c : Conversation) (wanted : String) : Conversation :=
  match enough? wanted.toList c.sent c.received with
  | some count => { c with received := count, waits := c.waits ++ [true] }
  | none => { c with received := c.sent.length, waits := c.waits ++ [false] }

def withTerminal (script : WorkerScript) (r : Option Rehearsal) (t : Terminal) :
    Option Rehearsal :=
  match r, t.session with
  | some r, some session => some ({ r with session }.flushStdin)
  | none, some session => some (Rehearsal.start session script)
  | _, none => none

def send (script : WorkerScript) (server : Server) (c : Conversation) (text : String) :
    Conversation × Server :=
  let terminal : Terminal := { session := c.rehearsal.map (·.session) }
  match withTerminal script c.rehearsal (terminal.receive text) with
  | none => (c, server)
  | some r =>
    let (r, store) := r.advance server.config server.now server.store
    ({ c with rehearsal := some r }, { server with store })

def step (script : WorkerScript) (server : Server) (c : Conversation) :
    ClientAction → Conversation × Server
  | .send text => c.send script server text
  | .other => (c, server)
  | .await wanted => (c.await wanted, server)

def run (script : WorkerScript) (server : Server) : Conversation → List ClientAction →
    Conversation × Server
  | c, [] => (c, server)
  | c, action :: rest =>
    let (c, server) := c.step script server action
    run script server c rest

end Conversation

end AgentWorkbench
