import AgentWorkbench.Json.Printer
import AgentWorkbench.Json.Reader
import AgentWorkbench.Store.Basic

/-!
The messages between a client and its session. A client's message is an object with a tag, or an
array of the tag and the fields in order; a field given twice makes it malformed, as does an item
too many.
-/
namespace AgentWorkbench

inductive ClientMessage where
  | start (sheet : SheetId) (playground : PlaygroundId)
  | input (text : String)
  deriving DecidableEq, Repr

namespace ClientMessage

/-- The text of the only member with this key. -/
def onlyText? (members : List (String × Json)) (key : String) : Option String :=
  match members.filter (·.1 = key) with
  | [(_, .str text)] => some text
  | _ => none

def ofFields? (tag : String) (field : String → Option String) : Option ClientMessage :=
  if tag = "start" then do
    return start ⟨← field "sheetId"⟩ ⟨← field "playgroundId"⟩
  else if tag = "input" then do
    return input (← field "input")
  else none

def ofItems? (tag : String) (items : List Json) : Option ClientMessage :=
  match items with
  | [.str sheet, .str playground] => if tag = "start" then some (start ⟨sheet⟩ ⟨playground⟩) else none
  | [.str text] => if tag = "input" then some (input text) else none
  | _ => none

def ofJson? : Json → Option ClientMessage
  | .obj members => do ofFields? (← onlyText? members "event") (onlyText? members)
  | .arr (.str tag :: items) => ofItems? tag items
  | _ => none

def parse? (text : String) : Option ClientMessage :=
  match Json.parseDocument text with
  | .ok value => ofJson? value
  | .error _ => none

end ClientMessage

inductive ServerMessage where
  /-- Output of the process, and lines about the session. -/
  | output (text : String)
  /-- The graph of the sheet is stored. -/
  | graphReady (sheet : SheetId) (playground : PlaygroundId)
  deriving DecidableEq, Repr

namespace ServerMessage

def text : ServerMessage → String
  | output text => text
  | graphReady sheet playground =>
    Json.compact (.obj [("event", .str "graph_ready"), ("sheetId", .str sheet.text),
      ("playgroundId", .str playground.text)])

end ServerMessage

end AgentWorkbench
