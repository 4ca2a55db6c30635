import AgentWorkbench.Json.Printer
import AgentWorkbench.Json.Record
import AgentWorkbench.Text.Blank

/-!
The files of a sheet, the languages that can be run, and the choice of the file that a run starts
from.
-/
namespace AgentWorkbench

structure SourceFile where
  filename : String
  code : String
  language : String := ""
  deriving DecidableEq, Repr, Inhabited

namespace SourceFile

def toJson (f : SourceFile) : Json :=
  .obj [("filename", .str f.filename), ("code", .str f.code), ("language", .str f.language)]

structure Draft where
  filename : Option String := none
  code : Option String := none
  language : Option String := none

def fields : List (JsonField Draft) :=
  [.of "filename" (·.filename) (fun s v => { s with filename := some v })
      fun _ => JsonReader.text,
    .of "code" (·.code) (fun s v => { s with code := some v }) fun _ => JsonReader.text,
    .of "language" (·.language) (fun s v => { s with language := some v })
      fun _ => JsonReader.text]

def reader : (depth : Nat) → JsonReader SourceFile :=
  JsonReader.record fields {} fun s => do
    return { filename := ← s.filename, code := ← s.code, language := s.language.getD "" }

def parse (text : String) : Except JsonError SourceFile :=
  JsonReader.run (reader JsonReader.depthLimit) text.toList

end SourceFile

inductive Language where
  | python
  | javascript
  deriving DecidableEq, Repr, Inhabited

namespace Language

def name : Language → String
  | python => "python"
  | javascript => "javascript"

def defaultEntry : Language → String
  | python => "main.py"
  | javascript => "index.js"

def extractsGraph : Language → Bool
  | python => true
  | javascript => false

/-- Names are compared without regard to blanks around them and to ASCII case. -/
def parse? (text : String) : Option Language :=
  let name := Text.lowerAscii (Text.trim text.toList)
  if name = "python".toList then some python
  else if name = "javascript".toList then some javascript
  else none

def unsupportedMessage (text : String) : String :=
  "unsupported language: '" ++ text ++ "'"

end Language

/-- The first file with the language's own entry name, or else the first file. -/
def selectEntry (files : List SourceFile) (language : Language) : Option SourceFile :=
  (files.find? (·.filename = language.defaultEntry)).or files.head?

end AgentWorkbench
