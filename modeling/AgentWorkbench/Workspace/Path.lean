import AgentWorkbench.Text.Lines
import AgentWorkbench.Text.Utf8

/-!
Paths of files. Slashes part a path into components; repeated slashes count as one, and a dot
stays where it is. A path that is uploaded must name something inside the workspace.
-/
namespace AgentWorkbench

inductive PathComponent where
  | root
  | here
  | up
  | name (text : String)
  deriving DecidableEq, Repr

namespace PathComponent

def ofText (text : String) : PathComponent :=
  if text = "." then here
  else if text = ".." then up
  else name text

def name? : PathComponent → Option String
  | name text => some text
  | _ => none

end PathComponent

namespace FilePath

/-- The parts of a path between its slashes that are not empty. -/
def parts (path : String) : List String :=
  ((Text.splitOn '/' path.toList).filter (!·.isEmpty)).map String.ofList

def isAbsolute (path : String) : Bool := path.toList.head? = some '/'

def components (path : String) : List PathComponent :=
  (if isAbsolute path then [.root] else []) ++ (parts path).map PathComponent.ofText

def names (path : String) : List String := (components path).filterMap PathComponent.name?

/-- The names of a path that stays inside the directory it starts from and names something in
it; `none` for every other path. -/
def inside? (path : String) : Option (List String) :=
  if (components path).any fun c => c = .root || c = .up then none
  else if (names path).isEmpty then none
  else some (names path)

/-- The longest name in octets that a file can have. -/
def nameLimit : Nat := 255

def isTooLong (name : String) : Bool := nameLimit < Text.Utf8.size name.toList

def hasNul (path : String) : Bool := path.toList.contains '\x00'

def endsInSlash (path : String) : Bool := path.toList.getLast? = some '/'

def endsInDot (path : String) : Bool := (parts path).getLast? = some "."

end FilePath

end AgentWorkbench
