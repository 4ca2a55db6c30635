import AgentWorkbench.Session.Error
import AgentWorkbench.Workspace.FileError
import AgentWorkbench.Workspace.Path

/-!
The files of a workspace. Directories and files are found by the names that lead to them from the
workspace's own directory.
-/
namespace AgentWorkbench

structure Workspace where
  directories : List (List String) := []
  files : List (List String × String) := []
  deriving DecidableEq, Repr, Inhabited

namespace Workspace

/-- The workspace's own directory is always there. -/
def isDirectory (w : Workspace) (names : List String) : Bool :=
  names.isEmpty || w.directories.contains names

def file? (w : Workspace) (names : List String) : Option String :=
  (w.files.find? (·.1 = names)).map (·.2)

def isFile (w : Workspace) (names : List String) : Bool := (w.file? names).isSome

/-- Why a path that leads through these directories cannot be followed. -/
def walkError? (w : Workspace) : (done : List String) → List String → Option FileError
  | _, [] => none
  | done, name :: rest =>
    let here := done ++ [name]
    if FilePath.isTooLong name then some .nameTooLong
    else if w.isFile here then some .notDirectory
    else if w.isDirectory here then w.walkError? here rest
    else some .notFound

/-- Makes the directories along the names that are missing. What was made before a failure
stays. -/
def makeDirectories (w : Workspace) : (done : List String) → List String →
    Except FileError Unit × Workspace
  | _, [] => (.ok (), w)
  | done, name :: rest =>
    let here := done ++ [name]
    if FilePath.isTooLong name then (.error .nameTooLong, w)
    else if w.isFile here then
      (.error (if rest.isEmpty then .alreadyExists else .notDirectory), w)
    else if w.isDirectory here then w.makeDirectories here rest
    else makeDirectories { w with directories := w.directories ++ [here] } here rest

def setFile (w : Workspace) (names : List String) (content : String) : Workspace :=
  if w.isFile names then
    { w with files := w.files.map fun (path, old) =>
        if path = names then (path, content) else (path, old) }
  else { w with files := w.files ++ [(names, content)] }

def writeError? (w : Workspace) (path : String) (names : List String) : Option FileError :=
  if FilePath.hasNul path then some .nulInPath
  else if FilePath.endsInDot path then
    some ((w.walkError? [] names).getD .isDirectory)
  else if FilePath.endsInSlash path then some .isDirectory
  else
    match w.walkError? [] names.dropLast with
    | some e => some e
    | none =>
      if names.getLast?.any FilePath.isTooLong then some .nameTooLong
      else if w.isDirectory names then some .isDirectory
      else none

def write (w : Workspace) (path : String) (names : List String) (content : String) :
    Except FileError Unit × Workspace :=
  match w.writeError? path names with
  | some e => (.error e, w)
  | none => (.ok (), w.setFile names content)

def upload (w : Workspace) (path content : String) : Except WorkerError Unit × Workspace :=
  match FilePath.inside? path with
  | none => (.error (.invalidPath path), w)
  | some names =>
    let above := names.dropLast
    let (made, w) :=
      if above.any FilePath.hasNul then (.error FileError.nulInPath, w)
      else w.makeDirectories [] above
    match made with
    | .error e => (.error (.io ("creating directory for " ++ path) e.message), w)
    | .ok () =>
      match w.write path names content with
      | (.error e, w) => (.error (.io ("writing " ++ path) e.message), w)
      | (.ok (), w) => (.ok (), w)

def octetsBefore : List UInt8 → List UInt8 → Bool
  | _, [] => false
  | [], _ :: _ => true
  | a :: as, b :: bs => a < b || (a = b && octetsBefore as bs)

/-- Whether one path is listed before another: a directory before what it holds, and names in the
order of their octets. -/
def listedBefore : List String → List String → Bool
  | _, [] => false
  | [], _ :: _ => true
  | a :: as, b :: bs =>
    if a = b then listedBefore as bs
    else octetsBefore (Text.Utf8.encode a.toList) (Text.Utf8.encode b.toList)

def insertListed (item : List String × Option String) :
    List (List String × Option String) → List (List String × Option String)
  | [] => [item]
  | other :: rest =>
    if listedBefore item.1 other.1 then item :: other :: rest
    else other :: insertListed item rest

def pathText (names : List String) : String := "/".intercalate names

/-- Every directory, with a slash after its name and without a content, and every file. -/
def listing (w : Workspace) : List (String × Option String) :=
  let items := w.directories.map (·, none) ++ w.files.map fun (path, content) => (path, some content)
  (items.foldl (fun sorted item => insertListed item sorted) []).map fun (path, content) =>
    (if content.isSome then pathText path else pathText path ++ "/", content)

def topNames (w : Workspace) : List String :=
  w.listing.filterMap fun (path, _) =>
    match FilePath.parts path with
    | [name] => some name
    | _ => none

/-- Makes the directory in which workspaces are made, below one that may hold files. -/
def connect (base : Workspace) (root : String) : Except WorkerError Unit :=
  let names := FilePath.names root
  let made := if FilePath.hasNul root then .error FileError.nulInPath
    else (base.makeDirectories [] names).1
  match made with
  | .ok () => .ok ()
  | .error e => .error (.connect ("<root>/" ++ root ++ ": " ++ e.message))

end Workspace

end AgentWorkbench
