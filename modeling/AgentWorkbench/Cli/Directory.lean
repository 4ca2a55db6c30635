import AgentWorkbench.Cli.Run
import AgentWorkbench.Workspace.Path

/-!
A directory of files held in memory, and commands that run in it. It has no directories of its
own, and of what lies outside of it nothing is known: there are no files to read there, and what
is written there is not kept.
-/
namespace AgentWorkbench

structure Directory where
  files : List (String × List UInt8) := []
  deriving DecidableEq, Repr

namespace Directory

def octets? (d : Directory) (name : String) : Option (List UInt8) :=
  (d.files.find? (·.1 = name)).map (·.2)

def has (d : Directory) (name : String) : Bool := (d.octets? name).isSome

inductive Place where
  /-- The directory itself, or one above it. -/
  | directory
  | file (name : String)
  | elsewhere
  deriving DecidableEq, Repr

/-- The place outside of the directory that names lead to. -/
def outside : List PathComponent → Except FileError Place
  | [] => .ok .directory
  | .name name :: rest =>
    if FilePath.isTooLong name then .error .nameTooLong
    else if rest.isEmpty then .ok .elsewhere
    else .error .notFound
  | _ :: rest => outside rest

def locate (d : Directory) : List PathComponent → Except FileError Place
  | [] => .ok .directory
  | .name name :: rest =>
    if FilePath.isTooLong name then .error .nameTooLong
    else if rest.isEmpty then .ok (.file name)
    else .error (if d.has name then .notDirectory else .notFound)
  | .here :: rest => d.locate rest
  | .up :: rest | .root :: rest => outside rest

def read (d : Directory) (path : String) : Except FileError String := do
  match ← d.locate (FilePath.components path) with
  | .directory => throw .isDirectory
  | .elsewhere => throw .notFound
  | .file name =>
    match d.octets? name with
    | none => throw .notFound
    | some octets =>
      if FilePath.endsInSlash path then throw .notDirectory
      match Text.Utf8.decode? octets with
      | some text => return String.ofList text
      | none => throw .invalidText

def set (d : Directory) (name : String) (octets : List UInt8) : Directory where
  files :=
    if d.has name then d.files.map fun (n, old) => if n = name then (n, octets) else (n, old)
    else d.files ++ [(name, octets)]

def write (d : Directory) (path text : String) : Except FileError Directory := do
  match ← d.locate (FilePath.components path) with
  | .directory => throw .isDirectory
  | .elsewhere => return d
  | .file name =>
    if FilePath.endsInSlash path then throw .isDirectory
    return d.set name (Text.Utf8.encode text.toList)

def run (d : Directory) (command : Command) : CommandOutcome × Directory :=
  match d.read command.file with
  | .error e => (Command.readFailure command.file e, d)
  | .ok text =>
    let outcome := command.run text
    match outcome.write with
    | none => (outcome, d)
    | some (path, content) =>
      match d.write path content with
      | .ok d => (outcome, d)
      | .error e => (Command.writeFailure path e, d)

end Directory

end AgentWorkbench
