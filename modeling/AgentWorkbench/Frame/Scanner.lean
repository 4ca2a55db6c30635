import AgentWorkbench.Frame.Basic
import AgentWorkbench.Text.Lines

/-!
Finding a frame in a buffer that grows. The scanner remembers where the first line begins that it
has not consumed, and where the payload of an open frame begins. Only whole lines are consumed; an
unfinished last line is looked at, as it may close a frame, but stays.
-/
namespace AgentWorkbench

open Text

namespace Frame

/-- Whether the line, with or without its break, is the sentinel. -/
def isSentinel (sentinel line : List Char) : Bool :=
  dropEndWhile isTrailingBlank (dropLast '\r' (dropLast '\n' line)) = sentinel

def isBegin (kind : FrameKind) (line : List Char) : Bool :=
  isSentinel kind.beginMarker.toList line

def isEnd (kind : FrameKind) (line : List Char) : Bool :=
  isSentinel kind.endMarker.toList line

/-- What a payload decodes to; blanks around it do not count. -/
def decodePayload {α : Type} (decode : String → Option α) (payload : List Char) : Option α :=
  decode (String.ofList (trim payload))

end Frame

structure FrameScanner where
  kind : FrameKind
  /-- Where the first line begins that is not consumed yet. -/
  scanned : Nat := 0
  /-- Where the payload begins of a frame that was opened and not closed. -/
  openAt : Option Nat := none
  deriving DecidableEq, Repr

namespace FrameScanner

open AgentWorkbench.Frame

def slice (buffer : List Char) (start stop : Nat) : List Char :=
  (buffer.take stop).drop start

/-- Looks at the lines one by one; `lineStart` is where the first of them begins. -/
def scanLines {α : Type} (decode : String → Option α) (buffer : List Char) (s : FrameScanner) :
    (lineStart : Nat) → List (List Char) → Option α × FrameScanner
  | _, [] => (none, s)
  | lineStart, line :: rest =>
    if line.getLast? = some '\n' then
      let lineEnd := lineStart + line.length
      let s := { s with scanned := lineEnd }
      match s.openAt with
      | none =>
        let s := if isBegin s.kind line then { s with openAt := some lineEnd } else s
        scanLines decode buffer s lineEnd rest
      | some start =>
        if isEnd s.kind line then
          let s := { s with openAt := none }
          match decodePayload decode (slice buffer start lineStart) with
          | some a => (some a, s)
          | none => scanLines decode buffer s lineEnd rest
        else scanLines decode buffer s lineEnd rest
    else
      match s.openAt with
      | some start =>
        if isEnd s.kind line then (decodePayload decode (slice buffer start lineStart), s)
        else (none, s)
      | none => (none, s)

/-- Scans what the buffer has gained since the last time. The buffer extends the one before. -/
def poll {α : Type} (decode : String → Option α) (s : FrameScanner) (buffer : List Char) :
    Option α × FrameScanner :=
  if s.scanned ≤ buffer.length then
    scanLines decode buffer s s.scanned (pieces (buffer.drop s.scanned))
  else (none, s)

end FrameScanner

/-- The payload of the first complete frame that decodes. -/
def extractFrame {α : Type} (decode : String → Option α) (kind : FrameKind)
    (buffer : List Char) : Option α :=
  (FrameScanner.poll decode { kind } buffer).1

end AgentWorkbench
