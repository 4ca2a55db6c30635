import AgentWorkbench.Frame.Basic
import AgentWorkbench.Text.Search

/-!
Frames as occurrences of a pattern in a text: a begin sentinel alone on its line, as few
characters as possible, and an end sentinel alone on its line. Occurrences are taken from the
left and do not overlap; an occurrence stops before the break of its last line.
-/
namespace AgentWorkbench

namespace Frame

open Text

/-- At the start of a line: the text from the line's end on, if the line is the sentinel. -/
def afterSentinel? (sentinel cs : List Char) : Option (List Char) := do
  let tail ← stripStart sentinel cs
  let tail := tail.dropWhile isTrailingBlank
  let tail := match tail with
    | '\r' :: rest => rest
    | _ => tail
  match tail with
  | [] => some []
  | '\n' :: rest => some ('\n' :: rest)
  | _ => none

/-- At any place: the text after a sentinel line, if the place is a line start and one stands
there. -/
def sentinelAt? (sentinel : List Char) (lineStart : Bool) (cs : List Char) : Option (List Char) :=
  if lineStart then afterSentinel? sentinel cs else none

def untilEnd? (sentinel : List Char) : (lineStart : Bool) → List Char →
    Option (List Char × List Char)
  | lineStart, [] => (sentinelAt? sentinel lineStart []).map ([], ·)
  | lineStart, c :: rest =>
    match sentinelAt? sentinel lineStart (c :: rest) with
    | some after => some ([], after)
    | none =>
      (untilEnd? sentinel (c = '\n') rest).map fun (payload, after) => (c :: payload, after)

/-- A frame that starts at this line start: what stands between its sentinels, and the text after
it. -/
def occurrence? (kind : FrameKind) (cs : List Char) : Option (List Char × List Char) := do
  let rest ← afterSentinel? kind.beginMarker.toList cs
  untilEnd? kind.endMarker.toList false rest

inductive Segment where
  | kept (c : Char)
  | frame (payload : List Char)
  deriving DecidableEq, Repr

def segments (kind : FrameKind) : (fuel : Nat) → (lineStart : Bool) → List Char → List Segment
  | 0, _, _ => []
  | fuel + 1, lineStart, cs =>
    match if lineStart then occurrence? kind cs else none with
    | some (payload, rest) => .frame payload :: segments kind fuel false rest
    | none =>
      match cs with
      | [] => []
      | c :: rest => .kept c :: segments kind fuel (c = '\n') rest

def segmentsOf (kind : FrameKind) (cs : List Char) : List Segment :=
  segments kind (cs.length + 1) true cs

def payloads (kind : FrameKind) (cs : List Char) : List (List Char) :=
  (segmentsOf kind cs).filterMap fun
    | .frame payload => some payload
    | .kept _ => none

/-- The text without its frames, sentinel lines included. -/
def strip (kind : FrameKind) (cs : List Char) : List Char :=
  (segmentsOf kind cs).filterMap fun
    | .kept c => some c
    | .frame _ => none

end Frame

end AgentWorkbench
