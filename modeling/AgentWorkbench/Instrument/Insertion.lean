/-!
Insertions: a text cut in two, with a block put between its halves.
-/
namespace AgentWorkbench.Instrument

structure Insertion where
  before : List Char
  block : List Char
  after : List Char
  deriving DecidableEq, Repr, Inhabited

namespace Insertion

def source (i : Insertion) : List Char := i.before ++ i.after

def text (i : Insertion) : List Char := i.before ++ i.block ++ i.after

end Insertion

/-- The text with the insertion made, or as it is if there is none to make. -/
def insertOr (source : List Char) (insertion : Option Insertion) : List Char :=
  (insertion.map Insertion.text).getD source

end AgentWorkbench.Instrument
