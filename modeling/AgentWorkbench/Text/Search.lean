/-!
Finding and replacing one list of characters inside another, leftmost first and without overlap.
-/
namespace AgentWorkbench.Text

/-- The rest after `pat`, if the text starts with it. -/
def stripStart : List Char → List Char → Option (List Char)
  | [], cs => some cs
  | _ :: _, [] => none
  | p :: ps, c :: cs => if p = c then stripStart ps cs else none

def startsWith (pat cs : List Char) : Bool :=
  (stripStart pat cs).isSome

def contains (pat : List Char) : List Char → Bool
  | [] => pat.isEmpty
  | c :: cs => startsWith pat (c :: cs) || contains pat cs

def cutAt (pat : List Char) : List Char → Option (List Char × List Char)
  | [] => if pat.isEmpty then some ([], []) else none
  | c :: cs =>
    match stripStart pat (c :: cs) with
    | some rest => some ([], rest)
    | none => (cutAt pat cs).map fun (before, rest) => (c :: before, rest)

/-- Replaces each occurrence of the two characters `a b` by `put`, from the left. -/
def replacePair (a b put : Char) : List Char → List Char
  | x :: y :: rest =>
    if x = a ∧ y = b then put :: replacePair a b put rest
    else x :: replacePair a b put (y :: rest)
  | rest => rest

theorem stripStart_eq_some_iff {pat cs rest : List Char} :
    stripStart pat cs = some rest ↔ cs = pat ++ rest := by
  induction pat generalizing cs with
  | nil => simp [stripStart]
  | cons p ps ih =>
    cases cs with
    | nil => simp [stripStart]
    | cons c cs =>
      by_cases h : p = c
      · simp [stripStart, h, ih]
      · simp [stripStart, h, Ne.symm h]

end AgentWorkbench.Text
