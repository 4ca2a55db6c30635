import AgentWorkbench.Text.Blank

/-!
Texts as lists of lines. `pieces` keeps each line's break, so that the pieces concatenate to the
text; `lines` drops the break and one carriage return before it; `splitOn` cuts at every
occurrence of one character.
-/
namespace AgentWorkbench.Text

def breakLine : List Char → List Char × List Char
  | [] => ([], [])
  | c :: cs =>
    if c = '\n' then (['\n'], cs)
    else
      let (line, rest) := breakLine cs
      (c :: line, rest)

/-- The lines of a text, each with its break; the last one may lack it. -/
def pieces : List Char → List (List Char)
  | [] => []
  | c :: cs =>
    if c = '\n' then ['\n'] :: pieces cs
    else
      match pieces cs with
      | [] => [[c]]
      | line :: rest => (c :: line) :: rest

/-- Drops one `c` at the end, if the list ends in it. -/
def dropLast (c : Char) (cs : List Char) : List Char :=
  if cs.getLast? = some c then cs.dropLast else cs

/-- The lines without their breaks; a carriage return before a break goes too. -/
def lines (cs : List Char) : List (List Char) :=
  (pieces cs).map fun line =>
    if line.getLast? = some '\n' then dropLast '\r' line.dropLast else line

/-- Cuts at every `c`; the parts do not hold it, and there is always at least one. -/
def splitOn (c : Char) : List Char → List (List Char)
  | [] => [[]]
  | d :: ds =>
    if d = c then [] :: splitOn c ds
    else
      match splitOn c ds with
      | [] => [[d]]
      | part :: rest => (d :: part) :: rest

def join (sep : List Char) : List (List Char) → List Char
  | [] => []
  | [part] => part
  | part :: rest => part ++ sep ++ join sep rest

theorem flatten_pieces (cs : List Char) : (pieces cs).flatten = cs := by
  induction cs with
  | nil => rfl
  | cons c cs ih =>
    by_cases h : c = '\n'
    · simp [pieces, h, ih]
    · cases hp : pieces cs with
      | nil => simp [pieces, h, hp] at ih ⊢; exact ih
      | cons line rest => simp [pieces, h, hp] at ih ⊢; exact ih

theorem splitOn_ne_nil (c : Char) (cs : List Char) : splitOn c cs ≠ [] := by
  cases cs with
  | nil => simp [splitOn]
  | cons d ds =>
    simp only [splitOn]
    split
    · simp
    · split <;> simp

theorem join_splitOn (c : Char) (cs : List Char) : join [c] (splitOn c cs) = cs := by
  induction cs with
  | nil => rfl
  | cons d ds ih =>
    cases hs : splitOn c ds with
    | nil => exact absurd hs (splitOn_ne_nil c ds)
    | cons part rest =>
      rw [hs] at ih
      by_cases h : d = c
      · subst h
        simpa [splitOn, hs, join] using ih
      · cases rest <;> simpa [splitOn, h, hs, join] using ih

end AgentWorkbench.Text
