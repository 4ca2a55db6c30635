/-!
White space as Unicode's `White_Space` property has it, and trimming by it. The property leaves
out U+001C to U+001F, U+200B and U+FEFF.
-/
namespace AgentWorkbench.Text

def isBlank (c : Char) : Bool :=
  let n := c.toNat
  (0x09 ≤ n && n ≤ 0x0D) || n == 0x20 || n == 0x85 || n == 0xA0 || n == 0x1680 ||
    (0x2000 ≤ n && n ≤ 0x200A) || n == 0x2028 || n == 0x2029 || n == 0x202F || n == 0x205F ||
    n == 0x3000

def trimStart (cs : List Char) : List Char :=
  cs.dropWhile isBlank

/-- Drops the longest end of the list whose members all satisfy `p`. -/
def dropEndWhile (p : Char → Bool) (cs : List Char) : List Char :=
  (cs.reverse.dropWhile p).reverse

def trimEnd (cs : List Char) : List Char :=
  dropEndWhile isBlank cs

def trim (cs : List Char) : List Char :=
  trimEnd (trimStart cs)

def allBlank (cs : List Char) : Bool :=
  cs.all isBlank

def isBlankText (s : String) : Bool :=
  allBlank s.toList

/-- Upper-case letters of ASCII become lower case; every other character stays. -/
def lowerAscii (cs : List Char) : List Char :=
  cs.map Char.toLower

end AgentWorkbench.Text
