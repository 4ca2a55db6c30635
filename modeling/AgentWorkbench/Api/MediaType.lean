import AgentWorkbench.Text.Blank

/-!
Media types such as `application/json; charset=utf-8`: a type, a subtype with perhaps a suffix
after a plus sign, and parameters.
-/
namespace AgentWorkbench

structure MediaType where
  type : List Char
  /-- The subtype up to its last plus sign. -/
  subtype : List Char
  suffix : Option (List Char)
  deriving DecidableEq, Repr

namespace MediaType

def isToken (c : Char) : Bool :=
  (c.isAlphanum && c.toNat < 0x80) || "!#$%&'*+-.^_|~\x60".toList.contains c

def isQuotedChar (c : Char) : Bool := 31 < c.toNat && c.toNat ≠ 127

/-- The rest after a quoted value, at the next parameter; its first character is passed already. -/
def afterQuoted? : (isFirst : Bool) → List Char → Option (List Char)
  | _, [] => none
  | isFirst, c :: rest =>
    if c = '"' ∧ ¬ isFirst then
      match rest.dropWhile (· = ' ') with
      | [] => some []
      | ';' :: more => some more
      | _ => none
    else if isQuotedChar c then afterQuoted? false rest
    else none

def afterParameter? (cs : List Char) : Option (List Char) :=
  match cs.takeWhile isToken, cs.dropWhile isToken with
  | _ :: _, '=' :: '"' :: value => afterQuoted? true value
  | _ :: _, '=' :: value =>
    match value.takeWhile isToken, value.dropWhile isToken with
    | _, [] => some []
    | _ :: _, ';' :: more => some more
    | _, _ => none
  | _, _ => none

def areParameters : (fuel : Nat) → List Char → Bool
  | 0, _ => false
  | fuel + 1, cs =>
    match cs.dropWhile (· = ' ') with
    | [] => true
    | rest =>
      match afterParameter? rest with
      | some more => areParameters fuel more
      | none => false

/-- Cuts a subtype at its last plus sign that is not its first character. -/
def cutSuffix (subtype : List Char) : List Char × Option (List Char) :=
  let reversed := subtype.reverse
  let suffix := reversed.takeWhile (· ≠ '+')
  let before := (reversed.drop (suffix.length + 1)).reverse
  if before.isEmpty then (subtype, none) else (before, some suffix.reverse)

/-- The media type that a text stands for, without regard to case. -/
def parse? (text : String) : Option MediaType :=
  let cs := text.toList
  match cs.takeWhile isToken, cs.dropWhile isToken with
  | type@(_ :: _), '/' :: rest =>
    let subtype := rest.takeWhile isToken
    let wellFormed := match rest.dropWhile isToken with
      | [] => true
      | ';' :: parameters => !subtype.isEmpty && areParameters (parameters.length + 1) parameters
      | _ => false
    if wellFormed then
      let (before, suffix) := cutSuffix (Text.lowerAscii subtype)
      some { type := Text.lowerAscii type, subtype := before, suffix }
    else none
  | _, _ => none

def isJson (m : MediaType) : Bool :=
  m.type = "application".toList &&
    (m.subtype = "json".toList || m.suffix = some "json".toList)

end MediaType

end AgentWorkbench
