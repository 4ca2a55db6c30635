import AgentWorkbench.Json.Number

/-!
JSON texts of values: `compact` without blanks, `pretty` with one member or item on a line,
indented by two spaces. Characters beyond ASCII stand for themselves.
-/
namespace AgentWorkbench.Json

def hexDigit (n : Nat) : Char :=
  if n < 10 then Char.ofNat ('0'.toNat + n) else Char.ofNat ('a'.toNat + (n - 10))

/-- A character inside a string; control characters are escaped, the common ones by a letter. -/
def escapeChar (c : Char) : List Char :=
  if c = '"' then ['\\', '"']
  else if c = '\\' then ['\\', '\\']
  else if c = '\n' then ['\\', 'n']
  else if c = '\r' then ['\\', 'r']
  else if c = '\t' then ['\\', 't']
  else if c.toNat = 8 then ['\\', 'b']
  else if c.toNat = 12 then ['\\', 'f']
  else if c.toNat < 0x20 then
    ['\\', 'u', '0', '0', hexDigit (c.toNat / 16), hexDigit (c.toNat % 16)]
  else [c]

def quote (s : String) : List Char :=
  '"' :: s.toList.flatMap escapeChar ++ ['"']

mutual

def compactChars : Json → List Char
  | .null => "null".toList
  | .bool true => "true".toList
  | .bool false => "false".toList
  | .num n => n.toText
  | .str s => quote s
  | .arr items => '[' :: compactItems items ++ [']']
  | .obj members => '\x7b' :: compactMembers members ++ ['\x7d']

def compactItems : List Json → List Char
  | [] => []
  | item :: rest => item.compactChars ++ compactMoreItems rest

def compactMoreItems : List Json → List Char
  | [] => []
  | item :: rest => ',' :: item.compactChars ++ compactMoreItems rest

def compactMembers : List (String × Json) → List Char
  | [] => []
  | (key, value) :: rest => quote key ++ ':' :: value.compactChars ++ compactMoreMembers rest

def compactMoreMembers : List (String × Json) → List Char
  | [] => []
  | (key, value) :: rest =>
    ',' :: quote key ++ ':' :: value.compactChars ++ compactMoreMembers rest

end

def newline (depth : Nat) : List Char :=
  '\n' :: List.replicate (2 * depth) ' '

mutual

def prettyChars (depth : Nat) : Json → List Char
  | .null => "null".toList
  | .bool true => "true".toList
  | .bool false => "false".toList
  | .num n => n.toText
  | .str s => quote s
  | .arr [] => ['[', ']']
  | .arr (item :: rest) =>
    '[' :: newline (depth + 1) ++ item.prettyChars (depth + 1) ++
      prettyMoreItems (depth + 1) rest ++ newline depth ++ [']']
  | .obj [] => ['\x7b', '\x7d']
  | .obj ((key, value) :: rest) =>
    '\x7b' :: newline (depth + 1) ++ quote key ++ ": ".toList ++ value.prettyChars (depth + 1) ++
      prettyMoreMembers (depth + 1) rest ++ newline depth ++ ['\x7d']

def prettyMoreItems (depth : Nat) : List Json → List Char
  | [] => []
  | item :: rest => ',' :: newline depth ++ item.prettyChars depth ++ prettyMoreItems depth rest

def prettyMoreMembers (depth : Nat) : List (String × Json) → List Char
  | [] => []
  | (key, value) :: rest =>
    ',' :: newline depth ++ quote key ++ ": ".toList ++ value.prettyChars depth ++
      prettyMoreMembers depth rest

end

def compact (value : Json) : String := String.ofList value.compactChars

def pretty (value : Json) : String := String.ofList (value.prettyChars 0)

end AgentWorkbench.Json
