import AgentWorkbench.Extraction.Pipeline
import AgentWorkbench.Proofs.Python.Passes
import Mathlib.Algebra.Ring.Nat

/-!
The plain way to write a builder: a function whose lines register nodes and edges, with every id
written as a literal. Its tokens are those of its lines in an indented block.
-/
namespace AgentWorkbench.Extraction

open Python Python.Lexer

/-- A line that registers a node for the handler `h`, or an edge. -/
inductive BuilderLine where
  | node (id : String)
  | edge (source target : String)
  deriving DecidableEq, Repr

namespace BuilderLine

def registration : BuilderLine → Registration
  | node _ => .node
  | edge _ _ => .edge

def first : BuilderLine → String
  | node id => id
  | edge source _ => source

def secondText : BuilderLine → List Char
  | node _ => ['h']
  | edge _ target => quoted target

def secondKind : BuilderLine → TokenKind
  | node _ => .name "h"
  | edge _ target => .string {} (escaped target.toList)

def text (line : BuilderLine) : List Char :=
  "g.".toList ++ line.registration.method.toList ++ "(".toList ++ quoted line.first ++
    ", ".toList ++ line.secondText ++ ")".toList

def kinds (line : BuilderLine) : List TokenKind :=
  [.name "g", .op ".", .name line.registration.method, .op "(",
    .string {} (escaped line.first.toList), .op ",", line.secondKind, .op ")", .newline]

end BuilderLine

/-- The blanks before each line of a block. -/
structure Indent where
  blanks : List Char
  blank : ∀ c ∈ blanks, c = ' ' ∨ c = '\t'
  nonempty : blanks ≠ []

/-- How many columns a blank takes. -/
def blankWidth (c : Char) : Nat := if c = '\t' then 8 else 1

namespace Indent

def width (indent : Indent) : Nat := (indent.blanks.map blankWidth).sum

theorem width_pos (indent : Indent) : 0 < indent.width := by
  obtain ⟨_ | ⟨c, rest⟩, blank, nonempty⟩ := indent
  · exact absurd rfl nonempty
  · have first : 0 < blankWidth c := by
      rw [blankWidth]
      split <;> decide
    rw [width, List.map_cons, List.sum_cons]
    omega

end Indent

def bodyText (indent : Indent) (lines : List BuilderLine) : List Char :=
  lines.flatMap fun line => indent.blanks ++ line.text ++ ['\n']

def builderSource (indent : Indent) (lines : List BuilderLine) : String :=
  String.ofList ("def create_agent():\n".toList ++ bodyText indent lines)

/-! Lexing. -/

/-- At the start of a line of a block whose lines start in this column. -/
def atLine (width : Nat) : LexState :=
  { blocks := [width, 0], last := [.newline, .op ")"] }

/-- At the start of the block's first line. -/
def atBlock : LexState := { last := [.newline, .op ":"] }

/-- Behind the name with which a line starts. -/
def inLine (width : Nat) : LexState where
  blocks := [width, 0]
  column := width
  lineOpen := true
  last := [.name "g", .newline]

theorem steps_quoted (blocks : List Nat) (column : Nat) (last : List TokenKind) (text : String)
    {c : Char} (h : c ≠ '"') (rest : List Char) :
    let s : LexState := { contexts := [.bracket ')'], blocks, column, lineOpen := true, last }
    Steps s (quoted text ++ c :: rest) [.string {} (escaped text.toList)]
      (remember s (.string {} (escaped text.toList))) (c :: rest) := by
  intro s
  have front : quoted text ++ c :: rest = '"' :: (escaped text.toList ++ '"' :: c :: rest) := by
    simp [quoted]
  rw [front]
  exact steps_literal blocks column last ')' [] text.toList (c :: rest) fun _ =>
    unquoted_cons h rest

theorem passes_blanks {s : LexState} (contexts : s.contexts = []) {blanks : List Char}
    (h : ∀ c ∈ blanks, c = ' ' ∨ c = '\t') (rest : List Char) :
    Passes s (blanks ++ rest) [] { s with column := s.column + (blanks.map blankWidth).sum }
      rest := by
  induction blanks generalizing s with
  | nil => exact .done
  | cons c blanks ih =>
      obtain ⟨here, later⟩ := List.forall_mem_cons.mp h
      have first : Steps s (c :: (blanks ++ rest)) [] { s with column := s.column + blankWidth c }
          (blanks ++ rest) := by
        obtain ⟨_, blocks, column, lineOpen, last⟩ := s
        obtain rfl := contexts
        obtain rfl | rfl := here <;> exact ⟨by simp, fun pos => ⟨_, rfl, rfl, rfl, rfl⟩⟩
      have passed := first.passes.trans
        (ih (s := { s with column := s.column + blankWidth c }) contexts later)
      rw [Nat.add_assoc] at passed
      rwa [List.map_cons, List.sum_cons]

theorem steps_second (line : BuilderLine) (blocks : List Nat) (column : Nat)
    (last : List TokenKind) (rest : List Char) :
    let s : LexState := { contexts := [.bracket ')'], blocks, column, lineOpen := true, last }
    Steps s (line.secondText ++ ')' :: rest) [line.secondKind] (remember s line.secondKind)
      (')' :: rest) := by
  cases line with
  | node id => exact ⟨by simp [BuilderLine.secondText], fun pos => ⟨_, rfl, rfl, rfl, rfl⟩⟩
  | edge source target => exact steps_quoted blocks column last target (by decide) rest

section Line

variable (width : Nat)

theorem steps_dot (registration : Registration) (rest : List Char) :
    Steps (inLine width) ('.' :: (registration.method.toList ++ rest)) [.op "."]
      (remember (inLine width) (.op ".")) (registration.method.toList ++ rest) := by
  cases registration with
  | node => exact ⟨by simp, fun pos => ⟨_, rfl, rfl, rfl, rfl⟩⟩
  | edge => exact ⟨by simp, fun pos => ⟨_, rfl, rfl, rfl, rfl⟩⟩

theorem steps_method (registration : Registration) (rest : List Char) :
    let s := remember (inLine width) (.op ".")
    Steps s (registration.method.toList ++ '(' :: rest) [.name registration.method]
      (remember s (.name registration.method)) ('(' :: rest) := by
  cases registration with
  | node => exact ⟨by simp [Registration.method], fun pos => ⟨_, rfl, rfl, rfl, rfl⟩⟩
  | edge => exact ⟨by simp [Registration.method], fun pos => ⟨_, rfl, rfl, rfl, rfl⟩⟩

/-- Behind its first name a line is passed to the next one. -/
theorem passes_inLine (line : BuilderLine) (rest : List Char) :
    Passes (inLine width)
      ('.' :: (line.registration.method.toList ++ '(' :: (quoted line.first ++
        ',' :: ' ' :: (line.secondText ++ ')' :: '\n' :: rest))))
      line.kinds.tail (atLine width) rest := by
  let s₁ := remember (inLine width) (.op ".")
  let s₂ := remember s₁ (.name line.registration.method)
  let s₃ := remember { s₂ with contexts := [.bracket ')'] } (.op "(")
  let s₄ := remember s₃ (.string {} (escaped line.first.toList))
  let s₅ := remember s₄ (.op ",")
  let s₆ : LexState := { s₅ with column := s₅.column + 1 }
  let s₇ := remember s₆ line.secondKind
  let s₈ := remember { s₇ with contexts := [] } (.op ")")
  have opened (cs : List Char) : Steps s₂ ('(' :: cs) [.op "("] s₃ cs :=
    ⟨by simp, fun pos => ⟨_, rfl, rfl, rfl, rfl⟩⟩
  have comma (cs : List Char) : Steps s₄ (',' :: cs) [.op ","] s₅ cs :=
    ⟨by simp, fun pos => ⟨_, rfl, rfl, rfl, rfl⟩⟩
  have blank (cs : List Char) : Steps s₅ (' ' :: cs) [] s₆ cs :=
    ⟨by simp, fun pos => ⟨_, rfl, rfl, rfl, rfl⟩⟩
  have closed (cs : List Char) : Steps s₇ (')' :: '\n' :: cs) [.op ")"] s₈ ('\n' :: cs) :=
    ⟨by simp, fun pos => ⟨_, rfl, rfl, rfl, rfl⟩⟩
  have ended : Steps s₈ ('\n' :: rest) [.newline] (atLine width) rest :=
    ⟨by simp, fun pos => ⟨_, rfl, rfl, rfl, rfl⟩⟩
  have arguments := (steps_quoted s₃.blocks s₃.column s₃.last line.first (by decide) _).passes.trans
    ((comma _).passes.trans ((blank _).passes.trans
      (steps_second line s₆.blocks s₆.column s₆.last ('\n' :: rest)).passes))
  exact (steps_dot width line.registration _).passes.trans
    ((steps_method width line.registration _).passes.trans
      ((opened _).passes.trans (arguments.trans ((closed rest).passes.trans ended.passes))))

/-- The first name of a line, behind the tokens that open the line. -/
theorem steps_opening {s : LexState} {before : List TokenKind} {opening : List TokenKind}
    (start : s = { blocks := s.blocks, column := s.column, last := .newline :: before })
    (opens : ∀ pos, ∃ ts, openLine s pos = (ts, { inLine width with last := s.last }) ∧
      ts.map (·.kind) = opening) (rest : List Char) :
    Steps s ('g' :: '.' :: rest) (opening ++ [.name "g"]) (inLine width) ('.' :: rest) := by
  refine ⟨by simp, fun pos => ?_⟩
  obtain ⟨ts, opened, rfl⟩ := opens pos
  refine ⟨⟨ts ++ [⟨.name "g", pos, pos + 1⟩], inLine width, 1, '.' :: rest⟩, ?_, by simp, rfl,
    rfl⟩
  have code : step s pos ('g' :: '.' :: rest) =
      (token? (openLine s pos).2 pos ('g' :: '.' :: rest)).bind fun lexed =>
        some { lexed with tokens := (openLine s pos).1 ++ lexed.tokens } := by
    rw [start]
    rfl
  rw [code, opened, start]
  rfl

end Line

section Block

variable (indent : Indent)

/-- A line is passed to the next one, with the tokens before it that open the line. -/
theorem passes_text {s : LexState} {before : List TokenKind} {opening : List TokenKind}
    (start : s = { blocks := s.blocks, last := .newline :: before })
    (opens : ∀ pos, ∃ ts, openLine { s with column := indent.width } pos =
      (ts, { inLine indent.width with last := s.last }) ∧ ts.map (·.kind) = opening)
    (line : BuilderLine) (rest : List Char) :
    Passes s (indent.blanks ++ line.text ++ '\n' :: rest)
      (opening ++ line.kinds) (atLine indent.width) rest := by
  have blanks (cs : List Char) : Passes s (indent.blanks ++ cs) []
      { s with column := indent.width } cs := by
    have passed := passes_blanks (s := s) (by rw [start]) indent.blank cs
    rwa [show s.column = 0 by rw [start], Nat.zero_add] at passed
  have opened (cs : List Char) : Passes { s with column := indent.width } ('g' :: '.' :: cs)
      (opening ++ [.name "g"]) (inLine indent.width) ('.' :: cs) :=
    (steps_opening indent.width (by rw [start]) opens cs).passes
  have passed := (blanks _).trans ((opened _).trans (passes_inLine indent.width line rest))
  simpa [BuilderLine.text, BuilderLine.kinds] using passed

theorem passes_line (line : BuilderLine) (rest : List Char) :
    Passes (atLine indent.width)
      (indent.blanks ++ line.text ++ '\n' :: rest) line.kinds
      (atLine indent.width) rest :=
  passes_text indent rfl
    (fun pos => ⟨[], by simp [openLine, atLine, inLine, closeBlocks], rfl⟩) line rest

theorem passes_firstLine (line : BuilderLine) (rest : List Char) :
    Passes atBlock
      (indent.blanks ++ line.text ++ '\n' :: rest) (.indent :: line.kinds)
      (atLine indent.width) rest := by
  have opens (pos : Nat) : ∃ ts, openLine { atBlock with column := indent.width } pos =
      (ts, { inLine indent.width with last := atBlock.last }) ∧ ts.map (·.kind) = [.indent] :=
    ⟨[⟨.indent, pos, pos⟩], by simp [openLine, atBlock, inLine, indent.width_pos], rfl⟩
  exact passes_text indent rfl opens line rest

theorem passes_lines (lines : List BuilderLine) :
    Passes (atLine indent.width) (bodyText indent lines) (lines.flatMap (·.kinds))
      (atLine indent.width) [] := by
  induction lines with
  | nil => exact .done
  | cons line rest ih =>
      have passed := (passes_line indent line (bodyText indent rest)).trans ih
      simpa [bodyText] using passed

/-- The tokens of a builder's first line. -/
def headerKinds : List TokenKind :=
  [.keyword "def", .name "create_agent", .op "(", .op ")", .op ":", .newline]

theorem passes_header (rest : List Char) :
    Passes {} ("def create_agent():\n".toList ++ rest) headerKinds atBlock rest := by
  let s₁ : LexState := { lineOpen := true, last := [.keyword "def"] }
  let s₂ : LexState := { s₁ with column := 1 }
  let s₃ := remember s₂ (.name "create_agent")
  let s₄ := remember { s₃ with contexts := [.bracket ')'] } (.op "(")
  let s₅ := remember { s₄ with contexts := [] } (.op ")")
  let s₆ := remember s₅ (.op ":")
  have keyword : Steps {} ("def create_agent():\n".toList ++ rest) [.keyword "def"] s₁
      (" create_agent():\n".toList ++ rest) := ⟨by simp, fun pos => ⟨_, rfl, rfl, rfl, rfl⟩⟩
  have blank : Steps s₁ (" create_agent():\n".toList ++ rest) [] s₂
      ("create_agent():\n".toList ++ rest) := ⟨by simp, fun pos => ⟨_, rfl, rfl, rfl, rfl⟩⟩
  have name : Steps s₂ ("create_agent():\n".toList ++ rest) [.name "create_agent"] s₃
      ("():\n".toList ++ rest) := ⟨by simp, fun pos => ⟨_, rfl, rfl, rfl, rfl⟩⟩
  have opened : Steps s₃ ("():\n".toList ++ rest) [.op "("] s₄ ("):\n".toList ++ rest) :=
    ⟨by simp, fun pos => ⟨_, rfl, rfl, rfl, rfl⟩⟩
  have closed : Steps s₄ ("):\n".toList ++ rest) [.op ")"] s₅ (":\n".toList ++ rest) :=
    ⟨by simp, fun pos => ⟨_, rfl, rfl, rfl, rfl⟩⟩
  have colon : Steps s₅ (":\n".toList ++ rest) [.op ":"] s₆ ("\n".toList ++ rest) :=
    ⟨by simp, fun pos => ⟨_, rfl, rfl, rfl, rfl⟩⟩
  have ended : Steps s₆ ("\n".toList ++ rest) [.newline] atBlock rest :=
    ⟨by simp, fun pos => ⟨_, rfl, rfl, rfl, rfl⟩⟩
  exact keyword.passes.trans (blank.passes.trans (name.passes.trans (opened.passes.trans
    (closed.passes.trans (colon.passes.trans ended.passes)))))

/-- The tokens of a builder. -/
def builderKinds (lines : List BuilderLine) : List TokenKind :=
  headerKinds ++ .indent :: lines.flatMap (·.kinds) ++ [.dedent]

theorem tokenize_builderSource (first : BuilderLine) (rest : List BuilderLine) :
    ∃ ts, tokenize (builderSource indent (first :: rest)).toList = some ts ∧
      ts.map (·.kind) = builderKinds (first :: rest) := by
  have block : Passes atBlock (bodyText indent (first :: rest))
      (.indent :: (first :: rest).flatMap (·.kinds)) (atLine indent.width) [] := by
    have passed := (passes_firstLine indent first (bodyText indent rest)).trans
      (passes_lines indent rest)
    simpa [bodyText] using passed
  have source : (builderSource indent (first :: rest)).toList =
      "def create_agent():\n".toList ++ bodyText indent (first :: rest) :=
    String.toList_ofList
  rw [source]
  have whole := (passes_header (bodyText indent (first :: rest))).trans block
  have ends (pos : Nat) : ∃ ts, closing (atLine indent.width) pos = some ts ∧
      ts.map (·.kind) = [.dedent] :=
    ⟨[⟨.dedent, pos, pos⟩], by simp [closing, atLine, closeBlocks, indent.width_pos], rfl⟩
  exact whole.tokenize ends

end Block

end AgentWorkbench.Extraction
