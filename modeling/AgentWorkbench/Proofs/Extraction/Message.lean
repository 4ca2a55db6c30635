import AgentWorkbench.Proofs.Extraction.Body
import AgentWorkbench.Proofs.Python.Formatted

/-!
A handler that sends a message. One of its lines makes the call that sends it, as a statement, as
the result or as a value; the message is literals one after the other. The tokens of the handler
are those of its lines in an indented block.
-/
namespace AgentWorkbench.Extraction

open Python Python.Lexer Text

/-- What stands before the call in its line. -/
inductive Usage where
  | statement
  | result
  | value (target : Identifier)

namespace Usage

def text : Usage → List Char
  | statement => []
  | result => "return ".toList
  | value target => target.chars ++ " = ".toList

def kinds : Usage → List TokenKind
  | statement => []
  | result => [.keyword "return"]
  | value target => [.name target.name, .op "="]

end Usage

/-- A handler of which one line sends a message, and no line above it makes an invocation. -/
structure Sender where
  name : Identifier
  parameter : Identifier
  indent : Indent
  above : List BodyLine
  silent : ∀ line ∈ above, line.Silent
  usage : Usage
  message : Literals
  below : List BodyLine

namespace Sender

variable (sender : Sender)

/-- The prompt that the handler sends. -/
def prompt : String := .ofList (sender.message.parts.flatMap Part.shown)

def callText : List Char :=
  "llm.invoke([HumanMessage(content=".toList ++ sender.message.written ++ ")])".toList

def callKinds : List TokenKind :=
  [.name "llm", .op ".", .name "invoke", .op "(", .op "[", .name "HumanMessage", .op "(",
    .name "content", .op "="] ++ sender.message.kinds ++ [.op ")", .op "]", .op ")"]

/-- The lines of the body, each with the kinds of its tokens. -/
def lines : List (List Char × List TokenKind) :=
  sender.above.map BodyLine.pair ++
    (sender.usage.text ++ sender.callText, sender.usage.kinds ++ sender.callKinds) ::
      sender.below.map BodyLine.pair

def text : List Char :=
  "def ".toList ++ sender.name.chars ++ '(' :: sender.parameter.chars ++ "):\n".toList ++
    blockText sender.indent sender.lines

def headKinds : List TokenKind :=
  [.keyword "def", .name sender.name.name, .op "(", .name sender.parameter.name, .op ")", .op ":",
    .newline]

def kinds : List TokenKind := sender.headKinds ++ .indent :: blockKinds sender.lines

end Sender

/-! Lexing. -/

section Line

variable (sender : Sender) (rest : List Char)

theorem passes_head : Passes {} ("def ".toList ++ (sender.name.chars ++
    '(' :: (sender.parameter.chars ++ ("):\n".toList ++ rest)))) sender.headKinds atBlock rest := by
  let s₁ := within [0] 1 [.bracket ')'] [.op "(", .name sender.name.name]
  let s₂ := remember s₁ (.name sender.parameter.name)
  let s₃ := within [0] 1 [] [.op ")", .name sender.parameter.name]
  let s₄ := within [0] 1 [] [.op ":", .op ")"]
  have parameter : Steps s₁ (sender.parameter.chars ++ ("):\n".toList ++ rest))
      [.name sender.parameter.name] s₂ ("):\n".toList ++ rest) :=
    steps_word (fun _ _ => rfl) (fun _ => rfl) sender.parameter (by constructor <;> decide) _
  have closed : Steps s₂ ("):\n".toList ++ rest) [.op ")"] s₃ (":\n".toList ++ rest) :=
    steps_close ..
  have colon : Steps s₃ (":\n".toList ++ rest) [.op ":"] s₄ ("\n".toList ++ rest) :=
    ⟨by simp, fun pos => ⟨_, rfl, rfl, rfl, rfl⟩⟩
  have ended : Steps s₄ ("\n".toList ++ rest) [.newline] atBlock rest :=
    ⟨by simp, fun pos => ⟨_, rfl, rfl, rfl, rfl⟩⟩
  exact (passes_def sender.name _).trans (parameter.passes.trans (closed.passes.trans
    (colon.passes.trans ended.passes)))

/-- Before the literals of the message. -/
def inCall (width column : Nat) : LexState :=
  within [width, 0] column [.bracket ')', .bracket ']', .bracket ')'] [.op "=", .name "content"]

theorem passes_toMessage (width column : Nat) (last : List TokenKind) {c : Char}
    (opens : c = 'f' ∨ c = '"') (more : List Char) :
    let cs := c :: more
    Passes (inBlock width column last) (".invoke([HumanMessage(content=".toList ++ cs)
      [.op ".", .name "invoke", .op "(", .op "[", .name "HumanMessage", .op "(", .name "content",
        .op "="] (inCall width column) cs := by
  intro cs
  let inside := within [width, 0] column
  have dot : Steps (inBlock width column last) (".invoke([HumanMessage(content=".toList ++ cs)
      [.op "."] (inside [] (.op "." :: last.take 1))
      ("invoke([HumanMessage(content=".toList ++ cs) :=
    ⟨by simp, fun pos => ⟨_, rfl, rfl, rfl, rfl⟩⟩
  have invoke : Steps (inside [] (.op "." :: last.take 1))
      ("invoke([HumanMessage(content=".toList ++ cs) [.name "invoke"]
      (inside [] [.name "invoke", .op "."]) ("([HumanMessage(content=".toList ++ cs) :=
    ⟨by simp, fun pos => ⟨_, rfl, rfl, rfl, rfl⟩⟩
  have open₁ : Steps (inside [] [.name "invoke", .op "."]) ("([HumanMessage(content=".toList ++ cs)
      [.op "("] (inside [.bracket ')'] [.op "(", .name "invoke"])
      ("[HumanMessage(content=".toList ++ cs) :=
    ⟨by simp, fun pos => ⟨_, rfl, rfl, rfl, rfl⟩⟩
  have open₂ : Steps (inside [.bracket ')'] [.op "(", .name "invoke"])
      ("[HumanMessage(content=".toList ++ cs) [.op "["]
      (inside [.bracket ']', .bracket ')'] [.op "[", .op "("])
      ("HumanMessage(content=".toList ++ cs) :=
    ⟨by simp, fun pos => ⟨_, rfl, rfl, rfl, rfl⟩⟩
  have message : Steps (inside [.bracket ']', .bracket ')'] [.op "[", .op "("])
      ("HumanMessage(content=".toList ++ cs) [.name "HumanMessage"]
      (inside [.bracket ']', .bracket ')'] [.name "HumanMessage", .op "["])
      ("(content=".toList ++ cs) :=
    ⟨by simp, fun pos => ⟨_, rfl, rfl, rfl, rfl⟩⟩
  have open₃ : Steps (inside [.bracket ']', .bracket ')'] [.name "HumanMessage", .op "["])
      ("(content=".toList ++ cs) [.op "("]
      (inside [.bracket ')', .bracket ']', .bracket ')'] [.op "(", .name "HumanMessage"])
      ("content=".toList ++ cs) :=
    ⟨by simp, fun pos => ⟨_, rfl, rfl, rfl, rfl⟩⟩
  have content : Steps
      (inside [.bracket ')', .bracket ']', .bracket ')'] [.op "(", .name "HumanMessage"])
      ("content=".toList ++ cs) [.name "content"]
      (inside [.bracket ')', .bracket ']', .bracket ')'] [.name "content", .op "("])
      ("=".toList ++ cs) :=
    ⟨by simp, fun pos => ⟨_, rfl, rfl, rfl, rfl⟩⟩
  have equals : Steps
      (inside [.bracket ')', .bracket ']', .bracket ')'] [.name "content", .op "("])
      ("=".toList ++ cs) [.op "="] (inCall width column) cs := by
    obtain rfl | rfl := opens <;> exact ⟨by simp, fun pos => ⟨_, rfl, rfl, rfl, rfl⟩⟩
  exact dot.passes.trans (invoke.passes.trans (open₁.passes.trans (open₂.passes.trans
    (message.passes.trans (open₃.passes.trans (content.passes.trans equals.passes))))))

theorem passes_fromMessage (width column : Nat) (last : List TokenKind) :
    Passes (within [width, 0] column [.bracket ')', .bracket ']', .bracket ')'] last)
      (")])\n".toList ++ rest) [.op ")", .op "]", .op ")"]
      (inBlock width column [.op ")", .op "]"]) ('\n' :: rest) := by
  let inside := within [width, 0] column
  have close₁ : Steps (inside [.bracket ')', .bracket ']', .bracket ')'] last)
      (")])\n".toList ++ rest) [.op ")"]
      (inside [.bracket ']', .bracket ')'] (.op ")" :: last.take 1)) ("])\n".toList ++ rest) :=
    ⟨by simp, fun pos => ⟨_, rfl, rfl, rfl, rfl⟩⟩
  have close₂ : Steps (inside [.bracket ']', .bracket ')'] (.op ")" :: last.take 1))
      ("])\n".toList ++ rest) [.op "]"] (inside [.bracket ')'] [.op "]", .op ")"])
      (")\n".toList ++ rest) :=
    ⟨by simp, fun pos => ⟨_, rfl, rfl, rfl, rfl⟩⟩
  have close₃ : Steps (inside [.bracket ')'] [.op "]", .op ")"]) (")\n".toList ++ rest) [.op ")"]
      (inside [] [.op ")", .op "]"]) ("\n".toList ++ rest) :=
    ⟨by simp, fun pos => ⟨_, rfl, rfl, rfl, rfl⟩⟩
  exact close₁.passes.trans (close₂.passes.trans close₃.passes)

/-- Behind the client's name the call is passed to the end of its line. -/
theorem passes_call (width column : Nat) (last : List TokenKind) : ∃ column' last',
    Passes (inBlock width column last) ('.' :: ("invoke([HumanMessage(content=".toList ++
        (sender.message.written ++ (")])\n".toList ++ rest))))
      sender.callKinds.tail (inBlock width column' last') ('\n' :: rest) := by
  obtain ⟨c, more, opens, written⟩ : ∃ c more, (c = 'f' ∨ c = '"') ∧
      sender.message.written ++ (")])\n".toList ++ rest) = c :: more := by
    rw [Literals.written, Piece.written]
    cases sender.message.first with
    | formatted parts => exact ⟨'f', _, .inl rfl, rfl⟩
    | plain texts => exact ⟨'"', _, .inr rfl, rfl⟩
  have before := passes_toMessage width column last opens more
  rw [← written] at before
  obtain ⟨column', last', message⟩ := passes_literals [width, 0] ')' [.bracket ']', .bracket ')']
    sender.message column [.op "=", .name "content"] (show ')' ≠ '"' by decide)
    ("])\n".toList ++ rest)
  have passed := before.trans (message.trans (passes_fromMessage rest width column' last'))
  exact ⟨column', _, by simpa [Sender.callKinds] using passed⟩

theorem passes_usage (usage : Usage) (width : Nat) (last : List TokenKind) (cs : List Char) :
    ∃ column last', Passes (inBlock width width last) (usage.text ++ ("llm".toList ++ '.' :: cs))
      (usage.kinds ++ [.name "llm"]) (inBlock width column last') ('.' :: cs) := by
  let behind (column : Nat) (last : List TokenKind) := inBlock width (width + column) last
  cases usage with
  | statement =>
      have client : Steps (behind 0 last) ("llm".toList ++ '.' :: cs) [.name "llm"]
          (behind 0 (.name "llm" :: last.take 1)) ('.' :: cs) :=
        ⟨by simp, fun pos => ⟨_, rfl, rfl, rfl, rfl⟩⟩
      exact ⟨_, _, client.passes⟩
  | result =>
      have first : Steps (behind 0 last) ("return llm".toList ++ '.' :: cs) [.keyword "return"]
          (behind 0 (.keyword "return" :: last.take 1)) (" llm".toList ++ '.' :: cs) :=
        ⟨by simp, fun pos => ⟨_, rfl, rfl, rfl, rfl⟩⟩
      have blank : Steps (behind 0 (.keyword "return" :: last.take 1)) (" llm".toList ++ '.' :: cs)
          [] (behind 1 (.keyword "return" :: last.take 1)) ("llm".toList ++ '.' :: cs) :=
        ⟨by simp, fun pos => ⟨_, rfl, rfl, rfl, rfl⟩⟩
      have client : Steps (behind 1 (.keyword "return" :: last.take 1))
          ("llm".toList ++ '.' :: cs) [.name "llm"] (behind 1 [.name "llm", .keyword "return"])
          ('.' :: cs) :=
        ⟨by simp, fun pos => ⟨_, rfl, rfl, rfl, rfl⟩⟩
      exact ⟨_, _, first.passes.trans (blank.passes.trans client.passes)⟩
  | value target =>
      let name := TokenKind.name target.name
      have first : Steps (behind 0 last) (target.chars ++ (" = llm".toList ++ '.' :: cs)) [name]
          (behind 0 (name :: last.take 1)) (" = llm".toList ++ '.' :: cs) :=
        steps_word (fun _ _ => rfl) (fun _ => rfl) target (by constructor <;> decide) _
      have blank : Steps (behind 0 (name :: last.take 1)) (" = llm".toList ++ '.' :: cs) []
          (behind 1 (name :: last.take 1)) ("= llm".toList ++ '.' :: cs) :=
        ⟨by simp, fun pos => ⟨_, rfl, rfl, rfl, rfl⟩⟩
      have equals : Steps (behind 1 (name :: last.take 1)) ("= llm".toList ++ '.' :: cs)
          [.op "="] (behind 1 [.op "=", name]) (" llm".toList ++ '.' :: cs) :=
        ⟨by simp, fun pos => ⟨_, rfl, rfl, rfl, rfl⟩⟩
      have blank' : Steps (behind 1 [.op "=", name]) (" llm".toList ++ '.' :: cs) []
          (behind 2 [.op "=", name]) ("llm".toList ++ '.' :: cs) :=
        ⟨by simp, fun pos => ⟨_, rfl, rfl, rfl, rfl⟩⟩
      have client : Steps (behind 2 [.op "=", name]) ("llm".toList ++ '.' :: cs)
          [.name "llm"] (behind 2 [.name "llm", .op "="]) ('.' :: cs) :=
        ⟨by simp, fun pos => ⟨_, rfl, rfl, rfl, rfl⟩⟩
      have text : (Usage.value target).text ++ ("llm".toList ++ '.' :: cs) =
          target.chars ++ (" = llm".toList ++ '.' :: cs) := List.append_assoc ..
      rw [text]
      exact ⟨_, _, first.passes.trans (blank.passes.trans (equals.passes.trans
        (blank'.passes.trans client.passes)))⟩

theorem inLine_message :
    InLine (sender.usage.text ++ sender.callText) (sender.usage.kinds ++ sender.callKinds) where
  starts := by
    cases sender.usage with
    | statement => exact ⟨'l', _, rfl, by decide⟩
    | result => exact ⟨'r', _, rfl, by decide⟩
    | value target =>
        refine ⟨target.first, _, rfl, fun mem => absurd target.starts ?_⟩
        simp [isIdentStart_passedOver target.first mem]
  passes width last rest := by
    obtain ⟨column₁, last₁, usage⟩ := passes_usage sender.usage width last
      ("invoke([HumanMessage(content=".toList ++
        (sender.message.written ++ (")])\n".toList ++ rest)))
    obtain ⟨column₂, last₂, call⟩ := passes_call sender rest width column₁ last₁
    refine ⟨column₂, last₂, ?_⟩
    have text : sender.usage.text ++ sender.callText ++ '\n' :: rest = sender.usage.text ++
        ("llm".toList ++ '.' :: ("invoke([HumanMessage(content=".toList ++
          (sender.message.written ++ (")])\n".toList ++ rest)))) := by
      unfold Sender.callText
      simp
    have kinds : sender.usage.kinds ++ sender.callKinds =
        sender.usage.kinds ++ [.name "llm"] ++ sender.callKinds.tail := by
      simp [Sender.callKinds]
    rw [text, kinds]
    exact usage.trans call

theorem inLine_lines : ∀ line ∈ sender.lines, InLine line.1 line.2 := by
  have other (lines : List BodyLine) : ∀ line ∈ lines.map BodyLine.pair, InLine line.1 line.2 := by
    intro line mem
    obtain ⟨line, -, rfl⟩ := List.mem_map.mp mem
    exact line.inLine
  exact List.forall_mem_append.mpr ⟨other sender.above,
    List.forall_mem_cons.mpr ⟨inLine_message sender, other sender.below⟩⟩

theorem passes_sender : ∃ last, Passes {} (sender.text ++ rest) sender.kinds
    (lineStart sender.indent.width last) rest := by
  have good := inLine_lines sender
  obtain ⟨first, lines, split⟩ : ∃ first lines, sender.lines = first :: lines :=
    List.exists_cons_of_ne_nil (by simp [Sender.lines])
  rw [split] at good
  obtain ⟨here, later⟩ := List.forall_mem_cons.mp good
  obtain ⟨last, block⟩ := passes_block sender.indent here later rest
  have text : sender.text ++ rest = "def ".toList ++ (sender.name.chars ++ '(' ::
      (sender.parameter.chars ++ ("):\n".toList ++
        (blockText sender.indent sender.lines ++ rest)))) := by
    unfold Sender.text
    simp
  rw [text, Sender.kinds, split]
  exact ⟨last, (passes_head sender _).trans block⟩

end Line

/-- At the end of the handler its line is over, and its block is open still. -/
theorem stands_sender (sender : Sender) : ∃ ts last,
    Stands sender.text ts (lineStart sender.indent.width last) ∧
      ts.map (·.kind) = sender.kinds := by
  obtain ⟨last, passed⟩ := passes_sender sender []
  rw [List.append_nil] at passed
  obtain ⟨ts, reads, kinds⟩ := passed.reads 0
  have head : WholeLines ("def ".toList ++ sender.name.chars ++ '(' :: sender.parameter.chars ++
      "):\n".toList) := by
    rw [show "):\n".toList = "):".toList ++ ['\n'] from rfl, ← List.append_assoc]
    exact .append_break _
  have ends : WholeLines sender.text := head.append (wholeLines_blockText _ _)
  exact ⟨ts, last, ⟨reads, ⟨rfl, rfl, rfl⟩, ends⟩, kinds⟩

end AgentWorkbench.Extraction
