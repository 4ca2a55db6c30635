import AgentWorkbench.Proofs.Extraction.Builder
import AgentWorkbench.Proofs.Instrument.Guard
import AgentWorkbench.Proofs.Python.BareLines
import AgentWorkbench.Proofs.Python.Lexemes
import AgentWorkbench.Proofs.Python.Suites

/-!
Guards over indented blocks, and how they are read. The block has the tokens that it would have
elsewhere, behind those of the guard; lines of code that are put above the block, in its column,
only add their own.
-/
namespace AgentWorkbench.Instrument

open Text Python Lexer Grammar Extraction

/-- A guard at the margin over an indented block. A comment may stand behind its colon, and lines
without tokens above the block. -/
structure GuardedBlock where
  gap₁ : List Char
  gap₂ : List Char
  gap₃ : List Char
  gap₄ : List Char
  spaced : ∀ gap ∈ [gap₁, gap₂, gap₃, gap₄], ∀ c ∈ gap, c ∈ spaces
  apart : gap₁ ≠ []
  quote : Char
  isQuote : IsQuote quote
  remark : BareLine
  bare : List BareLine
  indent : Indent
  first : Char
  rest : List Char
  token : first ∉ passedOver
  solid : isBlank first = false

namespace GuardedBlock

variable (g : GuardedBlock)

/-- The guard up to its colon. -/
def words : List Char :=
  "if".toList ++ (g.gap₁ ++ ("__name__".toList ++ (g.gap₂ ++ ("==".toList ++ (g.gap₃ ++
    (g.quote :: ("__main__".toList ++ (g.quote :: (g.gap₄ ++ ":".toList)))))))))

def header : List Char := g.words ++ g.remark.text

/-- What stands between the line of the guard and the first token of the block. -/
def lead : List Char := g.bare.flatMap (·.text ++ ['\n']) ++ g.indent.blanks

/-- The block from its first token on, and what stands below it. -/
def body : List Char := g.first :: g.rest

def text : List Char := g.header ++ '\n' :: (g.lead ++ g.body)

/-- How far into the text the block starts. -/
def offset : Nat := g.header.length + 1 + g.lead.length

end GuardedBlock

/-! The line of the guard. -/

/-- The name that a module has for itself. -/
def moduleName : Identifier where
  first := '_'
  more := "_name__".toList
  starts := by decide
  goesOn := List.all_eq_true.mp (by decide)
  free := by decide

theorem endsWord_space {c : Char} (h : c ∈ '=' :: spaces) : EndsWord c := by
  have ends : ∀ c ∈ '=' :: spaces, isIdentRest c = false ∧ Lexer.isPrefixLetter c = false ∧
      StringPrefix.isQuote c = false := List.all_iff_forall_prop.mp (by decide)
  obtain ⟨word, letter, quote⟩ := ends c h
  exact ⟨word, letter, quote⟩

/-- What a text starts with that has spaces in front of it. -/
theorem exists_head {gap : List Char} (spaced : ∀ c ∈ gap, c ∈ spaces) (d : Char)
    (rest : List Char) : ∃ c more, gap ++ d :: rest = c :: more ∧ c ∈ d :: spaces := by
  cases gap with
  | nil => exact ⟨d, rest, rfl, List.mem_cons_self⟩
  | cons c gap => exact ⟨c, _, rfl, List.mem_cons_of_mem _ (spaced c List.mem_cons_self)⟩

section Header

variable (column : Nat) (last : List TokenKind) (rest : List Char)

theorem steps_if {c : Char} (space : c ∈ spaces) :
    Steps {} ('i' :: 'f' :: c :: rest) [.keyword "if"] (within [0] 0 [] [.keyword "if"])
      (c :: rest) := by
  simp only [spaces, List.mem_cons, List.not_mem_nil, or_false] at space
  obtain rfl | rfl | rfl | rfl := space <;>
    exact ⟨by simp, fun pos => ⟨_, rfl, rfl, rfl, rfl⟩⟩

theorem steps_equals :
    Steps (within [0] column [] last) ('=' :: '=' :: rest) [.op "=="]
      (within [0] column [] (.op "==" :: last.take 1)) rest :=
  ⟨by simp only [List.length_cons]; omega, fun pos => ⟨_, rfl, rfl, rfl, rfl⟩⟩

theorem steps_main {quote : Char} (isQuote : IsQuote quote) :
    Steps (within [0] column [] last) (quote :: ("__main__".toList ++ quote :: rest))
      [.string {} "__main__".toList]
      (within [0] column [] (.string {} "__main__".toList :: last.take 1)) rest := by
  obtain rfl | rfl := isQuote <;>
    exact ⟨by simp; omega, fun pos => ⟨_, rfl, rfl, rfl, rfl⟩⟩

theorem steps_colon {c : Char} (other : c ≠ '=') :
    Steps (within [0] column [] last) (':' :: c :: rest) [.op ":"]
      (within [0] column [] (.op ":" :: last.take 1)) (c :: rest) := by
  have extending : c ∉ Mark.colon.extending := by simpa [Mark.extending] using other
  have read : operator? (':' :: c :: rest) = some ":" := operator?_mark extending rest
  have text : ':' :: c :: rest = [':'] ++ c :: rest := rfl
  rw [text]
  refine steps_token (fun _ _ => rfl) (fun _ => rfl) (by decide) fun pos => ?_
  have bare : token? (within [0] column [] last) pos (':' :: c :: rest) =
      (operator? (':' :: c :: rest)).bind fun op =>
        delimiterToken? (within [0] column [] last) pos ((':' :: c :: rest).drop op.length) op := rfl
  change token? _ pos (':' :: c :: rest) = _
  rw [bare, read]
  rfl

end Header

/-- The tokens of the condition of a guard. -/
def conditionKinds : List TokenKind := [.name "__name__", .op "==", .string {} "__main__".toList]

theorem isCondition (spans : Nat → Nat × Nat) : IsCondition (tokensOf spans conditionKinds) :=
  fun _ _ _ _ => ⟨_, rfl⟩

namespace GuardedBlock

variable (g : GuardedBlock)

theorem passes_header (rest : List Char) : Passes {} (g.header ++ '\n' :: rest)
    (.keyword "if" :: (conditionKinds ++ [.op ":", .newline])) atBlock rest := by
  obtain ⟨spaced₁, spaced₂, spaced₃, spaced₄, -⟩ : (∀ c ∈ g.gap₁, c ∈ spaces) ∧
      (∀ c ∈ g.gap₂, c ∈ spaces) ∧ (∀ c ∈ g.gap₃, c ∈ spaces) ∧ (∀ c ∈ g.gap₄, c ∈ spaces) ∧
        True := by simpa using g.spaced
  -- The texts behind the words, the last one first.
  let r₄ := g.remark.text ++ '\n' :: rest
  let r₃ := g.gap₄ ++ ':' :: r₄
  let r₂ := g.gap₃ ++ g.quote :: ("__main__".toList ++ g.quote :: r₃)
  let r₁ := g.gap₂ ++ '=' :: '=' :: r₂
  obtain ⟨c₁, more₁, behind₁, blank₁⟩ : ∃ c more, g.gap₁ ++ (moduleName.chars ++ r₁) = c :: more ∧
      c ∈ spaces := by
    cases gap : g.gap₁ with
    | nil => exact absurd gap g.apart
    | cons c more => exact ⟨c, _, rfl, spaced₁ c (gap ▸ List.mem_cons_self)⟩
  obtain ⟨c₂, more₂, behind₂, ends₂⟩ := exists_head spaced₂ '=' ('=' :: r₂)
  obtain ⟨c₄, more₄, behind₄, ends₄⟩ := g.remark.exists_head rest
  have other₄ : c₄ ≠ '=' := by
    rintro rfl
    exact absurd ends₄ (by decide)
  have keyword := steps_if more₁ blank₁
  rw [← behind₁] at keyword
  obtain ⟨column₁, gap₁⟩ := passes_spaces (s := within [0] 0 [] [.keyword "if"]) rfl spaced₁
    (moduleName.chars ++ r₁)
  have name := steps_word (s := within [0] column₁ [] [.keyword "if"]) (fun _ _ => rfl)
    (fun _ => rfl) moduleName (endsWord_space ends₂) more₂
  rw [← behind₂] at name
  obtain ⟨column₂, gap₂⟩ := passes_spaces
    (s := within [0] column₁ [] [.name "__name__", .keyword "if"]) rfl spaced₂ ('=' :: '=' :: r₂)
  have equals := steps_equals column₂ [.name "__name__", .keyword "if"] r₂
  obtain ⟨column₃, gap₃⟩ := passes_spaces
    (s := within [0] column₂ [] [.op "==", .name "__name__"]) rfl spaced₃
      (g.quote :: ("__main__".toList ++ g.quote :: r₃))
  have main := steps_main column₃ [.op "==", .name "__name__"] r₃ g.isQuote
  obtain ⟨column₄, gap₄⟩ := passes_spaces
    (s := within [0] column₃ [] [.string {} "__main__".toList, .op "=="]) rfl spaced₄ (':' :: r₄)
  have colon := steps_colon column₄ [.string {} "__main__".toList, .op "=="] more₄ other₄
  rw [← (show r₄ = c₄ :: more₄ from behind₄)] at colon
  obtain ⟨column₅, remark⟩ := passes_bareLine
    (s := within [0] column₄ [] [.op ":", .string {} "__main__".toList]) rfl g.remark rest
  have ended : Steps (within [0] column₅ [] [.op ":", .string {} "__main__".toList])
      ('\n' :: rest) [.newline] atBlock rest :=
    ⟨Nat.lt_succ_self _, fun pos => ⟨_, rfl, rfl, rfl, rfl⟩⟩
  have passed := keyword.passes.trans (gap₁.trans (name.passes.trans (gap₂.trans
    (equals.passes.trans (gap₃.trans (main.passes.trans (gap₄.trans (colon.passes.trans
      (remark.trans ended.passes)))))))))
  have text : g.header ++ '\n' :: rest = 'i' :: 'f' :: (g.gap₁ ++ (moduleName.chars ++ r₁)) := by
    simp [header, words, r₁, r₂, r₃, r₄, moduleName, Identifier.chars]
  rw [text]
  exact passed

/-- The tokens of the guard stand in front of those of what is below it. -/
theorem tokenize_header (rest : List Char) : ∃ front condition, IsCondition condition ∧
    (∀ start stop, OpensIf condition (front ++ [⟨.indent, start, stop⟩])) ∧
      tokenize (g.header ++ '\n' :: rest) =
        (tokensAt atBlock (g.header.length + 1) rest).map (front ++ ·) := by
  have passed := g.passes_header rest
  rw [List.append_cons] at passed ⊢
  obtain ⟨-, front, kinds, tokens⟩ := passed.tokensAt_append .start 0
  obtain ⟨spans, placed⟩ := exists_tokensOf front
  refine ⟨front, _, isCondition fun i => spans (i + 1), fun start stop => ?_, ?_⟩
  · rw [placed, kinds]
    exact .tokens _ _ _ _ _ _ _ _
  · rw [tokenize_eq, tokens, Nat.zero_add, List.length_append]
    rfl

end GuardedBlock

/-! Lines of a block. -/

/-- The state at the start of a line of a block, its first line or another one, and the tokens
with which the line opens. -/
inductive BlockStart (width : Nat) : LexState → (Nat → List Token) → Prop
  | first : BlockStart width atBlock fun pos => [⟨.indent, pos, pos⟩]
  | further : BlockStart width (atLine width) fun _ => []

/-- Inside a line of a block in this column. -/
def inBlock (width : Nat) (last : List TokenKind) : LexState := within [width, 0] width [] last

section Lines

variable {s : LexState} {opened : Nat → List Token} {indent : Indent} {c : Char} {cs : List Char}

theorem BlockStart.margin {width : Nat} (h : BlockStart width s opened) : AtMargin s := by
  cases h <;> exact ⟨rfl, rfl, rfl⟩

theorem BlockStart.last {width : Nat} (h : BlockStart width s opened) :
    ∃ before, s.last = .newline :: before := by
  cases h <;> exact ⟨_, rfl⟩

theorem BlockStart.valid (h : BlockStart indent.width s opened) : Valid s := by
  cases h with
  | first =>
    exact ⟨nofun, fun inside => absurd rfl inside, .base, fun _ _ head => by cases head; rfl⟩
  | further =>
    exact ⟨nofun, fun inside => absurd rfl inside, .deeper indent.width_pos .base,
      fun _ _ head => by cases head; rfl⟩

theorem BlockStart.opening (h : BlockStart indent.width s opened) (pos : Nat) :
    opening { s with column := indent.width } pos = (opened pos, inBlock indent.width s.last) := by
  cases h with
  | first => simp [Lexer.opening, openLine, atBlock, inBlock, within, indent.width_pos]
  | further => simp [Lexer.opening, openLine, atLine, inBlock, within, closeBlocks]

/-- A line of the block is read as from inside, behind the tokens that open it. -/
theorem BlockStart.tokensAt (h : BlockStart indent.width s opened) (token : c ∉ passedOver)
    (pos : Nat) (cs : List Char) : tokensAt s pos (indent.blanks ++ c :: cs) =
      (tokensAt (inBlock indent.width s.last) (pos + indent.blanks.length) (c :: cs)).map
        (opened (pos + indent.blanks.length) ++ ·) := by
  have blanks := passes_blanks h.margin.outside indent.blank (c :: cs)
  rw [h.margin.column, Nat.zero_add] at blanks
  obtain ⟨valid, silent⟩ := blanks.tokensAt_silent h.valid pos
  rw [silent, tokensAt_opening valid h.margin.outside token, ← Indent.width, h.opening]

/-- A line of code for a block, which is read by itself and has no effect on the lines below it. -/
structure CodeLine (cs : List Char) : Prop where
  starts : StartsToken cs
  reads : ∀ width pos before, ∃ ts,
    Reads (inBlock width (.newline :: before)) pos (cs ++ ['\n']) ts (atLine width) ∧
      StandInFront ts

/-- Lines of code in the column of a block. -/
def codeText (indent : Indent) (lines : List (List Char)) : List Char :=
  lines.flatMap (indent.blanks ++ · ++ ['\n'])

theorem BlockStart.tokensAt_codeLine (h : BlockStart indent.width s opened) (line : CodeLine cs)
    (pos : Nat) : ∃ ts start, StandInFront ts ∧ ∀ more,
      Lexer.tokensAt s pos (indent.blanks ++ cs ++ ['\n'] ++ more) =
        (Lexer.tokensAt (atLine indent.width) (pos + (indent.blanks ++ cs ++ ['\n']).length) more).map
          fun us => opened start ++ (ts ++ us) := by
  obtain ⟨c, rest, rfl, token⟩ := line.starts
  obtain ⟨before, last⟩ := h.last
  obtain ⟨ts, reads, stands⟩ := line.reads indent.width (pos + indent.blanks.length) before
  refine ⟨ts, pos + indent.blanks.length, stands, fun more => ?_⟩
  have valid : Valid (inBlock indent.width (.newline :: before)) :=
    ⟨nofun, fun inside => absurd rfl inside, .deeper indent.width_pos .base, nofun⟩
  have goes_on := reads.tokensAt_append valid
    (show LineBoundary (c :: rest ++ ['\n']) more from .inl (.append_break _))
  have text : indent.blanks ++ c :: rest ++ ['\n'] ++ more =
      indent.blanks ++ c :: (rest ++ ['\n'] ++ more) := by simp
  have length : pos + indent.blanks.length + (c :: rest ++ ['\n']).length =
      pos + (indent.blanks ++ c :: rest ++ ['\n']).length := by
    rw [List.append_assoc, List.length_append, List.length_append, List.length_append,
      Nat.add_assoc]
  rw [text, h.tokensAt token, last, ← List.cons_append, ← List.cons_append, goes_on, length,
    Option.map_map]
  rfl

theorem tokensAt_codeText (indent : Indent) {lines : List (List Char)}
    (code : ∀ cs ∈ lines, CodeLine cs) (pos : Nat) : ∃ ts, StandInFront ts ∧ ∀ more,
      Lexer.tokensAt (atLine indent.width) pos (codeText indent lines ++ more) =
        (Lexer.tokensAt (atLine indent.width) (pos + (codeText indent lines).length) more).map
          (ts ++ ·) := by
  induction lines generalizing pos with
  | nil => exact ⟨[], .nil, fun more => by simp [codeText]⟩
  | cons cs lines ih =>
    obtain ⟨here, later⟩ := List.forall_mem_cons.mp code
    have opens : BlockStart indent.width (atLine indent.width) _ := .further
    obtain ⟨ts, _, stands, line⟩ := opens.tokensAt_codeLine here pos
    obtain ⟨us, stands', rest⟩ := ih later (pos + (indent.blanks ++ cs ++ ['\n']).length)
    refine ⟨ts ++ us, stands.append stands', fun more => ?_⟩
    have text : codeText indent (cs :: lines) ++ more =
        indent.blanks ++ cs ++ ['\n'] ++ (codeText indent lines ++ more) := by
      simp [codeText]
    have length : (codeText indent (cs :: lines)).length =
        (indent.blanks ++ cs ++ ['\n']).length + (codeText indent lines).length := by
      rw [← List.length_append]
      rfl
    rw [text, line, rest, Option.map_map, length, Nat.add_assoc]
    congr 1
    funext vs
    exact (List.append_assoc ts us vs).symm

/-- A comment and lines of code at the start of a block. -/
def markedText (indent : Indent) (mark : BareLine) (lines : List (List Char)) : List Char :=
  mark.text ++ ['\n'] ++ codeText indent lines

theorem tokensAt_markedText (indent : Indent) (mark : BareLine) {first : List Char}
    {lines : List (List Char)} (code : ∀ cs ∈ first :: lines, CodeLine cs) (pos : Nat) : ∃ ts start, StandInFront ts ∧
      ∀ more, Lexer.tokensAt atBlock pos (markedText indent mark (first :: lines) ++ more) =
        (Lexer.tokensAt (atLine indent.width)
          (pos + (markedText indent mark (first :: lines)).length) more).map
            fun us => ⟨.indent, start, start⟩ :: (ts ++ us) := by
  obtain ⟨here, later⟩ := List.forall_mem_cons.mp code
  have opens : BlockStart indent.width atBlock _ := .first
  let line := indent.blanks ++ first ++ ['\n']
  obtain ⟨ts, start, stands, read⟩ :=
    opens.tokensAt_codeLine here (pos + (mark.text ++ ['\n']).length)
  obtain ⟨us, stands', reads⟩ := tokensAt_codeText indent later
    (pos + (mark.text ++ ['\n']).length + line.length)
  refine ⟨ts ++ us, start, stands.append stands', fun more => ?_⟩
  have comment := opens.margin.passes_bareLine mark (line ++ (codeText indent lines ++ more))
  rw [List.append_cons] at comment
  obtain ⟨-, silent⟩ := comment.tokensAt_silent opens.valid pos
  have text : markedText indent mark (first :: lines) ++ more =
      mark.text ++ ['\n'] ++ (line ++ (codeText indent lines ++ more)) := by
    simp [markedText, codeText, line]
  have length : pos + (markedText indent mark (first :: lines)).length =
      pos + (mark.text ++ ['\n']).length + line.length + (codeText indent lines).length := by
    rw [Nat.add_assoc, Nat.add_assoc, ← List.length_append, ← List.length_append]
    rfl
  rw [text, silent, read, reads, Option.map_map, length]
  congr 1
  funext vs
  exact congrArg (_ :: ·) (List.append_assoc ts us vs).symm

end Lines

/-! The block. -/

namespace GuardedBlock

variable (g : GuardedBlock)

/-- The tokens of the block and of what stands below it, as from the start of a text. -/
def tokens : Option (List Token) := tokensAt (inBlock g.indent.width []) 0 g.body

theorem valid_inBlock (last : List TokenKind) : Valid (inBlock g.indent.width last) :=
  ⟨nofun, fun inside => absurd rfl inside, .deeper g.indent.width_pos .base, nofun⟩

theorem tokensAt_body (pos : Nat) (before : List TokenKind) :
    tokensAt (inBlock g.indent.width (.newline :: before)) pos g.body =
      g.tokens.map (List.map (Token.moved pos)) := by
  have similar : Similar (inBlock g.indent.width []) (inBlock g.indent.width (.newline :: before)) :=
    { contexts := rfl
      blocks := rfl
      column := nofun
      lineOpen := rfl
      block := nofun
      value := by simp [namesValue, inBlock, within]
      nextBlock kind := by simp [expectsBlock, inBlock, within, List.isPrefixOf]
      nextValue kind := by cases kind <;> rfl }
  have unmarked : g.body.head? ≠ some '\uFEFF' := fun head =>
    g.token (Option.some.inj head ▸ by decide)
  have moved := tokensAt_similar similar (g.valid_inBlock _) (g.valid_inBlock _)
    (.inr (.inr unmarked) : SameStart pos 0 g.body)
  rwa [Nat.zero_add] at moved

theorem tokensAt_block {s : LexState} {opened : Nat → List Token}
    (h : BlockStart g.indent.width s opened) (pos : Nat) : ∃ start,
      tokensAt s pos (g.lead ++ g.body) = g.tokens.map fun ts =>
        opened start ++ ts.map (Token.moved (pos + g.lead.length)) := by
  obtain ⟨before, last⟩ := h.last
  refine ⟨pos + g.lead.length, ?_⟩
  have bare := h.margin.passes_bareLines g.bare (g.indent.blanks ++ g.body)
  obtain ⟨-, silent⟩ := bare.tokensAt_silent h.valid pos
  have first := h.tokensAt g.token (pos + (g.bare.flatMap (·.text ++ ['\n'])).length) g.rest
  rw [last] at first
  have there : pos + (g.bare.flatMap (·.text ++ ['\n'])).length + g.indent.blanks.length =
      pos + g.lead.length := by rw [lead, List.length_append, Nat.add_assoc]
  rw [lead, List.append_assoc, silent]
  rw [there] at first
  exact first.trans (by rw [← body, g.tokensAt_body, Option.map_map]; rfl)

theorem tokenize_text : ∃ header condition, IsCondition condition ∧ OpensIf condition header ∧
    tokenize g.text = g.tokens.map fun ts => header ++ ts.map (Token.moved g.offset) := by
  obtain ⟨front, condition, isCondition, opens, tokens⟩ := g.tokenize_header (g.lead ++ g.body)
  obtain ⟨start, block⟩ := g.tokensAt_block .first (g.header.length + 1)
  refine ⟨_, condition, isCondition, opens start start, ?_⟩
  rw [text, tokens, block, Option.map_map]
  congr 1
  funext ts
  exact (List.append_assoc _ _ _).symm

/-- The guard with a comment and lines of code above the block. -/
def textWith (mark : BareLine) (lines : List (List Char)) : List Char :=
  g.header ++ '\n' :: (markedText g.indent mark lines ++ (g.lead ++ g.body))

theorem tokenize_textWith (mark : BareLine) {first : List Char} {lines : List (List Char)}
    (code : ∀ cs ∈ first :: lines, CodeLine cs) : ∃ header condition front,
      IsCondition condition ∧ OpensIf condition header ∧ StandInFront front ∧
        tokenize (g.textWith mark (first :: lines)) = g.tokens.map fun ts => header ++ (front ++
          ts.map (Token.moved (g.offset + (markedText g.indent mark (first :: lines)).length))) := by
  obtain ⟨before, condition, isCondition, opens, tokens⟩ := g.tokenize_header
    (markedText g.indent mark (first :: lines) ++ (g.lead ++ g.body))
  obtain ⟨front, start, stands, code⟩ := tokensAt_markedText g.indent mark code
    (g.header.length + 1)
  obtain ⟨-, block⟩ := g.tokensAt_block .further
    (g.header.length + 1 + (markedText g.indent mark (first :: lines)).length)
  refine ⟨_, condition, front, isCondition, opens start start, stands, ?_⟩
  have there : g.header.length + 1 + (markedText g.indent mark (first :: lines)).length +
      g.lead.length = g.offset + (markedText g.indent mark (first :: lines)).length :=
    Nat.add_right_comm _ _ _
  rw [there] at block
  rw [textWith, tokens, code, block, Option.map_map, Option.map_map]
  congr 1
  funext ts
  exact (List.append_assoc before [⟨.indent, start, start⟩] (front ++ ts.map _)).symm

end GuardedBlock

end AgentWorkbench.Instrument
