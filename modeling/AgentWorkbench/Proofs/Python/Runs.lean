import AgentWorkbench.Proofs.Python.Shifting

/-!
Runs of the lexer. A run over the front of a text goes on behind it with what follows a line
boundary. At the margin, where no line is open and no indentation has been read, a text is read as
at the start of a source, but for the ends of the blocks that are still open.
-/
namespace AgentWorkbench.Python

open Text

namespace Lexer

/-- The columns of blocks one inside the other, the innermost first. -/
inductive Nested : List Nat → Prop
  | base : Nested [0]
  | deeper {top next : Nat} {blocks : List Nat} :
    next < top → Nested (next :: blocks) → Nested (top :: next :: blocks)

/-- What holds of a state between the steps of a run. -/
structure Valid (s : LexState) : Prop where
  quoted : Quoted s.contexts
  inLine : s.contexts ≠ [] → s.lineOpen = true
  blocks : Nested s.blocks
  between : s.lineOpen = false → ∀ kind ∈ s.last.head?, kind = .newline

/-- At the start of a line, with no indentation read. -/
structure AtMargin (s : LexState) : Prop where
  outside : s.contexts = []
  closed : s.lineOpen = false
  column : s.column = 0

/-- A run over the whole of a text, with the tokens read on the way. -/
inductive Reads : LexState → (pos : Nat) → List Char → List Token → LexState → Prop
  | done {s : LexState} {pos : Nat} : Reads s pos [] [] s
  | step {s s' : LexState} {pos : Nat} {c : Char} {cs : List Char} {lexed : Lexed}
    {more : List Token} : step s pos (c :: cs) = some lexed →
    Reads lexed.state (pos + lexed.taken) lexed.rest more s' →
    Reads s pos (c :: cs) (lexed.tokens ++ more) s'

variable {s s' : LexState} {pos d : Nat} {cs front more : List Char} {lexed : Lexed}
  {ts : List Token}

/-! Blocks. -/

theorem closeBlocks_nested {blocks : List Nat} (h : Nested blocks) (pos column : Nat) :
    ∃ k, (closeBlocks pos column blocks).1 = List.replicate k ⟨.dedent, pos, pos⟩ ∧
      blocks.length = (closeBlocks pos column blocks).2.length + k ∧
      Nested (closeBlocks pos column blocks).2 := by
  induction h with
  | base => exact ⟨0, rfl, rfl, .base⟩
  | @deeper top next blocks lt inner ih =>
    rw [closeBlocks]
    split
    · obtain ⟨k, tokens, length, nested⟩ := ih
      refine ⟨k + 1, ?_, ?_, nested⟩
      · simp only [tokens, List.replicate_succ]
      · rw [List.length_cons, length]
        rfl
    · exact ⟨0, rfl, rfl, .deeper lt inner⟩

theorem closeBlocks_margin {blocks : List Nat} (h : Nested blocks) (pos : Nat) :
    (closeBlocks pos 0 blocks).2 = [0] := by
  induction h with
  | base => rfl
  | deeper lt _ ih =>
    rw [closeBlocks, if_pos (Nat.zero_lt_of_lt lt)]
    exact ih

/-- Starting a line opens a block, or closes some. -/
theorem openLine_cases (h : Nested s.blocks) (pos : Nat) :
    (∃ blocks, openLine s pos =
        ([⟨.indent, pos, pos⟩], { s with lineOpen := true, blocks := s.column :: blocks }) ∧
        blocks = s.blocks ∧ Nested (s.column :: blocks)) ∨
      ∃ k blocks, openLine s pos =
        (List.replicate k ⟨.dedent, pos, pos⟩, { s with lineOpen := true, blocks }) ∧
        s.blocks.length = blocks.length + k ∧ Nested blocks := by
  rw [openLine]
  dsimp only
  split
  · next opens =>
    refine .inl ⟨s.blocks, rfl, rfl, ?_⟩
    have lt := opens.2
    revert h lt
    cases s.blocks with
    | nil =>
      intro h
      cases h
    | cons top blocks => exact fun h lt => .deeper lt h
  · obtain ⟨k, tokens, length, nested⟩ := closeBlocks_nested h pos s.column
    exact .inr ⟨k, _, by rw [tokens], length, nested⟩

/-! Steps keep a state valid. -/

theorem opening_quoted (h : Quoted s.contexts) : Quoted (opening s pos).2.contexts := by
  rw [opening]
  split
  · rw [openLine]
    dsimp only
    split <;> exact h
  · exact h

theorem opening_lineOpen (h : s.contexts ≠ [] → s.lineOpen = true) :
    (opening s pos).2.lineOpen = true := by
  rw [opening]
  split
  · rw [openLine]
    dsimp only
    split <;> rfl
  · next inside =>
    by_cases outside : s.contexts = []
    · simpa [outside] using inside
    · exact h outside

theorem opening_nested (h : Nested s.blocks) : Nested (opening s pos).2.blocks := by
  rw [opening]
  split
  · obtain ⟨blocks, opened, -, nested⟩ | ⟨k, blocks, opened, -, nested⟩ := openLine_cases h pos
    · rwa [opened]
    · rwa [opened]
  · exact h

theorem Valid.start : Valid {} where
  quoted := nofun
  inLine h := absurd rfl h
  blocks := .base
  between := nofun

theorem Valid.stepped (h : Valid s) (stepped : Stepped s pos cs lexed) : Valid lexed.state := by
  cases stepped.did with
  | skip column _ state =>
    rw [state]
    exact ⟨h.quoted, h.inLine, h.blocks, h.between⟩
  | newline outside _ _ state =>
    rw [state]
    refine ⟨h.quoted, fun inside => absurd outside inside, h.blocks, fun _ kind head => ?_⟩
    exact (Option.some.inj head).symm
  | emit inner emits eq =>
    rw [eq]
    have lineOpen := emits.lineOpen.trans (opening_lineOpen h.inLine)
    exact ⟨emits.quoted (opening_quoted h.quoted), fun _ => lineOpen,
      emits.blocks ▸ opening_nested h.blocks,
      fun closed => absurd (closed.symm.trans lineOpen) Bool.false_ne_true⟩

theorem Valid.stepsOver (h : Valid s) : StepsOver s pos (step s pos) cs :=
  stepsOver_step h.quoted

theorem Reads.valid (h : Reads s pos cs ts s') (valid : Valid s) : Valid s' := by
  induction h with
  | done => exact valid
  | step stepped _ ih => exact ih (valid.stepped (valid.stepsOver stepped).1)

/-! Fuel. -/

/-- The tokens from a state on. -/
def tokensAt (s : LexState) (pos : Nat) (cs : List Char) : Option (List Token) :=
  tokensFrom (cs.length + 1) s pos cs

theorem tokensFrom_fuel (valid : Valid s) {fuel fuel' : Nat} (enough : cs.length < fuel)
    (enough' : cs.length < fuel') : tokensFrom fuel s pos cs = tokensFrom fuel' s pos cs := by
  induction fuel generalizing s pos cs fuel' with
  | zero => exact absurd enough (Nat.not_lt_zero _)
  | succ fuel ih =>
    cases fuel' with
    | zero => exact absurd enough' (Nat.not_lt_zero _)
    | succ fuel' =>
      cases cs with
      | nil => rfl
      | cons c cs =>
        rw [tokensFrom, tokensFrom]
        cases made : step s pos (c :: cs) with
        | none => rfl
        | some lexed =>
          have stepped := (valid.stepsOver made).1
          have shorter : lexed.rest.length < (c :: cs).length := by
            rw [stepped.rest, List.length_drop]
            have := stepped.taken
            omega
          simp only [Option.bind_eq_bind, Option.bind_some]
          rw [ih (valid.stepped stepped) (by omega) (show lexed.rest.length < fuel' by omega)]

theorem tokensAt_nil : tokensAt s pos [] = closing s pos := rfl

theorem tokensAt_step {c : Char} (valid : Valid s) (made : step s pos (c :: cs) = some lexed) :
    tokensAt s pos (c :: cs) =
      (tokensAt lexed.state (pos + lexed.taken) lexed.rest).map (lexed.tokens ++ ·) := by
  have stepped := (valid.stepsOver made).1
  have shorter : lexed.rest.length < (c :: cs).length := by
    rw [stepped.rest, List.length_drop]
    have := stepped.taken
    omega
  rw [tokensAt, tokensAt, tokensFrom, made,
    tokensFrom_fuel (valid.stepped stepped) (Nat.lt_succ_self _) shorter, Option.bind_eq_bind,
    Option.bind_some]
  cases tokensFrom (c :: cs).length lexed.state (pos + lexed.taken) lexed.rest <;> rfl

theorem tokensAt_of_none {c : Char} (failed : step s pos (c :: cs) = none) :
    tokensAt s pos (c :: cs) = none := by
  rw [tokensAt, tokensFrom, failed]
  rfl

theorem tokenize_eq (source : List Char) : tokenize source = tokensAt {} 0 source := rfl

/-! Runs. -/

/-- Behind the front of a text, the run goes on with what follows a line boundary. -/
theorem Reads.tokensAt_append (h : Reads s pos front ts s') (valid : Valid s)
    (boundary : LineBoundary front more) :
    tokensAt s pos (front ++ more) =
      (tokensAt s' (pos + front.length) more).map (ts ++ ·) := by
  induction h with
  | done => simp
  | @step s s' pos c cs lexed us made _ ih =>
    obtain ⟨stepped, append⟩ := valid.stepsOver made
    have later : LineBoundary lexed.rest more := by
      rw [stepped.rest]
      exact boundary.imp_left (·.of_isSuffix (List.drop_suffix _ _))
    have there : pos + lexed.taken + lexed.rest.length = pos + (c :: cs).length := by
      rw [stepped.rest, List.length_drop]
      have := stepped.taken
      omega
    have goes_on := ih (valid.stepped stepped) later
    rw [there] at goes_on
    have longer : Lexer.step s pos (c :: (cs ++ more)) = some (lexed.followedBy more) :=
      append more boundary
    rw [List.cons_append, tokensAt_step valid longer]
    simp only [Lexed.followedBy]
    rw [goes_on, Option.map_map]
    congr 1
    funext us
    exact (List.append_assoc _ _ _).symm

theorem Reads.tokensAt (h : Reads s pos front ts s') (valid : Valid s) :
    tokensAt s pos front = (closing s' (pos + front.length)).map (ts ++ ·) := by
  have whole := h.tokensAt_append valid (show LineBoundary front [] from .inr .nil)
  rwa [List.append_nil, tokensAt_nil] at whole

theorem Reads.append (h : Reads s pos front ts s') (valid : Valid s)
    (boundary : LineBoundary front more) {us : List Token} {s'' : LexState}
    (later : Reads s' (pos + front.length) more us s'') :
    Reads s pos (front ++ more) (ts ++ us) s'' := by
  induction h with
  | done => exact later
  | @step s s' pos c cs lexed vs made _ ih =>
    obtain ⟨stepped, append⟩ := valid.stepsOver made
    have inner : LineBoundary lexed.rest more := by
      rw [stepped.rest]
      exact boundary.imp_left (·.of_isSuffix (List.drop_suffix _ _))
    have there : pos + (c :: cs).length = pos + lexed.taken + lexed.rest.length := by
      rw [stepped.rest, List.length_drop]
      have := stepped.taken
      omega
    rw [there] at later
    have longer : Lexer.step s pos (c :: (cs ++ more)) = some (lexed.followedBy more) :=
      append more boundary
    have goes_on := Reads.step longer (ih (valid.stepped stepped) inner later)
    rwa [← List.append_assoc] at goes_on

/-- The tokens of a text are those of a run over it and those that close it. -/
theorem exists_reads (valid : Valid s) (found : tokensAt s pos cs = some ts) :
    ∃ us s' last, Reads s pos cs us s' ∧ closing s' (pos + cs.length) = some last ∧
      ts = us ++ last := by
  generalize bound : cs.length = n
  induction n using Nat.strong_induction_on generalizing s pos cs ts with
  | h n ih =>
    cases cs with
    | nil => exact ⟨[], s, ts, .done, by subst bound; exact found, rfl⟩
    | cons c cs =>
      cases made : step s pos (c :: cs) with
      | none =>
        rw [tokensAt_of_none made] at found
        contradiction
      | some lexed =>
        have stepped := (valid.stepsOver made).1
        rw [tokensAt_step valid made, Option.map_eq_some_iff] at found
        obtain ⟨vs, found, rfl⟩ := found
        have length : lexed.taken + lexed.rest.length = n := by
          rw [stepped.rest, List.length_drop, bound]
          have := stepped.taken
          omega
        obtain ⟨us, s', last, reads, close, rfl⟩ :=
          ih lexed.rest.length (by have := stepped.taken; omega) (valid.stepped stepped) found rfl
        refine ⟨lexed.tokens ++ us, s', last, .step made reads, ?_, by rw [List.append_assoc]⟩
        rwa [← length, ← Nat.add_assoc]

/-- A run as it is computed. -/
def run : (fuel : Nat) → LexState → (pos : Nat) → List Char → Option (List Token × LexState)
  | _, s, _, [] => some ([], s)
  | 0, _, _, _ :: _ => none
  | fuel + 1, s, pos, c :: cs => do
    let lexed ← step s pos (c :: cs)
    let (more, s') ← run fuel lexed.state (pos + lexed.taken) lexed.rest
    return (lexed.tokens ++ more, s')

theorem reads_of_run {fuel : Nat} (h : run fuel s pos cs = some (ts, s')) :
    Reads s pos cs ts s' := by
  induction fuel generalizing s pos cs ts with
  | zero =>
    cases cs with
    | nil => cases h; exact .done
    | cons c cs => contradiction
  | succ fuel ih =>
    cases cs with
    | nil => cases h; exact .done
    | cons c cs =>
      simp only [run, Option.bind_eq_bind, Option.bind_eq_some_iff, Prod.exists, Option.pure_def,
        Option.some.injEq, Prod.mk.injEq] at h
      obtain ⟨lexed, made, more, _, later, rfl, rfl⟩ := h
      exact .step made (ih later)

/-! Other places. -/

/-- A first step that gives the same tokens moved, behind some that it opens with, and a text that
is read in the same way from there on. -/
theorem tokensAt_carried {c : Char} {made : Option Lexed} (opened : List Token) (valid : Valid s)
    (valid' : Valid s') (carries : Option.Rel (Carries d) (step s pos (c :: cs)) made)
    (made_eq : step s' (pos + d) (c :: cs) =
      made.map fun lexed => { lexed with tokens := opened ++ lexed.tokens })
    (later : ∀ {t t' : LexState} {p : Nat} {rest : List Char}, rest.length ≤ cs.length →
      Similar t t' → Valid t → Valid t' → p ≠ 0 →
      tokensAt t' (p + d) rest = (tokensAt t p rest).map (List.map (Token.moved d))) :
    tokensAt s' (pos + d) (c :: cs) =
      (tokensAt s pos (c :: cs)).map fun ts => opened ++ ts.map (Token.moved d) := by
  cases here : step s pos (c :: cs) with
  | none =>
    rw [here] at carries
    cases carries
    rw [tokensAt_of_none here, tokensAt_of_none made_eq]
    rfl
  | some lexed =>
    rw [here] at carries
    cases carries with
    | @some _ lexed' carries =>
      have stepped := (valid.stepsOver here).1
      have shorter : lexed.rest.length ≤ cs.length := by
        rw [stepped.rest, List.length_drop, List.length_cons]
        have := stepped.taken
        omega
      have moved : pos + lexed.taken ≠ 0 := by
        have := stepped.taken
        omega
      have valid_later := valid'.stepped (valid'.stepsOver made_eq).1
      have goes_on := later shorter carries.state (valid.stepped stepped) valid_later moved
      rw [tokensAt_step valid here, tokensAt_step valid' made_eq]
      dsimp only
      rw [carries.tokens, carries.taken, carries.rest, Nat.add_right_comm, goes_on, Option.map_map,
        Option.map_map]
      congr 1
      funext us
      simp

theorem tokensAt_similar (similar : Similar s s') (valid : Valid s) (valid' : Valid s')
    (start : SameStart d pos cs) :
    tokensAt s' (pos + d) cs = (tokensAt s pos cs).map (List.map (Token.moved d)) := by
  generalize bound : cs.length = n
  induction n using Nat.strong_induction_on generalizing s s' pos cs with
  | h n ih =>
    cases cs with
    | nil =>
      rw [tokensAt_nil, tokensAt_nil, closing, closing, similar.contexts, similar.lineOpen,
        similar.blocks, closeBlocks_moved]
      split
      · split <;> rfl
      · rfl
    | cons c cs =>
      refine tokensAt_carried [] valid valid' (carries_step similar start) ?_ ?_
      · cases step s' (pos + d) (c :: cs) <;> rfl
      · intro t t' p rest shorter similar valid valid' moved
        refine ih rest.length ?_ similar valid valid' (.inr (.inl moved)) rfl
        rw [← bound, List.length_cons]
        exact Nat.lt_succ_of_le shorter

/-! The margin. -/

/-- What a step passes over at the start of a line, and what ends the line at once. -/
def passedOver : List Char := ['\n', '\\', '#', ' ', '\t', '\r', '\x0c', '\uFEFF']

def StartsToken (cs : List Char) : Prop :=
  ∃ c rest, cs = c :: rest ∧ c ∉ passedOver

theorem step_outside (outside : s.contexts = []) : step s pos cs = codeStep s pos cs := by
  rw [step, outside]

theorem step_margin {c : Char} (valid : Valid s) (margin : AtMargin s) (start : c ∉ passedOver)
    (pos : Nat) (cs : List Char) : step s pos (c :: cs) =
      (token? { s with lineOpen := true, blocks := [0] } pos (c :: cs)).map fun lexed =>
        { lexed with tokens := (closeBlocks pos 0 s.blocks).1 ++ lexed.tokens } := by
  obtain ⟨outside, closed, column⟩ := margin
  have opened : opening s pos =
      ((closeBlocks pos 0 s.blocks).1, { s with lineOpen := true, blocks := [0] }) := by
    rw [opening, if_pos (by simp [outside, closed]), openLine]
    dsimp only
    rw [if_neg (by simp [column]), column, closeBlocks_margin valid.blocks]
  simp only [passedOver, List.mem_cons, List.not_mem_nil, or_false, not_or] at start
  obtain ⟨break_, escape, comment, blank, tab, return_, feed, mark⟩ := start
  rw [step_outside outside, codeStep_plain break_ escape comment, if_neg blank, if_neg tab,
    if_neg (not_or.mpr ⟨return_, feed⟩), if_neg (fun h => mark h.1), opened]

/-- What was read before the margin names no value, and does nothing behind a token. -/
theorem last_margin (valid : Valid s) (margin : AtMargin s) : namesValue s.last = false ∧
    ∀ kind, expectsBlock (kind :: s.last.take 1) = false ∧
      namesValue (kind :: s.last.take 1) = false := by
  have between := valid.between margin.closed
  cases last : s.last with
  | nil => exact ⟨rfl, fun kind => ⟨by simp [expectsBlock, List.isPrefixOf], by cases kind <;> rfl⟩⟩
  | cons kind more =>
    obtain rfl : kind = .newline := between kind (by rw [last]; rfl)
    refine ⟨by simp [namesValue], fun kind => ⟨?_, by cases kind <;> rfl⟩⟩
    simp [expectsBlock, List.isPrefixOf]

theorem AtMargin.similar_opened (margin : AtMargin s) (valid : Valid s) :
    Similar { lineOpen := true } { s with lineOpen := true, blocks := [0] } where
  contexts := margin.outside
  blocks := rfl
  column := nofun
  lineOpen := rfl
  block := nofun
  value := (last_margin valid margin).1
  nextBlock kind := ((last_margin valid margin).2 kind).1.trans
    (by simp [expectsBlock, List.isPrefixOf])
  nextValue kind := ((last_margin valid margin).2 kind).2.trans (by cases kind <;> rfl)

/-- A text that starts with a token is read at the margin as at the start of a source, behind the
ends of the blocks that are open. -/
theorem tokensAt_margin (valid : Valid s) (margin : AtMargin s) (start : StartsToken cs) :
    tokensAt s d cs = (tokenize cs).map fun ts =>
      (closeBlocks d 0 s.blocks).1 ++ ts.map (Token.moved d) := by
  obtain ⟨c, rest, rfl, token⟩ := start
  have source : step {} 0 (c :: rest) = token? { lineOpen := true } 0 (c :: rest) := by
    have at_start := step_margin Valid.start ⟨rfl, rfl, rfl⟩ token 0 rest
    rw [at_start]
    cases token? { lineOpen := true } 0 (c :: rest) <;> rfl
  have there := step_margin valid margin token (0 + d) rest
  have carried := tokensAt_carried (closeBlocks (0 + d) 0 s.blocks).1 Valid.start valid
    (source ▸ carries_token? (margin.similar_opened valid)) there
    fun _ similar valid valid' moved => tokensAt_similar similar valid valid' (.inr (.inl moved))
  rwa [Nat.zero_add] at carried

end Lexer

end AgentWorkbench.Python
