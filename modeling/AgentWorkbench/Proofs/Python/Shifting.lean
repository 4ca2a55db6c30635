import AgentWorkbench.Proofs.Python.Stepping
import Mathlib.Data.Option.Basic

/-!
The lexer at another place. Of the tokens before a place a step asks only whether they open a block
and whether they name a value in an interpolation; where the answers are the same, and stay the same
behind further tokens, the same text gives the same tokens, moved.
-/
namespace AgentWorkbench.Python

def Token.moved (d : Nat) (t : Token) : Token :=
  ⟨t.kind, t.start + d, t.stop + d⟩

namespace Lexer

def expectsBlock (last : List TokenKind) : Bool := [.newline, .op ":"].isPrefixOf last

/-- States that no step can tell apart; in which column a line starts, and after what token,
matters at its start only. -/
structure Similar (s s' : LexState) : Prop where
  contexts : s'.contexts = s.contexts
  blocks : s'.blocks = s.blocks
  column : s.lineOpen = false → s'.column = s.column
  lineOpen : s'.lineOpen = s.lineOpen
  block : s.lineOpen = false → expectsBlock s'.last = expectsBlock s.last
  value : namesValue s'.last = namesValue s.last
  nextBlock : ∀ kind, expectsBlock (kind :: s'.last.take 1) = expectsBlock (kind :: s.last.take 1)
  nextValue : ∀ kind, namesValue (kind :: s'.last.take 1) = namesValue (kind :: s.last.take 1)

/-- What a step gives at two places. -/
structure Carries (d : Nat) (lexed lexed' : Lexed) : Prop where
  tokens : lexed'.tokens = lexed.tokens.map (Token.moved d)
  state : Similar lexed.state lexed'.state
  taken : lexed'.taken = lexed.taken
  rest : lexed'.rest = lexed.rest

variable {d pos : Nat} {s s' : LexState} {cs rest : List Char}

namespace Similar

theorem within (h : Similar s s') (contexts : List LexContext) :
    Similar { s with contexts } { s' with contexts } :=
  ⟨rfl, h.blocks, h.column, h.lineOpen, h.block, h.value, h.nextBlock, h.nextValue⟩

theorem atColumn (h : Similar s s') (column : Nat) :
    Similar { s with column } { s' with column } :=
  ⟨h.contexts, h.blocks, fun _ => rfl, h.lineOpen, h.block, h.value, h.nextBlock, h.nextValue⟩

theorem advanced (h : Similar s s') (width : Nat) :
    Similar { s with column := s.column + width } { s' with column := s'.column + width } :=
  ⟨h.contexts, h.blocks, fun start => congrArg (· + width) (h.column start), h.lineOpen, h.block,
    h.value, h.nextBlock, h.nextValue⟩

theorem opened (h : Similar s s') (blocks : List Nat) :
    Similar { s with lineOpen := true, blocks } { s' with lineOpen := true, blocks } :=
  ⟨h.contexts, rfl, nofun, rfl, nofun, h.value, h.nextBlock, h.nextValue⟩

theorem closed (h : Similar s s') (kind : TokenKind) :
    Similar (remember { s with lineOpen := false, column := 0 } kind)
      (remember { s' with lineOpen := false, column := 0 } kind) :=
  ⟨h.contexts, h.blocks, fun _ => rfl, rfl, fun _ => h.nextBlock kind, h.nextValue kind,
    fun _ => rfl, fun _ => rfl⟩

theorem remember (h : Similar s s') (kind : TokenKind) :
    Similar (remember s kind) (remember s' kind) :=
  ⟨h.contexts, h.blocks, h.column, h.lineOpen, fun _ => h.nextBlock kind, h.nextValue kind,
    fun _ => rfl, fun _ => rfl⟩

theorem single (h : Similar s s') (kind : TokenKind) (length : Nat) :
    Carries d (single s pos kind length rest) (single s' (pos + d) kind length rest) where
  tokens := by simp [Lexer.single, Token.moved, Nat.add_right_comm]
  state := h.remember kind
  taken := rfl
  rest := rfl

theorem skipped (h : Similar s s') (taken : Nat) :
    Carries d (skipped s taken rest) (skipped s' taken rest) :=
  ⟨rfl, h, rfl, rfl⟩

end Similar

theorem rel_bind {α β β' : Type} {R : β → β' → Prop} {f : α → Option β} {f' : α → Option β'}
    (o : Option α) (h : ∀ a, Option.Rel R (f a) (f' a)) : Option.Rel R (o.bind f) (o.bind f') := by
  cases o with
  | none => exact .none
  | some a => exact h a

theorem carries_stringToken? (h : Similar s s') (letters quote : List Char) :
    Option.Rel (Carries d) (stringToken? s pos letters quote rest)
      (stringToken? s' (pos + d) letters quote rest) := by
  simp only [stringToken?]
  split
  · rw [h.contexts]
    exact .some ((h.within _).single _ _)
  · exact rel_bind _ fun _ => .some (h.single _ _)

theorem carries_delimiterToken? (h : Similar s s') (op : String) :
    Option.Rel (Carries d) (delimiterToken? s pos rest op)
      (delimiterToken? s' (pos + d) rest op) := by
  simp only [delimiterToken?, h.contexts]
  split_ifs
  · exact .some ((h.within _).single _ _)
  · exact .some ((h.within _).single _ _)
  · exact .some ((h.within _).single _ _)
  · split
    · split
      · exact .some ((h.within _).single _ _)
      · exact .none
    · exact .none
  · exact .some (h.single _ _)

theorem carries_bareOperator? (h : Similar s s') :
    Option.Rel (Carries d) (bareOperator? s pos cs) (bareOperator? s' (pos + d) cs) :=
  rel_bind _ fun op => carries_delimiterToken? h op

theorem carries_operatorToken? (h : Similar s s') :
    Option.Rel (Carries d) (operatorToken? s pos cs) (operatorToken? s' (pos + d) cs) := by
  by_cases inside : ∃ outer, s.contexts = .interpolation :: outer
  · obtain ⟨outer, context⟩ := inside
    have context' : s'.contexts = .interpolation :: outer := h.contexts.trans context
    match cs with
    | [] =>
      rw [operatorToken?_nil, operatorToken?_nil]
      exact .none
    | c :: cs =>
      by_cases close : c = '\x7d'
      · subst close
        rw [operatorToken?_close context, operatorToken?_close context']
        exact .some ((h.within _).single _ _)
      by_cases mark : c = '!'
      · subst mark
        match cs with
        | [] =>
          rw [operatorToken?_lone_mark, operatorToken?_lone_mark]
          exact .none
        | c :: cs =>
          rw [operatorToken?_mark context, operatorToken?_mark context']
          split_ifs
          · exact .some (h.single _ _)
          · exact .none
          · exact carries_bareOperator? h
      by_cases colon : c = ':'
      · subst colon
        rw [operatorToken?_colon context, operatorToken?_colon context', h.value]
        split_ifs
        · exact .some ((h.within _).single _ _)
        · exact carries_bareOperator? h
      rw [operatorToken?_inside context close mark colon,
        operatorToken?_inside context' close mark colon]
      exact carries_bareOperator? h
  · rw [operatorToken?_outside fun outer context => inside ⟨outer, context⟩,
      operatorToken?_outside fun outer context => inside ⟨outer, h.contexts ▸ context⟩]
    exact carries_bareOperator? h

theorem carries_token? (h : Similar s s') :
    Option.Rel (Carries d) (token? s pos cs) (token? s' (pos + d) cs) := by
  cases start : stringStart? cs with
  | some x =>
    obtain ⟨letters, quote, rest⟩ := x
    rw [token?_string start, token?_string start]
    exact carries_stringToken? h letters quote
  | none =>
    cases cs with
    | nil =>
      rw [token?.eq_def, token?.eq_def, start]
      exact .none
    | cons c cs =>
      rw [token?_other start, token?_other start]
      split_ifs
      · exact .some (h.single _ _)
      · exact .some (h.single _ _)
      · exact carries_operatorToken? h

theorem carries_formatStep {raw : Bool} {quote : List Char} {outer : List LexContext}
    (h : Similar s s') : Option.Rel (Carries d) (formatStep s raw quote outer pos cs)
      (formatStep s' raw quote outer (pos + d) cs) := by
  have text (text : List Char) (width : Nat) :
      (if text.isEmpty then []
        else [⟨.formatText text, pos + d, pos + d + width⟩] : List Token) =
        (if text.isEmpty then []
          else [⟨.formatText text, pos, pos + width⟩] : List Token).map (Token.moved d) := by
    split
    · rfl
    · simp [Token.moved, Nat.add_right_comm]
  rw [formatStep_eq, formatStep_eq]
  cases formatContent? raw quote cs with
  | none => exact .none
  | some x =>
    obtain ⟨content, stop, rest⟩ := x
    cases stop with
    | quote =>
      refine .some ⟨?_, (h.within outer).remember _, rfl, rfl⟩
      simp only [formatTokens, text, List.map_append]
      simp [Token.moved, Nat.add_right_comm]
    | brace =>
      refine .some ⟨?_, ?_, rfl, rfl⟩
      · simp only [formatTokens, text, List.map_append]
        simp [Token.moved, Nat.add_right_comm]
      · simp only [formatTokens, h.contexts]
        exact (h.within _).remember _

theorem carries_specificationStep {outer : List LexContext} (h : Similar s s') :
    Option.Rel (Carries d) (specificationStep s outer pos cs)
      (specificationStep s' outer (pos + d) cs) := by
  rw [specificationStep.eq_def, specificationStep.eq_def]
  split
  · rw [h.contexts]
    exact .some ((h.within _).single _ _)
  · exact .some ((h.within _).single _ _)
  · exact .some (h.skipped 1)
  · exact .none

theorem closeBlocks_moved (column : Nat) (blocks : List Nat) :
    closeBlocks (pos + d) column blocks =
      ((closeBlocks pos column blocks).1.map (Token.moved d), (closeBlocks pos column blocks).2) := by
  induction blocks with
  | nil => rfl
  | cons top blocks ih =>
    cases blocks with
    | nil => rfl
    | cons next blocks =>
      simp only [closeBlocks, ih]
      split <;> rfl

theorem openLine_moved (h : Similar s s') (start : s.lineOpen = false) :
    (openLine s' (pos + d)).1 = (openLine s pos).1.map (Token.moved d) ∧
      Similar (openLine s pos).2 (openLine s' (pos + d)).2 := by
  have block := h.block start
  rw [expectsBlock, expectsBlock] at block
  have opened := h.opened
  obtain ⟨contexts, blocks, column, _, last⟩ := s
  obtain ⟨contexts', blocks', column', _, last'⟩ := s'
  obtain rfl : contexts' = contexts := h.contexts
  obtain rfl : blocks' = blocks := h.blocks
  obtain rfl : column' = column := h.column start
  dsimp only at block opened
  simp only [openLine, block, closeBlocks_moved]
  split
  · exact ⟨rfl, opened _⟩
  · exact ⟨rfl, opened _⟩

theorem opening_moved (h : Similar s s') (pos d : Nat) :
    (opening s' (pos + d)).1 = (opening s pos).1.map (Token.moved d) ∧
      Similar (opening s pos).2 (opening s' (pos + d)).2 := by
  rw [opening, opening, h.contexts, h.lineOpen]
  split
  · next start => exact openLine_moved h (by simpa using start.2)
  · exact ⟨rfl, h⟩

/-- A mark of the byte order is passed over at the start of the source only. -/
def SameStart (d pos : Nat) (cs : List Char) : Prop :=
  d = 0 ∨ pos ≠ 0 ∨ cs.head? ≠ some '\uFEFF'

theorem carries_break (h : Similar s s') :
    Option.Rel (Carries d) (codeStep s pos ('\n' :: cs)) (codeStep s' (pos + d) ('\n' :: cs)) := by
  have outside_eq : s'.contexts.isEmpty = s.contexts.isEmpty := by rw [h.contexts]
  rw [codeStep.eq_2, codeStep.eq_2]
  by_cases outside : s.contexts.isEmpty = true
  · rw [if_pos outside, if_pos (outside_eq.trans outside)]
    by_cases inLine : s.lineOpen = true
    · rw [if_pos inLine, if_pos (h.lineOpen.trans inLine)]
      refine .some ⟨?_, h.closed _, rfl, rfl⟩
      simp [single, Token.moved, Nat.add_right_comm]
    · rw [if_neg inLine, if_neg (h.lineOpen ▸ inLine)]
      exact .some ((h.atColumn 0).skipped 1)
  · rw [if_neg outside, if_neg (outside_eq ▸ outside)]
    exact .some (h.skipped 1)

theorem carries_joined (h : Similar s s') :
    Option.Rel (Carries d) (codeStep s pos ('\\' :: cs)) (codeStep s' (pos + d) ('\\' :: cs)) := by
  rw [codeStep_backslash, codeStep_backslash]
  cases joined? cs with
  | none => exact .none
  | some x => exact .some (h.skipped x.1)

theorem carries_plain {c : Char} (h : Similar s s') (start : SameStart d pos (c :: cs))
    (break_ : c ≠ '\n') (escape : c ≠ '\\') (comment : c ≠ '#') :
    Option.Rel (Carries d) (codeStep s pos (c :: cs)) (codeStep s' (pos + d) (c :: cs)) := by
  have mark : (c = '\uFEFF' ∧ pos + d = 0) ↔ (c = '\uFEFF' ∧ pos = 0) := by
    refine and_congr_right fun same => ?_
    simp only [SameStart, List.head?_cons, same, ne_eq, not_true_eq_false, or_false] at start
    omega
  rw [codeStep_plain break_ escape comment, codeStep_plain break_ escape comment]
  simp only [mark]
  split_ifs
  · exact .some ((h.advanced 1).skipped 1)
  · exact .some ((h.advanced 8).skipped 1)
  · exact .some ((h.atColumn 0).skipped 1)
  · exact .some (h.skipped 1)
  · obtain ⟨tokens, opened⟩ := opening_moved h pos d
    refine rel_map (carries_token? opened) fun lexed lexed' carries => ?_
    refine ⟨?_, carries.state, carries.taken, carries.rest⟩
    rw [tokens, carries.tokens, List.map_append]

theorem carries_codeStep (h : Similar s s') (start : SameStart d pos cs) :
    Option.Rel (Carries d) (codeStep s pos cs) (codeStep s' (pos + d) cs) := by
  cases cs with
  | nil => exact .none
  | cons c cs =>
    by_cases break_ : c = '\n'
    · subst break_
      exact carries_break h
    by_cases escape : c = '\\'
    · subst escape
      exact carries_joined h
    by_cases comment : c = '#'
    · subst comment
      rw [codeStep.eq_5, codeStep.eq_5]
      split
      · exact .none
      · exact .some (h.skipped _)
    · exact carries_plain h start break_ escape comment

theorem carries_step (h : Similar s s') (start : SameStart d pos cs) :
    Option.Rel (Carries d) (step s pos cs) (step s' (pos + d) cs) := by
  rw [step, step, h.contexts]
  split
  · exact carries_formatStep h
  · exact carries_specificationStep h
  · exact carries_codeStep h start

end Lexer

end AgentWorkbench.Python
