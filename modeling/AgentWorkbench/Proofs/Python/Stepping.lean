import AgentWorkbench.Proofs.Python.Contents
import AgentWorkbench.Proofs.Python.Twin

/-!
What one step of the lexer does. It passes over characters, or it ends a logical line, or it reads
tokens, opening or closing blocks before the first one of a line. It takes a front of the text, and
it does the same if more text stands behind a line boundary.
-/
namespace AgentWorkbench.Python

open Text

/-- The same with more text behind. -/
def Lexed.followedBy (more : List Char) (lexed : Lexed) : Lexed :=
  { lexed with rest := lexed.rest ++ more }

namespace Lexer

/-- The quotes of the format strings that are open. -/
def Quoted (contexts : List LexContext) : Prop :=
  ∀ raw quote, .format raw quote ∈ contexts → IsQuoting quote

variable {s : LexState} {pos : Nat} {cs : List Char} {lexed : Lexed}

/-- Tokens have been read from the front of the text, inside a line. -/
structure Emits (s : LexState) (pos : Nat) (cs : List Char) (lexed : Lexed) : Prop where
  some_token : lexed.tokens ≠ []
  plain : ∀ t ∈ lexed.tokens, t.kind.isBreak = false
  bound : ∀ t ∈ lexed.tokens, t.stop ≤ pos + lexed.taken
  begins : ∀ t ∈ lexed.tokens, t.start < pos + lexed.taken
  blocks : lexed.state.blocks = s.blocks
  lineOpen : lexed.state.lineOpen = s.lineOpen
  last : ∃ t ∈ lexed.tokens, lexed.state.last = t.kind :: s.last.take 1
  quoted : Quoted s.contexts → Quoted lexed.state.contexts
  taken : 0 < lexed.taken ∧ lexed.taken ≤ cs.length
  rest : lexed.rest = cs.drop lexed.taken

/-- What a scanner gives for a text: tokens, and the same ones with more text behind a line
boundary. -/
def Scans (s : LexState) (pos : Nat) (scan : List Char → Option Lexed) (cs : List Char) : Prop :=
  ∀ ⦃lexed⦄, scan cs = some lexed → Emits s pos cs lexed ∧
    ∀ more, LineBoundary cs more → scan (cs ++ more) = some (lexed.followedBy more)

theorem emits_single {contexts : List LexContext} {kind : TokenKind} {length : Nat}
    (plain : kind.isBreak = false) (taken : 0 < length ∧ length ≤ cs.length)
    (quoted : Quoted s.contexts → Quoted contexts) :
    Emits s pos cs (single { s with contexts } pos kind length (cs.drop length)) where
  some_token := by simp [single]
  plain t h := by simp only [single, List.mem_singleton] at h; rw [h]; exact plain
  bound t h := by simp only [single, List.mem_singleton] at h; rw [h]; exact Nat.le_refl _
  begins t h := by
    simp only [single, List.mem_singleton] at h
    rw [h]
    exact Nat.lt_add_of_pos_right taken.1
  blocks := rfl
  lineOpen := rfl
  last := ⟨_, List.mem_singleton_self _, rfl⟩
  quoted := quoted
  taken := taken
  rest := rfl

theorem Quoted.tail {context : LexContext} {contexts : List LexContext}
    (h : Quoted (context :: contexts)) : Quoted contexts :=
  fun raw quote mem => h raw quote (List.mem_cons_of_mem context mem)

theorem Quoted.cons {context : LexContext} {contexts : List LexContext}
    (other : ∀ raw quote, context = .format raw quote → IsQuoting quote)
    (h : Quoted contexts) : Quoted (context :: contexts) := by
  intro raw quote mem
  obtain same | mem := List.mem_cons.mp mem
  · exact other raw quote same.symm
  · exact h raw quote mem

/-! Strings. -/

theorem scans_string {letters quote rest : List Char}
    (start : stringStart? cs = some (letters, quote, rest))
    (found : stringToken? s pos letters quote rest = some lexed) :
    Emits s pos cs lexed ∧ ∀ more, LineBoundary cs more →
      stringToken? s pos letters quote (rest ++ more) = some (lexed.followedBy more) := by
  have quoting := stringStart?_quoting start
  obtain ⟨rfl, -, -⟩ := stringStart?_eq_some start
  have opening := quoting.length_pos
  rw [stringToken?] at found
  dsimp only at found
  split at found
  · next format =>
    cases found
    refine ⟨?_, fun more _ => ?_⟩
    · have cut : rest = (letters ++ (quote ++ rest)).drop (letters.length + quote.length) := by
        rw [← List.append_assoc, ← List.length_append, List.drop_left]
      conv in single _ _ _ _ rest => rw [cut]
      refine emits_single rfl ?_ (Quoted.cons ?_)
      · simp only [List.length_append]
        omega
      · rintro _ _ ⟨⟩
        exact quoting
    · rw [stringToken?]
      dsimp only
      rw [if_pos format]
      rfl
  · next plain =>
    simp only [Option.bind_eq_bind, Option.bind_eq_some_iff, Prod.exists, Option.pure_def,
      Option.some.injEq] at found
    obtain ⟨content, after, found, rfl⟩ := found
    have inside := stringContent?_cut found
    refine ⟨?_, fun more boundary => ?_⟩
    · have cut : after = (letters ++ (quote ++ rest)).drop
          (letters.length + quote.length + content.length + quote.length) := by
        rw [inside, ← List.append_assoc quote, ← List.append_assoc (quote ++ content),
          ← List.append_assoc letters]
        have whole : letters.length + quote.length + content.length + quote.length =
            (letters ++ (quote ++ content ++ quote)).length := by
          simp only [List.length_append]
          omega
        rw [whole, List.drop_left]
      conv in single _ _ _ _ after => rw [cut]
      refine emits_single rfl ?_ id
      rw [inside]
      simp only [List.length_append]
      omega
    · have boundary : LineBoundary rest more := by
        refine boundary.imp_left (·.of_isSuffix ?_)
        rw [← List.append_assoc]
        exact List.suffix_append _ rest
      rw [stringToken?]
      dsimp only
      rw [if_neg plain, stringContent?_append quoting boundary found]
      rfl

/-! Operators. -/

/-- The token of an operator or a delimiter, with its effect on the contexts. -/
def delimiterToken? (s : LexState) (pos : Nat) (rest : List Char) (op : String) : Option Lexed :=
  let pushed (close : Char) :=
    single { s with contexts := .bracket close :: s.contexts } pos (.op op) op.length rest
  if op = "(" then some (pushed ')')
  else if op = "[" then some (pushed ']')
  else if op = "\x7b" then some (pushed '\x7d')
  else if op = ")" ∨ op = "]" ∨ op = "\x7d" then
    match s.contexts with
    | .bracket close :: outer =>
      if [close] = op.toList then
        some (single { s with contexts := outer } pos (.op op) op.length rest)
      else none
    | _ => none
  else some (single s pos (.op op) op.length rest)

/-- The operator or delimiter that starts here, where no interpolation gives it another meaning. -/
def bareOperator? (s : LexState) (pos : Nat) (cs : List Char) : Option Lexed :=
  (operator? cs).bind fun op => delimiterToken? s pos (cs.drop op.length) op

variable {outer : List LexContext} {c : Char}

theorem operatorToken?_outside (h : ∀ outer, s.contexts ≠ .interpolation :: outer) :
    operatorToken? s pos cs = bareOperator? s pos cs := by
  match context : s.contexts with
  | [] => simp only [operatorToken?, bareOperator?, delimiterToken?, context]; rfl
  | .bracket _ :: _ => simp only [operatorToken?, bareOperator?, delimiterToken?, context]; rfl
  | .format _ _ :: _ => simp only [operatorToken?, bareOperator?, delimiterToken?, context]; rfl
  | .specification :: _ => simp only [operatorToken?, bareOperator?, delimiterToken?, context]; rfl
  | .interpolation :: outer => exact absurd context (h outer)

theorem operatorToken?_inside (h : s.contexts = .interpolation :: outer)
    (close : c ≠ '\x7d') (mark : c ≠ '!') (colon : c ≠ ':') :
    operatorToken? s pos (c :: cs) = bareOperator? s pos (c :: cs) := by
  simp only [operatorToken?, bareOperator?, delimiterToken?, h]
  split
  · next same => exact absurd (List.cons_eq_cons.mp same).1 close
  · next same => exact absurd (List.cons_eq_cons.mp same).1 mark
  · next same => exact absurd (List.cons_eq_cons.mp same).1 colon
  · rfl

theorem operatorToken?_close (h : s.contexts = .interpolation :: outer) :
    operatorToken? s pos ('\x7d' :: cs) =
      some (single { s with contexts := outer } pos .interpolationEnd 1 cs) := by
  simp only [operatorToken?, h]
  rfl

theorem operatorToken?_mark (h : s.contexts = .interpolation :: outer) :
    operatorToken? s pos ('!' :: c :: cs) =
      if c ≠ '=' then if 'a' ≤ c ∧ c ≤ 'z' then some (single s pos .conversion 2 cs) else none
      else bareOperator? s pos ('!' :: c :: cs) := by
  simp only [operatorToken?, bareOperator?, delimiterToken?, h]
  rfl

theorem operatorToken?_colon (h : s.contexts = .interpolation :: outer) :
    operatorToken? s pos (':' :: cs) =
      if !(cs.head? = some '=' && namesValue s.last) then
        some (single { s with contexts := .specification :: outer } pos (.op ":") 1 cs)
      else bareOperator? s pos (':' :: cs) := by
  simp only [operatorToken?, bareOperator?, delimiterToken?, h]
  rfl
theorem delimiterToken?_tokens {rest : List Char} {op : String}
    (h : delimiterToken? s pos rest op = some lexed) :
    lexed.tokens = [⟨.op op, pos, pos + op.length⟩] := by
  simp only [delimiterToken?] at h
  split_ifs at h
  · cases h; rfl
  · cases h; rfl
  · cases h; rfl
  · split at h
    · split at h
      · cases h; rfl
      · contradiction
    · contradiction
  · cases h; rfl

theorem delimiterToken?_append {op : String} {rest more : List Char} :
    delimiterToken? s pos (rest ++ more) op =
      (delimiterToken? s pos rest op).map (Lexed.followedBy more) := by
  simp only [delimiterToken?]
  split_ifs
  · rfl
  · rfl
  · rfl
  · split
    · split <;> rfl
    · rfl
  · rfl

theorem emits_delimiterToken? {op : String} (taken : 0 < op.length ∧ op.length ≤ cs.length)
    (found : delimiterToken? s pos (cs.drop op.length) op = some lexed) :
    Emits s pos cs lexed := by
  have pushed (close : Char) : Quoted s.contexts → Quoted (.bracket close :: s.contexts) :=
    Quoted.cons nofun
  simp only [delimiterToken?] at found
  split_ifs at found
  · cases found
    exact emits_single rfl taken (pushed _)
  · cases found
    exact emits_single rfl taken (pushed _)
  · cases found
    exact emits_single rfl taken (pushed _)
  · split at found
    · next close outer context =>
      split at found
      · cases found
        exact emits_single rfl taken fun h => (context ▸ h).tail
      · contradiction
    · contradiction
  · cases found
    exact emits_single rfl taken id

theorem scans_bareOperator? : Scans s pos (bareOperator? s pos) cs := by
  intro lexed found
  rw [bareOperator?, Option.bind_eq_some_iff] at found
  obtain ⟨op, known, found⟩ := found
  obtain ⟨mem, rest, cut⟩ := operator?_eq_some known
  have enough : op.length ≤ cs.length := by
    rw [cut, List.length_append, String.length_toList]
    exact Nat.le_add_right _ _
  have some_char : 0 < op.length := by
    rw [← String.length_toList]
    exact List.length_pos_iff.mpr (operators_ne_empty op mem)
  refine ⟨emits_delimiterToken? ⟨some_char, enough⟩ found, fun more boundary => ?_⟩
  have ne : cs ≠ [] := List.length_pos_iff.mp (Nat.lt_of_lt_of_le some_char enough)
  rw [bareOperator?, operator?_append (boundary.halts ne), known, Option.bind_some,
    List.drop_append_of_le_length enough, delimiterToken?_append, found]
  rfl

theorem operatorToken?_nil : operatorToken? s pos [] = none := by
  simp only [operatorToken?]
  split
  · contradiction
  · contradiction
  · contradiction
  · rfl

theorem bareOperator?_mark : bareOperator? s pos ['!'] = none := by
  have unknown : operator? ['!'] = none := by decide +kernel
  rw [bareOperator?, unknown, Option.bind_none]

theorem operatorToken?_lone_mark : operatorToken? s pos ['!'] = none := by
  by_cases inside : ∃ outer, s.contexts = .interpolation :: outer
  · obtain ⟨outer, context⟩ := inside
    have bare : operatorToken? s pos ['!'] = bareOperator? s pos ['!'] := by
      simp only [operatorToken?, bareOperator?, delimiterToken?, context]
      rfl
    rw [bare, bareOperator?_mark]
  · rw [operatorToken?_outside fun outer h => inside ⟨outer, h⟩, bareOperator?_mark]

/-- Where the meaning of a text's front is the plain one, with more text or without it. -/
theorem Scans.of_bare {scan : List Char → Option Lexed} (here : scan cs = bareOperator? s pos cs)
    (longer : ∀ more, LineBoundary cs more → scan (cs ++ more) = bareOperator? s pos (cs ++ more)) :
    Scans s pos scan cs := by
  intro lexed found
  rw [here] at found
  obtain ⟨emits, append⟩ := scans_bareOperator? found
  exact ⟨emits, fun more boundary => (longer more boundary).trans (append more boundary)⟩

theorem namesValue_append {more : List Char} (h : Halts cs more) :
    ((cs ++ more).head? = some '=') = (cs.head? = some '=') := by
  have same := h.any_head? (p := fun c => c = '=') (by decide)
  cases cs with
  | nil =>
    cases more with
    | nil => rfl
    | cons d more => simpa using same
  | cons c cs => rfl

theorem scans_operatorToken? : Scans s pos (operatorToken? s pos) cs := by
  by_cases inside : ∃ outer, s.contexts = .interpolation :: outer
  · obtain ⟨outer, context⟩ := inside
    have unquoted : Quoted s.contexts → Quoted outer := fun h => (context ▸ h).tail
    match cs with
    | [] =>
      intro lexed found
      rw [operatorToken?_nil] at found
      contradiction
    | c :: cs =>
      by_cases close : c = '\x7d'
      · subst close
        intro lexed found
        rw [operatorToken?_close context] at found
        cases found
        refine ⟨?_, fun more _ => operatorToken?_close context⟩
        exact emits_single rfl ⟨Nat.one_pos, by simp⟩ unquoted
      by_cases mark : c = '!'
      · subst mark
        match cs with
        | [] =>
          intro lexed found
          rw [operatorToken?_lone_mark] at found
          contradiction
        | d :: cs =>
          by_cases equals : d = '='
          · subst equals
            exact .of_bare (operatorToken?_mark context) fun _ _ => operatorToken?_mark context
          · intro lexed found
            rw [operatorToken?_mark context, if_pos equals] at found
            split at found
            · next lower =>
              cases found
              refine ⟨emits_single rfl ⟨Nat.two_pos, by simp⟩ id, fun more _ => ?_⟩
              rw [List.cons_append, List.cons_append, operatorToken?_mark context, if_pos equals,
                if_pos lower]
              rfl
            · contradiction
      by_cases colon : c = ':'
      · subst colon
        by_cases starts : (!(cs.head? = some '=' && namesValue s.last)) = true
        · intro lexed found
          rw [operatorToken?_colon context, if_pos starts] at found
          cases found
          refine ⟨?_, fun more boundary => ?_⟩
          · exact emits_single rfl ⟨Nat.one_pos, by simp⟩ fun h => (unquoted h).cons nofun
          · have halts := (boundary.halts (List.cons_ne_nil _ _)).tail (by decide)
            simp only [← namesValue_append halts] at starts
            rw [List.cons_append, operatorToken?_colon context, if_pos starts]
            rfl
        · refine .of_bare ?_ fun more boundary => ?_
          · rw [operatorToken?_colon context, if_neg starts]
          · have halts := (boundary.halts (List.cons_ne_nil _ _)).tail (by decide)
            simp only [← namesValue_append halts] at starts
            rw [List.cons_append, operatorToken?_colon context, if_neg starts]
      · exact .of_bare (operatorToken?_inside context close mark colon) fun _ _ =>
          operatorToken?_inside context close mark colon
  · have outside : operatorToken? s pos = bareOperator? s pos :=
      funext fun cs => operatorToken?_outside fun outer h => inside ⟨outer, h⟩
    rw [outside]
    exact scans_bareOperator?

/-! Tokens of code. -/

theorem isBreak_ofWord (word : List Char) : (TokenKind.ofWord word).isBreak = false := by
  rw [TokenKind.ofWord]
  split <;> rfl

theorem token?_string {letters quote rest : List Char}
    (start : stringStart? cs = some (letters, quote, rest)) :
    token? s pos cs = stringToken? s pos letters quote rest := by
  rw [token?.eq_def, start]

theorem token?_other (start : stringStart? (c :: cs) = none) : token? s pos (c :: cs) =
    if isIdentStart c then
      some (single s pos (.ofWord (c :: cs.takeWhile isIdentRest))
        (c :: cs.takeWhile isIdentRest).length
        ((c :: cs).drop (c :: cs.takeWhile isIdentRest).length))
    else if startsNumber (c :: cs) then
      some (single s pos .number (numberLength (c :: cs)) ((c :: cs).drop (numberLength (c :: cs))))
    else operatorToken? s pos (c :: cs) := by
  rw [token?.eq_def, start]

theorem scans_token? : Scans s pos (token? s pos) cs := by
  intro lexed found
  cases start : stringStart? cs with
  | some x =>
    obtain ⟨letters, quote, rest⟩ := x
    rw [token?_string start] at found
    obtain ⟨emits, append⟩ := scans_string start found
    refine ⟨emits, fun more boundary => ?_⟩
    have ne : cs ≠ [] := List.length_pos_iff.mp (Nat.lt_of_lt_of_le emits.taken.1 emits.taken.2)
    have longer := stringStart?_append (boundary.halts ne)
    rw [start, Option.map_some] at longer
    rw [token?_string longer, append more boundary]
  | none =>
    cases cs with
    | nil =>
      rw [token?.eq_def, start] at found
      contradiction
    | cons c cs =>
      have ne := List.cons_ne_nil c cs
      have start' (more : List Char) (boundary : LineBoundary (c :: cs) more) :
          stringStart? (c :: (cs ++ more)) = none := by
        rw [← List.cons_append, stringStart?_append (boundary.halts ne), start, Option.map_none]
      rw [token?_other start] at found
      split at found
      · next identifier =>
        cases found
        have unbroken : c ≠ '\n' := by
          rintro rfl
          exact absurd identifier (by decide)
        have front : c :: cs.takeWhile isIdentRest <+: c :: cs :=
          List.cons_prefix_cons.mpr ⟨rfl, List.takeWhile_prefix _⟩
        refine ⟨emits_single (isBreak_ofWord _) ⟨Nat.zero_lt_succ _, front.length_le⟩ id,
          fun more boundary => ?_⟩
        have same : (cs ++ more).takeWhile isIdentRest = cs.takeWhile isIdentRest :=
          ((boundary.halts ne).tail unbroken).takeWhile (by decide)
        rw [List.cons_append, token?_other (start' more boundary), if_pos identifier, same,
          ← List.cons_append, List.drop_append_of_le_length front.length_le]
        rfl
      · next identifier =>
        split at found
        · next number =>
          cases found
          have le := ofLine_numberLength.le (c :: cs)
          refine ⟨emits_single rfl ⟨numberLength_pos number, le⟩ id, fun more boundary => ?_⟩
          have halts := boundary.halts ne
          have same := ofLine_numberLength.append halts
          rw [← startsNumber_append halts] at number
          rw [List.cons_append] at same ⊢
          rw [token?_other (start' more boundary), if_neg identifier, if_pos number, same,
            ← List.cons_append, List.drop_append_of_le_length le]
          rfl
        · next number =>
          obtain ⟨emits, append⟩ := scans_operatorToken? found
          refine ⟨emits, fun more boundary => ?_⟩
          rw [← startsNumber_append (boundary.halts ne)] at number
          rw [List.cons_append, token?_other (start' more boundary), if_neg identifier,
            if_neg number, ← List.cons_append, append more boundary]

/-! A step. -/

/-- What opens or closes blocks before a token: nothing inside a line. -/
def opening (s : LexState) (pos : Nat) : List Token × LexState :=
  if s.contexts.isEmpty ∧ !s.lineOpen then openLine s pos else ([], s)

/-- The three things that a step does: it passes over characters, ends a logical line, or reads
tokens. -/
inductive Did (s : LexState) (pos : Nat) (cs : List Char) (lexed : Lexed) : Prop
  | skip (column : Nat) (tokens : lexed.tokens = []) (state : lexed.state = { s with column })
  | newline (outside : s.contexts = []) (inLine : s.lineOpen = true)
      (tokens : lexed.tokens = [⟨.newline, pos, pos + 1⟩])
      (state : lexed.state = remember { s with lineOpen := false, column := 0 } .newline)
  | emit (inner : Lexed) (emits : Emits (opening s pos).2 pos cs inner)
      (eq : lexed = { inner with tokens := (opening s pos).1 ++ inner.tokens })

structure Stepped (s : LexState) (pos : Nat) (cs : List Char) (lexed : Lexed) : Prop where
  taken : 0 < lexed.taken ∧ lexed.taken ≤ cs.length
  rest : lexed.rest = cs.drop lexed.taken
  did : Did s pos cs lexed

/-- What one step does, which it does with more text behind a line boundary too. -/
def StepsOver (s : LexState) (pos : Nat) (next : List Char → Option Lexed) (cs : List Char) :
    Prop :=
  ∀ ⦃lexed⦄, next cs = some lexed → Stepped s pos cs lexed ∧
    ∀ more, LineBoundary cs more → next (cs ++ more) = some (lexed.followedBy more)

theorem stepped_skipped (column : Nat) {rest : List Char} (front : List Char) (ne : front ≠ []) :
    Stepped s pos (front ++ rest) (skipped { s with column } front.length rest) where
  taken := ⟨List.length_pos_iff.mpr ne, by simp [skipped]⟩
  rest := List.drop_left.symm
  did := .skip column rfl rfl

theorem opening_inside (h : s.contexts ≠ [] ∨ s.lineOpen = true) (pos : Nat) :
    opening s pos = ([], s) := by
  rw [opening, if_neg]
  rintro ⟨outside, closed⟩
  obtain h | h := h
  · exact h (List.isEmpty_iff.mp outside)
  · simp [h] at closed

theorem Emits.stepped (h : Emits s pos cs lexed) (inside : s.contexts ≠ []) :
    Stepped s pos cs lexed where
  taken := h.taken
  rest := h.rest
  did := by
    have none_opened := opening_inside (.inl inside) pos
    refine .emit lexed ?_ ?_
    · rw [none_opened]
      exact h
    · rw [none_opened]
      rfl

/-- The tokens of a format string's literal text and of what ends it. -/
def formatTokens (s : LexState) (raw : Bool) (quote : List Char) (outer : List LexContext)
    (pos : Nat) (content : List Char) (stop : FormatStop) (rest : List Char) : Lexed :=
  let width := content.length
  let text (cs : List Char) : List Token :=
    if cs.isEmpty then [] else [⟨.formatText cs, pos, pos + width⟩]
  match stop with
  | .quote => {
      tokens := text (closedText { raw, format := true } quote content) ++
        [⟨.formatEnd, pos + width, pos + (width + quote.length)⟩]
      state := remember { s with contexts := outer } .formatEnd
      taken := width + quote.length
      rest }
  | .brace => {
      tokens := text content ++ [⟨.interpolationStart, pos + width, pos + width + 1⟩]
      state := remember { s with contexts := .interpolation :: s.contexts } .interpolationStart
      taken := width + 1
      rest }

theorem formatStep_eq (s : LexState) (raw : Bool) (quote : List Char) (outer : List LexContext)
    (pos : Nat) (cs : List Char) : formatStep s raw quote outer pos cs =
      (formatContent? raw quote cs).map fun (content, stop, rest) =>
        formatTokens s raw quote outer pos content stop rest := by
  rw [formatStep]
  cases formatContent? raw quote cs with
  | none => rfl
  | some x =>
    obtain ⟨content, stop, rest⟩ := x
    cases stop <;> rfl

theorem emits_text {contexts : List LexContext} {kind : TokenKind} {text : List Char}
    {width length : Nat} (plain : kind.isBreak = false) (inside : width < length)
    (taken : 0 < length ∧ length ≤ cs.length) (quoted : Quoted s.contexts → Quoted contexts) :
    Emits s pos cs {
      tokens := (if text.isEmpty then [] else [⟨.formatText text, pos, pos + width⟩]) ++
        [⟨kind, pos + width, pos + length⟩]
      state := remember { s with contexts } kind
      taken := length
      rest := cs.drop length } where
  some_token := by simp
  plain t h := by
    simp only [List.mem_append, List.mem_ite_nil_left, List.mem_singleton] at h
    obtain ⟨-, rfl⟩ | rfl := h
    · rfl
    · exact plain
  bound t h := by
    simp only [List.mem_append, List.mem_ite_nil_left, List.mem_singleton] at h
    obtain ⟨-, rfl⟩ | rfl := h
    · exact Nat.add_le_add_left (Nat.le_of_lt inside) pos
    · exact Nat.le_refl _
  begins t h := by
    simp only [List.mem_append, List.mem_ite_nil_left, List.mem_singleton] at h
    obtain ⟨-, rfl⟩ | rfl := h
    · exact Nat.lt_add_of_pos_right taken.1
    · exact Nat.add_lt_add_left inside pos
  blocks := rfl
  lineOpen := rfl
  last := ⟨_, List.mem_append_right _ (List.mem_singleton_self _), rfl⟩
  quoted := quoted
  taken := taken
  rest := rfl

theorem emits_formatTokens {raw : Bool} {quote content rest : List Char}
    {outer : List LexContext} {stop : FormatStop} (quoting : IsQuoting quote)
    (unquoted : Quoted s.contexts → Quoted outer)
    (cut : cs = content ++ (stop.closing quote ++ rest)) :
    Emits s pos cs (formatTokens s raw quote outer pos content stop rest) := by
  have behind : rest = cs.drop (content.length + (stop.closing quote).length) := by
    rw [cut, ← List.append_assoc, ← List.length_append, List.drop_left]
  have some_quote := quoting.length_pos
  have taken : content.length + (stop.closing quote).length ≤ cs.length := by
    rw [cut]
    simp only [List.length_append]
    omega
  rw [behind]
  cases stop with
  | quote =>
    exact emits_text rfl (Nat.lt_add_of_pos_right some_quote)
      ⟨Nat.add_pos_right _ some_quote, taken⟩ unquoted
  | brace =>
    exact emits_text rfl (Nat.lt_succ_self _) ⟨Nat.zero_lt_succ _, taken⟩ (Quoted.cons nofun)

theorem stepsOver_formatStep {raw : Bool} {quote : List Char} {outer : List LexContext}
    (context : s.contexts = .format raw quote :: outer) (quoted : Quoted s.contexts) :
    StepsOver s pos (formatStep s raw quote outer pos) cs := by
  have quoting : IsQuoting quote := quoted raw quote (context ▸ List.mem_cons_self)
  intro lexed found
  simp only [formatStep_eq, Option.map_eq_some_iff, Prod.exists] at found
  obtain ⟨content, stop, rest, found, rfl⟩ := found
  obtain ⟨cut, append⟩ := finds_formatContent? quoting cs found
  have emits : Emits s pos cs (formatTokens s raw quote outer pos content stop rest) :=
    emits_formatTokens quoting (fun h => (context ▸ h).tail) cut
  refine ⟨emits.stepped (by simp [context]), fun more boundary => ?_⟩
  rw [formatStep_eq, append more boundary, Option.map_some]
  cases stop <;> rfl

theorem stepsOver_specificationStep {outer : List LexContext}
    (context : s.contexts = .specification :: outer) :
    StepsOver s pos (specificationStep s outer pos) cs := by
  intro lexed found
  have inside : s.contexts ≠ [] := by simp [context]
  rw [specificationStep.eq_def] at found
  split at found
  · next rest =>
    cases found
    refine ⟨Emits.stepped ?_ inside, fun _ _ => rfl⟩
    exact emits_single rfl ⟨Nat.one_pos, by simp⟩ (Quoted.cons nofun)
  · next rest =>
    cases found
    refine ⟨Emits.stepped ?_ inside, fun _ _ => rfl⟩
    exact emits_single rfl ⟨Nat.one_pos, by simp⟩ fun h => (context ▸ h).tail
  · next c rest other other' =>
    cases found
    refine ⟨stepped_skipped _ [c] (List.cons_ne_nil _ _), fun more _ => ?_⟩
    exact specificationStep.eq_3 s outer pos c (rest ++ more) other other'
  · contradiction

/-! A step of code. -/

theorem codeStep_plain (break_ : c ≠ '\n') (escape : c ≠ '\\') (comment : c ≠ '#') :
    codeStep s pos (c :: cs) =
      if c = ' ' then some (skipped { s with column := s.column + 1 } 1 cs)
      else if c = '\t' then some (skipped { s with column := s.column + 8 } 1 cs)
      else if c = '\r' ∨ c = '\x0c' then some (skipped { s with column := 0 } 1 cs)
      else if c = '\uFEFF' ∧ pos = 0 then some (skipped s 1 cs)
      else (token? (opening s pos).2 pos (c :: cs)).map fun lexed =>
        { lexed with tokens := (opening s pos).1 ++ lexed.tokens } := by
  rw [codeStep.eq_6 s pos c cs break_ (fun _ h => absurd h escape) (fun _ h => absurd h escape)
    comment]
  split_ifs with _ _ _ _ start
  · rfl
  · rfl
  · rfl
  · rfl
  · rw [opening, if_pos start]
    obtain ⟨tokens, opened⟩ := openLine s pos
    dsimp only
    cases token? opened pos (c :: cs) <;> rfl
  · rw [opening, if_neg start]
    cases token? s pos (c :: cs) <;> rfl

/-- Whether no token starts with the character. -/
def startsNothing (c : Char) : Bool :=
  !isPrefixLetter c && !StringPrefix.isQuote c && !isIdentStart c && !c.isDigit && c ≠ '.' &&
    operators.all fun op => op.toList.head? ≠ some c

theorem token?_startsNothing (h : startsNothing c = true) : token? s pos (c :: cs) = none := by
  simp only [startsNothing, Bool.and_eq_true, Bool.not_eq_true', decide_eq_true_eq,
    List.all_eq_true] at h
  obtain ⟨⟨⟨⟨⟨letter, quote⟩, identifier⟩, digit⟩, dot⟩, other⟩ := h
  have start : stringStart? (c :: cs) = none := by
    simp [stringStart?, letter, quote?_cons, quote]
  have number : startsNumber (c :: cs) = false := by
    rw [startsNumber.eq_2 c cs fun _ _ same => absurd same dot, digit]
  have unknown : operator? (c :: cs) = none := by
    rw [operator?, List.find?_eq_none]
    intro op known front
    rw [List.isPrefixOf_iff_prefix] at front
    cases cut : op.toList with
    | nil => exact operators_ne_empty op known cut
    | cons d rest =>
      rw [cut, List.cons_prefix_cons] at front
      exact other op known (by rw [cut, front.1]; rfl)
  have bare : operatorToken? s pos (c :: cs) = bareOperator? s pos (c :: cs) := by
    by_cases inside : ∃ outer, s.contexts = .interpolation :: outer
    · obtain ⟨outer, context⟩ := inside
      refine operatorToken?_inside context ?_ ?_ ?_
      · rintro rfl
        exact other "\x7d" (by decide) rfl
      · rintro rfl
        exact other "!=" (by decide) rfl
      · rintro rfl
        exact other ":" (by decide) rfl
    · exact operatorToken?_outside fun outer h => inside ⟨outer, h⟩
  rw [token?_other start, identifier, number, bare, bareOperator?, unknown]
  rfl

theorem token?_backslash : token? s pos ('\\' :: cs) = none :=
  token?_startsNothing (by decide +kernel)

/-- What is left of the text behind a backslash that joins two lines, and how much is taken. -/
def joined? : List Char → Option (Nat × List Char)
  | '\n' :: rest => some (2, rest)
  | '\r' :: '\n' :: rest => some (3, rest)
  | _ => none

/-- A backslash joins two lines and stands nowhere else in code. -/
theorem codeStep_backslash : codeStep s pos ('\\' :: cs) =
    (joined? cs).map fun (taken, rest) => skipped s taken rest := by
  rw [codeStep.eq_def]
  split
  · contradiction
  · next same => exact absurd (List.cons_eq_cons.mp same).1 (by decide)
  · next rest same =>
    rw [(List.cons_eq_cons.mp same).2]
    rfl
  · next rest same =>
    rw [(List.cons_eq_cons.mp same).2]
    rfl
  · next same => exact absurd (List.cons_eq_cons.mp same).1 (by decide)
  · next c rest _ unbroken unbroken' _ same =>
    obtain ⟨rfl, rfl⟩ := List.cons_eq_cons.mp same
    have none_joined : joined? cs = none :=
      joined?.eq_3 cs (fun rest h => unbroken rest rfl h) fun rest h => unbroken' rest rfl h
    rw [if_neg (by decide), if_neg (by decide), if_neg (by decide), if_neg (by simp), none_joined]
    split <;> simp [token?_backslash]

theorem Emits.opened (h : Emits (opening s pos).2 pos cs lexed) :
    Stepped s pos cs { lexed with tokens := (opening s pos).1 ++ lexed.tokens } where
  taken := h.taken
  rest := h.rest
  did := .emit lexed h rfl

theorem stepsOver_plain (break_ : c ≠ '\n') (escape : c ≠ '\\') (comment : c ≠ '#') :
    StepsOver s pos (codeStep s pos) (c :: cs) := by
  intro lexed found
  rw [codeStep_plain break_ escape comment] at found
  simp only [List.cons_append, codeStep_plain break_ escape comment]
  have skip {column : Nat} : Stepped s pos (c :: cs) (skipped { s with column } 1 cs) :=
    stepped_skipped _ [c] (List.cons_ne_nil _ _)
  split_ifs at found ⊢
  · cases found
    exact ⟨skip, fun _ _ => rfl⟩
  · cases found
    exact ⟨skip, fun _ _ => rfl⟩
  · cases found
    exact ⟨skip, fun _ _ => rfl⟩
  · cases found
    exact ⟨skip, fun _ _ => rfl⟩
  · rw [Option.map_eq_some_iff] at found
    obtain ⟨inner, found, rfl⟩ := found
    obtain ⟨emits, append⟩ := scans_token? found
    refine ⟨emits.opened, fun more boundary => ?_⟩
    rw [← List.cons_append, append more boundary]
    rfl

theorem stepsOver_comment : StepsOver s pos (codeStep s pos) ('#' :: cs) := by
  intro lexed found
  rw [codeStep.eq_5] at found
  split at found
  · contradiction
  · next clean =>
    cases found
    refine ⟨?_, fun more boundary => ?_⟩
    · have cut : '#' :: cs = '#' :: cs.takeWhile (· ≠ '\n') ++
          cs.drop (cs.takeWhile (· ≠ '\n')).length := by
        rw [List.cons_append, List.prefix_iff_eq_append.mp (List.takeWhile_prefix _)]
      conv in Stepped s pos _ _ => rw [cut]
      exact stepped_skipped s.column ('#' :: cs.takeWhile (· ≠ '\n')) (List.cons_ne_nil _ _)
    · have halts := (boundary.halts (List.cons_ne_nil _ _)).tail (by decide)
      have same : (cs ++ more).takeWhile (· ≠ '\n') = cs.takeWhile (· ≠ '\n') :=
        halts.takeWhile (by decide)
      rw [List.cons_append, codeStep.eq_5, same, if_neg clean,
        List.drop_append_of_le_length (List.takeWhile_prefix _).length_le]
      rfl

theorem stepsOver_break : StepsOver s pos (codeStep s pos) ('\n' :: cs) := by
  intro lexed found
  rw [codeStep.eq_2] at found
  simp only [List.cons_append, codeStep.eq_2]
  have skip {column : Nat} : Stepped s pos ('\n' :: cs) (skipped { s with column } 1 cs) :=
    stepped_skipped _ ['\n'] (List.cons_ne_nil _ _)
  split_ifs at found ⊢ with outside inLine
  · cases found
    refine ⟨⟨⟨Nat.one_pos, Nat.le_add_left _ _⟩, rfl, ?_⟩, fun _ _ => rfl⟩
    exact .newline (List.isEmpty_iff.mp outside) inLine rfl rfl
  · cases found
    exact ⟨skip, fun _ _ => rfl⟩
  · cases found
    exact ⟨skip, fun _ _ => rfl⟩

theorem joined?_eq_some {taken : Nat} {rest : List Char} (h : joined? cs = some (taken, rest)) :
    ∃ front, cs = front ++ rest ∧ taken = front.length + 1 ∧
      ∀ more, joined? (cs ++ more) = some (taken, rest ++ more) := by
  rw [joined?.eq_def] at h
  split at h
  · cases h
    exact ⟨['\n'], rfl, rfl, fun _ => rfl⟩
  · cases h
    exact ⟨['\r', '\n'], rfl, rfl, fun _ => rfl⟩
  · contradiction

theorem stepsOver_joined : StepsOver s pos (codeStep s pos) ('\\' :: cs) := by
  intro lexed found
  simp only [codeStep_backslash, Option.map_eq_some_iff, Prod.exists] at found
  obtain ⟨taken, rest, joined, rfl⟩ := found
  obtain ⟨front, rfl, rfl, append⟩ := joined?_eq_some joined
  refine ⟨?_, fun more _ => ?_⟩
  · exact stepped_skipped s.column ('\\' :: front) (List.cons_ne_nil _ _)
  · rw [List.cons_append, codeStep_backslash, append]
    rfl

theorem stepsOver_codeStep : StepsOver s pos (codeStep s pos) cs := by
  cases cs with
  | nil =>
    intro lexed found
    contradiction
  | cons c cs =>
    by_cases break_ : c = '\n'
    · subst break_
      exact stepsOver_break
    by_cases escape : c = '\\'
    · subst escape
      exact stepsOver_joined
    by_cases comment : c = '#'
    · subst comment
      exact stepsOver_comment
    exact stepsOver_plain break_ escape comment

theorem stepsOver_step (quoted : Quoted s.contexts) : StepsOver s pos (step s pos) cs := by
  match context : s.contexts with
  | .format raw quote :: outer =>
    have step_eq : step s pos = formatStep s raw quote outer pos := by
      funext cs
      rw [step, context]
    rw [step_eq]
    exact stepsOver_formatStep context quoted
  | .specification :: outer =>
    have step_eq : step s pos = specificationStep s outer pos := by
      funext cs
      rw [step, context]
    rw [step_eq]
    exact stepsOver_specificationStep context
  | [] | .bracket _ :: _ | .interpolation :: _ =>
    have step_eq : step s pos = codeStep s pos := by
      funext cs
      rw [step, context]
    rw [step_eq]
    exact stepsOver_codeStep

end Lexer

end AgentWorkbench.Python
