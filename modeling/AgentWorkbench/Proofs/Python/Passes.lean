import AgentWorkbench.Proofs.Python.Quoted

/-!
Lexing in parts. A part of a text is passed with the text behind it at hand, as a word or an
operator goes on as far as it can. Where the tokens stand is left open; only their kinds are kept.
-/
namespace AgentWorkbench.Python.Lexer

/-- One step of the lexer, wherever in the source it is made. -/
structure Steps (s : LexState) (cs : List Char) (kinds : List TokenKind) (s' : LexState)
    (cs' : List Char) : Prop where
  shorter : cs'.length < cs.length
  step_eq : ∀ pos, ∃ lexed, step s pos cs = some lexed ∧ lexed.tokens.map (·.kind) = kinds ∧
    lexed.state = s' ∧ lexed.rest = cs'

/-- Steps that lead from a state and a text to a state and what is left of the text. -/
inductive Passes : LexState → List Char → List TokenKind → LexState → List Char → Prop where
  | done {s : LexState} {cs : List Char} : Passes s cs [] s cs
  | step {s s' s'' : LexState} {cs cs' cs'' : List Char} {kinds more : List TokenKind} :
    Steps s cs kinds s' cs' → Passes s' cs' more s'' cs'' → Passes s cs (kinds ++ more) s'' cs''

variable {s s' s'' : LexState} {cs cs' cs'' : List Char} {kinds more : List TokenKind}

theorem Steps.passes (h : Steps s cs kinds s' cs') : Passes s cs kinds s' cs' := by
  simpa using Passes.step h .done

theorem Passes.trans (h : Passes s cs kinds s' cs') (h' : Passes s' cs' more s'' cs'') :
    Passes s cs (kinds ++ more) s'' cs'' := by
  induction h with
  | done => exact h'
  | step first _ ih =>
      rw [List.append_assoc]
      exact .step first (ih h')

/-- A text that is passed to its end gives the tokens on the way and those that close it. -/
theorem Passes.tokensFrom (h : Passes s cs kinds s' []) {last : List TokenKind}
    (close : ∀ pos, ∃ ts, closing s' pos = some ts ∧ ts.map (·.kind) = last) {fuel : Nat}
    (enough : cs.length < fuel) (pos : Nat) :
    ∃ ts, tokensFrom fuel s pos cs = some ts ∧ ts.map (·.kind) = kinds ++ last := by
  generalize left : ([] : List Char) = cs' at h
  induction h generalizing fuel pos with
  | done =>
      subst left
      cases fuel with
      | zero => exact absurd enough (Nat.not_lt_zero _)
      | succ fuel => exact close pos
  | @step s s' s'' cs cs' cs'' kinds more first _ ih =>
      obtain ⟨lexed, step_eq, rfl, rfl, rfl⟩ := first.step_eq pos
      have shorter := first.shorter
      cases fuel with
      | zero => exact absurd enough (Nat.not_lt_zero _)
      | succ fuel =>
          obtain ⟨later, later_eq, later_kinds⟩ :=
            ih close (show lexed.rest.length < fuel by omega) (pos + lexed.taken) left
          cases cs with
          | nil => exact absurd shorter (Nat.not_lt_zero _)
          | cons c cs =>
              refine ⟨lexed.tokens ++ later, ?_, ?_⟩
              · rw [Lexer.tokensFrom, step_eq]
                simp [later_eq]
              · rw [List.map_append, later_kinds, List.append_assoc]

theorem Passes.tokenize (h : Passes {} cs kinds s' []) {last : List TokenKind}
    (close : ∀ pos, ∃ ts, closing s' pos = some ts ∧ ts.map (·.kind) = last) :
    ∃ ts, tokenize cs = some ts ∧ ts.map (·.kind) = kinds ++ last :=
  h.tokensFrom close (Nat.lt_succ_self _) 0

/-! Literals. -/

section Literals

variable (blocks : List Nat) (column : Nat) (contexts : List LexContext) (last : List TokenKind)

/-- Inside a line. -/
def within : LexState where
  contexts := contexts
  blocks := blocks
  column := column
  lineOpen := true
  last := last

/-- The literal of a text inside brackets is one step. -/
theorem steps_literal (close : Char) (outer : List LexContext) (text rest : List Char)
    (apart : escaped text = [] → Unquoted rest) :
    let s := within blocks column (.bracket close :: outer) last
    Steps s ('"' :: (escaped text ++ '"' :: rest)) [.string {} (escaped text)]
      (remember s (.string {} (escaped text))) rest := by
  intro s
  have opening : stringStart? ('"' :: (escaped text ++ '"' :: rest)) =
      some ([], ['"'], escaped text ++ '"' :: rest) :=
    congrArg (Option.map _) (quote?_single (unquoted_escaped text) apart)
  refine ⟨by simp only [List.length_cons, List.length_append]; omega, fun pos => ?_⟩
  have code : step s pos ('"' :: (escaped text ++ '"' :: rest)) =
      stringToken? s pos [] ['"'] (escaped text ++ '"' :: rest) := by
    change token? s pos _ = _
    rw [token?, opening]
  have content : stringToken? s pos [] ['"'] (escaped text ++ '"' :: rest) =
      some (single s pos (.string {} (escaped text)) (1 + (escaped text).length + 1) rest) := by
    change (stringContent? ['"'] _).bind _ = _
    rw [stringContent?_escaped]
    rfl
  exact ⟨_, code.trans content, rfl, rfl, rfl⟩

end Literals

end AgentWorkbench.Python.Lexer
