import AgentWorkbench.Proofs.Python.Moved
import AgentWorkbench.Proofs.Python.Passes
import Mathlib.Data.Bool.AllAny

/-!
Names in a source. A name that is no keyword is read as one token, and the stretch of any token of
a name holds the name.
-/
namespace AgentWorkbench.Python

open Text Lexer

/-- An identifier that is no keyword. -/
structure Identifier where
  first : Char
  more : List Char
  starts : isIdentStart first = true
  goesOn : ∀ c ∈ more, isIdentRest c = true
  free : String.ofList (first :: more) ∉ keywords

theorem isIdentRest_of_isIdentStart {c : Char} (h : isIdentStart c = true) :
    isIdentRest c = true := by
  rw [isIdentStart] at h
  rw [isIdentRest]
  split_ifs at h ⊢
  · rw [Bool.or_eq_true] at h ⊢
    exact h.imp_left fun letter => by simp [Char.isAlphanum, letter]
  · rw [h, Bool.true_or]

namespace Identifier

variable (word : Identifier)

def chars : List Char := word.first :: word.more

def name : String := .ofList word.chars

theorem isIdentRest_chars : ∀ c ∈ word.chars, isIdentRest c = true :=
  List.forall_mem_cons.mpr ⟨isIdentRest_of_isIdentStart word.starts, word.goesOn⟩

theorem ofWord_chars : TokenKind.ofWord word.chars = .name word.name := by
  rw [TokenKind.ofWord]
  exact if_neg fun reserved => word.free (List.contains_iff_mem.mp reserved)

end Identifier

namespace Lexer

/-! Words. -/

/-- A character with which no word goes on, and no string after its prefix. -/
structure EndsWord (c : Char) : Prop where
  word : isIdentRest c = false
  letter : isPrefixLetter c = false
  quote : StringPrefix.isQuote c = false

variable {s s' : LexState} {pos : Nat} {c : Char} {cs source : List Char} {lexed : Lexed}
  {ts : List Token}

theorem stringStart?_word {w : List Char} (ident : ∀ c ∈ w, isIdentRest c = true)
    (ends : EndsWord c) (rest : List Char) : stringStart? (w ++ c :: rest) = none := by
  rw [stringStart?, Option.map_eq_none_iff]
  induction w with
  | nil =>
    rw [List.nil_append, List.takeWhile_cons_of_neg (by simp [ends.letter])]
    simp [quote?_cons, ends.quote]
  | cons d w ih =>
    obtain ⟨here, later⟩ := List.forall_mem_cons.mp ident
    by_cases letter : isPrefixLetter d = true
    · rw [List.cons_append, List.takeWhile_cons_of_pos letter]
      exact ih later
    · have unquoted : StringPrefix.isQuote d = false := by
        by_contra quote
        rw [Bool.not_eq_false, StringPrefix.isQuote, Bool.or_eq_true, decide_eq_true_eq,
          decide_eq_true_eq] at quote
        obtain rfl | rfl := quote <;> exact absurd here (by decide)
      rw [List.cons_append, List.takeWhile_cons_of_neg letter]
      simp [quote?_cons, unquoted]

theorem token?_word (word : Identifier) (ends : EndsWord c) (rest : List Char) :
    token? s pos (word.chars ++ c :: rest) =
      some (single s pos (.name word.name) word.chars.length (c :: rest)) := by
  have start : stringStart? (word.first :: (word.more ++ c :: rest)) = none :=
    stringStart?_word word.isIdentRest_chars ends rest
  have whole : (word.more ++ c :: rest).takeWhile isIdentRest = word.more := by
    rw [List.takeWhile_append_of_pos word.goesOn, List.takeWhile_cons_of_neg (by simp [ends.word]),
      List.append_nil]
  have taken : token? s pos (word.first :: (word.more ++ c :: rest)) =
      some (single s pos (.ofWord word.chars) word.chars.length
        ((word.chars ++ c :: rest).drop word.chars.length)) := by
    rw [token?_other start, if_pos word.starts, whole]
    rfl
  rwa [word.ofWord_chars, List.drop_left] at taken

theorem isIdentStart_passedOver : ∀ c ∈ passedOver, isIdentStart c = false :=
  List.all_iff_forall_prop.mp (by decide +kernel)

/-- A token is one step inside a line. -/
theorem steps_token {kind : TokenKind} {first : Char} {more rest : List Char}
    (code : ∀ pos cs, step s pos cs = codeStep s pos cs) (inLine : ∀ pos, opening s pos = ([], s))
    (token : first ∉ passedOver) (read : ∀ pos, token? s pos (first :: more ++ rest) =
      some (single s pos kind (first :: more).length rest)) :
    Steps s (first :: more ++ rest) [kind] (remember s kind) rest := by
  simp only [passedOver, List.mem_cons, List.not_mem_nil, or_false, not_or] at token
  obtain ⟨break_, escape, comment, blank, tab, return_, feed, mark⟩ := token
  refine ⟨?_, fun pos =>
    ⟨single s pos kind (first :: more).length rest, ?_, rfl, rfl, rfl⟩⟩
  · rw [List.length_append]
    exact Nat.lt_add_of_pos_left (Nat.zero_lt_succ _)
  · rw [code, List.cons_append, codeStep_plain break_ escape comment, if_neg blank,
      if_neg tab, if_neg (not_or.mpr ⟨return_, feed⟩), if_neg fun h => mark h.1, inLine]
    dsimp only
    rw [← List.cons_append, read]
    rfl

/-- A name is one step inside a line. -/
theorem steps_word (code : ∀ pos cs, step s pos cs = codeStep s pos cs)
    (inLine : ∀ pos, opening s pos = ([], s)) (word : Identifier) (ends : EndsWord c)
    (rest : List Char) : Steps s (word.chars ++ c :: rest) [.name word.name]
      (remember s (.name word.name)) (c :: rest) :=
  steps_token code inLine
    (fun mem => absurd word.starts (by simp [isIdentStart_passedOver word.first mem]))
    fun _ => token?_word word ends rest

/-- The start of a function up to its parameters. -/
theorem passes_def (name : Identifier) (rest : List Char) :
    Passes {} ("def ".toList ++ (name.chars ++ '(' :: rest))
      [.keyword "def", .name name.name, .op "("]
      (within [0] 1 [.bracket ')'] [.op "(", .name name.name]) rest := by
  let s₁ := within [0] 0 [] [.keyword "def"]
  let s₂ := within [0] 1 [] [.keyword "def"]
  let s₃ := remember s₂ (.name name.name)
  have keyword (cs : List Char) : Steps {} ('d' :: 'e' :: 'f' :: ' ' :: cs) [.keyword "def"] s₁
      (' ' :: cs) := ⟨by simp, fun pos => ⟨_, rfl, rfl, rfl, rfl⟩⟩
  have blank (cs : List Char) : Steps s₁ (' ' :: cs) [] s₂ cs :=
    ⟨by simp, fun pos => ⟨_, rfl, rfl, rfl, rfl⟩⟩
  have named : Steps s₂ (name.chars ++ '(' :: rest) [.name name.name] s₃ ('(' :: rest) :=
    steps_word (fun _ _ => rfl) (fun _ => rfl) name (by constructor <;> decide) rest
  have opened : Steps s₃ ('(' :: rest) [.op "("]
      (within [0] 1 [.bracket ')'] [.op "(", .name name.name]) rest :=
    ⟨by simp, fun pos => ⟨_, rfl, rfl, rfl, rfl⟩⟩
  exact (keyword _).passes.trans ((blank _).passes.trans (named.passes.trans opened.passes))

theorem steps_close (blocks : List Nat) (column : Nat) (outer : List LexContext)
    (last : List TokenKind) (rest : List Char) :
    Steps (within blocks column (.bracket ')' :: outer) last) (')' :: rest) [.op ")"]
      (within blocks column outer (.op ")" :: last.take 1)) rest :=
  ⟨Nat.lt_succ_self _, fun _ => ⟨_, rfl, rfl, rfl, rfl⟩⟩

/-- A text that is passed to its end is read to its end. -/
theorem Passes.reads {kinds : List TokenKind} (h : Passes s cs kinds s' []) (pos : Nat) :
    ∃ ts, Reads s pos cs ts s' ∧ ts.map (·.kind) = kinds := by
  generalize left : ([] : List Char) = cs' at h
  induction h generalizing pos with
  | done => exact ⟨[], left ▸ .done, rfl⟩
  | @step s s' s'' cs cs' cs'' kinds more first _ ih =>
    obtain ⟨lexed, made, rfl, rfl, rfl⟩ := first.step_eq pos
    obtain ⟨later, reads, rfl⟩ := ih (pos + lexed.taken) left
    cases cs with
    | nil => exact absurd first.shorter (Nat.not_lt_zero _)
    | cons c cs => exact ⟨lexed.tokens ++ later, .step made reads, List.map_append⟩

/-- Behind a text that is passed the tokens are those from there on. -/
theorem Passes.tokensAt {kinds : List TokenKind} {rest : List Char} (h : Passes s cs kinds s' rest)
    (valid : Valid s) (pos : Nat) : Valid s' ∧ rest.length ≤ cs.length ∧
      ∃ ts, ts.map (·.kind) = kinds ∧ Lexer.tokensAt s pos cs =
        (Lexer.tokensAt s' (pos + (cs.length - rest.length)) rest).map (ts ++ ·) := by
  induction h generalizing pos with
  | done => exact ⟨valid, Nat.le_refl _, [], rfl, by simp⟩
  | @step s s' s'' cs cs' rest kinds more first _ ih =>
    obtain ⟨lexed, made, rfl, rfl, rfl⟩ := first.step_eq pos
    have stepped := (valid.stepsOver made).1
    obtain ⟨valid', shorter, later, rfl, goes_on⟩ := ih (valid.stepped stepped) (pos + lexed.taken)
    have length : lexed.rest.length = cs.length - lexed.taken := by
      rw [stepped.rest, List.length_drop]
    have taken := stepped.taken
    refine ⟨valid', by omega, lexed.tokens ++ later, List.map_append, ?_⟩
    cases cs with
    | nil => exact absurd first.shorter (Nat.not_lt_zero _)
    | cons c cs =>
      have there : pos + lexed.taken + (lexed.rest.length - rest.length) =
          pos + ((c :: cs).length - rest.length) := by omega
      rw [tokensAt_step valid made, goes_on, there, Option.map_map]
      congr 1
      funext us
      exact (List.append_assoc _ _ _).symm

/-! Where names stand. -/

/-- The stretch of a token of a name holds the name. -/
def Covers (source : List Char) (t : Token) : Prop :=
  ∀ word, t.kind = .name word → (source.drop t.start).take (t.stop - t.start) = word.toList

def NoName (kind : TokenKind) : Prop := ∀ word, kind ≠ .name word

theorem covers_single {kind : TokenKind} (other : NoName kind) (length : Nat) (rest : List Char) :
    ∀ t ∈ (single s pos kind length rest).tokens, Covers source t := by
  intro t mem word name
  obtain rfl := List.mem_singleton.mp mem
  exact absurd name (other word)

theorem covers_bareOperator? (found : bareOperator? s pos cs = some lexed) :
    ∀ t ∈ lexed.tokens, Covers source t := by
  obtain ⟨op, -, found⟩ := Option.bind_eq_some_iff.mp found
  rw [delimiterToken?_tokens found]
  exact covers_single (s := s) (fun _ => TokenKind.noConfusion : NoName (.op op)) op.length cs

theorem covers_operatorToken? (found : operatorToken? s pos (c :: cs) = some lexed) :
    ∀ t ∈ lexed.tokens, Covers source t := by
  by_cases inside : ∃ outer, s.contexts = .interpolation :: outer
  · obtain ⟨outer, context⟩ := inside
    by_cases close : c = '\x7d'
    · subst close
      rw [operatorToken?_close context] at found
      cases found
      exact covers_single (fun _ => TokenKind.noConfusion) _ _
    by_cases mark : c = '!'
    · subst mark
      cases cs with
      | nil =>
        rw [operatorToken?_lone_mark] at found
        contradiction
      | cons d cs =>
        rw [operatorToken?_mark context] at found
        split_ifs at found
        · cases found
          exact covers_single (fun _ => TokenKind.noConfusion) _ _
        · exact covers_bareOperator? found
    by_cases colon : c = ':'
    · subst colon
      rw [operatorToken?_colon context] at found
      split_ifs at found
      · cases found
        exact covers_single (fun _ => TokenKind.noConfusion) _ _
      · exact covers_bareOperator? found
    · exact covers_bareOperator? (operatorToken?_inside context close mark colon ▸ found)
  · rw [operatorToken?_outside fun outer h => inside ⟨outer, h⟩] at found
    exact covers_bareOperator? found

theorem covers_stringToken? {letters quote rest : List Char}
    (found : stringToken? s pos letters quote rest = some lexed) :
    ∀ t ∈ lexed.tokens, Covers source t := by
  rw [stringToken?] at found
  dsimp only at found
  split at found
  · cases found
    exact covers_single (fun _ => TokenKind.noConfusion) _ _
  · obtain ⟨⟨content, after⟩, -, found⟩ := Option.bind_eq_some_iff.mp found
    cases found
    exact covers_single (fun _ => TokenKind.noConfusion) _ _

theorem covers_word (here : source.drop pos = c :: cs) (rest : List Char) :
    let word := c :: cs.takeWhile isIdentRest
    ∀ t ∈ (single s pos (.ofWord word) word.length rest).tokens, Covers source t := by
  intro word t mem text name
  obtain rfl := List.mem_singleton.mp mem
  have spelled : String.ofList word = text := by
    change TokenKind.ofWord word = .name text at name
    rw [TokenKind.ofWord] at name
    split at name
    · contradiction
    · exact TokenKind.name.inj name
  have front : word <+: c :: cs := List.cons_prefix_cons.mpr ⟨rfl, List.takeWhile_prefix _⟩
  change (source.drop pos).take (pos + word.length - pos) = _
  rw [here, Nat.add_sub_cancel_left, ← List.prefix_iff_eq_take.mp front, ← spelled,
    String.toList_ofList]

theorem covers_token? (here : source.drop pos = cs) (found : token? s pos cs = some lexed) :
    ∀ t ∈ lexed.tokens, Covers source t := by
  cases start : stringStart? cs with
  | some x =>
    obtain ⟨letters, quote, rest⟩ := x
    exact covers_stringToken? (token?_string start ▸ found)
  | none =>
    cases cs with
    | nil =>
      rw [token?.eq_def, start] at found
      contradiction
    | cons c cs =>
      rw [token?_other start] at found
      split_ifs at found
      · cases found
        exact covers_word here _
      · cases found
        exact covers_single (fun _ => TokenKind.noConfusion) _ _
      · exact covers_operatorToken? found

theorem covers_formatTokens {raw : Bool} {quote content rest : List Char}
    {outer : List LexContext} {stop : FormatStop} :
    ∀ t ∈ (formatTokens s raw quote outer pos content stop rest).tokens, Covers source t := by
  intro t mem word name
  cases stop <;>
    simp only [formatTokens, List.mem_append, List.mem_ite_nil_left, List.mem_singleton] at mem <;>
    obtain ⟨-, rfl⟩ | rfl := mem <;> contradiction

theorem covers_opening (valid : Valid s) :
    ∀ t ∈ (opening s pos).1, Covers source t := by
  intro t mem word name
  have break_ := opening_isBreak valid t mem
  rw [name] at break_
  contradiction

theorem covers_codeStep (valid : Valid s) (here : source.drop pos = c :: cs)
    (found : codeStep s pos (c :: cs) = some lexed) : ∀ t ∈ lexed.tokens, Covers source t := by
  by_cases break_ : c = '\n'
  · subst break_
    rw [codeStep.eq_2] at found
    split_ifs at found
    · cases found
      exact covers_single (fun _ => TokenKind.noConfusion) _ _
    · cases found
      exact List.forall_mem_nil _
    · cases found
      exact List.forall_mem_nil _
  by_cases escape : c = '\\'
  · subst escape
    simp only [codeStep_backslash, Option.map_eq_some_iff, Prod.exists] at found
    obtain ⟨taken, rest, -, rfl⟩ := found
    exact List.forall_mem_nil _
  by_cases comment : c = '#'
  · subst comment
    rw [codeStep.eq_5] at found
    split at found
    · contradiction
    · cases found
      exact List.forall_mem_nil _
  rw [codeStep_plain break_ escape comment] at found
  split_ifs at found
  · cases found
    exact List.forall_mem_nil _
  · cases found
    exact List.forall_mem_nil _
  · cases found
    exact List.forall_mem_nil _
  · cases found
    exact List.forall_mem_nil _
  · obtain ⟨inner, read, rfl⟩ := Option.map_eq_some_iff.mp found
    intro t mem
    obtain mem | mem := List.mem_append.mp mem
    · exact covers_opening valid t mem
    · exact covers_token? here read t mem

theorem covers_specificationStep {outer : List LexContext}
    (found : specificationStep s outer pos cs = some lexed) :
    ∀ t ∈ lexed.tokens, Covers source t := by
  rw [specificationStep.eq_def] at found
  split at found
  · cases found
    exact covers_single (fun _ => TokenKind.noConfusion) _ _
  · cases found
    exact covers_single (fun _ => TokenKind.noConfusion) _ _
  · cases found
    exact List.forall_mem_nil _
  · contradiction

theorem covers_step (valid : Valid s) (here : source.drop pos = c :: cs)
    (found : step s pos (c :: cs) = some lexed) : ∀ t ∈ lexed.tokens, Covers source t := by
  rw [step] at found
  split at found
  · rw [formatStep_eq, Option.map_eq_some_iff] at found
    obtain ⟨⟨content, stop, rest⟩, -, rfl⟩ := found
    exact covers_formatTokens
  · exact covers_specificationStep found
  · exact covers_codeStep valid here found

/-- Every token of a name that a run reads covers the name. -/
theorem Reads.covers (reads : Reads s pos cs ts s') (valid : Valid s)
    (here : source.drop pos = cs) : ∀ t ∈ ts, Covers source t := by
  induction reads with
  | done => exact List.forall_mem_nil _
  | @step s s' pos c cs lexed more made _ ih =>
    have stepped := (valid.stepsOver made).1
    have later : source.drop (pos + lexed.taken) = lexed.rest := by
      rw [stepped.rest, ← here, List.drop_drop]
    intro t mem
    obtain mem | mem := List.mem_append.mp mem
    · exact covers_step valid here made t mem
    · exact ih (valid.stepped stepped) later t mem

theorem covers_tokenize (found : tokenize cs = some ts) : ∀ t ∈ ts, Covers cs t := by
  obtain ⟨us, s, reads, -, rfl⟩ := tokenize_eq_some cs ts found
  intro t mem
  obtain mem | mem := List.mem_append.mp mem
  · exact reads.covers .start rfl t mem
  · intro word name
    have break_ := ends_isBreak t mem
    rw [name] at break_
    contradiction

end Lexer

end AgentWorkbench.Python
