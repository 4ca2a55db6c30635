import AgentWorkbench.Proofs.Python.Names

/-!
Format strings as they are written. In the texts of a format string the escapes are written first
and then every brace twice; a name stands between braces of its own. A reader finds the same texts
again: those that stand beside each other are one token, and each name is three.
-/
namespace AgentWorkbench.Python

open Text Lexer

inductive Part where
  | text (content : String)
  | name (word : Identifier)

/-- A text with every brace written twice. -/
def doubled (cs : List Char) : List Char :=
  cs.flatMap fun c => if isBrace c then [c, c] else [c]

namespace Part

def written : Part → List Char
  | text content => doubled (escaped content.toList)
  | name word => '\x7b' :: (word.chars ++ ['\x7d'])

/-- What a part stands for. -/
def shown : Part → List Char
  | text content => content.toList
  | name word => '\x7b' :: (word.chars ++ ['\x7d'])

end Part

theorem Identifier.first_ne_brace (word : Identifier) : word.first ≠ '\x7b' := by
  intro brace
  exact absurd (brace ▸ word.starts) (by decide)

/-! Doubled braces. -/

/-- A text with one character written twice. -/
def doubledAt (a : Char) (cs : List Char) : List Char :=
  cs.flatMap fun c => if c = a then [a, a] else [c]

theorem replacePair_cons_of_ne {a b put c : Char} (h : c ≠ a) (rest : List Char) :
    replacePair a b put (c :: rest) = c :: replacePair a b put rest := by
  cases rest with
  | nil => rfl
  | cons d rest => rw [replacePair, if_neg fun both => h both.1]

theorem replacePair_doubledAt (a : Char) (cs : List Char) :
    replacePair a a a (doubledAt a cs) = cs := by
  induction cs with
  | nil => rfl
  | cons c cs ih =>
      rw [doubledAt, List.flatMap_cons, ← doubledAt]
      split_ifs with same
      · rw [same, List.cons_append, List.singleton_append, replacePair, if_pos ⟨rfl, rfl⟩, ih]
      · rw [List.singleton_append, replacePair_cons_of_ne same, ih]

theorem doubled_eq (cs : List Char) : doubled cs = doubledAt '\x7b' (doubledAt '\x7d' cs) := by
  rw [doubledAt, doubledAt, List.flatMap_assoc, doubled]
  congr 1
  funext c
  by_cases open_ : c = '\x7b'
  · subst open_
    rfl
  by_cases close : c = '\x7d'
  · subst close
    rfl
  · simp [isBrace, open_, close]

theorem doubled_append (cs ds : List Char) : doubled (cs ++ ds) = doubled cs ++ doubled ds :=
  List.flatMap_append

theorem escaped_append (cs ds : List Char) : escaped (cs ++ ds) = escaped cs ++ escaped ds :=
  List.flatMap_append

/-- A text is what its writing in a format string stands for. -/
theorem decodeSegment_doubled (cs : List Char) :
    decodeSegment { format := true } (doubled (escaped cs)) = cs := by
  have halved : replacePair '}' '}' '}' (replacePair '\x7b' '\x7b' '\x7b'
      (doubled (escaped cs))) = escaped cs := by
    rw [doubled_eq, replacePair_doubledAt, replacePair_doubledAt]
  change decodeEscapes _ = cs
  rw [if_pos rfl, halved, decodeEscapes_escaped]

namespace Lexer

/-! Literal text. -/

theorem formatContent?_escapeChar (c : Char) (rest : List Char) :
    formatContent? false ['"'] (doubled (escapeChar c) ++ rest) =
      formatContent?.extend (doubled (escapeChar c)) (formatContent? false ['"'] rest) := by
  by_cases special : c ∈ '\x7b' :: '\x7d' :: escapees
  · simp only [escapees, List.mem_cons, List.not_mem_nil, or_false] at special
    obtain rfl | rfl | rfl | rfl | rfl | rfl | rfl := special <;>
      simp [escapeChar, escapees, doubled, isBrace, formatContent?, formatContent?.extend,
        Function.comp_def]
  · simp only [List.mem_cons, not_or] at special
    obtain ⟨open_, close, plain⟩ := special
    have unbraced : isBrace c = false := by simp [isBrace, open_, close]
    have single : doubled (escapeChar c) = [c] := by
      rw [escapeChar_plain plain]
      simp [doubled, unbraced]
    simp only [escapees, List.mem_cons, List.not_mem_nil, or_false, not_or] at plain
    obtain ⟨no_escape, no_quote, no_break, -, no_zero⟩ := plain
    have not_zero : c.toNat ≠ 0 := fun zero => no_zero (Char.toNat_inj.mp zero)
    have no_end : ['"'].isPrefixOf (c :: rest) = false := by
      simp [List.isPrefixOf, Ne.symm no_quote]
    rw [single, List.singleton_append, formatContent?_plain open_ close no_escape, no_end]
    simp [not_zero, no_break]

theorem extend_extend (front more : List Char)
    (o : Option (List Char × FormatStop × List Char)) :
    formatContent?.extend front (formatContent?.extend more o) =
      formatContent?.extend (front ++ more) o := by
  cases o with
  | none => rfl
  | some x => simp [formatContent?.extend]

theorem formatContent?_text (cs rest : List Char) :
    formatContent? false ['"'] (doubled (escaped cs) ++ rest) =
      formatContent?.extend (doubled (escaped cs)) (formatContent? false ['"'] rest) := by
  induction cs with
  | nil =>
      change formatContent? false ['"'] rest = _
      cases formatContent? false ['"'] rest <;> rfl
  | cons c cs ih =>
      have split : doubled (escaped (c :: cs)) = doubled (escapeChar c) ++ doubled (escaped cs) :=
        doubled_append _ _
      rw [split, List.append_assoc, formatContent?_escapeChar, ih, extend_extend]

/-! Tokens. -/

/-- The token of a text. -/
def textKinds (pending : List Char) : List TokenKind :=
  let content := doubled (escaped pending)
  if content.isEmpty then [] else [.formatText content]

/-- The tokens of parts and of the quote behind them, where `pending` is the text before them. -/
def partKinds (pending : List Char) : List Part → List TokenKind
  | [] => textKinds pending ++ [.formatEnd]
  | .text content :: rest => partKinds (pending ++ content.toList) rest
  | .name word :: rest => textKinds pending ++
      .interpolationStart :: .name word.name :: .interpolationEnd :: partKinds [] rest

/-- The token of what ends a text. -/
def FormatStop.kind : FormatStop → TokenKind
  | .quote => .formatEnd
  | .brace => .interpolationStart

theorem map_kind_text (pending : List Char) (start stop : Nat) :
    let content := doubled (escaped pending)
    let tokens : List Token :=
      if content.isEmpty then [] else [⟨.formatText content, start, stop⟩]
    tokens.map (·.kind) = textKinds pending := by
  dsimp only
  rw [textKinds]
  split <;> rfl

section Parts

def FormatStop.contexts (outer : List LexContext) : FormatStop → List LexContext
  | .quote => outer
  | .brace => .interpolation :: .format false ['"'] :: outer

variable (blocks : List Nat) (column : Nat) (outer : List LexContext) {last : List TokenKind}

/-- The contexts in the literal text of a format string. -/
def inText : List LexContext := .format false ['"'] :: outer

/-- A text is one step, with what ends it. -/
theorem steps_text (pending : List Char) {cs rest : List Char} {stop : FormatStop}
    (ends : formatContent? false ['"'] cs = some ([], stop, rest))
    (shorter : rest.length < cs.length) :
    Steps (within blocks column (inText outer) last) (doubled (escaped pending) ++ cs)
      (textKinds pending ++ [stop.kind])
      (within blocks column (stop.contexts outer) (stop.kind :: last.take 1)) rest := by
  have content : formatContent? false ['"'] (doubled (escaped pending) ++ cs) =
      some (doubled (escaped pending), stop, rest) := by
    rw [formatContent?_text, ends]
    simp [formatContent?.extend]
  let s := within blocks column (inText outer) last
  refine ⟨?_, fun pos => ⟨formatTokens s false ['"'] outer pos (doubled (escaped pending)) stop rest,
    ?_, ?_, ?_, ?_⟩⟩
  · rw [List.length_append]
    omega
  · change formatStep _ false ['"'] outer pos _ = _
    rw [formatStep_eq, content]
    rfl
  · have kinds := map_kind_text pending pos (pos + (doubled (escaped pending)).length)
    cases stop with
    | quote => exact List.map_append.trans (congrArg (· ++ [TokenKind.formatEnd]) kinds)
    | brace => exact List.map_append.trans (congrArg (· ++ [TokenKind.interpolationStart]) kinds)
  · cases stop <;> rfl
  · cases stop <;> rfl

theorem passes_word (word : Identifier) (rest : List Char) : ∃ last',
    Passes (within blocks column (.interpolation :: inText outer) last)
      (word.chars ++ '\x7d' :: rest) [.name word.name, .interpolationEnd]
      (within blocks column (inText outer) last') rest := by
  let s := within blocks column (.interpolation :: inText outer) last
  have ends : EndsWord '\x7d' := by constructor <;> decide
  have name : Steps s _ _ _ _ := steps_word (fun _ _ => rfl) (fun _ => rfl) word ends rest
  have close : Steps (remember s (.name word.name)) ('\x7d' :: rest) [.interpolationEnd]
      (within blocks column (inText outer) [.interpolationEnd, .name word.name]) rest :=
    ⟨Nat.lt_succ_self _, fun pos => ⟨_, rfl, rfl, rfl, rfl⟩⟩
  exact ⟨_, name.passes.trans close.passes⟩

theorem passes_parts (parts : List Part) (pending rest : List Char) : ∃ last',
    Passes (within blocks column (inText outer) last)
      (doubled (escaped pending) ++ (parts.flatMap Part.written ++ '"' :: rest))
      (partKinds pending parts) (within blocks column outer last') rest := by
  induction parts generalizing pending last with
  | nil =>
      have ends : formatContent? false ['"'] ('"' :: rest) = some ([], .quote, rest) := by
        simp [formatContent?]
      exact ⟨_, (steps_text blocks column outer pending ends (Nat.lt_succ_self _)).passes⟩
  | cons part parts ih =>
      cases part with
      | text content =>
          obtain ⟨last', passed⟩ := @ih last (pending ++ content.toList)
          rw [escaped_append, doubled_append, List.append_assoc] at passed
          exact ⟨last', by simpa [Part.written, partKinds] using passed⟩
      | name word =>
          let behind := parts.flatMap Part.written ++ '"' :: rest
          have ends : formatContent? false ['"'] ('\x7b' :: (word.chars ++ '\x7d' :: behind)) =
              some ([], .brace, word.chars ++ '\x7d' :: behind) :=
            formatContent?.eq_3 false ['"'] _ fun _ same =>
              absurd (List.cons_eq_cons.mp same).1 word.first_ne_brace
          have first : Passes (within blocks column (inText outer) last) _ _ _ _ :=
            (steps_text blocks column outer pending ends (Nat.lt_succ_self _)).passes
          obtain ⟨last₁, named⟩ := passes_word blocks column outer word behind
          obtain ⟨last₂, later⟩ := @ih last₁ []
          have passed := first.trans (named.trans later)
          refine ⟨last₂, ?_⟩
          simpa [Part.written, partKinds, behind, FormatStop.kind] using passed

end Parts

end Lexer

/-! Literals one after the other. -/

/-- A literal of a message: a format string, or a string without names to fill in. -/
inductive Piece where
  | formatted (parts : List Part)
  | plain (texts : List String)

namespace Piece

def parts : Piece → List Part
  | formatted parts => parts
  | plain texts => texts.map .text

/-- The characters between a literal's quotes. -/
def content : Piece → List Char
  | formatted parts => parts.flatMap Part.written
  | plain texts => texts.flatMap fun text => escaped text.toList

def letters : Piece → List Char
  | formatted _ => ['f']
  | plain _ => []

def written (piece : Piece) : List Char :=
  piece.letters ++ '"' :: (piece.content ++ ['"'])

def kinds : Piece → List TokenKind
  | formatted parts => .formatStart { format := true } :: partKinds [] parts
  | plain texts => [.string {} (escaped (texts.flatMap String.toList))]

end Piece

/-- The blanks between two literals inside of brackets. -/
structure Gap where
  blanks : List Char
  blank : ∀ c ∈ blanks, c ∈ [' ', '\t', '\n']

/-- No quote is right behind an empty literal. -/
def Apart : Piece → List (Gap × Piece) → Prop
  | _, [] => True
  | piece, (gap, next) :: more =>
    (piece.content = [] → Unquoted (gap.blanks ++ next.written)) ∧ Apart next more

/-- Literals one after the other. -/
structure Literals where
  first : Piece
  more : List (Gap × Piece)
  apart : Apart first more

namespace Literals

variable (literals : Literals)

def parts : List Part := literals.first.parts ++ literals.more.flatMap (·.2.parts)

def written : List Char :=
  literals.first.written ++ literals.more.flatMap fun next => next.1.blanks ++ next.2.written

def kinds : List TokenKind := literals.first.kinds ++ literals.more.flatMap (·.2.kinds)

end Literals

namespace Lexer

theorem unquoted_doubled {cs : List Char} (h : Unquoted cs) : Unquoted (doubled cs) := by
  cases cs with
  | nil => exact h
  | cons c cs =>
      intro d head
      have same : d = c := by
        rw [doubled, List.flatMap_cons] at head
        split at head <;> cases head <;> rfl
      exact same ▸ h c rfl

theorem unquoted_content (piece : Piece) : Unquoted piece.content := by
  cases piece with
  | plain texts => exact .flatMap (fun text => unquoted_escaped text.toList) texts
  | formatted parts =>
      refine .flatMap (fun part => ?_) parts
      cases part with
      | text content => exact unquoted_doubled (unquoted_escaped content.toList)
      | name word => rintro _ ⟨⟩; decide

section Literals

variable (blocks : List Nat) (close : Char) (outer : List LexContext)

/-- A literal inside brackets is passed, if no quote is right behind an empty one. -/
theorem passes_piece (piece : Piece) (column : Nat) (last : List TokenKind) (rest : List Char)
    (apart : piece.content = [] → Unquoted rest) :
    ∃ last', Passes (within blocks column (.bracket close :: outer) last)
      (piece.written ++ rest) piece.kinds
      (within blocks column (.bracket close :: outer) last') rest := by
  have unquoted := quote?_single (unquoted_content piece) apart
  cases piece with
  | plain texts =>
      let text := texts.flatMap String.toList
      have content : (texts.flatMap fun text => escaped text.toList) = escaped text :=
        (List.flatMap_assoc ..).symm
      have written : (Piece.plain texts).written ++ rest =
          '"' :: (escaped text ++ '"' :: rest) := by
        rw [Piece.written, Piece.content, content]
        simp [Piece.letters]
      rw [written]
      rw [Piece.content, content] at apart
      exact ⟨_, (steps_literal blocks column last close outer text rest apart).passes⟩
  | formatted parts =>
      let s := within blocks column (.bracket close :: outer) last
      let content := parts.flatMap Part.written
      have opening : stringStart? ('f' :: '"' :: (content ++ '"' :: rest)) =
          some (['f'], ['"'], content ++ '"' :: rest) :=
        congrArg (Option.map _) unquoted
      have start : Steps s ('f' :: '"' :: (content ++ '"' :: rest))
          [.formatStart { format := true }]
          (within blocks column (inText (.bracket close :: outer))
            (.formatStart { format := true } :: last.take 1)) (content ++ '"' :: rest) := by
        refine ⟨by simp only [List.length_cons]; omega, fun pos => ?_⟩
        have code : step s pos ('f' :: '"' :: (content ++ '"' :: rest)) =
            stringToken? s pos ['f'] ['"'] (content ++ '"' :: rest) := by
          change token? s pos _ = _
          rw [token?, opening]
        exact ⟨_, code.trans rfl, rfl, rfl, rfl⟩
      obtain ⟨last', passed⟩ := passes_parts blocks column (.bracket close :: outer) parts []
        rest
      refine ⟨last', ?_⟩
      have whole := start.passes.trans passed
      simpa [Piece.written, Piece.letters, Piece.content, Piece.kinds, content, s] using whole

theorem passes_gap (gap : Gap) (column : Nat) (last : List TokenKind) (rest : List Char) :
    ∃ column', Passes (within blocks column (.bracket close :: outer) last) (gap.blanks ++ rest) []
      (within blocks column' (.bracket close :: outer) last) rest := by
  have blank := gap.blank
  generalize gap.blanks = blanks at blank ⊢
  induction blanks generalizing column with
  | nil => exact ⟨column, .done⟩
  | cons c blanks ih =>
      obtain ⟨here, later⟩ := List.forall_mem_cons.mp blank
      have first : ∃ column', Steps (within blocks column (.bracket close :: outer) last)
          (c :: (blanks ++ rest)) [] (within blocks column' (.bracket close :: outer) last)
          (blanks ++ rest) := by
        simp only [List.mem_cons, List.not_mem_nil, or_false] at here
        obtain rfl | rfl | rfl := here <;>
          exact ⟨_, Nat.lt_succ_self _, fun pos => ⟨_, rfl, rfl, rfl, rfl⟩⟩
      obtain ⟨column₁, step⟩ := first
      obtain ⟨column₂, passed⟩ := ih column₁ later
      exact ⟨column₂, step.passes.trans passed⟩

/-- Literals inside brackets are passed to the character behind them, which is no quote. -/
theorem passes_literals (literals : Literals) (column : Nat) (last : List TokenKind) {c : Char}
    (behind : c ≠ '"') (rest : List Char) :
    ∃ column' last', Passes (within blocks column (.bracket close :: outer) last)
      (literals.written ++ c :: rest) literals.kinds
      (within blocks column' (.bracket close :: outer) last') (c :: rest) := by
  obtain ⟨first, more, apart⟩ := literals
  simp only [Literals.written, Literals.kinds]
  induction more generalizing first column last with
  | nil =>
      obtain ⟨last', passed⟩ := passes_piece blocks close outer first column last (c :: rest)
        fun _ => unquoted_cons behind rest
      exact ⟨column, last', by simpa using passed⟩
  | cons next more ih =>
      obtain ⟨gap, second⟩ := next
      obtain ⟨here, later⟩ := apart
      let behind_second :=
        (more.flatMap fun next => next.1.blanks ++ next.2.written) ++ c :: rest
      have unquoted (empty : first.content = []) :
          Unquoted (gap.blanks ++ (second.written ++ behind_second)) := by
        rw [← List.append_assoc]
        exact (here empty).append (by simp [Piece.written]) _
      obtain ⟨last₁, passed₁⟩ := passes_piece blocks close outer first column last
        (gap.blanks ++ (second.written ++ behind_second)) unquoted
      obtain ⟨column₂, passed₂⟩ := passes_gap blocks close outer gap column last₁
        (second.written ++ behind_second)
      obtain ⟨column₃, last₃, passed₃⟩ := ih column₂ last₁ second later
      rw [List.append_assoc] at passed₃
      refine ⟨column₃, last₃, ?_⟩
      simpa [behind_second] using passed₁.trans (passed₂.trans passed₃)

end Literals

end Lexer

end AgentWorkbench.Python
