import AgentWorkbench.Proofs.Python.Signatures

/-!
Functions written with a header, among other statements. Whatever is above the function, whatever
decorates it and whatever is behind its header: where the source is read with no parameters, it is
read with those of the header, and the function gets the ones that can be given by position and by
name.
-/
namespace AgentWorkbench.Python

open Parse Lexer Text

/-! The function at the start of a source. -/

/-- What is behind a closing parenthesis is read in the same way, whatever is before it. -/
theorem similar_closed (column column' : Nat) (last last' : List TokenKind) :
    Similar (within [0] column [] (.op ")" :: last)) (within [0] column' [] (.op ")" :: last')) where
  contexts := rfl
  blocks := rfl
  column := nofun
  lineOpen := rfl
  block := nofun
  value := rfl
  nextBlock _ := rfl
  nextValue _ := rfl

/-- The start of a function, with this text behind its opening parenthesis. -/
def functionText (name : Identifier) (behind : List Char) : List Char :=
  "def ".toList ++ (name.chars ++ '(' :: behind)

theorem length_functionText (name : Identifier) (behind : List Char) :
    (functionText name behind).length = name.chars.length + 5 + behind.length := by
  simp only [functionText, List.length_append, List.length_cons, String.length_toList]
  change 4 + _ = _
  omega

section Source

variable (name : Identifier) (header : Header) {layout : List (Gap × Lexeme)} (gap : Gap)
  {tail : List Char} {bare : SourceTree}

/-- The tokens of a function without parameters and those of one with a header: behind the closing
parenthesis they are the same ones at another place. -/
theorem tokenize_header (laid : layout.map Prod.snd = header.lexemes) {us : List Token}
    (tokens : tokenize (functionText name (')' :: tail)) = some us) :
    ∃ σ head head' params close close' rest rest', us = head ++ close :: rest ∧
      tokenize (functionText name (layoutText layout ++ (gap.blanks ++ ')' :: tail))) =
        some (head' ++ (params ++ close' :: rest')) ∧
      Alike σ 0 rest rest' ∧ σ.rest = [] ∧
      head.map (·.kind) = Grammar.headKinds name.name ∧
      head'.map (·.kind) = Grammar.headKinds name.name ∧
      params.map (·.kind) = header.lexemes.map Lexeme.kind ∧
      close.kind = .op ")" ∧ close'.kind = .op ")" := by
  have inner : (layout.map Prod.snd).IsChain Lexeme.Precedes := laid ▸ header.isChain_lexemes
  obtain ⟨column, last, passed⟩ :=
    passes_layout [0] 1 ')' [] [.op "(", .name name.name] layout inner gap tail
  have short : Passes {} (functionText name (')' :: tail)) _ _ tail :=
    (passes_def name (')' :: tail)).trans (steps_close ..).passes
  have long : Passes {} (functionText name (layoutText layout ++ (gap.blanks ++ ')' :: tail))) _ _
      tail := (passes_def name _).trans (passed.trans (steps_close ..).passes)
  obtain ⟨valid, -, ts, kinds, read⟩ := short.tokensAt .start 0
  obtain ⟨valid', -, ts', kinds', read'⟩ := long.tokensAt .start 0
  rw [tokenize_eq, read, Option.map_eq_some_iff] at tokens
  obtain ⟨rest, behind, rfl⟩ := tokens
  -- Between the parentheses there are `d` characters more.
  let d := (layoutText layout ++ gap.blanks).length
  have there : 0 + ((functionText name (layoutText layout ++ (gap.blanks ++ ')' :: tail))).length -
      tail.length) = 0 + ((functionText name (')' :: tail)).length - tail.length) + d := by
    simp only [d, length_functionText, List.length_append, List.length_cons]
    omega
  have inside : 0 + ((functionText name (')' :: tail)).length - tail.length) ≠ 0 := by
    rw [length_functionText, List.length_cons]
    omega
  rw [there, tokensAt_similar (similar_closed ..) valid valid' (.inr (.inl inside)), behind] at read'
  have alike := alike_tokensAt valid behind (nofun : Fresh []) d
  rw [List.append_nil] at alike
  obtain ⟨head, _, rfl, head_kinds, close_kinds⟩ := List.map_eq_append_iff.mp kinds
  obtain ⟨close, _, rfl, ends, done⟩ := List.map_eq_cons_iff.mp close_kinds
  obtain rfl := List.map_eq_nil_iff.mp done
  obtain ⟨head', _, rfl, head_kinds', later⟩ := List.map_eq_append_iff.mp kinds'
  obtain ⟨params, _, rfl, param_kinds, close_kinds'⟩ := List.map_eq_append_iff.mp later
  obtain ⟨close', _, rfl, ends', done'⟩ := List.map_eq_cons_iff.mp close_kinds'
  obtain rfl := List.map_eq_nil_iff.mp done'
  refine ⟨_, head, head', params, close, close', rest, _, List.append_assoc .., ?_, alike, rfl,
    head_kinds, head_kinds', ?_, ends, ends'⟩
  · rw [tokenize_eq, read']
    simp
  · rw [param_kinds, ← laid, List.map_map]
    rfl

theorem parse?_header (laid : layout.map Prod.snd = header.lexemes)
    (parsed : SourceTree.parse? (functionText name (')' :: tail)) = some bare) :
    ∃ tree others, SourceTree.parse? (functionText name
        (layoutText layout ++ (gap.blanks ++ ')' :: tail))) = some tree ∧
      bare.signatures = (name.name, []) :: others ∧
      tree.signatures = (name.name, header.ordinary.map (·.name.name)) :: others := by
  obtain ⟨us, tokens, found, -⟩ := parse?_eq_some.mp parsed
  obtain ⟨σ, head, head', params, close, close', rest, rest', rfl, tokens', alike, nothing, starts,
    starts', kinds, ends, ends'⟩ := tokenize_header name header gap laid tokens
  obtain ⟨whole, others, found', signed, signed'⟩ :=
    Grammar.file_header header starts starts' ends ends' kinds alike nothing found
  refine ⟨⟨_, whole⟩, others, parse?_eq_some.mpr ⟨_, tokens', found', rfl⟩, ?_, ?_⟩
  · rw [SourceTree.signatures_eq, signed]
  · rw [SourceTree.signatures_eq, signed']

end Source

/-! The function among other statements. -/

/-- A text of decorators, of which the last line has ended. -/
structure Decorators (above : List Char) : Prop where
  starts : StartsToken above
  stands : ∃ ts s, Stands above ts s
  reads : ∃ ts first more, tokenize above = some ts ∧
    many (Grammar.decorator (Grammar.read (Grammar.depth ts))) ts = some (first :: more, [])

theorem startsToken_functionText (name : Identifier) (behind : List Char) :
    StartsToken (functionText name behind) :=
  ⟨'d', _, rfl, by decide⟩

section Statements

variable {front above more : List Char} {name : Identifier} {tree front_tree : SourceTree}

/-- Decorators leave the functions of a source what they are. -/
theorem parse?_above (h : above = [] ∨ Decorators above)
    (parsed : SourceTree.parse? (functionText name more) = some tree) : ∃ tree',
      SourceTree.parse? (above ++ functionText name more) = some tree' ∧
        tree'.signatures = tree.signatures := by
  obtain rfl | decorators := h
  · exact ⟨tree, parsed, rfl⟩
  obtain ⟨_, _, stands⟩ := decorators.stands
  have joins := stands.joins (startsToken_functionText name more)
  obtain ⟨ts, first, others, tokens, reads⟩ := decorators.reads
  obtain rfl := Option.some.inj (joins.alone.symm.trans tokens)
  obtain ⟨tree', decorations, function, later, found, children, same, _, kind⟩ :=
    parse?_decorators joins (fun fuel rest s e enough => by
      have fresh : Fresh (⟨.keyword "def", s, e⟩ :: rest) := by
        intro t head
        obtain rfl := Option.some.inj head
        change TokenKind.keyword "def" ∉ continuing
        decide
      have alike := alike_tokenize tokens fresh 0
      rw [Token.map_moved_zero] at alike
      exact Grammar.chain_decorators reads alike rfl enough) parsed
  refine ⟨tree', found, ?_⟩
  have moved := Node.filterMap_signature?_moved tree.root.children above.length
  rw [SourceTree.signatures_eq, SourceTree.signatures_eq, ← moved, same, children,
    List.filterMap_cons, List.filterMap_cons, Node.signature?_decorated decorations kind]

/-- The functions of two sources, one after the other. -/
theorem parse?_below (upper : SourceTree.parse? front = some front_tree)
    (stands : ∃ ts s, Stands front ts s) (start : StartsToken more)
    (parsed : SourceTree.parse? more = some tree) : ∃ whole,
      SourceTree.parse? (front ++ more) = some whole ∧
        whole.signatures = front_tree.signatures ++ tree.signatures := by
  obtain ⟨_, _, stands⟩ := stands
  obtain ⟨whole, found, children⟩ := parse?_append (stands.joins start) upper parsed
  refine ⟨whole, found, ?_⟩
  rw [SourceTree.signatures_eq, SourceTree.signatures_eq, SourceTree.signatures_eq, children,
    List.filterMap_append, Node.filterMap_signature?_moved]

end Statements

/-- A function of the top level, below other statements and decorators, of which the source is read
with an empty header: with any other header the source is read as well, the function's parameters
are the ordinary ones of the header in their order, and the other functions stay what they are. -/
theorem functions_header (name : Identifier) (header : Header) {layout : List (Gap × Lexeme)}
    (laid : layout.map Prod.snd = header.lexemes) (gap : Gap) {front above tail : List Char}
    {upper bare : SourceTree} (before : SourceTree.parse? front = some upper)
    (stands : ∃ ts s, Stands front ts s) (decorators : above = [] ∨ Decorators above)
    (parsed : SourceTree.parse? (functionText name (')' :: tail)) = some bare) :
    ∃ tree others, SourceTree.parse? (front ++ (above ++ functionText name
        (layoutText layout ++ (gap.blanks ++ ')' :: tail)))) = some tree ∧
      bare.functions.map (fun f => (f.name, f.params)) = (name.name, []) :: others ∧
      tree.functions.map (fun f => (f.name, f.params)) =
        upper.functions.map (fun f => (f.name, f.params)) ++
          (name.name, header.ordinary.map (·.name.name)) :: others := by
  obtain ⟨plain, others, read, bare_signed, signed⟩ := parse?_header name header gap laid parsed
  obtain ⟨decorated, read', same⟩ := parse?_above decorators read
  have start : StartsToken (above ++ functionText name
      (layoutText layout ++ (gap.blanks ++ ')' :: tail))) := by
    obtain rfl | decorators := decorators
    · exact startsToken_functionText name _
    · obtain ⟨c, rest, rfl, token⟩ := decorators.starts
      exact ⟨c, _, rfl, token⟩
  obtain ⟨tree, whole, joined⟩ := parse?_below before stands start read'
  rw [same, signed] at joined
  exact ⟨tree, others, whole, bare_signed, joined⟩

/-! A function with all kinds of parameters. -/

theorem exists_decorators {above : List Char}
    (ran : ((tokenize above).bind fun ts =>
      many (Grammar.decorator (Grammar.read (Grammar.depth ts))) ts).any fun x =>
        !x.1.isEmpty && x.2.isEmpty) : ∃ ts first more, tokenize above = some ts ∧
      many (Grammar.decorator (Grammar.read (Grammar.depth ts))) ts = some (first :: more, []) := by
  obtain ⟨⟨nodes, rest⟩, found, all⟩ := (Option.any_eq_true _ _).mp ran
  obtain ⟨ts, tokens, reads⟩ := Option.bind_eq_some_iff.mp found
  rw [Bool.and_eq_true, List.isEmpty_iff] at all
  obtain ⟨some_node, rfl⟩ := all
  cases nodes with
  | nil => contradiction
  | cons first more => exact ⟨ts, first, more, tokens, reads⟩

theorem decorators_cached : Decorators "@cached\n".toList where
  starts := ⟨'@', _, rfl, by decide⟩
  stands := exists_stands (n := 10) (.append_break "@cached".toList) (by decide +kernel)
  reads := exists_decorators (by decide +kernel)

def askLetters : List Char :=
  ['a', 'b', 'c', 'd', 'f', 'k', 'q']

theorem name_askLetters : ∀ c ∈ askLetters, isIdentStart c = true ∧ String.ofList [c] ∉ keywords :=
  List.all_iff_forall_prop.mp (by decide)

/-- A name of one letter. -/
def letter (c : Char) (known : c ∈ askLetters) : Identifier :=
  ⟨c, [], (name_askLetters c known).1, nofun, (name_askLetters c known).2⟩

def askName : Identifier :=
  letter 'f' (by decide)

/-- The name `int`. -/
def intName : Identifier where
  first := 'i'
  more := ['n', 't']
  starts := by decide
  goesOn := by rw [List.forall_mem_cons, List.forall_mem_singleton]; decide
  free := by decide

/-- The integer `-0x1f`. -/
def askDefault : Integer where
  sign := some .minus
  numeral := .based 'x' isHexDigit rfl ['1', 'f'] (by decide)
    (by rw [List.forall_mem_cons, List.forall_mem_singleton]; decide)

theorem isDigit_two : '2'.isDigit = true := by decide

/-- The integer `25`. -/
def askDecimal : Integer where
  sign := none
  numeral := .decimal '2' ['5'] isDigit_two (by rw [List.forall_mem_singleton]; decide)

/-- The parameters `a, /, b: int, c=-0x1f, *q, d=25, **k,`. -/
def askHeader : Header where
  positionalOnly := [⟨⟨letter 'a' (by decide), none⟩, none⟩]
  ordinary := [
    ⟨⟨letter 'b' (by decide), some intName⟩, none⟩,
    ⟨⟨letter 'c' (by decide), none⟩, some askDefault⟩]
  star := .args ⟨letter 'q' (by decide), none⟩ [⟨⟨letter 'd' (by decide), none⟩, some askDecimal⟩]
  mapping := some ⟨letter 'k' (by decide), none⟩
  trailing := true

theorem blank_singleton : ∀ c ∈ [' '], c ∈ [' ', '\t', '\n'] := by
  rw [List.forall_mem_singleton]
  decide

/-- Each lexeme behind a blank. -/
def spaced (lexemes : List Lexeme) : List (Gap × Lexeme) :=
  lexemes.map fun lexeme => (⟨[' '], blank_singleton⟩, lexeme)

theorem map_snd_spaced (lexemes : List Lexeme) : (spaced lexemes).map Prod.snd = lexemes := by
  rw [spaced, List.map_map]
  exact List.map_id _

theorem parse?_ask_bare : ∃ bare,
    SourceTree.parse? (functionText askName (')' :: ":\n  pass\n".toList)) = some bare ∧
      bare.functions.map (fun f => (f.name, f.params)) = [("f", [])] := by
  have read : (SourceTree.parse? (functionText askName (')' :: ":\n  pass\n".toList))).map
      (·.functions.map fun f => (f.name, f.params)) = some [("f", [])] := by decide +kernel
  exact Option.map_eq_some_iff.mp read

theorem parse?_import_os : ∃ upper, SourceTree.parse? "import os\n".toList = some upper ∧
    upper.functions.map (fun f => (f.name, f.params)) = [] := by
  have read : (SourceTree.parse? "import os\n".toList).map
      (·.functions.map fun f => (f.name, f.params)) = some [] := by decide +kernel
  exact Option.map_eq_some_iff.mp read

theorem stands_import_os : ∃ ts s, Stands "import os\n".toList ts s :=
  exists_stands (n := 10) (.append_break "import os".toList) (by decide +kernel)

theorem functions_header_ask : ∃ tree, SourceTree.parse? ("import os\n@cached\ndef f(" ++
    " a , / , b : int , c = - 0x1f , * q , d = 25 , ** k ,):\n  pass\n").toList = some tree ∧
      tree.functions.map (fun f => (f.name, f.params)) = [("f", ["b", "c"])] := by
  obtain ⟨bare, parsed, alone⟩ := parse?_ask_bare
  obtain ⟨upper, before, nothing⟩ := parse?_import_os
  obtain ⟨tree, others, found, plain, functions⟩ := functions_header askName askHeader
    (map_snd_spaced askHeader.lexemes) ⟨[], nofun⟩ before stands_import_os
    (.inr decorators_cached) parsed
  rw [alone] at plain
  obtain ⟨-, rfl⟩ := List.cons_eq_cons.mp plain
  have text : "import os\n".toList ++ ("@cached\n".toList ++ functionText askName
      (layoutText (spaced askHeader.lexemes) ++ ([] ++ ')' :: ":\n  pass\n".toList))) =
      ("import os\n@cached\ndef f(" ++
        " a , / , b : int , c = - 0x1f , * q , d = 25 , ** k ,):\n  pass\n").toList := by
    decide +kernel
  exact ⟨tree, text ▸ found, functions.trans (by rw [nothing]; rfl)⟩

end AgentWorkbench.Python
