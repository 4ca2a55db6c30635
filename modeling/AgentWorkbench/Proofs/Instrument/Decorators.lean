import AgentWorkbench.Instrument.Placement
import AgentWorkbench.Proofs.Instrument.Idempotence
import AgentWorkbench.Proofs.Instrument.Spelling
import AgentWorkbench.Proofs.Python.Decorated

/-!
The routine among the statements of a source. It becomes a function of the top level, and every
other statement stays as it is, a decorated function with its decorators, where the lines above the
routine are a source by themselves.
-/
namespace AgentWorkbench.Instrument

open Text Python Lexer

/-! The place. -/

/-- Below the place of the routine stand decorators, and then the first function. -/
theorem routineLine?_below {lines : List (List Char)} {n : Nat} (h : routineLine? lines = some n) :
    ∃ decorators line rest, lines.drop n = decorators ++ line :: rest ∧
      (∀ d ∈ decorators, isDecoratorLine d = true) ∧ isDefLine line = true := by
  rw [routineLine?, Option.map_eq_some_iff] at h
  obtain ⟨k, found, rfl⟩ := h
  obtain ⟨inside, line, -⟩ := List.findIdx?_eq_some_iff_getElem.mp found
  obtain ⟨kept, run, cut, length, all⟩ : ∃ kept run, lines.take k = kept ++ run ∧
      run.length = ((lines.take k).reverse.takeWhile isDecoratorLine).length ∧
      ∀ d ∈ run, isDecoratorLine d = true := by
    refine ⟨((lines.take k).reverse.dropWhile isDecoratorLine).reverse,
      ((lines.take k).reverse.takeWhile isDecoratorLine).reverse, ?_, List.length_reverse,
      fun d mem => List.mem_takeWhile_imp (List.mem_reverse.mp mem)⟩
    rw [← List.reverse_append, List.takeWhile_append_dropWhile, List.reverse_reverse]
  have place : k - run.length = kept.length := by
    have := congrArg List.length cut
    rw [List.length_take, List.length_append] at this
    omega
  have whole : lines = kept ++ (run ++ lines.drop k) := by
    rw [← List.append_assoc, ← cut, List.take_append_drop]
  refine ⟨run, lines[k], lines.drop (k + 1), ?_, all, line⟩
  have below := congrArg (List.drop kept.length) whole
  rwa [List.drop_left, List.drop_eq_getElem_cons inside, ← place, length] at below

theorem afterWord?_head {word : String} {cs rest : List Char} (h : afterWord? word cs = some rest) :
    word.toList <+: cs := by
  simp only [afterWord?, Option.bind_eq_bind, Option.bind_eq_some_iff] at h
  obtain ⟨more, stripped, -⟩ := h
  exact ⟨more, (stripStart_eq_some_iff.mp stripped).symm⟩

/-- The definition of a function starts with a word of its own. -/
theorem isDefLine_head {line : List Char} (h : isDefLine line = true) :
    ∃ rest, line = 'd' :: rest ∨ line = 'a' :: rest := by
  have head {word : List Char} {c : Char} (front : c :: word <+: line) : ∃ rest, line = c :: rest := by
    obtain ⟨rest, rfl⟩ := front
    exact ⟨_, rfl⟩
  rw [isDefLine] at h
  cases found : afterWord? "def" ((afterWord? "async" line).getD line) with
  | none =>
    rw [found] at h
    contradiction
  | some rest =>
    cases async : afterWord? "async" line with
    | some more =>
      obtain ⟨rest, eq⟩ := head (afterWord?_head async)
      exact ⟨rest, .inr eq⟩
    | none =>
      rw [async] at found
      obtain ⟨rest, eq⟩ := head (afterWord?_head found)
      exact ⟨rest, .inl eq⟩

/-- The first characters of decorators and of functions. -/
def functionHeads : List Char := ['@', 'd', 'a']

theorem head_below {lines : List (List Char)} {n : Nat} (h : routineLine? lines = some n) :
    ∃ c rest, (lines.drop n).flatten = c :: rest ∧ c ∈ functionHeads := by
  obtain ⟨decorators, line, rest, below, all, function⟩ := routineLine?_below h
  rw [below]
  cases decorators with
  | nil =>
    obtain ⟨more, rfl | rfl⟩ := isDefLine_head function
    · exact ⟨'d', _, rfl, by decide⟩
    · exact ⟨'a', _, rfl, by decide⟩
  | cons d decorators =>
    have decorator := all d List.mem_cons_self
    rw [isDecoratorLine, decide_eq_true_eq, List.head?_eq_some_iff] at decorator
    obtain ⟨more, rfl⟩ := decorator
    exact ⟨'@', _, rfl, by decide⟩

/-! What the text below the place starts with. -/

/-- A word that starts like a function goes on with nothing before it. -/
theorem ofWord_fresh {c : Char} (head : c ∈ functionHeads) (word : List Char) :
    TokenKind.ofWord (c :: word) ∉ continuing := by
  have other {text : String} (same : String.ofList (c :: word) = text) :
      text.toList.head? ∈ functionHeads.map some := by
    rw [← same, String.toList_ofList]
    exact List.mem_map_of_mem head
  intro mem
  rw [TokenKind.ofWord] at mem
  split at mem
  · simp only [continuing, List.mem_cons, reduceCtorEq, TokenKind.keyword.injEq, List.not_mem_nil,
      or_false, false_or] at mem
    obtain same | same | same | same := mem <;> exact absurd (other same) (by decide)
  · simp [continuing] at mem

theorem token?_fresh {s : LexState} {pos : Nat} {c : Char} {cs : List Char} {lexed : Lexed}
    (head : c ∈ functionHeads) (outside : s.contexts = [])
    (h : token? s pos (c :: cs) = some lexed) :
    ∃ t more, lexed.tokens = t :: more ∧ t.kind ∉ continuing := by
  have unquoted : stringStart? (c :: cs) = none := by
    simp only [functionHeads, List.mem_cons, List.not_mem_nil, or_false] at head
    obtain rfl | rfl | rfl := head <;>
      simp [stringStart?, Lexer.isPrefixLetter, quote?_cons, StringPrefix.isQuote]
  rw [token?_other unquoted] at h
  split at h
  · cases h
    exact ⟨_, [], rfl, ofWord_fresh head _⟩
  · split at h
    · cases h
      exact ⟨_, [], rfl, by simp [continuing]⟩
    · rw [operatorToken?_outside (by simp [outside]), bareOperator?, Option.bind_eq_some_iff] at h
      obtain ⟨op, -, h⟩ := h
      exact ⟨_, [], delimiterToken?_tokens h, by simp [continuing]⟩

theorem startsToken_of_head {c : Char} (head : c ∈ functionHeads) (rest : List Char) :
    StartsToken (c :: rest) := by
  refine ⟨c, rest, rfl, ?_⟩
  simp only [functionHeads, List.mem_cons, List.not_mem_nil, or_false] at head
  obtain rfl | rfl | rfl := head <;> decide

theorem fresh_below {c : Char} {rest : List Char} (head : c ∈ functionHeads) {ts : List Token}
    (h : tokenize (c :: rest) = some ts) : Fresh ts := by
  obtain ⟨_, _, same, start⟩ := startsToken_of_head head rest
  obtain ⟨rfl, rfl⟩ := List.cons_eq_cons.mp same
  have first := step_margin Valid.start ⟨rfl, rfl, rfl⟩ start 0 rest
  cases found : token? { lineOpen := true } 0 (c :: rest) with
  | none =>
    rw [found] at first
    rw [tokenize_eq, tokensAt_of_none first] at h
    contradiction
  | some lexed =>
    obtain ⟨t, more, tokens, fresh⟩ := token?_fresh head rfl found
    rw [found] at first
    rw [tokenize_eq, tokensAt_step .start first, Option.map_eq_some_iff] at h
    obtain ⟨later, -, rfl⟩ := h
    intro u hu
    dsimp only at hu
    rw [tokens] at hu
    cases hu
    exact fresh

/-! The routine. -/

set_option maxRecDepth 100000 in
theorem routineLines_function : ∃ lines, Spelled routineLines lines ∧
    (SourceTree.parse? (lines.flatMap (· ++ ['\n']))).map (·.root.children.map Node.kind) =
      some [.function "extract_graph" false] := by
  apply Exists.intro
  apply And.intro
  · dsimp only [routineLines]
    repeat' first | exact .nil | apply Spelled.text | apply Spelled.parts
  · decide +kernel

/-- The routine is one function and nothing else. -/
theorem parse?_routine : ∃ tree function, SourceTree.parse? routine.toList = some tree ∧
    tree.root.children = [function] ∧ function.kind = .function "extract_graph" false := by
  obtain ⟨lines, spelled, parsed⟩ := routineLines_function
  have text : routine.toList = lines.flatMap (· ++ ['\n']) := by
    rw [toList_routine, ← spelled.map_toList, List.flatMap_map]
  rw [text]
  obtain ⟨tree, parsed, kinds⟩ := Option.map_eq_some_iff.mp parsed
  obtain ⟨function, rest, children, kind, nil⟩ := List.map_eq_cons_iff.mp kinds
  obtain rfl := List.map_eq_nil_iff.mp nil
  exact ⟨tree, function, parsed, children, kind⟩

theorem routine_head : ∃ rest, routine.toList = 'd' :: 'e' :: 'f' :: ' ' :: rest := by
  obtain ⟨rest, text⟩ := routineSignature_isPrefix
  rw [← text]
  exact ⟨_, rfl⟩

theorem startsToken_routine (rest : List Char) : StartsToken (routine.toList ++ rest) := by
  obtain ⟨more, text⟩ := routine_head
  rw [text]
  exact startsToken_of_head (by decide) _

/-- Two line breaks let a source stand alone. -/
theorem parse?_break_break {cs : List Char} {tree : SourceTree}
    (h : SourceTree.parse? cs = some tree) :
    ∃ tree' ts s, SourceTree.parse? (cs ++ ['\n', '\n']) = some tree' ∧
      tree'.root.children = tree.root.children ∧ Stands (cs ++ ['\n', '\n']) ts s := by
  obtain ⟨tree₁, _, _, h₁, children₁, -⟩ := parse?_break h
  obtain ⟨tree₂, ts, s, h₂, children₂, stands⟩ := parse?_break h₁
  rw [List.append_assoc] at h₂ stands
  exact ⟨tree₂, ts, s, h₂, children₂.trans children₁, stands⟩

/-- The routine between two statements. -/
theorem parse?_routine_between {front more : List Char} {tree : SourceTree} (alone : StandsAlone front)
    (start : StartsToken more) (fresh : ∀ ts, tokenize more = some ts → Fresh ts)
    (h : SourceTree.parse? (front ++ more) = some tree) :
    ∃ tree' function above below,
      SourceTree.parse? (front ++ (routine.toList ++ ['\n', '\n'] ++ more)) = some tree' ∧
        function.kind = .function "extract_graph" false ∧
        Inserted tree tree' above [function] below (routine.toList ++ ['\n', '\n']).length := by
  obtain ⟨⟨front_tree, hfront⟩, ts, s, stands⟩ := alone
  obtain ⟨routine_tree, function, hroutine, children, kind⟩ := parse?_routine
  obtain ⟨block_tree, _, _, hblock, block_children, stands_block⟩ := parse?_break_break hroutine
  have start' : StartsToken (routine.toList ++ ['\n', '\n'] ++ more) := by
    rw [List.append_assoc]
    exact startsToken_routine _
  obtain ⟨more_tree, hmore⟩ := parse?_of_append (stands.joins start) fresh hfront h
  obtain ⟨tree', h', inserted⟩ := parse?_insert (stands.joins start) (stands.joins start')
    (stands_block.joins start) hfront hblock hmore h
  rw [block_children, children] at inserted
  exact ⟨tree', _, _, _, h', (Node.kind_moved _ _).trans kind, inserted⟩

/-- The routine behind the last statement. -/
theorem parse?_routine_behind {source gap : List Char} {tree : SourceTree}
    (h : SourceTree.parse? source = some tree) (breaks : gap = ['\n'] ∨ gap = ['\n', '\n']) :
    ∃ tree' function, SourceTree.parse? (source ++ (gap ++ routine.toList)) = some tree' ∧
      function.kind = .function "extract_graph" false ∧
      Inserted tree tree' tree.root.children [function] [] 0 := by
  obtain ⟨front_tree, ts, s, hfront, front_children, stands⟩ :
      ∃ tree' ts s, SourceTree.parse? (source ++ gap) = some tree' ∧
        tree'.root.children = tree.root.children ∧ Stands (source ++ gap) ts s := by
    obtain rfl | rfl := breaks
    · exact parse?_break h
    · exact parse?_break_break h
  obtain ⟨routine_tree, function, hroutine, children, kind⟩ := parse?_routine
  have start : StartsToken routine.toList := by
    have start := startsToken_routine []
    rwa [List.append_nil] at start
  obtain ⟨tree', h', children'⟩ := parse?_append (stands.joins start) hfront hroutine
  rw [List.append_assoc] at h'
  have source_eq : tree.source = source := source_of_parse? h
  have source_eq' : tree'.source = tree.source ++ (gap ++ routine.toList) := by
    rw [source_eq]
    exact source_of_parse? h'
  refine ⟨tree', function.moved (source ++ gap).length, h', (Node.kind_moved _ _).trans kind,
    (List.append_nil _).symm, ?_, fun n mem m below => ?_, nofun⟩
  · rw [children', front_children, children]
    rfl
  · refine SourceTree.text_append source_eq' ?_
    rw [source_eq]
    exact ((within_of_parse? h n mem) m below).bound

/-- The lines above the place of the routine are a source by themselves, if there are any to be
above. -/
def RoutinePlace (source : List Char) : Prop :=
  ∀ n, routineLine? (pieces source) = some n → StandsAlone ((pieces source).take n).flatten

theorem parse?_injectRoutine {source : List Char} {tree : SourceTree}
    (parsed : SourceTree.parse? source = some tree)
    (missing : contains routineSignature.toList source = false) (alone : RoutinePlace source) :
    ∃ tree' function above below d, SourceTree.parse? (injectRoutine source) = some tree' ∧
      function.kind = .function "extract_graph" false ∧
      Inserted tree tree' above [function] below d := by
  simp only [injectRoutine, routineInsertion?, missing, Bool.false_eq_true, if_false]
  cases place : routineLine? (pieces source) with
  | some n =>
    obtain ⟨c, rest, text, head⟩ := head_below place
    have cut : ((pieces source).take n).flatten ++ ((pieces source).drop n).flatten = source := by
      rw [← List.flatten_append, List.take_append_drop, flatten_pieces]
    have start : StartsToken ((pieces source).drop n).flatten := by
      rw [text]
      exact startsToken_of_head head rest
    obtain ⟨tree', function, above, below, h', kind, inserted⟩ := parse?_routine_between
      (alone n place) start (fun ts found => fresh_below head (text ▸ found))
      (cut.symm ▸ parsed)
    refine ⟨tree', function, above, below, _, ?_, kind, inserted⟩
    rw [← h', insertOr, Option.map_some, Option.getD_some, Insertion.text, List.append_assoc]
  | none =>
    have breaks : routineGap source = ['\n'] ∨ routineGap source = ['\n', '\n'] := by
      rw [routineGap]
      split
      · exact .inl rfl
      · exact .inr rfl
    obtain ⟨tree', function, h', kind, inserted⟩ := parse?_routine_behind parsed breaks
    refine ⟨tree', function, _, _, _, ?_, kind, inserted⟩
    rw [← h', insertOr, Option.map_some, Option.getD_some, Insertion.text, List.append_nil]

/-- The routine becomes a function of the top level without decorators, and every other statement
keeps its parts, a decorated function its decorators, if the lines above the routine are a source by
themselves. -/
theorem injectRoutine_keeps_statements {source : List Char} {tree : SourceTree}
    (parsed : SourceTree.parse? source = some tree)
    (missing : contains routineSignature.toList source = false)
    (alone : ∀ n, routineLine? (pieces source) = some n →
      StandsAlone ((pieces source).take n).flatten) :
    ∃ tree' function above below d, SourceTree.parse? (injectRoutine source) = some tree' ∧
      function.kind = .function "extract_graph" false ∧
      Inserted tree tree' above [function] below d ∧
      ∀ n ∈ tree.root.children, n.kind = .decorated → ∃ n' ∈ tree'.root.children,
        n'.kind = .decorated ∧ n'.children.map (fun child => (child.kind, tree'.text child)) =
          n.children.map fun child => (child.kind, tree.text child) := by
  obtain ⟨tree', function, above, below, d, h', kind, inserted⟩ :=
    parse?_injectRoutine parsed missing alone
  refine ⟨tree', function, above, below, d, h', kind, inserted, fun n mem decorated => ?_⟩
  obtain ⟨n', mem', kind', parts⟩ := inserted.kept mem
  exact ⟨n', mem', kind'.trans decorated, parts⟩

/-- A decorated function below an import, and another function above it. -/
def decoratedSource : List Char :=
  "import os\n\n@cache\ndef f(x):\n    return x\n".toList

theorem standsAlone_import : StandsAlone "import os\n\n".toList := by
  refine ⟨Option.isSome_iff_exists.mp (by decide +kernel), exists_stands (n := 11) ?_ ?_⟩
  · exact WholeLines.append_break "import os\n".toList
  · decide +kernel

theorem decoratedSource_keeps_statements : ∃ tree tree' function above below d,
    SourceTree.parse? decoratedSource = some tree ∧
      tree.root.children.map Node.kind = [.statement, .decorated] ∧
      SourceTree.parse? (injectRoutine decoratedSource) = some tree' ∧
      function.kind = .function "extract_graph" false ∧
      Inserted tree tree' above [function] below d := by
  have read : (SourceTree.parse? decoratedSource).map (·.root.children.map Node.kind) =
      some [.statement, .decorated] := by decide +kernel
  obtain ⟨tree, parsed, kinds⟩ := Option.map_eq_some_iff.mp read
  have place : routineLine? (pieces decoratedSource) = some 2 := by decide +kernel
  have above : ((pieces decoratedSource).take 2).flatten = "import os\n\n".toList := by
    decide +kernel
  obtain ⟨tree', function, above, below, d, parsed', kind, inserted, -⟩ :=
    injectRoutine_keeps_statements parsed (by decide +kernel) fun n found => by
      obtain rfl := Option.some.inj (place.symm.trans found)
      rw [above]
      exact standsAlone_import
  exact ⟨tree, tree', function, above, below, d, parsed, kinds, parsed', kind, inserted⟩

/-- A function with a decorator on two lines. -/
def spreadSource : List Char := "@deco(\n    1)\ndef f(x):\n    return x\n".toList

/-- The routine comes between the second line of a decorator and its function: it takes the
decorator, and the function has none. -/
theorem injectRoutine_takes_decorator : ∃ tree tree',
    SourceTree.parse? spreadSource = some tree ∧
      SourceTree.parse? (injectRoutine spreadSource) = some tree' ∧
      tree.root.children.map Node.kind = [.decorated] ∧
      tree'.root.children.map Node.kind = [.decorated, .function "f" false] := by
  have read : (SourceTree.parse? spreadSource).map (·.root.children.map Node.kind) =
      some [.decorated] := by decide +kernel
  have missing : contains routineSignature.toList spreadSource = false := by decide +kernel
  have place : routineLine? (pieces spreadSource) = some 2 := by decide +kernel
  have above : ((pieces spreadSource).take 2).flatten = "@deco(\n    1)\n".toList := by
    decide +kernel
  have below : ((pieces spreadSource).drop 2).flatten = "def f(x):\n    return x\n".toList := by
    decide +kernel
  obtain ⟨routine_tree, function, hroutine, children, kind⟩ := parse?_routine
  obtain ⟨block_tree, _, _, hblock, block_children, block⟩ := parse?_break_break hroutine
  have defined : (SourceTree.parse? "def f(x):\n    return x\n".toList).map
      (·.root.children.map Node.kind) = some [.function "f" false] := by decide +kernel
  obtain ⟨f_tree, hf, f_kinds⟩ := Option.map_eq_some_iff.mp defined
  have start : StartsToken "def f(x):\n    return x\n".toList :=
    startsToken_of_head (c := 'd') (by decide) _
  obtain ⟨more_tree, hmore, more_children⟩ := parse?_append (block.joins start) hblock hf
  obtain ⟨rest, text⟩ := routine_head
  rw [text] at hmore
  obtain ⟨_, _, stands⟩ : ∃ ts s, Stands "@deco(\n    1)\n".toList ts s :=
    exists_stands (n := 12) (WholeLines.append_break "@deco(\n    1)".toList) (by decide +kernel)
  have joins := stands.joins (startsToken_of_head (c := 'd') (by decide)
    ('e' :: 'f' :: ' ' :: (rest ++ ['\n', '\n'] ++ "def f(x):\n    return x\n".toList)))
  have decorated : tokenize "@deco(\n    1)\n".toList = some [⟨.op "@", 0, 1⟩,
      ⟨.name "deco", 1, 5⟩, ⟨.op "(", 5, 6⟩, ⟨.number, 11, 12⟩, ⟨.op ")", 12, 13⟩,
      ⟨.newline, 13, 14⟩] := by decide +kernel
  rw [Option.some.inj (joins.alone.symm.trans decorated)] at joins
  obtain ⟨tree', changed, kinds'⟩ := parse?_decorated joins (fun _ _ _ _ => ⟨_, rfl⟩) hmore
  have written : injectRoutine spreadSource = "@deco(\n    1)\n".toList ++ 'd' :: 'e' :: 'f' :: ' ' ::
      (rest ++ ['\n', '\n'] ++ "def f(x):\n    return x\n".toList) := by
    simp only [injectRoutine, routineInsertion?, missing, Bool.false_eq_true, if_false, place,
      insertOr, Option.map_some, Option.getD_some, Insertion.text, above, below, text,
      List.append_assoc, List.cons_append, List.nil_append]
  have kept : Node.kind ∘ Node.moved (routine.toList ++ ['\n', '\n']).length = Node.kind :=
    funext (Node.kind_moved _)
  obtain ⟨tree, parsed, kinds⟩ := Option.map_eq_some_iff.mp read
  refine ⟨tree, tree', parsed, written ▸ changed, kinds, ?_⟩
  rw [kinds', more_children, block_children, children, List.singleton_append, List.map_cons,
    List.tail_cons, List.map_map, kept, f_kinds]

end AgentWorkbench.Instrument
