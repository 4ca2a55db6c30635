import AgentWorkbench.Proofs.Extraction.Edits
import AgentWorkbench.Proofs.Instrument.Counting
import AgentWorkbench.Proofs.Instrument.Guarded

/-!
The hook among the statements of a source. Under a guard at the margin, above an indented block, it
becomes the start of that block, and all other statements stay as they are.
-/
namespace AgentWorkbench.Instrument

open Text Python Lexer Grammar Extraction

variable {source : List Char} {tree : SourceTree} {ignored : String}

/-! Lines of code in a block. -/

namespace GuardedBlock

variable (g : GuardedBlock)

theorem startsToken_text : StartsToken g.text := ⟨'i', _, rfl, by decide⟩

theorem startsToken_textWith (mark : BareLine) (lines : List (List Char)) :
    StartsToken (g.textWith mark lines) := ⟨'i', _, rfl, by decide⟩

theorem fresh_text (ts : List Token) (h : tokenize g.text = some ts) : Fresh ts := by
  obtain ⟨header, condition, -, opens, tokens⟩ := g.tokenize_text
  rw [tokens, Option.map_eq_some_iff] at h
  obtain ⟨us, -, rfl⟩ := h
  cases opens
  rintro t ⟨⟩
  exact (by decide : TokenKind.keyword "if" ∉ continuing)

/-- Lines of code above the block change no other statement. -/
theorem parse?_textWith (mark : BareLine) {first : List Char} {lines : List (List Char)}
    (code : ∀ cs ∈ first :: lines, CodeLine cs) (parsed : SourceTree.parse? g.text = some tree) :
    ∃ tree', SourceTree.parse? (g.textWith mark (first :: lines)) = some tree' ∧
      Edited tree tree' ignored tree.root.children tree'.root.children := by
  obtain ⟨ts, tokens, file, source⟩ := parse?_eq_some.mp parsed
  obtain ⟨header, condition, isCondition, opens, read⟩ := g.tokenize_text
  obtain ⟨header', condition', front, isCondition', opens', stands, read'⟩ :=
    g.tokenize_textWith mark code
  rw [read, Option.map_eq_some_iff] at tokens
  obtain ⟨us, block, rfl⟩ := tokens
  rw [block] at read'
  have alike (d : Nat) : Alike (.by d (0 + g.body.length) []) 1 us (us.map (Token.moved d)) := by
    have alike := alike_tokensAt (g.valid_inBlock []) block (nofun : Fresh []) d
    rwa [List.append_nil] at alike
  obtain ⟨statement, below, reads, kind, children⟩ := readsBlock_of_file opens isCondition file
    (alike _) rfl (Nat.le_refl _)
  obtain ⟨node, statement', file', kind', children'⟩ := file_of_readsBlock opens' isCondition' stands
    reads (alike _) rfl (Nat.le_refl _)
  let tree' : SourceTree := ⟨g.textWith mark (first :: lines), node⟩
  refine ⟨tree', parse?_eq_some.mpr ⟨_, read', file', rfl⟩, ?_⟩
  let added := markedText g.indent mark (first :: lines)
  have length : (g.header ++ '\n' :: g.lead).length = g.offset := by
    rw [offset, List.length_append, List.length_cons]
    omega
  have length' : (g.header ++ '\n' :: (added ++ g.lead)).length = g.offset + added.length := by
    rw [← length]
    simp only [List.length_append, List.length_cons]
    omega
  -- What is below stands at both places as it would stand in the block alone.
  have same (n : Node) (mem : n ∈ (below.flatMap Node.children).map (Node.moved g.offset)) :
      SameTexts tree tree' added.length n := by
    intro m inside
    obtain ⟨n, -, rfl⟩ := List.mem_map.mp mem
    rw [Node.preorder_moved, List.mem_map] at inside
    obtain ⟨m, -, rfl⟩ := inside
    let block : SourceTree := ⟨g.body, n⟩
    have here : tree.source = (g.header ++ '\n' :: g.lead) ++ block.source := by
      simp [source, text, block]
    have there : tree'.source = (g.header ++ '\n' :: (added ++ g.lead)) ++ block.source := by
      simp [tree', added, textWith, block]
    rw [Node.moved_moved, ← length', ← length, SourceTree.text_moved there,
      SourceTree.text_moved here]
  have kept : Edited tree tree' ignored _ _ := .keep_append same .nil
  rw [List.append_nil, List.append_nil, Node.map_moved_moved] at kept
  rw [children, children']
  exact .drop (.statement kind) (.add (.statement kind') kept)

end GuardedBlock

/-! The lines of the hook. -/

/-- The hook below its mark. -/
def hookCode : List (List Char) := [
  "graph_json = extract_graph()".toList,
  "print(\"\\n---GRAPH_STRUCTURE_BEGIN---\")".toList,
  "print(json.dumps(graph_json, indent=2))".toList,
  "print(\"---GRAPH_STRUCTURE_END---\", flush=True)".toList]

theorem hookStatements_eq : hookStatements.map String.toList = hookMarker.toList :: hookCode := by
  decide +kernel

/-- A line of code by its tokens, which are read as a line wherever they stand. -/
theorem codeLine_of_run {cs : List Char} (kinds : List TokenKind) (starts : StartsToken cs)
    (ran : ∀ width pos before, ∃ ts,
      run 50 (inBlock width (.newline :: before)) pos (cs ++ ['\n']) = some (ts, atLine width) ∧
        ts.map (·.kind) = kinds) (long : 5 ≤ kinds.length)
    (reads : ∀ spans fuel rest, ∃ node,
      read (fuel + 40) .line (tokensOf spans kinds ++ rest) = some (node, rest)) : CodeLine cs := by
  refine ⟨starts, fun width pos before => ?_⟩
  obtain ⟨ts, found, rfl⟩ := ran width pos before
  rw [List.length_map] at long
  refine ⟨ts, reads_of_run found, .of_line (List.ne_nil_of_length_pos (by omega))
    (show 40 ≤ 8 * ts.length by omega) fun fuel rest => ?_⟩
  obtain ⟨spans, placed⟩ := exists_tokensOf ts
  obtain ⟨node, read⟩ := reads spans fuel rest
  rw [← placed] at read
  exact ⟨node, read⟩

set_option maxRecDepth 4000 in
theorem codeLine_hookCode : ∀ cs ∈ hookCode, CodeLine cs := by
  simp only [hookCode, List.forall_mem_cons]
  refine ⟨?call, ?first, ?dump, ?last, nofun⟩
  case call =>
    exact codeLine_of_run [.name "graph_json", .op "=", .name "extract_graph", .op "(", .op ")",
      .newline] ⟨_, _, rfl, by decide⟩ (fun _ _ _ => ⟨_, rfl, rfl⟩) (by decide) fun _ _ _ => ⟨_, rfl⟩
  case first =>
    exact codeLine_of_run [.name "print", .op "(",
      .string {} "\\n---GRAPH_STRUCTURE_BEGIN---".toList, .op ")", .newline]
      ⟨_, _, rfl, by decide⟩ (fun _ _ _ => ⟨_, rfl, rfl⟩) (by decide) fun _ _ _ => ⟨_, rfl⟩
  case dump =>
    exact codeLine_of_run [.name "print", .op "(", .name "json", .op ".", .name "dumps", .op "(",
      .name "graph_json", .op ",", .name "indent", .op "=", .number, .op ")", .op ")", .newline]
      ⟨_, _, rfl, by decide⟩ (fun _ _ _ => ⟨_, rfl, rfl⟩) (by decide) fun _ _ _ => ⟨_, rfl⟩
  case last =>
    exact codeLine_of_run [.name "print", .op "(", .string {} "---GRAPH_STRUCTURE_END---".toList,
      .op ",", .name "flush", .op "=", .keyword "True", .op ")", .newline]
      ⟨_, _, rfl, by decide⟩ (fun _ _ _ => ⟨_, rfl, rfl⟩) (by decide) fun _ _ _ => ⟨_, rfl⟩

/-- The mark of the hook, as it stands in a block. -/
def hookMark (indent : Indent) : BareLine where
  blanks := indent.blanks
  comment := some " ---GRAPH_STRUCTURE_HOOK---".toList
  blank c mem := by obtain rfl | rfl := indent.blank c mem <;> decide
  legal := by
    rintro _ ⟨⟩
    exact List.all_iff_forall_prop.mp (by decide)

/-- The hook in front of the rest of a text. -/
theorem hookText_append (indent : Indent) (rest : List Char) :
    (hookText indent.blanks).flatMap ('\n' :: ·) ++ '\n' :: rest =
      '\n' :: (markedText indent (hookMark indent) hookCode ++ rest) := by
  have breaks (lines : List (List Char)) : lines.flatMap ('\n' :: ·) ++ '\n' :: rest =
      '\n' :: (lines.flatMap (· ++ ['\n']) ++ rest) := by
    induction lines with
    | nil => rfl
    | cons line lines ih => simp [ih]
  rw [breaks, hookText_eq, hookStatements_eq, markedText, codeText, List.map_cons, List.flatMap_cons,
    List.flatMap_map]
  rfl

/-! The indentation of the hook. -/

theorem isCodeLine_dropLast (line : List Char) :
    isCodeLine (dropLast '\r' line) = isCodeLine line := by
  rw [isCodeLine, isCodeLine, trim_dropLast (by decide)]

theorem isBlank_of_mem_spaces : ∀ c ∈ spaces, isBlank c = true := List.all_eq_true.mp (by decide)

theorem isCodeLine_bareLine (line : BareLine) : isCodeLine line.text = false := by
  have blank : allBlank line.blanks = true :=
    allBlank_iff.mpr fun c mem => isBlank_of_mem_spaces c (line.blank c mem)
  rw [isCodeLine_eq_false_iff, BareLine.text, BareLine.remark]
  cases line.comment with
  | none =>
    have nothing := trim_append_of_blank [] blank
    rw [List.nil_append] at nothing
    rw [List.append_nil]
    exact .inl (nothing.trans rfl)
  | some text =>
    obtain ⟨rest, trimmed⟩ := exists_trim_cons (c := '#') blank (by decide) text
    exact .inr (by rw [trimmed]; rfl)

theorem unbroken_bareLine (line : BareLine) : '\n' ∉ line.text := by
  rw [BareLine.text, BareLine.remark, List.mem_append, not_or]
  refine ⟨fun mem => absurd (line.blank _ mem) (by decide), ?_⟩
  cases found : line.comment with
  | none => exact List.not_mem_nil
  | some text =>
    have legal := line.legal text (Option.mem_def.mpr found)
    exact List.not_mem_cons_of_ne_of_not_mem (by decide) fun mem => (legal _ mem).1 rfl

/-- Lines without tokens are no code. -/
theorem find?_bareLines (lines : List BareLine) (rest : List Char) :
    (Text.lines (lines.flatMap (·.text ++ ['\n']) ++ rest)).find? isCodeLine =
      (Text.lines rest).find? isCodeLine := by
  induction lines with
  | nil => rfl
  | cons line lines ih =>
    rw [List.flatMap_cons, List.append_assoc, List.append_assoc, List.singleton_append,
      lines_part (unbroken_bareLine line), List.find?_cons_of_neg, ih]
    rw [isCodeLine_dropLast, isCodeLine_bareLine]
    exact Bool.false_ne_true

namespace GuardedBlock

variable (g : GuardedBlock)

theorem isBlank_indent : allBlank g.indent.blanks = true :=
  allBlank_iff.mpr fun c mem => by obtain rfl | rfl := g.indent.blank c mem <;> decide

theorem isIndent_blanks : ∀ c ∈ g.indent.blanks, isIndent c = true := fun c mem => by
  obtain rfl | rfl := g.indent.blank c mem <;> decide

theorem first_ne {c : Char} (passed : c ∈ passedOver) : g.first ≠ c :=
  fun same => g.token (same ▸ passed)

theorem isIndent_first : isIndent g.first = false := by
  rw [isIndent, Bool.or_eq_false_iff, decide_eq_false_iff_not, decide_eq_false_iff_not]
  exact ⟨g.first_ne (by decide), g.first_ne (by decide)⟩

/-- The first token of the block is still there if a carriage return is dropped behind it. -/
theorem exists_dropLast (line : List Char) : ∃ rest,
    dropLast '\r' (g.indent.blanks ++ g.first :: line) = g.indent.blanks ++ g.first :: rest := by
  obtain rfl | ⟨rest, c, rfl⟩ := List.eq_nil_or_concat line
  · have last : (g.indent.blanks ++ [g.first]).getLast? ≠ some '\r' := by
      rw [List.getLast?_concat]
      exact mt Option.some.inj (g.first_ne (by decide))
    exact ⟨[], dropLast_of_ne last⟩
  · have text : g.indent.blanks ++ g.first :: rest.concat c =
        (g.indent.blanks ++ g.first :: rest) ++ [c] := by simp
    by_cases return_ : c = '\r'
    · exact ⟨rest, by rw [text, return_, dropLast_append_self]⟩
    · refine ⟨rest.concat c, dropLast_of_ne ?_⟩
      rw [text, List.getLast?_concat]
      exact mt Option.some.inj return_

/-- The first line of the block is the first line of code below the guard. -/
theorem exists_codeLine : ∃ rest,
    (lines (g.lead ++ g.body)).find? isCodeLine = some (g.indent.blanks ++ g.first :: rest) := by
  obtain ⟨line, tail, cut, clean, ends⟩ := exists_line_tail g.rest
  have unbroken : '\n' ∉ g.indent.blanks ++ g.first :: line := by
    rw [List.mem_append, List.mem_cons, not_or, not_or]
    refine ⟨fun mem => absurd (g.indent.blank _ mem) (by decide), ?_, clean⟩
    exact (g.first_ne (by decide)).symm
  have code (rest : List Char) : isCodeLine (g.indent.blanks ++ g.first :: rest) = true := by
    obtain ⟨more, trimmed⟩ := exists_trim_cons g.isBlank_indent g.solid rest
    simp [isCodeLine, trimmed, g.first_ne (show '#' ∈ passedOver by decide)]
  rw [lead, body, List.append_assoc, find?_bareLines, cut, ← List.cons_append, ← List.append_assoc]
  cases tail with
  | nil =>
    rw [List.append_nil, lines_last (by simp) unbroken]
    exact ⟨line, List.find?_cons_of_pos (code line)⟩
  | cons c rest =>
    obtain rfl : c = '\n' := ends c rfl
    obtain ⟨kept, dropped⟩ := g.exists_dropLast line
    rw [lines_part unbroken, dropped]
    exact ⟨kept, List.find?_cons_of_pos (code kept)⟩

theorem bodyIndent_eq : bodyIndent [] ('\n' :: (g.lead ++ g.body)) = g.indent.blanks := by
  obtain ⟨rest, found⟩ := g.exists_codeLine
  have first : (lines ('\n' :: (g.lead ++ g.body))).find? isCodeLine =
      some (g.indent.blanks ++ g.first :: rest) := by
    have empty := lines_part List.not_mem_nil (g.lead ++ g.body)
    rw [List.nil_append] at empty
    rw [empty, List.find?_cons_of_neg (by decide), found]
  have indent : (g.indent.blanks ++ g.first :: rest).takeWhile isIndent = g.indent.blanks := by
    rw [List.takeWhile_append_of_pos g.isIndent_blanks,
      List.takeWhile_cons_of_neg (by simp [g.isIndent_first]), List.append_nil]
  rw [bodyIndent, first, Option.getD_some, indent, if_pos]
  exact ⟨List.length_pos_iff.mpr g.indent.nonempty, rfl⟩

/-! The search for the guard. -/

theorem guardText : GuardText [] g.words := by
  have blank : ∀ gap ∈ [g.gap₁, g.gap₂, g.gap₃, g.gap₄], ∀ c ∈ gap, isBlank c = true :=
    fun gap mem c inside => isBlank_of_mem_spaces c (g.spaced gap mem c inside)
  exact .words (List.forall_mem_nil _) blank g.apart g.isQuote g.isQuote

/-- A guard that the search finds in the text is the one of the text. -/
theorem guard_eq {guard : MainGuard} (form : GuardText guard.indent guard.text)
    (same : g.text = guard.text ++ guard.after) :
    guard = ⟨[], g.words, g.remark.text ++ '\n' :: (g.lead ++ g.body)⟩ := by
  have found := guardAt?_of_form form guard.after
  have here := guardAt?_of_form g.guardText (g.remark.text ++ '\n' :: (g.lead ++ g.body))
  rw [← same, text, header, List.append_assoc] at found
  exact Option.some.inj (found.symm.trans here)

theorem line_after (below : List Char) :
    (g.remark.text ++ '\n' :: below).takeWhile (· ≠ '\n') = g.remark.text ∧
      (g.remark.text ++ '\n' :: below).dropWhile (· ≠ '\n') = '\n' :: below := by
  have inside : ∀ c ∈ g.remark.text, decide (c ≠ '\n') = true := fun c mem =>
    decide_eq_true fun same => unbroken_bareLine g.remark (same ▸ mem)
  rw [List.takeWhile_append_of_pos inside, List.dropWhile_append_of_pos inside]
  exact ⟨by simp, by simp⟩

/-- The text with the hook inserted below the guard. -/
theorem text_hook (before : List Char) :
    let guard : MainGuard := ⟨[], g.words, g.remark.text ++ '\n' :: (g.lead ++ g.body)⟩
    ({ before := before ++ guard.text ++ guard.after.takeWhile (· ≠ '\n')
       block := (hookBelow guard).flatMap ('\n' :: ·.toList)
       after := guard.after.dropWhile (· ≠ '\n') } : Insertion).text =
      before ++ g.textWith (hookMark g.indent) hookCode := by
  obtain ⟨line, below⟩ := g.line_after (g.lead ++ g.body)
  have block : (hookBelow ⟨[], g.words, g.remark.text ++ '\n' :: (g.lead ++ g.body)⟩).flatMap
      ('\n' :: ·.toList) = (hookText g.indent.blanks).flatMap ('\n' :: ·) := by
    rw [hookBelow, below, g.bodyIndent_eq, hookText, List.flatMap_map]
  dsimp only
  rw [Insertion.text, line, below, block, List.append_assoc, hookText_append, textWith, header]
  simp only [List.append_assoc]

end GuardedBlock

/-- The guard that gets the hook stands at the margin over an indented block, behind a source that
stands alone. -/
def HookPlace (source : List Char) : Prop :=
  ∀ before guard, FirstGuard true source before guard → OpensBlock guard →
    StandsAlone before ∧ ∃ g : GuardedBlock, g.text = guard.text ++ guard.after

/-- A guard that no line above it comes before, behind a source that stands alone. -/
theorem GuardedBlock.hookPlace (g : GuardedBlock) {above : List Char} (free : PassedOver above)
    (alone : StandsAlone above) : HookPlace (above ++ g.text) := by
  intro before guard first _
  have here := guardAt?_of_form g.guardText (g.remark.text ++ '\n' :: (g.lead ++ g.body))
  have text : g.words ++ (g.remark.text ++ '\n' :: (g.lead ++ g.body)) = g.text := by
    rw [text, header, List.append_assoc]
  rw [text] at here
  have found := firstGuard?_eq_some_iff.mpr
    ((FirstGuard.here (GuardOf.nil_iff.mpr ⟨rfl, here⟩)).mpr ⟨rfl, rfl⟩)
  have same := firstGuard?_eq_some_iff.mpr first
  rw [free.firstGuard?, found, Option.map_some, Option.some.injEq, List.append_nil,
    Prod.mk.injEq] at same
  obtain ⟨rfl, rfl⟩ := same
  exact ⟨alone, g, text.symm⟩

/-- With the hook in its place the source is one still, and only the statement of the guard is
another one. -/
theorem parse?_injectHook (parsed : SourceTree.parse? source = some tree)
    (place : HookPlace source) : ∃ tree', SourceTree.parse? (injectHook source) = some tree' ∧
      Edited tree tree' ignored tree.root.children tree'.root.children := by
  cases made : hookInsertion? source with
  | none =>
    refine ⟨tree, ?_, .of_inserted (.nil tree) nofun⟩
    rw [injectHook, made]
    exact parsed
  | some i =>
    obtain ⟨-, before, guard, first, opens, rfl⟩ := hookInsertion?_eq_some_iff.mp made
    obtain ⟨⟨⟨front_tree, hfront⟩, ts, s, stands⟩, g, same⟩ := place before guard first opens
    obtain rfl := g.guard_eq first.form same
    have cut : before ++ g.text = source := first.cut.symm ▸ congrArg (before ++ ·) same
    have written : injectHook source = before ++ g.textWith (hookMark g.indent) hookCode := by
      rw [injectHook, made, insertOr, Option.map_some, Option.getD_some, g.text_hook]
    rw [← cut] at parsed
    have joins := stands.joins g.startsToken_text
    obtain ⟨block_tree, block⟩ := parse?_of_append joins g.fresh_text hfront parsed
    obtain ⟨block_tree', block', edited⟩ :=
      g.parse?_textWith (hookMark g.indent) codeLine_hookCode block
    rw [written]
    exact parse?_edited joins (stands.joins (g.startsToken_textWith _ _)) hfront block block' edited
      parsed

end AgentWorkbench.Instrument
