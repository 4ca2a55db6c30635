import AgentWorkbench.Proofs.Python.File
import AgentWorkbench.Proofs.Python.Moved

/-!
Sources one behind the other. A source that stands alone, with its last line ended, and another one
behind it are one source over the statements of both, those of the second one moved; and what is
behind a source that stands alone is a source by itself, if the two are one.
-/
namespace AgentWorkbench.Python

open Parse

variable {σ σ₂ : Shift} {p p' : Goal → Parse Node} {d n fuel fuel' : Nat}
  {ts ts' us' : List Token}

/-! Moved nodes. -/

namespace Node

mutual

theorem moved_zero : ∀ n : Node, n.moved 0 = n
  | .mk kind start stop children => by
    rw [moved, movedList_zero children, Nat.add_zero, Nat.add_zero]

theorem movedList_zero : ∀ ns : List Node, movedList 0 ns = ns
  | [] => rfl
  | n :: ns => by rw [movedList, moved_zero n, movedList_zero ns]

end

theorem map_moved_zero (ns : List Node) : ns.map (moved 0) = ns := by
  rw [← movedList_eq_map, movedList_zero]

mutual

theorem moved_moved (d e : Nat) : ∀ n : Node, (n.moved d).moved e = n.moved (d + e)
  | .mk kind start stop children => by
    rw [moved, moved, moved, movedList_movedList d e children, Nat.add_assoc, Nat.add_assoc]

theorem movedList_movedList (d e : Nat) : ∀ ns : List Node,
    movedList e (movedList d ns) = movedList (d + e) ns
  | [] => rfl
  | n :: ns => by
    rw [movedList, movedList, movedList, moved_moved d e n, movedList_movedList d e ns]

end

theorem map_moved_moved (d e : Nat) (ns : List Node) :
    (ns.map (moved d)).map (moved e) = ns.map (moved (d + e)) := by
  rw [← movedList_eq_map, ← movedList_eq_map, movedList_movedList, movedList_eq_map]

mutual

theorem preorder_moved (d : Nat) : ∀ n : Node, (n.moved d).preorder = n.preorder.map (moved d)
  | .mk kind start stop children => by
    rw [moved, preorder, preorder, List.map_cons, moved, preorderList_moved d children]

theorem preorderList_moved (d : Nat) : ∀ ns : List Node,
    preorderList (movedList d ns) = (preorderList ns).map (moved d)
  | [] => rfl
  | n :: ns => by
    rw [movedList, preorderList, preorderList, List.map_append, preorder_moved d n,
      preorderList_moved d ns]

end

theorem mem_preorder_self (n : Node) : n ∈ n.preorder := by
  cases n
  exact List.mem_cons_self

theorem mem_preorder_of_child {n child m : Node} (mem : child ∈ n.children)
    (below : m ∈ child.preorder) : m ∈ n.preorder := by
  obtain ⟨kind, start, stop, children⟩ := n
  rw [preorder, preorderList_eq_flatMap]
  exact List.mem_cons_of_mem _ (List.mem_flatMap.mpr ⟨child, mem, below⟩)

mutual

theorem mem_preorder_trans {m k : Node} : ∀ n : Node, m ∈ n.preorder → k ∈ m.preorder →
    k ∈ n.preorder
  | .mk kind start stop children, mem, below => by
    rw [preorder] at mem ⊢
    obtain rfl | mem := List.mem_cons.mp mem
    · exact below
    · exact List.mem_cons_of_mem _ (mem_preorderList_trans children mem below)

theorem mem_preorderList_trans {m k : Node} : ∀ ns : List Node, m ∈ preorderList ns →
    k ∈ m.preorder → k ∈ preorderList ns
  | [], mem, _ => absurd mem List.not_mem_nil
  | n :: ns, mem, below => by
    rw [preorderList] at mem ⊢
    obtain mem | mem := List.mem_append.mp mem
    · exact List.mem_append_left _ (mem_preorder_trans n mem below)
    · exact List.mem_append_right _ (mem_preorderList_trans ns mem below)

end

end Node

/-! Whole files in tandem. With nothing behind the tokens both readers succeed or both fail. -/

/-- Readers that fail at the end are in tandem there too. -/
theorem Tandem.everywhere {α β : Type} {E : List Token → List Token → Prop} {c : Nat}
    {S : α → β → Prop} {q : Parse α} {q' : Parse β} (h : Tandem (Ahead σ 0) E n c S q q')
    (hrest : σ.rest = []) (hnil : q [] = none) (hnil' : q' [] = none) :
    Tandem (Alike σ 0) E n c S q q' := by
  intro ts ts' ha hl
  by_cases hne : ts = []
  · subst hne
    cases ha
    rw [hrest, hnil, hnil']
    exact .neither
  · exact h ⟨hne, ha⟩ hl

namespace Grammar

theorem decoratedDefinition_everywhere (h : Good σ p p' 0 n) (hrest : σ.rest = []) :
    Tandem (Alike σ 0) (Alike σ 0) n 1 (Node.Twin σ) (decoratedDefinition p)
      (decoratedDefinition p') := by
  have hdecorator : Tandem (Alike σ 0) (Alike σ 0) n 1 (Node.Twin σ) (decorator p) (decorator p') :=
    (decorator_tandem h).everywhere hrest rfl rfl
  refine (hdecorator.many1 fun _ _ => Alike.length_le).next fun m hm decorators decorators' hs => ?_
  refine ((definition_tandem (h.restrict (by omega))).everywhere hrest rfl rfl).weaken.bind
    fun node node' hn => ?_
  exact .pure (.spanning_of_ne_nil (by simp) (List.rel_append hs.each (.cons hn .nil)) trivial)

theorem line_everywhere (hf : 8 * n + 14 ≤ fuel) (hf' : 8 * n + 14 ≤ fuel') (hrest : σ.rest = []) :
    Tandem (Alike σ 0) (Alike σ 0) n 1 (Node.LineTwin σ) (read fuel .line) (read fuel' .line) := by
  obtain ⟨fuel, rfl⟩ := Nat.exists_eq_add_of_le' (show 7 ≤ fuel by omega)
  obtain ⟨fuel', rfl⟩ := Nat.exists_eq_add_of_le' (show 7 ≤ fuel' by omega)
  have hgood : Good σ (read (fuel + 6)) (read (fuel' + 6)) 5 n := good_read (by omega) (by omega)
  have hdecorated := decoratedDefinition_everywhere
    ⟨fun g hg => absurd hg (Nat.not_lt_zero _), hgood.later⟩ hrest
  have hline : Tandem (Ahead σ 0) (Alike σ 0) n 1 (Node.LineTwin σ) (line (read (fuel + 6)))
      (line (read (fuel' + 6))) :=
    line_tandem hgood (fun _ _ hd => hd) (hdecorated.comap fun _ _ hd => hd.alike)
  exact hline.everywhere hrest (read_line_nil fuel) (read_line_nil fuel')

/-- The same tokens at two places are a file at both or at neither. -/
theorem file_alike (ha : Alike σ 0 ts ts') (hrest : σ.rest = []) :
    Option.Rel (fun node node' => Node.Twins σ node.children node'.children) (file ts)
      (file ts') := by
  have hlen : ts'.length = ts.length := by rw [ha.length_eq, hrest, List.length_nil, Nat.add_zero]
  have hlines : Tandem (Alike σ 0) (Alike σ 0) ts.length 1 (Node.LineTwin σ)
      (read (depth ts) .line) (read (depth ts') .line) :=
    line_everywhere (by simp [depth]) (by simp [depth, hlen]) hrest
  obtain ⟨h, h'⟩ | ⟨lines, lines', left, left', h, h', htwins, hleft, -⟩ :=
    (hlines.many (fun _ _ => Alike.length_le) ha (Nat.le_refl _)).cases
  · simp only [file, h, h']
    exact .none
  · have hempty : left'.isEmpty = left.isEmpty := by
      have := hleft.length_eq
      rw [hrest, List.length_nil, Nat.add_zero] at this
      cases left <;> cases left' <;> simp_all
    simp only [file, h, h', Option.bind_eq_bind, Option.bind_some, hempty]
    split
    · exact .some (lines_twins htwins)
    · exact .none

theorem manyWithin_nil (fuel : Nat) (budget : List Token) :
    manyWithin (read (fuel + 7) .line) budget [] = some ([], []) := by
  cases budget with
  | nil => rfl
  | cons _ _ => simp only [manyWithin, read_line_nil]

/-- What is left of a file behind a front that is a file by itself. -/
theorem file_of_append {node whole : Node} (h : file ts = some node) (ha : Alike σ 0 ts ts')
    (hwhole : file ts' = some whole) (hb : Alike σ₂ 0 σ.rest us') (hrest : σ₂.rest = []) :
    ∃ other, file us' = some other := by
  obtain ⟨lines, hlines, -⟩ := file_eq_some_iff.1 h
  obtain ⟨all, hall, -⟩ := file_eq_some_iff.1 hwhole
  have hlen := ha.length_eq
  obtain ⟨lines', left, -, hleft, hm⟩ := manyWithin_lines (n := ts.length)
    (show 8 * ts.length + 14 ≤ depth ts by simp [depth])
    (show 8 * ts.length + 14 ≤ depth ts' by simp only [depth]; omega) ha (Nat.le_refl _)
    (Nat.le_refl ts'.length) hlines
  rw [many] at hall
  rw [hall] at hm
  obtain ⟨⟨others, rest⟩, hothers, hsame⟩ := Option.map_eq_some_iff.1 hm.symm
  obtain rfl : rest = [] := (Prod.mk.inj hsame).2
  have hlen₂ := hb.length_eq
  rw [hrest, List.length_nil, Nat.add_zero] at hlen₂
  obtain ⟨others', left₂, -, -, hm₂⟩ := manyWithin_lines (n := σ.rest.length)
    (show 8 * σ.rest.length + 14 ≤ depth ts' by simp only [depth]; omega)
    (show 8 * σ.rest.length + 14 ≤ depth us' by simp only [depth]; omega) hb (Nat.le_refl _)
    (Nat.le_refl us'.length) hothers
  obtain ⟨fuel, hfuel⟩ := Nat.exists_eq_add_of_le' (show 7 ≤ depth us' by simp [depth])
  rw [hrest, hfuel, manyWithin_nil, Option.map_some, List.append_nil, ← hfuel] at hm₂
  exact ⟨_, file_eq_some_iff.2 ⟨others', hm₂, rfl⟩⟩

end Grammar

/-! Sources. -/

open Text Lexer Grammar

/-- A text that ends at the margin, with the tokens read of it. -/
structure Stands (front : List Char) (ts : List Token) (s : LexState) : Prop where
  reads : Reads {} 0 front ts s
  margin : AtMargin s
  lines : WholeLines front

/-- A text that is a source by itself, and of which the last line has ended. -/
def StandsAlone (front : List Char) : Prop :=
  (∃ tree, SourceTree.parse? front = some tree) ∧ ∃ ts s, Stands front ts s

/-- A run that ends at the margin, as it is computed. -/
theorem exists_stands {n : Nat} (lines : WholeLines front)
    (ran : (run n {} 0 front).any fun x =>
      x.2.contexts.isEmpty && !x.2.lineOpen && x.2.column == 0) :
    ∃ ts s, Stands front ts s := by
  obtain ⟨⟨ts, s⟩, found, margin⟩ := (Option.any_eq_true _ _).mp ran
  simp only [Bool.and_eq_true, List.isEmpty_iff, Bool.not_eq_true', beq_iff_eq] at margin
  exact ⟨ts, s, reads_of_run found, ⟨margin.1.1, margin.1.2, margin.2⟩, lines⟩

/-- The tokens of the front of a source are its own, and behind them are those of the rest. -/
structure Joins (front more : List Char) (ts : List Token) : Prop where
  alone : tokenize front = some ts
  joined : tokenize (front ++ more) = (tokenize more).map fun us =>
    ts ++ us.map (Token.moved front.length)

variable {front more cs : List Char} {s : LexState} {tree front_tree more_tree : SourceTree}

namespace Stands

theorem valid (h : Stands front ts s) : Valid s := h.reads.valid .start

theorem tokenize (h : Stands front ts s) :
    tokenize front = some (ts ++ ends s front.length front.length) := by
  have close : closing s front.length = some (ends s front.length front.length) :=
    (closing_eq_some h.valid).mpr ⟨h.margin.outside, rfl⟩
  rw [tokenize_eq, h.reads.tokensAt .start, Nat.zero_add, close, Option.map_some]

theorem ends_eq (h : Stands front ts s) :
    ends s front.length front.length = (closeBlocks front.length 0 s.blocks).1 := by
  rw [closeBlocks_tokens h.valid.blocks, ends, h.margin.closed]
  rfl

/-- A text that starts with a token closes the blocks of the one before it. -/
theorem joins (h : Stands front ts s) (start : StartsToken more) :
    Joins front more (ts ++ ends s front.length front.length) where
  alone := h.tokenize
  joined := by
    rw [tokenize_eq, h.reads.tokensAt_append .start (.inl h.lines), Nat.zero_add,
      tokensAt_margin h.valid h.margin start, h.ends_eq, Option.map_map]
    congr 1
    funext us
    exact (List.append_assoc _ _ _).symm

end Stands

theorem parse?_eq_some : SourceTree.parse? cs = some tree ↔
    ∃ ts, tokenize cs = some ts ∧ file ts = some tree.root ∧ tree.source = cs := by
  obtain ⟨source, root⟩ := tree
  simp only [SourceTree.parse?, Option.bind_eq_bind, Option.bind_eq_some_iff, Option.pure_def,
    Option.some.injEq, SourceTree.mk.injEq]
  constructor
  · rintro ⟨ts, tokens, _, parsed, rfl, rfl⟩
    exact ⟨ts, tokens, parsed, rfl⟩
  · rintro ⟨ts, tokens, parsed, rfl⟩
    exact ⟨ts, tokens, root, parsed, rfl, rfl⟩

theorem source_of_parse? (h : SourceTree.parse? cs = some tree) : tree.source = cs := by
  obtain ⟨_, -, -, source⟩ := parse?_eq_some.mp h
  exact source

/-- The nodes of a source lie inside of it. -/
theorem within_of_parse? (h : SourceTree.parse? cs = some tree) :
    ∀ n ∈ tree.root.children, n.Within (.by 0 cs.length []) := by
  obtain ⟨ts, tokens, parsed, -⟩ := parse?_eq_some.mp h
  have alike := alike_tokenize tokens (nofun : Fresh []) 0
  rw [List.append_nil, Token.map_moved_zero] at alike
  have twins := file_alike alike rfl
  rw [parsed] at twins
  cases twins with
  | some twins => exact (Node.twins_iff.mp twins).2

theorem parse?_append (joins : Joins front more ts)
    (hfront : SourceTree.parse? front = some front_tree)
    (hmore : SourceTree.parse? more = some more_tree) :
    ∃ tree, SourceTree.parse? (front ++ more) = some tree ∧ tree.root.children =
      front_tree.root.children ++ more_tree.root.children.map (Node.moved front.length) := by
  obtain ⟨ts', tokens, parsed, -⟩ := parse?_eq_some.mp hfront
  obtain ⟨us, tokens', parsed', -⟩ := parse?_eq_some.mp hmore
  obtain rfl : ts' = ts := Option.some.inj (tokens.symm.trans joins.alone)
  have fresh := (fresh_of_file parsed').map_moved front.length
  have ha := alike_tokenize tokens fresh 0
  have hb := alike_tokenize tokens' (nofun : Fresh []) front.length
  rw [Token.map_moved_zero] at ha
  rw [List.append_nil] at hb
  obtain ⟨whole, before, after, hwhole, children, htwins, htwins'⟩ :=
    file_append parsed parsed' ha hb rfl
  refine ⟨⟨front ++ more, whole⟩, parse?_eq_some.mpr ⟨_, ?_, hwhole, rfl⟩, ?_⟩
  · rw [joins.joined, tokens']
    rfl
  · obtain rfl := (Node.twins_iff.mp htwins).1
    obtain rfl := (Node.twins_iff.mp htwins').1
    rw [children]
    exact congrArg (· ++ _) (Node.map_moved_zero _)

theorem parse?_of_append (joins : Joins front more ts) (fresh : ∀ us, tokenize more = some us → Fresh us)
    (hfront : SourceTree.parse? front = some front_tree)
    (h : SourceTree.parse? (front ++ more) = some tree) :
    ∃ more_tree, SourceTree.parse? more = some more_tree := by
  obtain ⟨ts', tokens, parsed, -⟩ := parse?_eq_some.mp hfront
  obtain rfl : ts' = ts := Option.some.inj (tokens.symm.trans joins.alone)
  obtain ⟨whole, tokens', parsed', -⟩ := parse?_eq_some.mp h
  rw [joins.joined, Option.map_eq_some_iff] at tokens'
  obtain ⟨us, tokens', rfl⟩ := tokens'
  have ha := alike_tokenize tokens ((fresh us tokens').map_moved front.length) 0
  rw [Token.map_moved_zero] at ha
  have hb := alike_tokenize tokens' (nofun : Fresh []) front.length
  rw [List.append_nil] at hb
  obtain ⟨other, hother⟩ := file_of_append parsed ha parsed'
    (Alike.from_moved (a := front.length) (b := 0) hb) rfl
  have twins := file_alike hb rfl
  rw [hother] at twins
  cases found : file us with
  | none => rw [found] at twins; contradiction
  | some node => exact ⟨⟨more, node⟩, parse?_eq_some.mpr ⟨us, tokens', found, rfl⟩⟩

/-! The end of a source. -/

/-- The state behind a line break outside of brackets. -/
def LexState.broken (s : LexState) : LexState :=
  if s.lineOpen then remember { s with lineOpen := false, column := 0 } .newline
  else { s with column := 0 }

theorem reads_break (outside : s.contexts = []) (pos : Nat) :
    Reads s pos ['\n'] (if s.lineOpen then [⟨.newline, pos, pos + 1⟩] else []) s.broken := by
  have step_eq : step s pos ['\n'] = some
      { tokens := if s.lineOpen then [⟨.newline, pos, pos + 1⟩] else []
        state := s.broken
        taken := 1
        rest := [] } := by
    rw [step_outside outside, codeStep.eq_2, if_pos (List.isEmpty_iff.mpr outside), LexState.broken]
    split <;> rfl
  have reads := Reads.step step_eq .done
  rwa [List.append_nil] at reads

theorem LexState.broken_margin (outside : s.contexts = []) : AtMargin s.broken := by
  rw [LexState.broken]
  split
  · exact ⟨outside, rfl, rfl⟩
  · next closed => exact ⟨outside, by simpa using closed, rfl⟩

theorem LexState.broken_blocks (s : LexState) : s.broken.blocks = s.blocks := by
  rw [LexState.broken]
  split <;> rfl

/-- A line break more at its end lets a source stand alone. -/
theorem tokenize_break (h : tokenize cs = some ts) :
    ∃ ts' us s, tokenize (cs ++ ['\n']) = some ts' ∧ Alike (.by 0 cs.length []) 0 ts ts' ∧
      Stands (cs ++ ['\n']) us s := by
  obtain ⟨us, s, reads, outside, rfl⟩ := tokenize_eq_some cs ts h
  have more := reads_break outside (0 + cs.length)
  have stands : Stands (cs ++ ['\n']) _ s.broken :=
    ⟨reads.append .start (.inr (.break [])) more, s.broken_margin outside, .append_break cs⟩
  have alike := reads.alike_ends (nofun : Fresh []) 0 cs.length (cs.length + 1)
  rw [Token.map_moved_zero, List.append_nil] at alike
  have same : us ++ ends s cs.length (cs.length + 1) =
      us ++ (if s.lineOpen then [⟨.newline, 0 + cs.length, 0 + cs.length + 1⟩] else []) ++
        ends s.broken (cs ++ ['\n']).length (cs ++ ['\n']).length := by
    rw [List.append_assoc, ends, ends, Lexer.depth, Lexer.depth, s.broken_blocks,
      (s.broken_margin outside).closed, Nat.zero_add, List.length_append]
    rfl
  exact ⟨_, _, _, stands.tokenize, same ▸ alike, stands⟩

/-- The source has the same statements then. -/
theorem parse?_break (h : SourceTree.parse? cs = some tree) :
    ∃ tree' ts s, SourceTree.parse? (cs ++ ['\n']) = some tree' ∧
      tree'.root.children = tree.root.children ∧ Stands (cs ++ ['\n']) ts s := by
  obtain ⟨ts, tokens, parsed, -⟩ := parse?_eq_some.mp h
  obtain ⟨ts', us, s, tokens', alike, stands⟩ := tokenize_break tokens
  have twins := file_alike alike rfl
  rw [parsed] at twins
  cases found : file ts' with
  | none => rw [found] at twins; contradiction
  | some node =>
    rw [found] at twins
    cases twins with
    | some twins =>
      refine ⟨⟨cs ++ ['\n'], node⟩, _, _, parse?_eq_some.mpr ⟨_, tokens', found, rfl⟩, ?_, stands⟩
      rw [(Node.twins_iff.mp twins).1]
      exact Node.map_moved_zero _

/-- A source and a line break behind it. -/
theorem standsAlone_break (h : SourceTree.parse? cs = some tree) : StandsAlone (cs ++ ['\n']) := by
  obtain ⟨tree', ts, s, parsed, -, stands⟩ := parse?_break h
  exact ⟨⟨tree', parsed⟩, ts, s, stands⟩

/-- A source and a line break behind another source. -/
theorem StandsAlone.append_break (alone : StandsAlone front) (start : StartsToken more)
    (h : SourceTree.parse? more = some tree) : StandsAlone (front ++ more ++ ['\n']) := by
  obtain ⟨⟨front_tree, hfront⟩, ts, s, stands⟩ := alone
  obtain ⟨tree', both, -⟩ := parse?_append (stands.joins start) hfront h
  exact standsAlone_break both

/-! Texts of nodes. -/

theorem SourceTree.text_moved {tree' : SourceTree} (same : tree'.source = front ++ tree.source)
    (n : Node) : tree'.text (n.moved front.length) = tree.text n := by
  rw [text, text, same, Node.start_moved, Node.stop_moved, Nat.add_sub_add_right,
    Nat.add_comm n.start, ← List.drop_drop, List.drop_left]

theorem SourceTree.text_append {tree' : SourceTree} (same : tree'.source = tree.source ++ more)
    {n : Node} (inside : n.stop ≤ tree.source.length) : tree'.text n = tree.text n := by
  rw [text, text, same]
  by_cases order : n.start ≤ n.stop
  · rw [List.drop_append_of_le_length (Nat.le_trans order inside), List.take_append_of_le_length]
    rw [List.length_drop]
    exact Nat.sub_le_sub_right inside _
  · rw [Nat.sub_eq_zero_of_le (Nat.le_of_not_le order), List.take_zero, List.take_zero]

/-! Insertions. -/

/-- One tree has the statements of the other one and some more between them. Those above them are
where they were, those below them are `d` characters further on, and all their nodes have the
texts that they had. -/
structure Inserted (tree tree' : SourceTree) (above added below : List Node) (d : Nat) : Prop where
  before : tree.root.children = above ++ below
  after : tree'.root.children = above ++ (added ++ below.map (Node.moved d))
  text_above : ∀ n ∈ above, ∀ m ∈ n.preorder, tree'.text m = tree.text m
  text_below : ∀ n ∈ below, ∀ m ∈ n.preorder, tree'.text (m.moved d) = tree.text m

theorem Inserted.nil (tree : SourceTree) : Inserted tree tree tree.root.children [] [] 0 :=
  ⟨(List.append_nil _).symm, (List.append_nil _).symm, fun _ _ _ _ => rfl, nofun⟩

/-- Each statement is there still, with its parts. -/
theorem Inserted.kept {tree' : SourceTree} {above added below : List Node}
    (h : Inserted tree tree' above added below d) {n : Node} (mem : n ∈ tree.root.children) :
    ∃ n' ∈ tree'.root.children, n'.kind = n.kind ∧
      n'.children.map (fun child => (child.kind, tree'.text child)) =
        n.children.map fun child => (child.kind, tree.text child) := by
  rw [h.before, List.mem_append] at mem
  rw [h.after]
  obtain mem | mem := mem
  · refine ⟨n, List.mem_append_left _ mem, rfl, List.map_congr_left fun child below => ?_⟩
    rw [h.text_above n mem child (Node.mem_preorder_of_child below child.mem_preorder_self)]
  · refine ⟨n.moved d, ?_, n.kind_moved d, ?_⟩
    · exact List.mem_append_right _ (List.mem_append_right _ (List.mem_map_of_mem mem))
    · rw [Node.children_moved, List.map_map]
      refine List.map_congr_left fun child below => ?_
      rw [Function.comp_apply, Node.kind_moved, h.text_below n mem child
        (Node.mem_preorder_of_child below child.mem_preorder_self)]

/-- A line break more at the end of the first source makes no difference. -/
theorem Inserted.of_break {tree' : SourceTree} {above added below : List Node}
    (h : Inserted front_tree tree' above added below d) (parsed : SourceTree.parse? cs = some tree)
    (broken : SourceTree.parse? (cs ++ ['\n']) = some front_tree) :
    Inserted tree tree' above added below d := by
  obtain ⟨_, -, -, broken', children, -⟩ := parse?_break parsed
  obtain rfl := Option.some.inj (broken.symm.trans broken')
  have source : tree.source = cs := source_of_parse? parsed
  have source' : front_tree.source = tree.source ++ ['\n'] := by
    rw [source]
    exact source_of_parse? broken
  have before : tree.root.children = above ++ below := children.symm.trans h.before
  have same (n : Node) (mem : n ∈ tree.root.children) (m : Node) (below : m ∈ n.preorder) :
      front_tree.text m = tree.text m := by
    refine SourceTree.text_append source' ?_
    rw [source]
    exact ((within_of_parse? parsed n mem) m below).bound
  refine ⟨before, h.after, fun n mem m inside => ?_, fun n mem m inside => ?_⟩
  · rw [h.text_above n mem m inside, same n (before ▸ List.mem_append_left _ mem) m inside]
  · rw [h.text_below n mem m inside, same n (before ▸ List.mem_append_right _ mem) m inside]

/-- A source that is put between two others, where the three may be read one by one. -/
theorem parse?_insert {block : List Char} {block_tree : SourceTree} {block_tokens : List Token}
    (joins : Joins front more ts) (joins' : Joins front (block ++ more) ts')
    (joins_block : Joins block more block_tokens)
    (hfront : SourceTree.parse? front = some front_tree)
    (hblock : SourceTree.parse? block = some block_tree)
    (hmore : SourceTree.parse? more = some more_tree)
    (h : SourceTree.parse? (front ++ more) = some tree) :
    ∃ tree', SourceTree.parse? (front ++ (block ++ more)) = some tree' ∧
      Inserted tree tree' front_tree.root.children
        (block_tree.root.children.map (Node.moved front.length))
        (more_tree.root.children.map (Node.moved front.length)) block.length := by
  obtain ⟨_, whole, children⟩ := parse?_append joins hfront hmore
  obtain rfl := Option.some.inj (h.symm.trans whole)
  obtain ⟨lower, hlower, lower_children⟩ := parse?_append joins_block hblock hmore
  obtain ⟨tree', whole', children'⟩ := parse?_append joins' hfront hlower
  have source : tree.source = front ++ more := source_of_parse? h
  have source' : tree'.source = front ++ (block ++ more) :=
    source_of_parse? whole'
  have front_source : front_tree.source = front := source_of_parse? hfront
  have more_source : more_tree.source = more := source_of_parse? hmore
  refine ⟨tree', whole', children, ?_, fun n mem m below => ?_, fun n mem m below => ?_⟩
  · rw [children', lower_children, List.map_append, List.map_map, List.map_map]
    congr 3
    funext n
    simp only [Function.comp_apply, Node.moved_moved, Nat.add_comm]
  · have inside : m.stop ≤ front_tree.source.length :=
      front_source ▸ ((within_of_parse? hfront n mem) m below).bound
    rw [SourceTree.text_append (source'.trans (by rw [front_source])) inside,
      SourceTree.text_append (source.trans (by rw [front_source])) inside]
  · obtain ⟨k, -, rfl⟩ := List.mem_map.mp mem
    rw [Node.preorder_moved, List.mem_map] at below
    obtain ⟨m, -, rfl⟩ := below
    have there : tree'.source = (front ++ block) ++ more_tree.source := by
      rw [source', more_source, List.append_assoc]
    rw [SourceTree.text_moved (source.trans (by rw [more_source])), Node.moved_moved,
      ← List.length_append, SourceTree.text_moved there]

end AgentWorkbench.Python
