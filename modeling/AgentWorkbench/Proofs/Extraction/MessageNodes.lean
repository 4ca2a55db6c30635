import AgentWorkbench.Proofs.Extraction.BuilderTree
import AgentWorkbench.Proofs.Extraction.Message
import AgentWorkbench.Proofs.Python.Calls

/-!
The nodes of a message. Each of its literals is one string, over its texts and its names; in the
order of the source they show the parts of the message.
-/
namespace AgentWorkbench.Extraction

open Python Python.Grammar Python.Parse Python.Lexer

/-! Parts. -/

def formatShown : FormatPart → List Char
  | .literal text => text.toList
  | .interpolation source => '\x7b' :: (source.toList ++ ['\x7d'])

/-- What a node in a string shows. -/
def partShown (tree : SourceTree) (flags : StringPrefix) (node : Node) : List Char :=
  match tree.formatPart? flags node with
  | some part => formatShown part
  | none => []

/-- A text or an interpolated name in a string. -/
inductive PartNode : Node → Prop
  | text (content : List Char) (s e : Nat) : PartNode (.mk (.segment content) s e [])
  | name (word : String) (s e s' e' : Nat) :
    PartNode (.mk .interpolation s e [.mk (.identifier word) s' e' []])

/-- The interpolation of a name is read. -/
theorem read_interpolation (word : String) (s₀ e₀ s₁ e₁ s₂ e₂ fuel : Nat) (rest : List Token) :
    read (fuel + 6) .interpolation (⟨.interpolationStart, s₀, e₀⟩ :: ⟨.name word, s₁, e₁⟩ ::
      ⟨.interpolationEnd, s₂, e₂⟩ :: rest) =
        some (.mk .interpolation s₀ e₂ [.mk (.identifier word) s₁ e₁ []], rest) :=
  rfl

/-- The token of a text is read as the text. -/
theorem chain_text (p : Goal → Parse Node) (pending : List Char) {ts : List Token}
    (h : ts.map (·.kind) = textKinds pending) : ∃ nodes,
      (∀ us as rest, Chain (formatPart p) us as rest →
        Chain (formatPart p) (ts ++ us) (nodes ++ as) rest) ∧
      (∀ node ∈ nodes, PartNode node) ∧
      ∀ tree, nodes.flatMap (partShown tree { format := true }) = pending := by
  rw [textKinds] at h
  split at h
  · next empty =>
      obtain rfl := List.map_eq_nil_iff.mp h
      have none_left : pending = [] := by
        rw [← decodeSegment_doubled pending, List.isEmpty_iff.mp empty]
        rfl
      exact ⟨[], fun _ _ _ later => later, List.forall_mem_nil _, fun _ => none_left.symm⟩
  · obtain ⟨⟨_, s, e⟩, _, rfl, rfl, done⟩ := List.map_eq_cons_iff.mp h
    obtain rfl := List.map_eq_nil_iff.mp done
    refine ⟨[.mk (.segment (doubled (escaped pending))) s e []], fun us as rest later => ?_, ?_,
      fun tree => ?_⟩
    · exact .more rfl (Nat.lt_succ_self _) later
    · intro node mem
      obtain rfl := List.mem_singleton.mp mem
      exact .text ..
    · change (String.ofList (decodeSegment { format := true } (doubled (escaped pending)))).toList
        ++ [] = pending
      rw [List.append_nil, String.toList_ofList, decodeSegment_doubled]

/-- The tokens of parts are read as nodes that show the parts, up to the closing quote. -/
theorem chain_parts (fuel : Nat) (parts : List Part) (pending : List Char) {ts : List Token}
    (h : ts.map (·.kind) = partKinds pending parts) : ∃ nodes last, last.kind = .formatEnd ∧
      (∀ rest, Chain (formatPart (read (fuel + 6))) (ts ++ rest) nodes (last :: rest)) ∧
      (∀ node ∈ nodes, PartNode node) ∧
      ∀ tree, (∀ t ∈ ts, Covers tree.source t) →
        nodes.flatMap (partShown tree { format := true }) =
          pending ++ parts.flatMap Part.shown := by
  induction parts generalizing pending ts with
  | nil =>
      obtain ⟨front, _, rfl, text, last⟩ := List.map_eq_append_iff.mp h
      obtain ⟨⟨_, s, e⟩, _, rfl, rfl, done⟩ := List.map_eq_cons_iff.mp last
      obtain rfl := List.map_eq_nil_iff.mp done
      obtain ⟨nodes, chain, good, shown⟩ := chain_text (read (fuel + 6)) pending text
      refine ⟨nodes, ⟨.formatEnd, s, e⟩, rfl, fun rest => ?_, good, fun tree _ => ?_⟩
      · rw [List.append_assoc]
        have stops : formatPart (Grammar.read (fuel + 6)) (⟨.formatEnd, s, e⟩ :: rest) = none := rfl
        have done := chain _ _ _ (.done stops)
        rwa [List.append_nil] at done
      · rw [shown, List.flatMap_nil, List.append_nil]
  | cons part parts ih =>
      cases part with
      | text content =>
          obtain ⟨nodes, last, ends, chain, good, shown⟩ := ih (pending ++ content.toList) h
          refine ⟨nodes, last, ends, chain, good, fun tree covers => ?_⟩
          rw [shown tree covers, List.flatMap_cons, List.append_assoc]
          rfl
      | name word =>
          obtain ⟨front, _, rfl, text, h₀⟩ := List.map_eq_append_iff.mp h
          obtain ⟨⟨_, s₀, e₀⟩, _, rfl, rfl, h₁⟩ := List.map_eq_cons_iff.mp h₀
          obtain ⟨⟨_, s₁, e₁⟩, _, rfl, rfl, h₂⟩ := List.map_eq_cons_iff.mp h₁
          obtain ⟨⟨_, s₂, e₂⟩, behind, rfl, rfl, h₃⟩ := List.map_eq_cons_iff.mp h₂
          obtain ⟨before, chain, good, shown⟩ := chain_text (read (fuel + 6)) pending text
          obtain ⟨nodes, last, ends, chain', good', shown'⟩ := ih [] h₃
          let name := Node.mk .interpolation s₀ e₂ [.mk (.identifier word.name) s₁ e₁ []]
          refine ⟨before ++ name :: nodes, last, ends, fun rest => ?_, ?_, fun tree covers => ?_⟩
          · rw [List.append_assoc]
            refine chain _ _ _ (.more (a := name) ?_ ?_ (chain' rest))
            · exact read_interpolation word.name s₀ e₀ s₁ e₁ s₂ e₂ fuel (behind ++ rest)
            · simp only [List.cons_append, List.length_cons]
              omega
          · intro node mem
            obtain mem | mem := List.mem_append.mp mem
            · exact good node mem
            · obtain rfl | mem := List.mem_cons.mp mem
              · exact .name ..
              · exact good' node mem
          · have here : partShown tree { format := true } name = Part.shown (.name word) := by
              have cover := covers ⟨.name word.name, s₁, e₁⟩ (by simp) word.name rfl
              change '\x7b' :: ((String.ofList _).toList ++ ['\x7d']) = _
              rw [String.toList_ofList]
              refine congrArg ('\x7b' :: · ++ ['\x7d']) (Eq.trans cover ?_)
              exact String.toList_ofList
            rw [List.flatMap_append, shown, List.flatMap_cons, here,
              shown' tree fun t mem => covers t (by simp [mem]), List.flatMap_cons]
            rfl

/-! Literals. -/

/-- A string of a message, which has names only if it is a format string. -/
inductive PieceNode : Node → Prop
  | formatted {parts : List Node} (s e : Nat) : (∀ part ∈ parts, PartNode part) →
    PieceNode (.mk (.string { format := true }) s e parts)
  | plain {parts : List Node} (s e : Nat) :
    (∀ part ∈ parts, ∃ content s e, part = .mk (.segment content) s e []) →
    PieceNode (.mk (.string {}) s e parts)

/-- What the nodes in a string show. -/
def pieceShown (tree : SourceTree) (piece : Node) : List Char :=
  match SourceTree.stringFlags? piece with
  | some flags => piece.children.flatMap (partShown tree flags)
  | none => []

theorem read_piece (fuel : Nat) (piece : Piece) {ts : List Token}
    (h : ts.map (·.kind) = piece.kinds) : ∃ node, PieceNode node ∧
      (∀ rest, stringPiece (read (fuel + 6)) (ts ++ rest) = some (node, rest)) ∧
      ∀ tree, (∀ t ∈ ts, Covers tree.source t) →
        pieceShown tree node = piece.parts.flatMap Part.shown := by
  cases piece with
  | formatted parts =>
      obtain ⟨⟨_, s, e⟩, behind, rfl, rfl, inside⟩ := List.map_eq_cons_iff.mp h
      obtain ⟨nodes, ⟨_, s', e'⟩, rfl, chain, good, shown⟩ := chain_parts fuel parts [] inside
      refine ⟨.mk (.string { format := true }) s e' nodes, .formatted s e' good, fun rest => ?_,
        fun tree covers => ?_⟩
      · have read := (chain rest).many
        simp only [stringPiece, orElse_apply, bind_apply]
        change ((many (formatPart (Grammar.read (fuel + 6))) (behind ++ rest)).bind _) = _
        rw [read]
        rfl
      · exact shown tree fun t mem => covers t (List.mem_cons_of_mem _ mem)
  | plain texts =>
      let text := texts.flatMap String.toList
      obtain ⟨⟨_, s, e⟩, _, rfl, rfl, done⟩ := List.map_eq_cons_iff.mp h
      obtain rfl := List.map_eq_nil_iff.mp done
      let segments : List Node :=
        if (escaped text).isEmpty then [] else [.mk (.segment (escaped text)) s e []]
      refine ⟨.mk (.string {}) s e segments, .plain s e fun part mem => ?_, fun rest => rfl,
        fun tree _ => ?_⟩
      · rw [List.mem_ite_nil_left, List.mem_singleton] at mem
        exact ⟨_, _, _, mem.2⟩
      · have parts : (texts.map Part.text).flatMap Part.shown = text := List.flatMap_map ..
        change segments.flatMap (partShown tree {}) = (texts.map Part.text).flatMap Part.shown
        have decoded := decodeEscapes_escaped text
        rw [parts]
        simp only [segments]
        split
        · next empty =>
            rw [List.isEmpty_iff.mp empty] at decoded
            exact decoded
        · change (String.ofList (decodeEscapes (escaped text))).toList ++ [] = text
          rw [List.append_nil, String.toList_ofList, decoded]

/-- A string, or several of them one after the other, that show a text. -/
structure Message (tree : SourceTree) (text : List Char) (node : Node) (pieces : List Node) :
    Prop where
  form : pieces = [node] ∨ node.kind = .concatenation ∧ node.children = pieces
  good : ∀ piece ∈ pieces, PieceNode piece
  shown : pieces.flatMap (pieceShown tree) = text

theorem chain_pieces (fuel : Nat) (more : List (Gap × Piece)) {ts : List Token}
    (h : ts.map (·.kind) = more.flatMap (·.2.kinds)) : ∃ nodes, (∀ node ∈ nodes, PieceNode node) ∧
      (∀ rest, stringPiece (read (fuel + 6)) rest = none →
        Chain (stringPiece (read (fuel + 6))) (ts ++ rest) nodes rest) ∧
      ∀ tree, (∀ t ∈ ts, Covers tree.source t) → nodes.flatMap (pieceShown tree) =
        (more.flatMap (·.2.parts)).flatMap Part.shown := by
  induction more generalizing ts with
  | nil =>
      obtain rfl := List.map_eq_nil_iff.mp h
      exact ⟨[], nofun, fun _ stops => .done stops, fun _ _ => rfl⟩
  | cons next more ih =>
      obtain ⟨front, behind, rfl, own, later⟩ := List.map_eq_append_iff.mp h
      obtain ⟨node, good, reads, shown⟩ := read_piece fuel next.2 own
      obtain ⟨nodes, all_good, chain, all_shown⟩ := ih later
      have some_token : 0 < next.2.kinds.length := by
        cases next.2 <;> exact Nat.zero_lt_succ _
      change front.map _ = next.2.kinds at own
      rw [← own, List.length_map] at some_token
      refine ⟨node :: nodes, List.forall_mem_cons.mpr ⟨good, all_good⟩, fun rest stops => ?_,
        fun tree covers => ?_⟩
      · rw [List.append_assoc]
        refine .more (reads _) ?_ (chain rest stops)
        simp only [List.length_append]
        omega
      · obtain ⟨cover, covers⟩ := List.forall_mem_append.mp covers
        rw [List.flatMap_cons, shown tree cover, all_shown tree covers, List.flatMap_cons,
          List.flatMap_append]

/-- The tokens of literals are read as a message that shows their parts. -/
theorem read_literals (fuel : Nat) (literals : Literals) {ts : List Token}
    (h : ts.map (·.kind) = literals.kinds) : ∃ node pieces,
      (∀ rest, stringPiece (read (fuel + 6)) rest = none →
        strings (read (fuel + 6)) (ts ++ rest) = some (node, rest)) ∧
      ∀ tree, (∀ t ∈ ts, Covers tree.source t) →
        Message tree (literals.parts.flatMap Part.shown) node pieces := by
  obtain ⟨front, behind, rfl, own, later⟩ := List.map_eq_append_iff.mp h
  obtain ⟨first, good, reads, shown⟩ := read_piece fuel literals.first own
  obtain ⟨nodes, all_good, chain, all_shown⟩ := chain_pieces fuel literals.more later
  have pieces_good := List.forall_mem_cons.mpr ⟨good, all_good⟩
  have pieces_shown (tree : SourceTree) (covers : ∀ t ∈ front ++ behind, Covers tree.source t) :
      (first :: nodes).flatMap (pieceShown tree) = literals.parts.flatMap Part.shown := by
    obtain ⟨cover, covers⟩ := List.forall_mem_append.mp covers
    rw [List.flatMap_cons, shown tree cover, all_shown tree covers, Literals.parts,
      List.flatMap_append]
  have all (rest : List Token) (stops : stringPiece (read (fuel + 6)) rest = none) :
      many1 (stringPiece (read (fuel + 6))) (front ++ behind ++ rest) =
        some (first :: nodes, rest) := by
    rw [List.append_assoc]
    simp only [many1, bind_apply, pure_apply, reads, (chain rest stops).many, Option.bind_some]
  cases nodes with
  | nil =>
      refine ⟨first, [first], fun rest stops => ?_, fun tree covers =>
        ⟨.inl rfl, pieces_good, pieces_shown tree covers⟩⟩
      rw [strings, bind_apply, all rest stops]
      rfl
  | cons second nodes =>
      refine ⟨.spanning .concatenation (first :: second :: nodes), first :: second :: nodes,
        fun rest stops => ?_, fun tree covers =>
          ⟨.inr ⟨rfl, rfl⟩, pieces_good, pieces_shown tree covers⟩⟩
      rw [strings, bind_apply, all rest stops]
      rfl

/-! What a message is lowered to. -/

theorem flatMap_mergeLiterals (parts : List FormatPart) :
    (SourceTree.mergeLiterals parts).flatMap formatShown = parts.flatMap formatShown := by
  induction parts with
  | nil => rfl
  | cons part rest ih =>
      cases part with
      | interpolation source =>
          rw [SourceTree.mergeLiterals.eq_2 (.interpolation source) rest nofun, List.flatMap_cons,
            ih]
          rfl
      | literal a =>
          rw [SourceTree.mergeLiterals, List.flatMap_cons, ← ih]
          split
          · next b more merged =>
              rw [merged]
              simp [formatShown]
          · rfl

theorem renderedText?_formatted (source : String) (parts : List FormatPart) :
    (Expr.formatted source parts).renderedText? = some (.ofList (parts.flatMap formatShown)) := by
  refine congrArg some (String.toList_inj.mp ?_)
  rw [String.toList_ofList, String.toList_join, List.flatMap_map]
  congr 1
  funext part
  cases part <;> simp [formatShown]

theorem flatMap_filterMap_formatPart? (tree : SourceTree) (flags : StringPrefix)
    (nodes : List Node) : (nodes.filterMap (tree.formatPart? flags)).flatMap formatShown =
      nodes.flatMap (partShown tree flags) := by
  induction nodes with
  | nil => rfl
  | cons node rest ih =>
      rw [List.filterMap_cons, List.flatMap_cons, ← ih, partShown]
      cases tree.formatPart? flags node <;> rfl

/-- The parts of a message. -/
def partsOf (tree : SourceTree) (pieces : List Node) : List FormatPart :=
  pieces.flatMap fun piece =>
    match SourceTree.stringFlags? piece with
    | some flags => piece.children.filterMap (tree.formatPart? flags)
    | none => []

theorem flatMap_partsOf (tree : SourceTree) (pieces : List Node) :
    (partsOf tree pieces).flatMap formatShown = pieces.flatMap (pieceShown tree) := by
  rw [partsOf, List.flatMap_assoc]
  congr 1
  funext piece
  rw [pieceShown]
  cases SourceTree.stringFlags? piece with
  | none => rfl
  | some flags => exact flatMap_filterMap_formatPart? tree flags piece.children

theorem literal_of_plain (tree : SourceTree) {pieces : List Node}
    (good : ∀ piece ∈ pieces, PieceNode piece)
    (plain : (pieces.filterMap SourceTree.stringFlags?).any (·.format) = false) :
    ∀ part ∈ partsOf tree pieces, ∃ text, part = .literal text := by
  intro part mem
  obtain ⟨piece, among, inside⟩ := List.mem_flatMap.mp mem
  cases good piece among with
  | formatted s e _ =>
      have flags := List.mem_filterMap.mpr ⟨_, among, (rfl : SourceTree.stringFlags? _ = some _)⟩
      exact absurd (List.any_eq_false.mp plain _ flags) (by decide)
  | plain s e segments =>
      obtain ⟨node, child, found⟩ := List.mem_filterMap.mp inside
      obtain ⟨content, s', e', rfl⟩ := segments node child
      cases found
      exact ⟨_, rfl⟩

theorem bytes_of_pieces {pieces : List Node} (good : ∀ piece ∈ pieces, PieceNode piece) :
    (pieces.filterMap SourceTree.stringFlags?).any (·.bytes) = false := by
  rw [List.any_eq_false]
  intro flags mem
  obtain ⟨piece, among, found⟩ := List.mem_filterMap.mp mem
  cases good piece among with
  | formatted => cases found; exact Bool.false_ne_true
  | plain => cases found; exact Bool.false_ne_true

/-- Literals are lowered to a text that is what they show. -/
theorem renderedText?_lowerStrings (tree : SourceTree) (source : String) {pieces : List Node}
    (good : ∀ piece ∈ pieces, PieceNode piece) :
    (tree.lowerStrings source pieces).renderedText? =
      some (.ofList (pieces.flatMap (pieceShown tree))) := by
  rw [← flatMap_partsOf, SourceTree.lowerStrings, bytes_of_pieces good, if_neg Bool.false_ne_true]
  split
  · rw [renderedText?_formatted, flatMap_mergeLiterals]
    rfl
  · next plain =>
      have literal := literal_of_plain tree good ((Bool.not_eq_true _).mp plain)
      refine congrArg some (String.toList_inj.mp ?_)
      rw [String.toList_ofList, String.toList_join, List.flatMap_map]
      refine List.flatMap_congr fun part mem => ?_
      obtain ⟨text, rfl⟩ := literal part mem
      rfl

/-- A message is lowered to its text. -/
theorem Message.renderedText? {tree : SourceTree} {text : List Char} {node : Node}
    {pieces : List Node} (message : Message tree text node pieces) :
    (tree.lower node).renderedText? = some (.ofList text) := by
  obtain ⟨form, good, shown⟩ := message
  have lowered (source : String) := renderedText?_lowerStrings tree source good
  simp only [shown] at lowered
  obtain ⟨kind, s, e, children⟩ := node
  obtain rfl | ⟨rfl, rfl⟩ := form
  · cases good _ List.mem_cons_self with
    | formatted => exact lowered _
    | plain => exact lowered _
  · exact lowered _

theorem callsBelow_eq_nil (tree : SourceTree) {nodes : List Node}
    (h : ∀ node ∈ nodes, callsBelow tree [node] = []) : callsBelow tree nodes = [] := by
  induction nodes with
  | nil => rfl
  | cons node rest ih =>
      obtain ⟨here, later⟩ := List.forall_mem_cons.mp h
      rw [← List.singleton_append, callsBelow_append, here, ih later, List.append_nil]

theorem PartNode.no_calls {node : Node} (h : PartNode node) (tree : SourceTree) :
    callsBelow tree [node] = [] := by
  cases h <;> rfl

theorem PieceNode.no_calls {node : Node} (h : PieceNode node) (tree : SourceTree) :
    callsBelow tree [node] = [] := by
  have parts : ∀ part ∈ node.children, PartNode part := by
    cases h with
    | formatted _ _ good => exact good
    | plain _ _ good =>
        intro part mem
        obtain ⟨content, s, e, rfl⟩ := good part mem
        exact .text ..
  rw [callsBelow_singleton tree (by cases h <;> exact nofun)]
  exact callsBelow_eq_nil tree fun part mem => (parts part mem).no_calls tree

/-- No call is below a message. -/
theorem Message.no_calls {tree : SourceTree} {text : List Char} {node : Node}
    {pieces : List Node} (message : Message tree text node pieces) :
    callsBelow tree [node] = [] := by
  obtain ⟨form, good, -⟩ := message
  obtain rfl | ⟨kind, rfl⟩ := form
  · exact (good node List.mem_cons_self).no_calls tree
  · rw [callsBelow_singleton tree (by rw [kind]; exact nofun)]
    exact callsBelow_eq_nil tree fun piece mem => (good piece mem).no_calls tree

/-! At another place. -/

section Moved

variable {tree tree' : SourceTree} {d : Nat}

theorem PartNode.moved {node : Node} (h : PartNode node) (d : Nat) : PartNode (node.moved d) := by
  cases h with
  | text => exact .text ..
  | name => exact .name ..

theorem PieceNode.moved {node : Node} (h : PieceNode node) (d : Nat) :
    PieceNode (node.moved d) := by
  cases h with
  | formatted s e good =>
      rw [Node.moved, Node.movedList_eq_map]
      refine .formatted _ _ fun part mem => ?_
      obtain ⟨part, among, rfl⟩ := List.mem_map.mp mem
      exact (good part among).moved d
  | plain s e good =>
      rw [Node.moved, Node.movedList_eq_map]
      refine .plain _ _ fun part mem => ?_
      obtain ⟨part, among, rfl⟩ := List.mem_map.mp mem
      obtain ⟨content, s', e', rfl⟩ := good part among
      exact ⟨content, _, _, rfl⟩

variable (same : ∀ node, tree'.text (node.moved d) = tree.text node)
include same

theorem partShown_moved (flags : StringPrefix) (node : Node) :
    partShown tree' flags (node.moved d) = partShown tree flags node := by
  have part : tree'.formatPart? flags (node.moved d) = tree.formatPart? flags node := by
    have head : (node.moved d).children.head?.map tree'.text =
        node.children.head?.map tree.text := by
      rw [Node.children_moved, List.head?_map, Option.map_map]
      congr 1
      funext child
      exact same child
    rw [SourceTree.formatPart?, SourceTree.formatPart?, Node.kind_moved, head]
  rw [partShown, partShown, part]

theorem pieceShown_moved (piece : Node) :
    pieceShown tree' (piece.moved d) = pieceShown tree piece := by
  have flags : SourceTree.stringFlags? (piece.moved d) = SourceTree.stringFlags? piece := by
    rw [SourceTree.stringFlags?, SourceTree.stringFlags?, Node.kind_moved]
  rw [pieceShown, pieceShown, flags, Node.children_moved]
  cases SourceTree.stringFlags? piece with
  | none => rfl
  | some flags =>
      dsimp only
      rw [List.flatMap_map]
      congr 1
      funext node
      exact partShown_moved same flags node

/-- A message shows the same at another place, if the texts there are the same. -/
theorem Message.moved {text : List Char} {node : Node} {pieces : List Node}
    (message : Message tree text node pieces) :
    Message tree' text (node.moved d) (pieces.map (Node.moved d)) where
  form := by
    obtain rfl | ⟨kind, rfl⟩ := message.form
    · exact .inl rfl
    · exact .inr ⟨(node.kind_moved d).trans kind, node.children_moved d⟩
  good piece mem := by
    obtain ⟨piece, among, rfl⟩ := List.mem_map.mp mem
    exact (message.good piece among).moved d
  shown := by
    rw [List.flatMap_map, ← message.shown]
    congr 1
    funext piece
    exact pieceShown_moved same piece

end Moved

end AgentWorkbench.Extraction
