import AgentWorkbench.Proofs.Python.Joining

/-!
Places in a source at which reading starts anew. Nothing is open there, no bracket, string, line or
block, so that any text behind such a place is read as a source by itself, one that starts with
blanks or with a comment too, but for a mark of the byte order, which is passed over at the start of
a source only.
-/
namespace AgentWorkbench.Python

open Text Lexer Grammar

variable {front more block : List Char} {ts : List Token} {s : LexState}
  {tree front_tree more_tree block_tree : SourceTree}

/-- A text at the end of which nothing is open. -/
structure Settled (front : List Char) (ts : List Token) (s : LexState) : Prop
    extends Stands front ts s where
  unblocked : s.blocks = [0]
  complete : expectsBlock s.last = false

/-- A settled text, as it is computed. -/
theorem exists_settled {n : Nat} (lines : WholeLines front)
    (ran : (run n {} 0 front).any fun x => x.2.contexts.isEmpty && !x.2.lineOpen &&
      x.2.column == 0 && x.2.blocks == [0] && !expectsBlock x.2.last) :
    ∃ ts s, Settled front ts s := by
  obtain ⟨⟨ts, s⟩, found, settled⟩ := (Option.any_eq_true _ _).mp ran
  simp only [Bool.and_eq_true, List.isEmpty_iff, Bool.not_eq_true', beq_iff_eq] at settled
  obtain ⟨⟨⟨⟨outside, closed⟩, column⟩, unblocked⟩, complete⟩ := settled
  exact ⟨ts, s, ⟨reads_of_run found, ⟨outside, closed, column⟩, lines⟩, unblocked, complete⟩

namespace Settled

theorem similar (h : Settled front ts s) : Similar {} s where
  contexts := h.margin.outside
  blocks := h.unblocked
  column _ := h.margin.column
  lineOpen := h.margin.closed
  block _ := h.complete
  value := (last_margin h.valid h.margin).1
  nextBlock kind := ((last_margin h.valid h.margin).2 kind).1.trans
    (by simp [expectsBlock, List.isPrefixOf])
  nextValue kind := ((last_margin h.valid h.margin).2 kind).2.trans (by cases kind <;> rfl)

theorem ends_eq (h : Settled front ts s) (start stop : Nat) : ends s start stop = [] := by
  rw [ends, Lexer.depth, h.unblocked, h.margin.closed]
  rfl

theorem tokenize (h : Settled front ts s) : tokenize front = some ts := by
  rw [h.toStands.tokenize, h.ends_eq, List.append_nil]

/-- Any text may stand behind it, unless a mark of the byte order would no longer stand at the
start. -/
theorem joins (h : Settled front ts s) (start : SameStart front.length 0 more) :
    Joins front more ts where
  alone := h.tokenize
  joined := by
    rw [tokenize_eq, h.reads.tokensAt_append .start (.inl h.lines),
      tokensAt_similar h.similar .start h.valid start, tokenize_eq, Option.map_map]
    rfl

end Settled

/-- A source in two parts that are sources themselves, of which the first one is settled. -/
structure Seam (front more : List Char) (front_tree more_tree : SourceTree) : Prop where
  settled : ∃ ts s, Settled front ts s
  front_parsed : SourceTree.parse? front = some front_tree
  more_parsed : SourceTree.parse? more = some more_tree
  unmarked : more.head? ≠ some '\uFEFF'

/-- A source that may be put into a seam. -/
structure Insertable (block : List Char) (block_tree : SourceTree) : Prop where
  some_text : block ≠ []
  settled : ∃ ts s, Settled block ts s
  parsed : SourceTree.parse? block = some block_tree
  unmarked : block.head? ≠ some '\uFEFF'

namespace Seam

theorem parse? (h : Seam front more front_tree more_tree) :
    ∃ tree, SourceTree.parse? (front ++ more) = some tree ∧ tree.root.children =
      front_tree.root.children ++ more_tree.root.children.map (Node.moved front.length) := by
  obtain ⟨ts, s, settled⟩ := h.settled
  exact parse?_append (settled.joins (.inr (.inr h.unmarked))) h.front_parsed h.more_parsed

/-- A source in a seam has seams with both sides. -/
theorem within (h : Seam front more front_tree more_tree) (h' : Insertable block block_tree) :
    ∃ lower, Seam block more block_tree more_tree ∧
      Seam front (block ++ more) front_tree lower := by
  have lower_seam : Seam block more block_tree more_tree :=
    ⟨h'.settled, h'.parsed, h.more_parsed, h.unmarked⟩
  obtain ⟨lower, parsed, -⟩ := lower_seam.parse?
  refine ⟨lower, lower_seam, h.settled, h.front_parsed, parsed, ?_⟩
  rw [List.head?_append_of_ne_nil _ h'.some_text]
  exact h'.unmarked

/-- It stands between the statements of the two sides. -/
theorem insert (h : Seam front more front_tree more_tree) (h' : Insertable block block_tree)
    (parsed : SourceTree.parse? (front ++ more) = some tree) :
    ∃ tree', SourceTree.parse? (front ++ (block ++ more)) = some tree' ∧
      Inserted tree tree' front_tree.root.children
        (block_tree.root.children.map (Node.moved front.length))
        (more_tree.root.children.map (Node.moved front.length)) block.length := by
  obtain ⟨lower, below, above⟩ := h.within h'
  obtain ⟨ts, s, first⟩ := h.settled
  obtain ⟨us, t, second⟩ := h'.settled
  exact parse?_insert (first.joins (.inr (.inr h.unmarked)))
    (first.joins (.inr (.inr above.unmarked))) (second.joins (.inr (.inr h.unmarked)))
    h.front_parsed h'.parsed h.more_parsed parsed

end Seam

end AgentWorkbench.Python
