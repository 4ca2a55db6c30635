import AgentWorkbench.Proofs.Python.Calls
import AgentWorkbench.Proofs.Python.Joining

/-!
Lines put in front of a block. The block of an `if` statement may be read at another place, behind
lines that are read by themselves; the statement is one with more lines then, and what stands below
it is read as before.
-/
namespace AgentWorkbench.Python

variable {σ : Shift} {p p' : Goal → Parse Node} {d n fuel fuel' : Nat} {ts ts' us : List Token}

theorem Alike.eq_nil_iff (h : Alike σ d ts ts') (hrest : σ.rest = []) : ts' = [] ↔ ts = [] := by
  rw [← List.length_eq_zero_iff, h.length_eq, hrest, List.length_nil, Nat.add_zero,
    List.length_eq_zero_iff]

namespace Grammar

open Parse

/-- What is read one by one is read so in tandem, with corresponding tokens behind it. -/
theorem chain_tandem {α α' : Type} {S : α → α' → Prop} {q : Parse α} {q' : Parse α'}
    {budget : List Token} {vs : List α} (tandem : Tandem (Ahead σ d) (Ahead σ d) n 1 S q q')
    (h : manyWithin q budget ts = some (vs, us)) (ahead : Ahead σ d ts ts') (room : ts.length ≤ n)
    (enough : ts.length ≤ budget.length) :
    ∃ vs' us', Chain q' ts' vs' us' ∧ Ahead σ d us us' ∧ us.length ≤ ts.length := by
  induction budget generalizing ts ts' vs with
  | nil => exact absurd (List.eq_nil_of_length_eq_zero (Nat.le_zero.mp enough)) ahead.ne_nil
  | cons b budget ih =>
    obtain ⟨absent, absent'⟩ | ⟨v, v', ws, ws', read, read', -, behind, shorter⟩ :=
      (tandem ahead room).cases
    · simp only [manyWithin, absent, Option.some.injEq, Prod.mk.injEq] at h
      obtain ⟨-, rfl⟩ := h
      exact ⟨[], ts', .done absent', ahead, Nat.le_refl _⟩
    · simp only [manyWithin, read, Option.map_eq_some_iff, Prod.mk.injEq, Prod.exists] at h
      obtain ⟨more, _, later, -, rfl⟩ := h
      have enough' : ws.length ≤ budget.length := by
        rw [List.length_cons] at enough
        omega
      obtain ⟨vs', us', chain, last, fewer⟩ := ih later behind (by omega) enough'
      refine ⟨v' :: vs', us', .more read' ?_ chain, last, by omega⟩
      rw [ahead.alike.length_eq, behind.alike.length_eq]
      omega

/-! An `if` statement over a block. -/

/-- The tokens of an `if` statement with this condition up to its block. -/
inductive OpensIf (condition : List Token) : List Token → Prop
  | tokens (s₁ e₁ s₂ e₂ s₃ e₃ s₄ e₄ : Nat) : OpensIf condition (⟨.keyword "if", s₁, e₁⟩ ::
      (condition ++ [⟨.op ":", s₂, e₂⟩, ⟨.newline, s₃, e₃⟩, ⟨.indent, s₄, e₄⟩]))

/-- A condition that is read as one in front of a colon. -/
def IsCondition (condition : List Token) : Prop :=
  ∀ fuel s e rest, ∃ node, read (fuel + 6) .named (condition ++ ⟨.op ":", s, e⟩ :: rest) =
    some (node, ⟨.op ":", s, e⟩ :: rest)

theorem suite_block (s₁ e₁ s₂ e₂ s₃ e₃ : Nat) :
    suite (read (fuel + 6)) (⟨.op ":", s₁, e₁⟩ :: ⟨.newline, s₂, e₂⟩ :: ⟨.indent, s₃, e₃⟩ :: ts) =
      (many1 (read (fuel + 6) .line) ts).bind fun lines =>
        (accept .dedent lines.2).bind fun x => some (blockOf lines.1, x.2) := by
  have simple : simpleLine (read (fuel + 6)) (⟨.newline, s₂, e₂⟩ :: ⟨.indent, s₃, e₃⟩ :: ts) = none :=
    rfl
  have block : suite (read (fuel + 6))
      (⟨.op ":", s₁, e₁⟩ :: ⟨.newline, s₂, e₂⟩ :: ⟨.indent, s₃, e₃⟩ :: ts) =
      ((many1 (read (fuel + 6) .line) ts).bind fun lines =>
        (accept .dedent lines.2).bind fun x => some (blockOf lines.1, x.2)).or none := by
    rw [← simple]
    exact orElse_apply _ _ _
  rw [block, Option.or_none]

/-- Nothing but an `if` statement starts with its word. -/
theorem line_if (s e : Nat) :
    line (read (fuel + 6)) (⟨.keyword "if", s, e⟩ :: ts) =
      (ifStatement (read (fuel + 6)) (⟨.keyword "if", s, e⟩ :: ts)).map
        fun x => (.spanning .block [x.1], x.2) := by
  have before : ∀ p : Goal → Parse Node, (functionDefinition p none <|> classDefinition p)
      (⟨.keyword "if", s, e⟩ :: ts) = none := fun _ => rfl
  have after : ∀ p : Goal → Parse Node, (forStatement p <|> whileStatement p <|> tryStatement p <|>
      withStatement p <|> decoratedDefinition p <|> asyncFunction p <|> asyncStatement p <|>
      matchStatement p) (⟨.keyword "if", s, e⟩ :: ts) = none := fun _ => rfl
  have simple : simpleLine (read (fuel + 6)) (⟨.keyword "if", s, e⟩ :: ts) = none := rfl
  have before := before (read (fuel + 6))
  simp only [orElse_apply, Option.or_eq_none_iff] at before
  rw [line, orElse_apply, simple, Option.or_none, bind_apply, compoundStatement, orElse_apply,
    before.1, Option.none_or, orElse_apply, before.2, Option.none_or, orElse_apply, after,
    Option.or_none]
  cases ifStatement (read (fuel + 6)) (⟨.keyword "if", s, e⟩ :: ts) <;> rfl

/-- The block of a statement and what may go on with it. -/
def blockAndBranches (p : Goal → Parse Node) : Parse (List Node × List Node) := do
  let lines ← many1 (p .line)
  let _ ← accept .dedent
  return (lines, ← branches p)

theorem line_opensIf {condition header : List Token} (opens : OpensIf condition header)
    (reads : IsCondition condition) (fuel : Nat) (ts : List Token) :
    ∃ statement : List Node × List Node → Node, (∀ x, (statement x).kind = .statement) ∧
      read (fuel + 7) .line (header ++ ts) = (blockAndBranches (read (fuel + 6)) ts).map fun x =>
        (.spanning .block [statement x.1], x.2) := by
  cases opens with
  | tokens s₁ e₁ s₂ e₂ s₃ e₃ s₄ e₄ =>
    obtain ⟨node, named⟩ := reads fuel s₂ e₂ (⟨.newline, s₃, e₃⟩ :: ⟨.indent, s₄, e₄⟩ :: ts)
    have word (more : List Token) : keyword "if" (⟨.keyword "if", s₁, e₁⟩ :: more) =
        some (⟨.keyword "if", s₁, e₁⟩, more) := rfl
    refine ⟨fun x => .onward ⟨.keyword "if", s₁, e₁⟩ .statement (node :: blockOf x.1 :: x.2),
      fun _ => rfl, ?_⟩
    rw [List.cons_append, List.append_assoc]
    change line (read (fuel + 6)) _ = _
    rw [line_if, ifStatement_eq, bind_apply, word, Option.bind_some, bind_apply]
    simp only [List.cons_append, List.nil_append, named, Option.bind_some, bind_apply, suite_block,
      blockAndBranches, pure_apply, Option.bind_assoc, Option.map_bind, Function.comp_def,
      Option.map_some]

/-! The same block at other places. -/

theorem good_read_lines (hf : 8 * n + 6 ≤ fuel) (hf' : 8 * n + 6 ≤ fuel') :
    Good σ (read fuel) (read fuel') 6 n where
  now g _ := by
    have hrank : g.rank ≤ 5 := by cases g <;> decide
    exact agrees_read (by omega) (by omega)
  later := (good_read (by omega) (by omega)).later

theorem blockAndBranches_tandem (h : Good σ p p' 6 n) :
    Tandem (Ahead σ (d + 1)) (Alike σ d) n 1 (fun _ _ => True) (blockAndBranches p)
      (blockAndBranches p') := by
  have lines := (Good.line (r := 0) (d := d) h).many1 fun _ _ => Ahead.length_le
  refine lines.next fun m hm _ _ _ => dedent_tandem.weaken.bind fun _ _ _ => ?_
  exact (branches_tandem (h.next hm)).bind fun _ _ _ => .pure trivial

/-- What is behind the header of an `if` statement: a block that is read at its place, what goes on
with the statement, and all the lines below it. -/
structure ReadsBlock (fuel : Nat) (ts : List Token) (lines : List Node) : Prop where
  reads : ∃ x us, blockAndBranches (read fuel) ts = some (x, us) ∧
    many (read fuel .line) us = some (lines, [])

/-- Lines that stand in front of others without any effect on how those are read. -/
def StandInFront (ts : List Token) : Prop :=
  ∀ fuel us lines rest, 8 * ts.length ≤ fuel → Chain (read fuel .line) us lines rest →
    ∃ more, Chain (read fuel .line) (ts ++ us) (more ++ lines) rest

theorem StandInFront.nil : StandInFront [] := fun _ _ _ _ _ chain => ⟨[], chain⟩

theorem StandInFront.append (h : StandInFront ts) (h' : StandInFront ts') :
    StandInFront (ts ++ ts') := by
  intro fuel us lines rest deep chain
  rw [List.length_append] at deep
  obtain ⟨more, later⟩ := h' fuel us lines rest (by omega) chain
  obtain ⟨before, whole⟩ := h fuel _ _ _ (by omega) later
  exact ⟨before ++ more, by rwa [List.append_assoc, List.append_assoc]⟩

/-- So does a line that is read with anything behind it. -/
theorem StandInFront.of_line {k : Nat} (some_token : ts ≠ []) (enough : k ≤ 8 * ts.length)
    (reads : ∀ fuel rest, ∃ node, read (fuel + k) .line (ts ++ rest) = some (node, rest)) :
    StandInFront ts := by
  intro fuel us lines rest deep chain
  obtain ⟨fuel, rfl⟩ := Nat.exists_eq_add_of_le' (Nat.le_trans enough deep)
  obtain ⟨node, read⟩ := reads fuel us
  have longer := List.length_pos_iff.mpr some_token
  refine ⟨[node], .more read ?_ chain⟩
  rw [List.length_append]
  omega

/-- Tokens of these kinds, wherever they stand. -/
def tokensOf (spans : Nat → Nat × Nat) : List TokenKind → List Token
  | [] => []
  | kind :: kinds => ⟨kind, (spans 0).1, (spans 0).2⟩ :: tokensOf (fun i => spans (i + 1)) kinds

theorem exists_tokensOf (ts : List Token) : ∃ spans, ts = tokensOf spans (ts.map (·.kind)) := by
  induction ts with
  | nil => exact ⟨fun _ => (0, 0), rfl⟩
  | cons t ts ih =>
    obtain ⟨spans, eq⟩ := ih
    refine ⟨fun i => i.casesOn (t.start, t.stop) spans, ?_⟩
    exact congrArg (t :: ·) eq

theorem lines_everywhere {budget budget' : List Token} (hf : 8 * n + 14 ≤ fuel)
    (hf' : 8 * n + 14 ≤ fuel') (alike : Alike σ 0 ts ts') (hrest : σ.rest = [])
    (room : ts.length ≤ n) (enough : ts.length ≤ budget.length)
    (enough' : ts.length ≤ budget'.length) :
    Outcome (Alike σ 0) ts.length 0 (List.Forall₂ (Node.LineTwin σ))
      (manyWithin (read fuel .line) budget ts) (manyWithin (read fuel' .line) budget' ts') :=
  (line_everywhere hf hf' hrest).manyWithin alike room enough enough'

/-- A file that starts with an `if` statement over a block is the statement and the lines below. -/
theorem file_opensIf {condition header : List Token} (opens : OpensIf condition header)
    (isCondition : IsCondition condition) (ts : List Token) :
    ∃ fuel budget, 8 * ts.length + 8 ≤ fuel ∧ ts.length ≤ budget.length ∧
      ∃ statement : List Node × List Node → Node, (∀ x, (statement x).kind = .statement) ∧
        file (header ++ ts) = (blockAndBranches (read (fuel + 6)) ts).bind fun x =>
          (manyWithin (read (fuel + 7) .line) budget x.2).bind fun y =>
            if y.2.isEmpty then
              some (.spanning .file (statement x.1 :: y.1.flatMap Node.children))
            else none := by
  obtain ⟨fuel, deep⟩ := Nat.exists_eq_add_of_le' (show 7 ≤ depth (header ++ ts) by simp [depth])
  obtain ⟨t, more, cut⟩ : ∃ t more, header = t :: more := by
    cases opens
    exact ⟨_, _, rfl⟩
  obtain ⟨statement, kind, first⟩ := line_opensIf opens isCondition fuel ts
  refine ⟨fuel, more ++ ts, ?_, by simp, statement, kind, ?_⟩
  · rw [depth, cut, List.length_append, List.length_cons] at deep
    omega
  · rw [cut, List.cons_append] at deep first ⊢
    simp only [file, many, manyWithin, deep, first]
    cases blockAndBranches (read (fuel + 6)) ts with
    | none => rfl
    | some x =>
      simp only [Option.map_some, Option.bind_some, Option.bind_eq_bind]
      cases manyWithin (read (fuel + 7) .line) (more ++ ts) x.2 with
      | none => rfl
      | some y => rfl

/-- The block of an `if` statement that starts a file is read at another place too. -/
theorem readsBlock_of_file {condition header : List Token} {node : Node}
    (opens : OpensIf condition header) (isCondition : IsCondition condition)
    (h : file (header ++ ts') = some node) (alike : Alike σ 1 ts ts') (hrest : σ.rest = [])
    (deep : 8 * ts.length + 14 ≤ fuel) : ∃ statement lines, ReadsBlock fuel ts lines ∧
      statement.kind = .statement ∧
      node.children = statement :: (lines.flatMap Node.children).map (Node.moved σ.distance) := by
  obtain ⟨fuel', budget, deep', room, statement, kind, file_eq⟩ :=
    file_opensIf opens isCondition ts'
  have longer : ts'.length = ts.length := by
    rw [alike.length_eq, hrest, List.length_nil, Nat.add_zero]
  rw [file_eq] at h
  obtain ⟨-, block'⟩ | ⟨x, x', us, us', block, block', -, behind, shorter⟩ :=
    (blockAndBranches_tandem (good_read_lines (show 8 * ts.length + 6 ≤ fuel by omega)
      (show 8 * ts.length + 6 ≤ fuel' + 6 by omega)) alike.ahead (Nat.le_refl _)).cases
  · rw [block'] at h
    contradiction
  rw [block', Option.bind_some] at h
  obtain ⟨-, below'⟩ | ⟨lines, lines', left, left', below, below', twins, ended, -⟩ :=
    (lines_everywhere deep (show 8 * ts.length + 14 ≤ fuel' + 7 by omega) behind hrest (by omega)
      (Nat.le_refl us.length) (show us.length ≤ budget.length by omega)).cases
  · rw [below'] at h
    contradiction
  rw [below', Option.bind_some] at h
  split at h
  · next empty =>
    obtain rfl := Option.some.inj h
    obtain rfl := (ended.eq_nil_iff hrest).mp (List.isEmpty_iff.mp empty)
    refine ⟨statement x', lines, ⟨x, us, block, below⟩, kind x', ?_⟩
    exact congrArg (_ :: ·) (Node.twins_iff.mp (lines_twins twins)).1
  · contradiction

/-- A block goes on where it did behind lines that are put in front of it. -/
theorem blockAndBranches_behind {front : List Token} {x : List Node × List Node}
    (stands : StandInFront front) (h : blockAndBranches (read fuel) ts = some (x, us))
    (alike : Alike σ 1 ts ts') (deep : 8 * ts.length + 6 ≤ fuel)
    (deep' : 8 * (front ++ ts').length ≤ fuel') (enough : 8 * ts.length + 6 ≤ fuel') :
    ∃ x' us', blockAndBranches (read fuel') (front ++ ts') = some (x', us') ∧ Alike σ 0 us us' ∧
      us.length ≤ ts.length := by
  have good : Good σ (read fuel) (read fuel') 6 ts.length := good_read_lines deep enough
  have lines := Good.line (r := 0) (d := 0) good
  simp only [blockAndBranches, many1, many, bind_apply, pure_apply, Option.bind_eq_some_iff,
    Prod.exists, Option.some.injEq, Prod.mk.injEq] at h
  obtain ⟨_, vs, ⟨first, ws, read_first, more, _, read_more, rfl, rfl⟩, _, zs, dedent, others, _,
    read_others, rfl, rfl⟩ := h
  obtain ⟨absent, -⟩ | ⟨_, first', _, ws', found, read_first', -, ahead, shorter⟩ :=
    (lines alike.ahead (Nat.le_refl _)).cases
  · rw [absent] at read_first
    contradiction
  obtain ⟨rfl, rfl⟩ := Prod.mk.inj (Option.some.inj (found.symm.trans read_first))
  obtain ⟨more', vs', chain, last, fewer⟩ := chain_tandem lines read_more ahead (by omega)
    (Nat.le_refl _)
  have whole : Chain (read fuel' .line) ts' (first' :: more') vs' := by
    refine .more read_first' ?_ chain
    rw [alike.length_eq, ahead.alike.length_eq]
    omega
  rw [List.length_append] at deep'
  obtain ⟨before, whole⟩ := stands fuel' ts' _ _ (by omega) whole
  obtain ⟨node, nodes, cut⟩ : ∃ node nodes, before ++ first' :: more' = node :: nodes := by
    cases before with
    | nil => exact ⟨_, _, rfl⟩
    | cons node nodes => exact ⟨_, _, rfl⟩
  rw [cut] at whole
  obtain ⟨absent, -⟩ | ⟨_, _, _, zs', found, dedent', -, behind, shorter'⟩ :=
    (dedent_tandem last fewer).cases
  · rw [absent] at dedent
    contradiction
  obtain ⟨rfl, rfl⟩ := Prod.mk.inj (Option.some.inj (found.symm.trans dedent))
  obtain ⟨absent, -⟩ | ⟨_, others', _, us', found, read_others', -, ended, fewest⟩ :=
    (branches_tandem good behind (by omega)).cases
  · rw [absent] at read_others
    contradiction
  obtain ⟨rfl, rfl⟩ := Prod.mk.inj (Option.some.inj (found.symm.trans read_others))
  refine ⟨(node :: nodes, others'), us', ?_, ended, by omega⟩
  simp only [blockAndBranches, bind_apply, pure_apply, whole.many1, dedent', read_others',
    Option.bind_some]

/-- A file that starts with an `if` statement over the block, with lines in front of the block. -/
theorem file_of_readsBlock {condition header front : List Token} {lines : List Node}
    (opens : OpensIf condition header) (isCondition : IsCondition condition)
    (stands : StandInFront front) (h : ReadsBlock fuel ts lines) (alike : Alike σ 1 ts ts')
    (hrest : σ.rest = []) (deep : 8 * ts.length + 14 ≤ fuel) :
    ∃ node statement, file (header ++ (front ++ ts')) = some node ∧ statement.kind = .statement ∧
      node.children = statement :: (lines.flatMap Node.children).map (Node.moved σ.distance) := by
  obtain ⟨fuel', budget, deep', room, statement, kind, file_eq⟩ :=
    file_opensIf opens isCondition (front ++ ts')
  have longer : ts'.length = ts.length := by
    rw [alike.length_eq, hrest, List.length_nil, Nat.add_zero]
  have whole : (front ++ ts').length = front.length + ts.length := by
    rw [List.length_append, longer]
  obtain ⟨x, us, block, below⟩ := h.reads
  obtain ⟨x', us', block', behind, shorter⟩ := blockAndBranches_behind stands block alike
    (by omega) (show 8 * (front ++ ts').length ≤ fuel' + 6 by omega) (by omega)
  obtain ⟨absent, -⟩ | ⟨_, lines', left, left', found, below', twins, ended, -⟩ :=
    (lines_everywhere deep (show 8 * ts.length + 14 ≤ fuel' + 7 by omega) behind hrest shorter
      (Nat.le_refl us.length) (show us.length ≤ budget.length by omega)).cases
  · rw [many] at below
    rw [absent] at below
    contradiction
  obtain ⟨rfl, rfl⟩ := Prod.mk.inj (Option.some.inj (found.symm.trans below))
  obtain rfl := (ended.eq_nil_iff hrest).mpr rfl
  refine ⟨.spanning .file (statement x' :: lines'.flatMap Node.children), statement x', ?_,
    kind x', ?_⟩
  · rw [file_eq, block', Option.bind_some, below', Option.bind_some]
    rfl
  · exact congrArg (_ :: ·) (Node.twins_iff.mp (lines_twins twins)).1

end Grammar

end AgentWorkbench.Python
