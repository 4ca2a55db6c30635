import AgentWorkbench.Proofs.Python.Calls
import AgentWorkbench.Proofs.Python.Joining

/-!
Decorators in front of a source. Where the first statement of a source is a function, decorators
that are read in front of it take the function, and the other statements stay what they are.
-/
namespace AgentWorkbench.Python

open Parse Lexer

namespace Grammar

variable {σ : Shift} {p : Goal → Parse Node} {ts us us' : List Token} {s e : Nat} {node : Node}

/-- Nothing but a function starts with the word of one. -/
theorem line_function (fuel : Nat) (rest : List Token) :
    line (read (fuel + 6)) (⟨.keyword "def", s, e⟩ :: rest) =
      (functionDefinition (read (fuel + 6)) none (⟨.keyword "def", s, e⟩ :: rest)).map
        fun x => (.spanning .block [x.1], x.2) := by
  have others : ∀ p : Goal → Parse Node, (classDefinition p <|> ifStatement p <|>
      forStatement p <|> whileStatement p <|> tryStatement p <|> withStatement p <|>
      decoratedDefinition p <|> asyncFunction p <|> asyncStatement p <|> matchStatement p)
        (⟨.keyword "def", s, e⟩ :: rest) = none := fun _ => rfl
  have simple : simpleLine (read (fuel + 6)) (⟨.keyword "def", s, e⟩ :: rest) = none := rfl
  rw [line, orElse_apply, simple, Option.or_none, bind_apply, compoundStatement, orElse_apply,
    others, Option.or_none]
  cases functionDefinition (read (fuel + 6)) none (⟨.keyword "def", s, e⟩ :: rest) <;> rfl

theorem functionDefinition_kind (h : functionDefinition p none ts = some (node, us)) :
    ∃ name, node.kind = .function name false := by
  simp only [functionDefinition, bind_apply, pure_apply, Option.bind_eq_some_iff, Prod.exists,
    Option.some.injEq, Prod.mk.injEq] at h
  obtain ⟨_, _, -, name, _, _, -, _, _, -, _, _, -, _, _, -, _, _, -, _, _, -, rfl, -⟩ := h
  exact ⟨name, rfl⟩

/-- Decorators in front of a function take it. -/
theorem decoratedDefinition_function {rest : List Token} {first : Node} {more : List Node}
    (reads : Chain (decorator p) ts (first :: more) (⟨.keyword "def", s, e⟩ :: rest)) :
    decoratedDefinition p ts = (functionDefinition p none (⟨.keyword "def", s, e⟩ :: rest)).map
      fun x => (.spanning .decorated (first :: more ++ [x.1]), x.2) := by
  have others : (asyncFunction p <|> classDefinition p) (⟨.keyword "def", s, e⟩ :: rest) = none :=
    rfl
  simp only [decoratedDefinition, bind_apply, pure_apply, reads.many1, Option.bind_some,
    orElse_apply (functionDefinition p none), others, Option.or_none]
  cases functionDefinition p none (⟨.keyword "def", s, e⟩ :: rest) <;> rfl

theorem decorator_head (h : decorator p ts = some (node, us)) :
    ∃ s e rest, ts = ⟨.op "@", s, e⟩ :: rest := by
  cases ts with
  | nil => contradiction
  | cons t ts =>
    obtain ⟨kind, s, e⟩ := t
    by_cases same : kind = .op "@"
    · exact ⟨s, e, ts, by rw [same]⟩
    · have absent : op "@" (⟨kind, s, e⟩ :: ts) = none := if_neg same
      rw [decorator, bind_apply, absent, Option.bind_none] at h
      contradiction

/-- What is read one by one to the end is read so before other tokens, if nothing more is read of
those. -/
theorem chain_forward {α α' : Type} {S : α → α' → Prop} {q : Parse α} {q' : Parse α'} {n : Nat}
    {ts' budget : List Token} {vs : List α}
    (tandem : Tandem (Ahead σ 0) (Alike σ 0) n 1 S q q') (nothing : q [] = none)
    (stops : q' σ.rest = none) (h : manyWithin q budget ts = some (vs, []))
    (alike : Alike σ 0 ts ts') (room : ts.length ≤ n) :
    ∃ vs', List.Forall₂ S vs vs' ∧ Chain q' ts' vs' σ.rest := by
  have ended {ts' : List Token} (alike : Alike σ 0 [] ts') :
      ∃ vs', List.Forall₂ S [] vs' ∧ Chain q' ts' vs' σ.rest := by
    cases alike
    exact ⟨[], .nil, .done stops⟩
  induction budget generalizing ts ts' vs with
  | nil =>
    simp only [manyWithin, pure_apply, Option.some.injEq, Prod.mk.injEq] at h
    obtain ⟨rfl, rfl⟩ := h
    exact ended alike
  | cons b budget ih =>
    by_cases empty : ts = []
    · subst empty
      simp only [manyWithin, nothing, Option.some.injEq, Prod.mk.injEq, and_true] at h
      exact h ▸ ended alike
    obtain ⟨absent, -⟩ | ⟨v, v', us, us', read, read', same, behind, shorter⟩ :=
      (tandem ⟨empty, alike⟩ room).cases
    · simp only [manyWithin, absent, Option.some.injEq, Prod.mk.injEq] at h
      exact absurd h.2 empty
    · simp only [manyWithin, read, Option.map_eq_some_iff, Prod.mk.injEq, Prod.exists] at h
      obtain ⟨more, _, later, rfl, rfl⟩ := h
      obtain ⟨more', same_more, chain⟩ := ih later behind (by omega)
      refine ⟨v' :: more', .cons same same_more, .more read' ?_ chain⟩
      rw [alike.length_eq, behind.length_eq]
      omega

/-- Decorators that are a text by themselves are read as such in front of a function. -/
theorem chain_decorators {first : Node} {more : List Node} {fuel : Nat} {rest : List Token}
    (reads : many (decorator (read (depth us))) us = some (first :: more, []))
    (alike : Alike σ 0 us us') (behind : σ.rest = ⟨.keyword "def", s, e⟩ :: rest)
    (enough : 8 * us.length + 12 ≤ fuel) :
    ∃ first' more', Chain (decorator (read fuel)) us' (first' :: more') σ.rest := by
  have good : Good σ (read (depth us)) (read fuel) 5 us.length :=
    good_read (by rw [depth]; omega) (by omega)
  obtain ⟨_, same, chain⟩ := chain_forward (decorator_tandem good) rfl (by rw [behind]; rfl) reads
    alike (Nat.le_refl _)
  cases same with
  | cons _ _ => exact ⟨_, _, chain⟩

section Definitions

variable {rest : List Token} {s' e' fuel : Nat} {budget : List Token}

variable (ts s' e') in
/-- A file that starts with a function, and other tokens: if the function's definition is read of
both, with corresponding tokens behind it, so are the other lines. -/
theorem lines_of_definition {S : Node → Node → Prop}
    (h : file (⟨.keyword "def", s, e⟩ :: rest) = some node)
    (forward : ∀ fuel', 8 * (rest.length + 1) + 5 ≤ fuel' → ∀ function us,
      functionDefinition (read fuel') none (⟨.keyword "def", s, e⟩ :: rest) = some (function, us) →
      ∃ function' us', functionDefinition (read (fuel + 6)) none (⟨.keyword "def", s', e'⟩ :: ts) =
        some (function', us') ∧ S function function' ∧ Alike σ 0 us us' ∧ us.length ≤ rest.length)
    (hrest : σ.rest = []) (deep : 8 * (rest.length + 1) + 7 ≤ fuel)
    (room : rest.length ≤ budget.length) : ∃ function function' others vs lines,
      node.children = function :: others ∧
      functionDefinition (read (fuel + 6)) none (⟨.keyword "def", s', e'⟩ :: ts) =
        some (function', vs) ∧ S function function' ∧
      manyWithin (read (fuel + 7) .line) budget vs = some (lines, []) ∧
      Node.Twins σ others (lines.flatMap Node.children) := by
  obtain ⟨lines, found, rfl⟩ := file_eq_some_iff.mp h
  obtain ⟨fuel', depth_eq⟩ := Nat.exists_eq_add_of_le'
    (show 7 ≤ depth (⟨.keyword "def", s, e⟩ :: rest) by simp [depth])
  have deep' : 8 * (rest.length + 1) + 16 = fuel' + 7 := depth_eq
  have first : read (fuel' + 7) .line (⟨.keyword "def", s, e⟩ :: rest) = _ :=
    line_function fuel' rest
  simp only [depth_eq, many, manyWithin, first] at found
  cases here : functionDefinition (read (fuel' + 6)) none (⟨.keyword "def", s, e⟩ :: rest) with
  | none =>
    rw [here] at found
    cases found
  | some x =>
    obtain ⟨function, us⟩ := x
    simp only [here, Option.map_some, Option.map_eq_some_iff, Prod.mk.injEq, Prod.exists] at found
    obtain ⟨more, _, others, rfl, rfl⟩ := found
    obtain ⟨function', vs, there, same, behind, shorter⟩ :=
      forward (fuel' + 6) (by omega) function us here
    have enough : vs.length ≤ budget.length := by
      rw [behind.length_eq, hrest]
      exact Nat.le_trans shorter room
    obtain ⟨lines', left, twins, -, reads⟩ := manyWithin_lines (n := rest.length + 1)
      (show 8 * (rest.length + 1) + 14 ≤ fuel' + 7 by omega)
      (show 8 * (rest.length + 1) + 14 ≤ fuel + 7 by omega) behind (by omega) enough others
    rw [hrest, manyWithin_nil, Option.map_some, List.append_nil] at reads
    exact ⟨function, function', _, vs, lines', rfl, there, same, reads, lines_twins twins⟩

/-- The same tokens at another place, if they are a file that starts with a function: the function
is read of them, and behind it the other lines. -/
theorem lines_of_function (h : file (⟨.keyword "def", s, e⟩ :: rest) = some node)
    (alike : Alike σ 0 (⟨.keyword "def", s, e⟩ :: rest) (⟨.keyword "def", s', e'⟩ :: ts))
    (hrest : σ.rest = []) (deep : 8 * (rest.length + 1) + 7 ≤ fuel)
    (room : rest.length ≤ budget.length) : ∃ function vs lines,
      functionDefinition (read (fuel + 6)) none (⟨.keyword "def", s', e'⟩ :: ts) =
        some (function, vs) ∧
      manyWithin (read (fuel + 7) .line) budget vs = some (lines, []) ∧
      function :: lines.flatMap Node.children = node.children.map (Node.moved σ.distance) := by
  obtain ⟨_, function, others, vs, lines, children, there, twin, reads, twins⟩ :=
    lines_of_definition (S := Node.Twin σ) ts s' e' h
      (fun fuel' enough function us here => by
        have tandem := functionDefinition_tandem (d := 0)
          (good_read (n := rest.length + 1) (show _ ≤ fuel' by omega)
            (show _ ≤ fuel + 6 by omega)) .none ⟨List.cons_ne_nil _ _, alike⟩ (Nat.le_refl _)
        rw [here] at tandem
        cases found : functionDefinition (read (fuel + 6)) none (⟨.keyword "def", s', e'⟩ :: ts) with
        | none =>
          rw [found] at tandem
          cases tandem
        | some x =>
          rw [found] at tandem
          cases tandem with
          | both twin behind shorter =>
            exact ⟨_, _, rfl, twin, behind, Nat.le_of_succ_le_succ shorter⟩)
      hrest deep room
  refine ⟨function, vs, lines, there, reads, ?_⟩
  rw [children]
  exact (Node.twins_iff.mp (.cons twin twins)).1

end Definitions

/-- Decorators in front of a file that starts with a function take the function. -/
theorem file_decorated {rest d : List Token} {s' e' : Nat}
    (reads : ∀ fuel, 8 * d.length + 12 ≤ fuel → ∃ first more, Chain (decorator (read fuel))
      (d ++ ⟨.keyword "def", s', e'⟩ :: ts) (first :: more) (⟨.keyword "def", s', e'⟩ :: ts))
    (h : file (⟨.keyword "def", s, e⟩ :: rest) = some node)
    (alike : Alike σ 0 (⟨.keyword "def", s, e⟩ :: rest) (⟨.keyword "def", s', e'⟩ :: ts))
    (hrest : σ.rest = []) : ∃ whole decorations function later,
      file (d ++ ⟨.keyword "def", s', e'⟩ :: ts) = some whole ∧
      whole.children = .spanning .decorated (decorations ++ [function]) :: later ∧
      node.children.map (Node.moved σ.distance) = function :: later ∧
      ∃ name, function.kind = .function name false := by
  have longer := alike.length_eq
  rw [List.length_cons, List.length_cons, hrest, List.length_nil] at longer
  obtain ⟨fuel, deep⟩ := Nat.exists_eq_add_of_le' (show 7 ≤
      depth (d ++ ⟨.keyword "def", s', e'⟩ :: ts) by simp [depth])
  have enough : 8 * d.length + 8 * (rest.length + 1) + 9 = fuel := by
    simp only [depth, List.length_cons, List.length_append] at deep
    omega
  obtain ⟨first, more, chain⟩ := reads (fuel + 6) (by omega)
  obtain ⟨at_start, at_stop, d', start⟩ : ∃ s e rest,
      d ++ ⟨.keyword "def", s', e'⟩ :: ts = ⟨.op "@", s, e⟩ :: rest := by
    cases chain with
    | more reads _ _ => exact decorator_head reads
  have room : rest.length ≤ d'.length := by
    have length := congrArg List.length start
    simp only [List.length_cons, List.length_append] at length
    cases d with
    | nil => cases start
    | cons => rw [List.length_cons] at length; omega
  obtain ⟨function, vs, lines, definition, others, children⟩ :=
    lines_of_function h alike hrest (show _ ≤ fuel by omega) room
  have line_eq : read (fuel + 7) .line (⟨.op "@", at_start, at_stop⟩ :: d') =
      some (.spanning .block [.spanning .decorated (first :: more ++ [function])], vs) := by
    change line (read (fuel + 6)) _ = _
    rw [line_decorator, ← start, decoratedDefinition_function chain, definition]
    rfl
  rw [start] at deep ⊢
  exact ⟨_, first :: more, function, lines.flatMap Node.children,
    file_cons (deep ▸ line_eq) (deep ▸ others), rfl, children.symm,
    functionDefinition_kind definition⟩

end Grammar

/-- The first token of a source that starts with a function. -/
theorem head_of_tokenize {more : List Char} {ts : List Token}
    (h : tokenize ('d' :: 'e' :: 'f' :: ' ' :: more) = some ts) :
    ∃ rest, ts = ⟨.keyword "def", 0, 3⟩ :: rest := by
  have first : step {} 0 ('d' :: 'e' :: 'f' :: ' ' :: more) = some (single
      { lineOpen := true } 0 (.keyword "def") 3 (' ' :: more)) := rfl
  rw [tokenize_eq, tokensAt_step .start first, Option.map_eq_some_iff] at h
  obtain ⟨later, -, rfl⟩ := h
  exact ⟨later, rfl⟩

/-- Decorators in front of a source that starts with a function take the function. -/
theorem parse?_decorators {front more : List Char} {tree : SourceTree} {d : List Token}
    (joins : Joins front ('d' :: 'e' :: 'f' :: ' ' :: more) d)
    (reads : ∀ fuel rest s e, 8 * d.length + 12 ≤ fuel → ∃ first more,
      Grammar.Chain (Grammar.decorator (Grammar.read fuel)) (d ++ ⟨.keyword "def", s, e⟩ :: rest)
        (first :: more) (⟨.keyword "def", s, e⟩ :: rest))
    (parsed : SourceTree.parse? ('d' :: 'e' :: 'f' :: ' ' :: more) = some tree) :
    ∃ tree' decorations function later,
      SourceTree.parse? (front ++ 'd' :: 'e' :: 'f' :: ' ' :: more) = some tree' ∧
      tree'.root.children = .spanning .decorated (decorations ++ [function]) :: later ∧
      tree.root.children.map (Node.moved front.length) = function :: later ∧
      ∃ name, function.kind = .function name false := by
  obtain ⟨us, tokens, parsed, -⟩ := parse?_eq_some.mp parsed
  obtain ⟨rest, rfl⟩ := head_of_tokenize tokens
  have alike := alike_tokenize tokens (nofun : Fresh []) front.length
  rw [List.append_nil, List.map_cons] at alike
  obtain ⟨whole, decorations, function, later, found, children⟩ :=
    Grammar.file_decorated (fun fuel => reads fuel _ _ _) parsed alike rfl
  refine ⟨⟨_, whole⟩, decorations, function, later, parse?_eq_some.mpr ⟨_, ?_, found, rfl⟩,
    children⟩
  rw [joins.joined, tokens]
  rfl

/-- So does one decorator. -/
theorem parse?_decorated {front more : List Char} {tree : SourceTree} {d : List Token} {s e : Nat}
    (joins : Joins front ('d' :: 'e' :: 'f' :: ' ' :: more) (⟨.op "@", s, e⟩ :: d))
    (reads : ∀ fuel rest s' e', ∃ decoration, Grammar.decorator (Grammar.read (fuel + 20))
      (⟨.op "@", s, e⟩ :: (d ++ ⟨.keyword "def", s', e'⟩ :: rest)) =
        some (decoration, ⟨.keyword "def", s', e'⟩ :: rest))
    (parsed : SourceTree.parse? ('d' :: 'e' :: 'f' :: ' ' :: more) = some tree) : ∃ tree',
      SourceTree.parse? (front ++ 'd' :: 'e' :: 'f' :: ' ' :: more) = some tree' ∧
        tree'.root.children.map Node.kind =
          .decorated :: (tree.root.children.map Node.kind).tail := by
  obtain ⟨tree', decorations, function, later, found, children, same, -⟩ :=
    parse?_decorators joins (fun fuel rest s' e' enough => by
      rw [List.length_cons] at enough
      obtain ⟨fuel, rfl⟩ := Nat.exists_eq_add_of_le' (show 20 ≤ fuel by omega)
      obtain ⟨decoration, here⟩ := reads fuel rest s' e'
      refine ⟨decoration, [], .more here ?_ (.done rfl)⟩
      simp only [List.length_cons, List.length_append]
      omega) parsed
  have kinds := congrArg (List.map Node.kind) same
  rw [List.map_map, show Node.kind ∘ Node.moved front.length = Node.kind from
    funext (Node.kind_moved _)] at kinds
  refine ⟨tree', found, ?_⟩
  rw [children, kinds]
  rfl

end AgentWorkbench.Python
