import AgentWorkbench.Proofs.Python.Statements

/-!
Whole sources in tandem. Tokens that are a file by themselves are read in the same way with other
tokens of a file after them; the file is then over the nodes of both. Only this direction holds:
decorators at the end are no file, but with a definition after them they are one.
-/
namespace AgentWorkbench.Python.Grammar

variable {σ : Shift} {p p' : Goal → Parse Node} {d n fuel fuel' : Nat} {ts ts' us : List Token}

open Parse

theorem good_read (hf : 8 * n + 5 ≤ fuel) (hf' : 8 * n + 5 ≤ fuel') :
    Good σ (read fuel) (read fuel') 5 n where
  now g hg := agrees_read (by omega) (by omega)
  later m hm g := by
    have hrank : g.rank ≤ 5 := by cases g <;> decide
    exact agrees_read (by omega) (by omega)

/-! Decorated definitions at the top level. -/

theorem manyWithin_decorators (h : Good σ p p' 0 n) {budget budget' : List Token}
    {nodes : List Node} (hd : Ahead σ 0 ts ts') (hl : ts.length ≤ n)
    (hb : ts.length ≤ budget.length) (hb' : ts.length ≤ budget'.length)
    (hs : manyWithin (decorator p) budget ts = some (nodes, us)) (hne : us ≠ []) :
    ∃ nodes' us', manyWithin (decorator p') budget' ts' = some (nodes', us') ∧
      Node.Twins σ nodes nodes' ∧ Ahead σ 0 us us' ∧ us.length ≤ ts.length := by
  induction budget generalizing ts ts' budget' nodes with
  | nil => exact absurd (List.eq_nil_of_length_eq_zero (Nat.le_zero.1 hb)) hd.ne_nil
  | cons b budget ih =>
    cases budget' with
    | nil => exact absurd (List.eq_nil_of_length_eq_zero (Nat.le_zero.1 hb')) hd.ne_nil
    | cons b' budget' =>
      simp only [List.length_cons] at hb hb'
      obtain ⟨hr, hr'⟩ | ⟨v, v', vs, vs', hr, hr', hv, ha, hlen⟩ :=
        (decorator_tandem (d := 0) h hd hl).cases
      · simp only [manyWithin, hr, Option.some.injEq, Prod.mk.injEq] at hs
        obtain ⟨rfl, rfl⟩ := hs
        exact ⟨[], ts', by simp only [manyWithin, hr'], .nil, hd, Nat.le_refl _⟩
      · simp only [manyWithin, hr, Option.map_eq_some_iff, Prod.mk.injEq] at hs
        obtain ⟨⟨more, left⟩, hs, rfl, rfl⟩ := hs
        -- Nothing is read of no tokens, so that there are some after this decorator.
        have hvs : vs ≠ [] := by
          rintro rfl
          cases budget <;> simp only [manyWithin] at hs <;> cases hs <;> exact hne rfl
        obtain ⟨more', us', hm, hmore, hd', hlen'⟩ :=
          ih ⟨hvs, ha⟩ (by omega) (by omega) (show vs.length ≤ budget'.length by omega) hs
        refine ⟨v' :: more', us', ?_, .cons hv hmore, hd', by omega⟩
        simp only [manyWithin, hr', hm, Option.map_some]

theorem decoratedDefinition_forward (h : Good σ p p' 0 n) {node : Node} (hd : Ahead σ 0 ts ts')
    (hl : ts.length ≤ n) (hs : decoratedDefinition p ts = some (node, us)) :
    ∃ node' us', decoratedDefinition p' ts' = some (node', us') ∧ Node.Twin σ node node' ∧
      Alike σ 0 us us' ∧ us.length < ts.length := by
  simp only [decoratedDefinition, many1, many, bind_apply, pure_apply, Option.bind_eq_some_iff,
    Prod.exists, Option.some.injEq, Prod.mk.injEq] at hs
  obtain ⟨decorators, vs, ⟨first, ws, hfirst, more, xs, hmore, rfl, rfl⟩, node₀, ys, hdef, rfl,
    rfl⟩ := hs
  have hxs : xs ≠ [] := by
    rintro rfl
    cases hdef
  have hws : ws ≠ [] := by
    rintro rfl
    cases hmore
    exact hxs rfl
  obtain ⟨hr, -⟩ | ⟨v, first', ws₀, ws', hr, hfirst', hv, ha, hlen⟩ :=
    (decorator_tandem (d := 0) h hd hl).cases
  · rw [hfirst] at hr
    cases hr
  rw [hfirst] at hr
  cases hr
  obtain ⟨more', xs', hmore', hmoreTwins, hd', hlen'⟩ := manyWithin_decorators h ⟨hws, ha⟩
    (by omega) (Nat.le_refl _) ha.length_le hmore hxs
  obtain ⟨hr, -⟩ | ⟨v₀, node', ys₀, ys', hr, hdef', hn, hys, hlen''⟩ :=
    (definition_tandem h hd' (by omega)).cases
  · rw [hdef] at hr
    cases hr
  rw [hdef] at hr
  cases hr
  refine ⟨.spanning .decorated (first' :: more' ++ [node']), ys', ?_, ?_, hys, by omega⟩
  · simp only [decoratedDefinition, many1, many, bind_apply, pure_apply, hfirst', hmore', hdef',
      Option.bind_some]
  · exact .spanning_of_ne_nil (by simp) (List.rel_append (.cons hv hmoreTwins) (.cons hn .nil))
      trivial

/-- Nothing but a decorated definition starts with a decorator. -/
theorem line_decorator (fuel start stop : Nat) (rest : List Token) :
    line (read (fuel + 6)) (⟨.op "@", start, stop⟩ :: rest) =
      (decoratedDefinition (read (fuel + 6)) (⟨.op "@", start, stop⟩ :: rest)).map
        fun x => (.spanning .block [x.1], x.2) := by
  have hbefore : ∀ p : Goal → Parse Node, (functionDefinition p none <|> classDefinition p <|>
      ifStatement p <|> forStatement p <|> whileStatement p <|> tryStatement p <|>
      withStatement p) (⟨.op "@", start, stop⟩ :: rest) = none := fun _ => rfl
  have hafter : ∀ p : Goal → Parse Node, (asyncFunction p <|> asyncStatement p <|>
      matchStatement p) (⟨.op "@", start, stop⟩ :: rest) = none := fun _ => rfl
  have hsimple : simpleLine (read (fuel + 6)) (⟨.op "@", start, stop⟩ :: rest) = none := rfl
  have hbefore := hbefore (read (fuel + 6))
  have hafter := hafter (read (fuel + 6))
  simp only [orElse_apply, Option.or_eq_none_iff] at hbefore hafter
  obtain ⟨h₁, h₂, h₃, h₄, h₅, h₆, h₇⟩ := hbefore
  obtain ⟨h₈, h₉, h₁₀⟩ := hafter
  simp only [line, compoundStatement, orElse_apply, bind_apply, pure_apply, h₁, h₂, h₃, h₄, h₅, h₆,
    h₇, h₈, h₉, h₁₀, hsimple, Option.none_or, Option.or_none]
  cases decoratedDefinition (read (fuel + 6)) (⟨.op "@", start, stop⟩ :: rest) <;> rfl

theorem decoratedDefinition_head (p : Goal → Parse Node)
    (h : ts.head?.map Token.kind ≠ some (.op "@")) : decoratedDefinition p ts = none := by
  cases ts with
  | nil => rfl
  | cons t ts =>
    have ht : t.kind ≠ .op "@" := by simpa using h
    have hop : op "@" (t :: ts) = none := by simp [op, accept, ht]
    simp only [decoratedDefinition, many1, decorator, bind_apply, hop, Option.bind_none]

/-- Places at the top level with tokens left, of which the first one starts no decorator. -/
structure Undecorated (σ : Shift) (ts ts' : List Token) : Prop where
  ahead : Ahead σ 0 ts ts'
  head : ts.head?.map Token.kind ≠ some (.op "@")

theorem line_undecorated (h : Good σ p p' (0 + 5) n) :
    Tandem (Undecorated σ) (Alike σ 0) n 1 (Node.LineTwin σ) (line p) (line p') := by
  refine line_tandem h (fun _ _ hd => hd.ahead) ?_
  rintro ts ts' ⟨hd, hhead⟩ hl
  rw [decoratedDefinition_head _ hhead, decoratedDefinition_head _ (hd.head_kind ▸ hhead)]
  exact .neither

theorem line_forward (hf : 8 * n + 14 ≤ fuel) (hf' : 8 * n + 14 ≤ fuel') {node : Node}
    (hd : Ahead σ 0 ts ts') (hl : ts.length ≤ n) (hs : read fuel .line ts = some (node, us)) :
    ∃ node' us', read fuel' .line ts' = some (node', us') ∧ Node.LineTwin σ node node' ∧
      Alike σ 0 us us' ∧ us.length < ts.length := by
  obtain ⟨fuel, rfl⟩ := Nat.exists_eq_add_of_le' (show 7 ≤ fuel by omega)
  obtain ⟨fuel', rfl⟩ := Nat.exists_eq_add_of_le' (show 7 ≤ fuel' by omega)
  change line (read (fuel + 6)) ts = _ at hs
  change ∃ node' us', line (read (fuel' + 6)) ts' = _ ∧ _
  have hgood : Good σ (read (fuel + 6)) (read (fuel' + 6)) 5 n := good_read (by omega) (by omega)
  by_cases hhead : ts.head?.map Token.kind = some (.op "@")
  · have hhead' := hd.head_kind.trans hhead
    simp only [Option.map_eq_some_iff, List.head?_eq_some_iff] at hhead hhead'
    obtain ⟨⟨kind, start, stop⟩, ⟨rest, rfl⟩, rfl⟩ := hhead
    obtain ⟨⟨kind', start', stop'⟩, ⟨rest', rfl⟩, rfl⟩ := hhead'
    rw [line_decorator, Option.map_eq_some_iff] at hs
    obtain ⟨⟨definition, vs⟩, hs, rfl, rfl⟩ := hs
    obtain ⟨definition', us', hs', hn, ha, hlen⟩ :=
      decoratedDefinition_forward ⟨fun g hg => absurd hg (Nat.not_lt_zero _), hgood.later⟩ hd hl hs
    refine ⟨.spanning .block [definition'], us', ?_, ?_, ha, hlen⟩
    · rw [line_decorator, hs']
      rfl
    · exact ⟨.spanning hn .nil trivial, List.cons_ne_nil _ _⟩
  · obtain ⟨hr, -⟩ | ⟨v, node', us₀, us', hr, hs', hn, ha, hlen⟩ :=
      (line_undecorated hgood ⟨hd, hhead⟩ hl).cases
    · rw [hs] at hr
      cases hr
    · rw [hs] at hr
      cases hr
      exact ⟨node', us', hs', hn, ha, hlen⟩

/-! Files. -/

theorem read_line_nil (fuel : Nat) : read (fuel + 7) .line [] = none := rfl

/-- Lines that are all of a file, and the same ones with other tokens after them. -/
theorem manyWithin_lines (hf : 8 * n + 14 ≤ fuel) (hf' : 8 * n + 14 ≤ fuel')
    {budget budget' : List Token} {lines : List Node} (ha : Alike σ 0 ts ts') (hl : ts.length ≤ n)
    (hb' : ts'.length ≤ budget'.length)
    (hs : manyWithin (read fuel .line) budget ts = some (lines, [])) :
    ∃ lines' left, List.Forall₂ (Node.LineTwin σ) lines lines' ∧
      σ.rest.length ≤ left.length ∧
      manyWithin (read fuel' .line) budget' ts' =
        (manyWithin (read fuel' .line) left σ.rest).map fun x => (lines' ++ x.1, x.2) := by
  induction budget generalizing ts ts' budget' lines with
  | nil =>
    simp only [manyWithin, pure_apply, Option.some.injEq, Prod.mk.injEq] at hs
    obtain ⟨rfl, rfl⟩ := hs
    cases ha
    exact ⟨[], budget', .nil, hb', by simp⟩
  | cons b budget ih =>
    by_cases hne : ts = []
    · obtain ⟨fuel, rfl⟩ := Nat.exists_eq_add_of_le' (show 7 ≤ fuel by omega)
      rw [hne] at ha hs
      simp only [manyWithin, read_line_nil, Option.some.injEq, Prod.mk.injEq, and_true] at hs
      subst hs
      cases ha
      exact ⟨[], budget', .nil, hb', by simp⟩
    · simp only [manyWithin] at hs
      cases hr : read fuel .line ts with
      | none => simp [hr, hne] at hs
      | some x =>
        obtain ⟨node, us⟩ := x
        simp only [hr, Option.map_eq_some_iff, Prod.mk.injEq] at hs
        obtain ⟨⟨more, left⟩, hs, rfl, rfl⟩ := hs
        obtain ⟨node', us', hr', hn, hus, hlen⟩ := line_forward hf hf' ⟨hne, ha⟩ hl hr
        cases budget' with
        | nil =>
          have := List.length_pos_of_ne_nil hne
          have := ha.length_le
          exact absurd hb' (by simp only [List.length_nil]; omega)
        | cons b' budget' =>
          have hb : us'.length ≤ budget'.length := by
            rw [ha.length_eq, List.length_cons] at hb'
            rw [hus.length_eq]
            omega
          obtain ⟨lines', left, hlines, hleft, hm⟩ := ih hus (by omega) hb hs
          refine ⟨node' :: lines', left, .cons hn hlines, hleft, ?_⟩
          simp only [manyWithin, hr', hm, Option.map_map]
          rfl

theorem file_eq_some_iff {node : Node} : file ts = some node ↔
    ∃ lines, many (read (depth ts) .line) ts = some (lines, []) ∧
      node = .spanning .file (lines.flatMap Node.children) := by
  simp only [file, Option.bind_eq_bind, Option.bind_eq_some_iff, Prod.exists]
  constructor
  · rintro ⟨lines, rest, h, hrest⟩
    cases rest with
    | nil =>
      simp only [List.isEmpty_nil, if_true, Option.pure_def, Option.some.injEq] at hrest
      exact ⟨lines, h, hrest.symm⟩
    | cons t rest => simp at hrest
  · rintro ⟨lines, h, rfl⟩
    exact ⟨lines, [], h, rfl⟩

/-- A file by its first line and the lines behind it. -/
theorem file_cons {t : Token} {first : Node} {lines : List Node}
    (here : read (depth (t :: ts)) .line (t :: ts) = some (first, us))
    (later : manyWithin (read (depth (t :: ts)) .line) ts us = some (lines, [])) :
    file (t :: ts) = some (.spanning .file ((first :: lines).flatMap Node.children)) := by
  refine file_eq_some_iff.mpr ⟨first :: lines, ?_, rfl⟩
  rw [many, manyWithin]
  simp only [here, later, Option.map_some]

theorem read_line_continuing {t : Token} (ht : t.kind ∈ continuing) (fuel : Nat)
    (rest : List Token) : read (fuel + 7) .line (t :: rest) = none := by
  obtain ⟨kind, start, stop⟩ := t
  simp only [continuing, List.mem_cons, List.not_mem_nil, or_false] at ht
  rcases ht with rfl | rfl | rfl | rfl | rfl | rfl | rfl <;> rfl

theorem fresh_of_file {node : Node} (h : file ts = some node) : Fresh ts := by
  intro t ht hk
  obtain ⟨rest, rfl⟩ := List.head?_eq_some_iff.1 ht
  obtain ⟨lines, h, -⟩ := file_eq_some_iff.1 h
  obtain ⟨fuel, hfuel⟩ := Nat.exists_eq_add_of_le' (show 7 ≤ depth (t :: rest) by simp [depth])
  rw [hfuel] at h
  simp [many, manyWithin, read_line_continuing hk] at h

theorem lines_twins {lines lines' : List Node}
    (h : List.Forall₂ (Node.LineTwin σ) lines lines') :
    Node.Twins σ (lines.flatMap Node.children) (lines'.flatMap Node.children) :=
  List.rel_flatMap h fun _ _ hl => hl.twin.children

/-- The tokens of two files, one after the other, are a file over the nodes of both. -/
theorem file_append {σ σ₂ : Shift} {node other : Node} (h : file ts = some node)
    (hother : file us = some other) (ha : Alike σ 0 ts ts') (hb : Alike σ₂ 0 us σ.rest)
    (hrest : σ₂.rest = []) :
    ∃ whole front back, file ts' = some whole ∧ whole.children = front ++ back ∧
      Node.Twins σ node.children front ∧ Node.Twins σ₂ other.children back := by
  obtain ⟨lines, hlines, rfl⟩ := file_eq_some_iff.1 h
  obtain ⟨others, hothers, rfl⟩ := file_eq_some_iff.1 hother
  have hlen := ha.length_eq
  have hlen₂ := hb.length_eq
  rw [hrest, List.length_nil] at hlen₂
  obtain ⟨lines', left, htwins, hleft, hm⟩ := manyWithin_lines (n := ts.length)
    (show 8 * ts.length + 14 ≤ depth ts by simp [depth])
    (show 8 * ts.length + 14 ≤ depth ts' by simp only [depth]; omega) ha (Nat.le_refl _)
    (Nat.le_refl _) hlines
  obtain ⟨others', left₂, htwins₂, -, hm₂⟩ := manyWithin_lines (n := us.length)
    (show 8 * us.length + 14 ≤ depth us by simp [depth])
    (show 8 * us.length + 14 ≤ depth ts' by simp only [depth]; omega) hb (Nat.le_refl _)
    hleft hothers
  obtain ⟨fuel, hfuel⟩ := Nat.exists_eq_add_of_le' (show 7 ≤ depth ts' by simp [depth])
  have hnil : manyWithin (read (depth ts') .line) left₂ [] = some ([], []) := by
    rw [hfuel]
    cases left₂ <;> simp [manyWithin, read_line_nil, pure_apply]
  rw [hrest, hnil] at hm₂
  rw [hm₂] at hm
  refine ⟨_, lines'.flatMap Node.children, others'.flatMap Node.children,
    file_eq_some_iff.2 ⟨lines' ++ others', ?_, rfl⟩, ?_, lines_twins htwins, lines_twins htwins₂⟩
  · rw [many, hm]
    simp
  · simp [Node.spanning, Node.children]

end AgentWorkbench.Python.Grammar
