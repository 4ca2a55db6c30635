import AgentWorkbench.Proofs.Python.Expressions
import AgentWorkbench.Python.Grammar

/-!
The rules of statements in tandem, and with them all rules of the grammar. A compound statement is
read through the clauses that go on with it, which fresh tokens do not.
-/
namespace AgentWorkbench.Python.Grammar

variable {σ : Shift} {p p' : Goal → Parse Node} {d r n m : Nat}

open Parse Tandem

theorem Good.line (h : Good σ p p' (r + 6) n) :
    Tandem (Ahead σ (d + 1)) (Ahead σ (d + 1)) n 1 (Node.LineTwin σ) (p .line) (p' .line) :=
  h.now .line (by simp only [Goal.rank]; omega) d

/-! The ends of lines and blocks. -/

theorem newline_tandem : Tandem (Ahead σ d) (Alike σ d) n 1 (fun _ _ => True) (accept .newline)
    (accept .newline) := by
  rintro ts ts' ⟨hne, ha⟩ hl
  cases ha with
  | done _ => exact absurd rfl hne
  | @token _ t t' us us' hb ht _ _ =>
    have hk : t.kind ≠ .newline := fun h => by simp [h, TokenKind.isBreak] at hb
    simp only [accept, ht.kind, hk, if_false]
    exact .neither
  | newline hk hk' ha =>
    simp only [accept, hk, hk', if_true]
    exact .both trivial ha (Nat.le_refl _)
  | indent hk hk' _ | dedent hk hk' _ =>
    simp only [accept, hk, hk', reduceCtorEq, if_false]
    exact .neither

theorem dedent_tandem : Tandem (Ahead σ (d + 1)) (Alike σ d) n 1 (fun _ _ => True)
    (accept .dedent) (accept .dedent) := by
  rintro ts ts' ⟨hne, ha⟩ hl
  cases ha with
  | @token _ t t' us us' hb ht _ _ =>
    have hk : t.kind ≠ .dedent := fun h => by simp [h, TokenKind.isBreak] at hb
    simp only [accept, ht.kind, hk, if_false]
    exact .neither
  | dedent hk hk' ha =>
    simp only [accept, hk, hk', if_true]
    exact .both trivial ha (Nat.le_refl _)
  | newline hk hk' _ | indent hk hk' _ =>
    simp only [accept, hk, hk', reduceCtorEq, if_false]
    exact .neither

theorem accept_fresh {ts : List Token} {kind : TokenKind} (h : Fresh ts)
    (hk : kind ∈ continuing) : accept kind ts = none := by
  cases ts with
  | nil => rfl
  | cons t ts =>
    have : t.kind ≠ kind := by
      rintro rfl
      exact h t rfl hk
    simp [accept, this]

theorem indent_tandem : Tandem (Alike σ d) (Ahead σ (d + 1)) n 1 (fun _ _ => True)
    (accept .indent) (accept .indent) := by
  intro ts ts' ha hl
  cases ha with
  | done h =>
    rw [accept_fresh h (by decide)]
    exact .neither
  | @token _ t t' us us' hb ht _ _ =>
    have hk : t.kind ≠ .indent := fun h => by simp [h, TokenKind.isBreak] at hb
    simp only [accept, ht.kind, hk, if_false]
    exact .neither
  | indent hk hk' ha =>
    simp only [accept, hk, hk', if_true]
    exact .both trivial ha.ahead (Nat.le_refl _)
  | newline hk hk' _ | dedent hk hk' _ =>
    simp only [accept, hk, hk', reduceCtorEq, if_false]
    exact .neither

/-- A word with which a compound statement goes on. -/
theorem continuing_tandem {word : String} (hw : .keyword word ∈ continuing) :
    Tandem (Alike σ d) (Ahead σ d) n 1 (Token.Placed σ) (keyword word) (keyword word) := by
  intro ts ts' ha hl
  by_cases hne : ts = []
  · subst hne
    cases ha with
    | done h =>
      rw [keyword, accept_fresh h hw]
      exact .neither
  · exact token rfl ⟨hne, ha⟩ hl

/-! Simple statements. -/

theorem assignmentChain_tandem (h : Good σ p p' (r + 4) n) {target target' : Node}
    (ht : Node.Twin σ target target') {budget budget' : List Token} (hb : n ≤ budget.length)
    (hb' : n ≤ budget'.length) :
    Tandem (Ahead σ d) (Ahead σ d) n 1 (Node.Twin σ) (assignmentChain p budget target)
      (assignmentChain p' budget' target') := by
  induction budget generalizing n r target target' budget' with
  | nil =>
    intro ts ts' hd hl
    exact absurd (List.eq_nil_of_length_eq_zero (Nat.le_zero.1 (Nat.le_trans hl hb))) hd.ne_nil
  | cons b budget ih =>
    cases budget' with
    | nil =>
      intro ts ts' hd hl
      exact absurd (List.eq_nil_of_length_eq_zero (Nat.le_zero.1 (Nat.le_trans hl hb'))) hd.ne_nil
    | cons b' budget' =>
      simp only [List.length_cons] at hb hb'
      refine (guarded (by rw [ht.isTarget_eq])).bind fun _ _ _ => ?_
      refine (token rfl).next fun m hm _ _ _ => ?_
      refine (value_tandem (h.next hm)).weaken.bind fun node node' hn => ?_
      refine peeked.bind fun kind kind' hkind => ?_
      obtain rfl : kind' = kind := hkind
      by_cases hk : kind' = some (.op "=")
      · simp only [hk, if_true]
        exact (ih (h.next hm) hn (by omega) (by omega)).weaken.bind fun _ _ hv =>
          .pure (.spanning ht (.cons hv .nil) trivial)
      · simp only [hk, if_false]
        exact .pure (.spanning ht (.cons hn .nil) trivial)

theorem isSingleTarget_eq {node node' : Node} (h : Node.Twin σ node node') :
    isSingleTarget node' = isSingleTarget node := by
  rw [isSingleTarget, isSingleTarget, h.kind_eq, h.isTarget_eq]

theorem expressionStatement_tandem (h : Good σ p p' (r + 4) n) :
    Tandem (Ahead σ d) (Ahead σ d) n 1 (Node.Twin σ) (expressionStatement p)
      (expressionStatement p') := by
  refine .orElse ?_ ?_
  · exact (yieldExpression_tandem h).next fun _ _ _ _ hn => .pure (.spanning hn .nil trivial)
  · refine (splatOrExpr_tandem h).commaList.next fun m hm x x' hx => ?_
    obtain ⟨nodes, trailing⟩ := x
    obtain ⟨nodes', trailing'⟩ := x'
    have hfirst := Node.Twin.bareTuple hx.several.ne_nil hx.several.each hx.comma
    have hg := h.next hm
    refine .orElse ?_ (.orElse ?_ (.orElse ?_ ?_))
    · intro ts ts' hd hl
      have hchain := assignmentChain_tandem (d := d) (hg.restrict hl) hfirst
        (Nat.le_refl ts.length) hd.length_le
      have hstatement : Tandem (Ahead σ d) (Ahead σ d) ts.length 0 (Node.Twin σ)
          (do
            let chain ← assignmentChain p ts (.bareTuple nodes trailing)
            return .spanning .expressionStatement [chain])
          (do
            let chain ← assignmentChain p' ts' (.bareTuple nodes' trailing')
            return .spanning .expressionStatement [chain]) :=
        hchain.weaken.bind fun _ _ hv => .pure (.spanning hv .nil trivial)
      exact hstatement hd (Nat.le_refl _)
    · refine (guarded (by rw [isSingleTarget_eq hfirst])).bind fun _ _ _ => ?_
      refine weaken ((token rfl).next fun k hk _ _ _ => ?_)
      refine (hg.next hk).expr.weaken.bind fun type type' htype => ?_
      have hvalue : Tandem (Ahead σ d) (Ahead σ d) k 0 (Node.Twins σ)
          ((do let _ ← op "="; return [← value p]) <|> pure [])
          ((do let _ ← op "="; return [← value p']) <|> pure []) :=
        .orElse (weaken ((token rfl).next fun _ hl _ _ _ => (value_tandem
          ((hg.next hk).next hl)).weaken.bind fun _ _ hv => .pure (.cons hv .nil))) (.pure .nil)
      exact hvalue.bind fun _ _ hv => .pure (.spanning
        (.spanning hfirst (.cons htype hv) trivial) .nil trivial)
    · refine (guarded (by rw [isSingleTarget_eq hfirst])).bind fun _ _ _ => ?_
      refine weaken ((tokenOf (by decide)).next fun k hk _ _ _ => ?_)
      exact (value_tandem (hg.next hk)).weaken.bind fun _ _ hv => .pure (.spanning
        (.spanning hfirst (.cons hv .nil) trivial) .nil trivial)
    · exact .pure (.spanning_of_ne_nil hx.several.ne_nil hx.several.each trivial)

theorem atStatementEnd_tandem :
    Tandem (Ahead σ d) (Ahead σ d) n 0 (fun _ _ => True) atStatementEnd atStatementEnd := by
  refine peeked.bind fun kind kind' hkind => ?_
  obtain rfl : kind' = kind := hkind
  exact guarded Iff.rfl

theorem printStatement_tandem (h : Good σ p p' r n) :
    Tandem (Ahead σ d) (Ahead σ d) n 1 (Node.Twin σ) (printStatement p) (printStatement p') := by
  refine (token rfl).next fun m hm t t' ht => peeked.bind fun kind kind' hkind => ?_
  obtain rfl : kind' = kind := hkind
  cases kind' with
  | none => exact Tandem.failure
  | some kind =>
    exact (guarded Iff.rfl).bind fun _ _ _ => (h.next hm).expr.commaList.weaken.bind
      fun _ _ hs => .pure (.onward ht hs.several.each trivial)

theorem keywordStatement_tandem {text : String} {parts parts' : Parse (List Node)}
    (hparts : ∀ m < n, Tandem (Ahead σ d) (Ahead σ d) m 0 (Node.Twins σ) parts parts') :
    Tandem (Ahead σ d) (Ahead σ d) n 1 (Node.Twin σ) (keywordStatement text parts)
      (keywordStatement text parts') :=
  (token rfl).next fun m hm _ _ ht => (hparts m hm).bind fun _ _ hs => .pure (.onward ht hs trivial)

theorem importedName_tandem :
    Tandem (Ahead σ d) (Ahead σ d) n 1 (fun _ _ => True) importedName importedName :=
  dottedName_tandem.next fun _ _ _ _ _ => asName_tandem.optional.bind fun _ _ _ => .pure trivial

theorem names_tandem {part part' : Parse Unit}
    (hpart : ∀ m ≤ n, Tandem (Ahead σ d) (Ahead σ d) m 1 (fun _ _ => True) part part') :
    Tandem (Ahead σ d) (Ahead σ d) n 1 (fun _ _ => True) (names part) (names part') := by
  refine (hpart n (Nat.le_refl _)).next fun m hm _ _ _ => ?_
  have hmore : Tandem (Ahead σ d) (Ahead σ d) m 1 (fun _ _ => True)
      (do let _ ← op ","; part) (do let _ ← op ","; part') :=
    (token rfl).next fun k hk _ _ _ => (hpart k (by omega)).weaken
  exact (hmore.many fun _ _ => Ahead.length_le).bind fun _ _ _ => .pure trivial

theorem fromImport_tandem :
    Tandem (Ahead σ d) (Ahead σ d) n 0 (Node.Twins σ) fromImport fromImport := by
  refine ((tokenOf (by decide)).many fun _ _ => Ahead.length_le).bind fun dots dots' hdots => ?_
  refine dottedName_tandem.optional.bind fun package package' hpackage => ?_
  have hguard : (!dots.isEmpty || package.isSome) = (!dots'.isEmpty || package'.isSome) := by
    cases hdots <;> cases hpackage <;> rfl
  refine (guarded (by rw [hguard])).bind fun _ _ _ => ?_
  refine weaken ((token rfl).next fun m hm _ _ _ => ?_)
  have hnames : Tandem (Ahead σ d) (Ahead σ d) m 0 (fun _ _ => True)
      ((do let _ ← op "*") <|>
        (do
          let _ ← op "("
          let _ ← commaList importedName
          let _ ← op ")") <|>
        names importedName)
      ((do let _ ← op "*") <|>
        (do
          let _ ← op "("
          let _ ← commaList importedName
          let _ ← op ")") <|>
        names importedName) := by
    refine .orElse ?_ (.orElse ?_ (names_tandem fun _ _ => importedName_tandem).weaken)
    · exact weaken ((token rfl).next fun _ _ _ _ _ => .pure trivial)
    · exact weaken ((token rfl).next fun _ _ _ _ _ => importedName_tandem.commaList.weaken.bind
        fun _ _ _ => (token rfl).weaken.bind fun _ _ _ => .pure trivial)
  exact hnames.bind fun _ _ _ => .pure .nil

/-- A node alone, as the list of what stands behind a keyword. -/
theorem single_tandem {q q' : Parse Node} {c : Nat}
    (hq : Tandem (Ahead σ d) (Ahead σ d) n c (Node.Twin σ) q q') :
    Tandem (Ahead σ d) (Ahead σ d) n 0 (Node.Twins σ) (do return [← q]) (do return [← q']) :=
  hq.weaken.bind fun _ _ hn => .pure (.cons hn .nil)

theorem simpleStatement_tandem (h : Good σ p p' (r + 4) n) :
    Tandem (Ahead σ d) (Ahead σ d) n 1 (Node.Twin σ) (simpleStatement p) (simpleStatement p') := by
  have hname : ∀ m ≤ n, Tandem (Ahead σ d) (Ahead σ d) m 1 (fun _ _ => True)
      (do let _ ← name) (do let _ ← name) := fun _ _ => ofName.next fun _ _ _ _ _ => .pure trivial
  have hnothing : ∀ m < n, Tandem (Ahead σ d) (Ahead σ d) m 0 (Node.Twins σ) nothing nothing :=
    fun _ _ => .pure .nil
  refine (keywordStatement_tandem hnothing).orElse ((keywordStatement_tandem hnothing).orElse
    ((keywordStatement_tandem hnothing).orElse ?_))
  refine .orElse (keywordStatement_tandem fun m hm => ?del) (.orElse
    (keywordStatement_tandem fun m hm => ?assert) (.orElse
    (keywordStatement_tandem fun m hm => ?ret) (.orElse
    (keywordStatement_tandem fun m hm => ?throw) (.orElse
    (keywordStatement_tandem fun m hm => ?imports) (.orElse
    (keywordStatement_tandem fun m hm => ?fromImports) (.orElse
    (keywordStatement_tandem fun m hm => ?globals) (.orElse
    (keywordStatement_tandem fun m hm => ?nonlocals) (.orElse ?expression ?print))))))))
  case del => exact single_tandem (expressions_tandem (h.next hm))
  case assert => exact (h.next hm).expr.commaList.weaken.bind fun _ _ hs => .pure hs.several.each
  case ret =>
    exact (expressions_tandem (h.next hm)).optional.bind fun _ _ hs => .pure (rel_toList hs)
  case throw =>
    refine .orElse (weaken ((h.next hm).expr.next fun k hk node node' hn => ?_)) (.pure .nil)
    have hcause : Tandem (Ahead σ d) (Ahead σ d) k 0 (Node.Twins σ)
        ((do let _ ← keyword "from"; return [← p .expr]) <|> pure [])
        ((do let _ ← keyword "from"; return [← p' .expr]) <|> pure []) :=
      .orElse (weaken ((token rfl).next fun _ hl _ _ _ =>
        single_tandem (((h.next hm).next hk).next hl).expr)) (.pure .nil)
    exact hcause.bind fun _ _ hs => .pure (.cons hn hs)
  case imports =>
    exact (names_tandem fun _ _ => importedName_tandem).weaken.bind fun _ _ _ => .pure .nil
  case fromImports => exact fromImport_tandem
  case globals | nonlocals =>
    exact (names_tandem fun k hk => hname k (by omega)).weaken.bind fun _ _ _ => .pure .nil
  case expression =>
    exact (expressionStatement_tandem h).next fun _ _ _ _ hn =>
      atStatementEnd_tandem.bind fun _ _ _ => .pure hn
  case print => exact printStatement_tandem h

/-- A line of simple statements, up to its break. -/
theorem simpleLine_tandem (h : Good σ p p' (r + 4) n) :
    Tandem (Ahead σ d) (Alike σ d) n 1 (Node.LineTwin σ) (simpleLine p) (simpleLine p') := by
  refine (simpleStatement_tandem h).next fun m hm first first' hfirst => ?_
  have hmore : Tandem (Ahead σ d) (Ahead σ d) m 1 (Node.Twin σ)
      (do let _ ← op ";"; simpleStatement p) (do let _ ← op ";"; simpleStatement p') :=
    (token rfl).next fun _ hk _ _ _ => (simpleStatement_tandem ((h.next hm).next hk)).weaken
  refine (hmore.many fun _ _ => Ahead.length_le).bind fun rest rest' hrest => ?_
  refine (token? rfl).bind fun _ _ _ => newline_tandem.weaken.bind fun _ _ _ => ?_
  exact .pure ⟨.spanning hfirst hrest trivial, List.cons_ne_nil _ _⟩

/-! Compound statements. -/

theorem blockOf_twin {lines lines' : List Node} (h : Several (Node.LineTwin σ) lines lines') :
    Node.LineTwin σ (blockOf lines) (blockOf lines') := by
  obtain ⟨hne, hs⟩ := h
  have hchildren : Node.Twins σ (lines.flatMap Node.children) (lines'.flatMap Node.children) :=
    List.rel_flatMap hs fun _ _ hl => hl.twin.children
  have hnonempty : lines.flatMap Node.children ≠ [] := by
    cases hs with
    | nil => exact absurd rfl hne
    | cons hl _ => simp [hl.ne_nil]
  exact ⟨.spanning_of_ne_nil hnonempty hchildren trivial, hnonempty⟩

theorem suite_tandem (h : Good σ p p' r n) :
    Tandem (Ahead σ d) (Alike σ d) n 1 (Node.Twin σ) (suite p) (suite p') := by
  refine (token rfl).next fun m hm _ _ _ => .orElse ?_ ?_
  · refine weaken (newline_tandem.next fun k hk _ _ _ => ?_)
    refine indent_tandem.weaken.bind fun _ _ _ => ?_
    have hline := ((h.next hm).next hk).line (d := d)
    refine (hline.many1 fun _ _ => Ahead.length_le).weaken.bind fun lines lines' hlines => ?_
    exact dedent_tandem.weaken.bind fun _ _ _ => .pure (blockOf_twin hlines).twin
  · exact (simpleLine_tandem (h.next hm)).mono (Nat.le_refl _) (Nat.zero_le _)
      fun _ _ hl => hl.twin

/-- A last clause that a statement may have. -/
theorem clause_tandem (h : Good σ p p' r n) {word : String} (hw : .keyword word ∈ continuing) :
    Tandem (Alike σ d) (Alike σ d) n 0 (Node.Twins σ) (clause p word) (clause p' word) :=
  .orElse (weaken ((continuing_tandem hw).next fun _ hm _ _ _ =>
    (suite_tandem (h.next hm)).weaken.bind fun _ _ hn => .pure (.cons hn .nil))) (.pure .nil)

/-- What may go on with an `if` statement behind its first block. -/
def branches (p : Goal → Parse Node) : Parse (List Node) := do
  let others ← many (do
    let _ ← keyword "elif"
    let condition ← p .named
    return [condition, ← suite p])
  let last ← clause p "else"
  return others.flatten ++ last

theorem branches_tandem (h : Good σ p p' r n) :
    Tandem (Alike σ d) (Alike σ d) n 0 (Node.Twins σ) (branches p) (branches p') := by
  have hother : Tandem (Alike σ d) (Alike σ d) n 1 (Node.Twins σ)
      (do
        let _ ← keyword "elif"
        let condition ← p .named
        return [condition, ← suite p])
      (do
        let _ ← keyword "elif"
        let condition ← p' .named
        return [condition, ← suite p']) :=
    (continuing_tandem (by decide)).next fun k hk _ _ _ => (h.next hk).named.weaken.bind
      fun _ _ hc => (suite_tandem (h.next hk)).weaken.bind fun _ _ hs =>
        .pure (.cons hc (.cons hs .nil))
  refine (hother.many fun _ _ => Alike.length_le).bind fun others others' hothers => ?_
  exact (clause_tandem h (by decide)).bind fun last last' hlast =>
    .pure (List.rel_append (List.rel_flatten hothers) hlast)

theorem ifStatement_eq (p : Goal → Parse Node) : ifStatement p = (do
    let token ← keyword "if"
    let condition ← p .named
    let body ← suite p
    let others ← branches p
    return .onward token .statement (condition :: body :: others)) := by
  simp only [ifStatement, branches, bind_assoc, pure_bind, List.cons_append]

theorem ifStatement_tandem (h : Good σ p p' r n) :
    Tandem (Ahead σ d) (Alike σ d) n 1 (Node.Twin σ) (ifStatement p) (ifStatement p') := by
  rw [ifStatement_eq, ifStatement_eq]
  refine (token rfl).next fun m hm t t' ht => ?_
  have hg := h.next hm
  refine hg.named.weaken.bind fun condition condition' hcondition => ?_
  refine (suite_tandem hg).weaken.bind fun body body' hbody => ?_
  refine (branches_tandem hg).bind fun others others' hothers => ?_
  exact .pure (.onward ht (.cons hcondition (.cons hbody hothers)) trivial)

theorem whileStatement_tandem (h : Good σ p p' r n) :
    Tandem (Ahead σ d) (Alike σ d) n 1 (Node.Twin σ) (whileStatement p) (whileStatement p') := by
  refine (token rfl).next fun m hm t t' ht => ?_
  have hg := h.next hm
  refine hg.named.weaken.bind fun condition condition' hcondition => ?_
  refine (suite_tandem hg).weaken.bind fun body body' hbody => ?_
  exact (clause_tandem hg (by decide)).bind fun _ _ hlast =>
    .pure (.onward ht (.cons hcondition (.cons hbody hlast)) trivial)

theorem forStatement_tandem (h : Good σ p p' r n) :
    Tandem (Ahead σ d) (Alike σ d) n 1 (Node.Twin σ) (forStatement p) (forStatement p') := by
  refine (token rfl).next fun m hm t t' ht => ?_
  have hg := h.next hm
  refine (targets_tandem hg).weaken.bind fun target target' htarget => ?_
  refine (token rfl).weaken.bind fun _ _ _ => ?_
  refine (expressions_tandem hg).weaken.bind fun source source' hsource => ?_
  refine (suite_tandem hg).weaken.bind fun body body' hbody => ?_
  exact (clause_tandem hg (by decide)).bind fun _ _ hlast =>
    .pure (.onward ht (.cons htarget (.cons hsource (.cons hbody hlast))) trivial)

theorem exceptClause_tandem (h : Good σ p p' r n) :
    Tandem (Alike σ d) (Alike σ d) n 1 (Node.Twins σ) (exceptClause p) (exceptClause p') := by
  refine (continuing_tandem (by decide)).next fun m hm _ _ _ => (token? rfl).bind fun _ _ _ => ?_
  have hg := h.next hm
  have hcaught : Tandem (Ahead σ d) (Ahead σ d) m 0 (Node.Twins σ)
      ((do
        let node ← p .expr
        let _ ← Parse.optional (do let _ ← keyword "as"; name)
        return [node]) <|> pure [])
      ((do
        let node ← p' .expr
        let _ ← Parse.optional (do let _ ← keyword "as"; name)
        return [node]) <|> pure []) :=
    .orElse (weaken (hg.expr.next fun _ _ _ _ hn =>
      asName_tandem.optional.bind fun _ _ _ => .pure (.cons hn .nil))) (.pure .nil)
  refine hcaught.bind fun caught caught' hs => ?_
  exact (suite_tandem hg).weaken.bind fun _ _ hbody =>
    .pure (List.rel_append hs (.cons hbody .nil))

theorem tryStatement_tandem (h : Good σ p p' r n) :
    Tandem (Ahead σ d) (Alike σ d) n 1 (Node.Twin σ) (tryStatement p) (tryStatement p') := by
  refine (token rfl).next fun m hm t t' ht => ?_
  have hg := h.next hm
  refine (suite_tandem hg).weaken.bind fun body body' hbody => ?_
  refine ((exceptClause_tandem hg).many fun _ _ => Alike.length_le).bind
    fun handlers handlers' hhandlers => ?_
  refine (clause_tandem hg (by decide)).bind fun otherwise otherwise' hotherwise => ?_
  refine (clause_tandem hg (by decide)).bind fun last last' hlast => ?_
  have hguard : (!handlers'.isEmpty || !last'.isEmpty) = (!handlers.isEmpty || !last.isEmpty) := by
    cases hhandlers <;> cases hlast <;> rfl
  refine (guarded (by rw [hguard])).bind fun _ _ _ => ?_
  exact .pure (.onward ht (.cons hbody (List.rel_append (List.rel_append
    (List.rel_flatten hhandlers) hotherwise) hlast)) trivial)

theorem withItem_tandem (h : Good σ p p' (r + 4) n) :
    Tandem (Ahead σ d) (Ahead σ d) n 1 (Node.Twins σ) (withItem p) (withItem p') := by
  refine h.expr.next fun m hm node node' hn => ?_
  have hname : Tandem (Ahead σ d) (Ahead σ d) m 0 (Node.Twins σ)
      ((do let _ ← keyword "as"; return [← target p]) <|> pure [])
      ((do let _ ← keyword "as"; return [← target p']) <|> pure []) :=
    .orElse (weaken ((token rfl).next fun _ hk _ _ _ =>
      single_tandem (target_tandem ((h.next hm).next hk)))) (.pure .nil)
  exact hname.bind fun _ _ hs => .pure (.cons hn hs)

theorem withItems_tandem (h : Good σ p p' (r + 4) n) :
    Tandem (Ahead σ d) (Ahead σ d) n 1 (Node.Twins σ) (withItems p) (withItems p') := by
  refine .orElse ?_ ?_
  · refine (token rfl).next fun m hm _ _ _ => ?_
    refine (withItem_tandem (h.next hm)).commaList.weaken.bind fun x x' hx => ?_
    refine (token rfl).weaken.bind fun _ _ _ => peeked.bind fun kind kind' hkind => ?_
    obtain rfl : kind' = kind := hkind
    exact (guarded Iff.rfl).bind fun _ _ _ => .pure (List.rel_flatten hx.several.each)
  · refine (withItem_tandem h).next fun m hm first first' hfirst => ?_
    have hmore : Tandem (Ahead σ d) (Ahead σ d) m 1 (Node.Twins σ)
        (do let _ ← op ","; withItem p) (do let _ ← op ","; withItem p') :=
      (token rfl).next fun _ hk _ _ _ => (withItem_tandem ((h.next hm).next hk)).weaken
    exact (hmore.many fun _ _ => Ahead.length_le).bind fun _ _ hrest =>
      .pure (List.rel_append hfirst (List.rel_flatten hrest))

theorem withStatement_tandem (h : Good σ p p' r n) :
    Tandem (Ahead σ d) (Alike σ d) n 1 (Node.Twin σ) (withStatement p) (withStatement p') :=
  (token rfl).next fun _ hm _ _ ht => (withItems_tandem (h.next hm)).weaken.bind fun _ _ hs =>
    (suite_tandem (h.next hm)).weaken.bind fun _ _ hbody =>
      .pure (.onward ht (List.rel_append hs (.cons hbody .nil)) trivial)

/-- The annotation of a function's result. -/
theorem result_tandem (h : Good σ p p' r n) :
    Tandem (Ahead σ d) (Ahead σ d) n 0 (Node.Twins σ)
      ((do let _ ← op "->"; return [← p .expr]) <|> pure [])
      ((do let _ ← op "->"; return [← p' .expr]) <|> pure []) :=
  .orElse (weaken ((token rfl).next fun _ hk _ _ _ => single_tandem (h.next hk).expr)) (.pure .nil)

theorem functionDefinition_tandem (h : Good σ p p' r n) {start start' : Option Token}
    (hstart : Option.Rel (Token.Placed σ) start start') :
    Tandem (Ahead σ d) (Alike σ d) n 1 (Node.Twin σ) (functionDefinition p start)
      (functionDefinition p' start') := by
  refine (token rfl).next fun m hm t t' ht => ofName.weaken.bind fun x x' hx => ?_
  obtain ⟨text, _⟩ := x
  obtain ⟨text', _⟩ := x'
  obtain rfl : text' = text := hx.1.1
  have hg := h.next hm
  refine (token rfl).weaken.bind fun first first' hfirst => ?_
  refine (parameters_tandem hg true).bind fun params params' hparams => ?_
  refine (token rfl).weaken.bind fun last last' hlast => ?_
  refine (result_tandem hg).bind fun result result' hr => ?_
  refine (suite_tandem hg).weaken.bind fun body body' hbody => ?_
  have hnode : Node.Twin σ (.between first last .parameters params)
      (.between first' last' .parameters params') :=
    .between hfirst hlast hparams trivial
  have hisSome : start'.isSome = start.isSome := by cases hstart <;> rfl
  rw [hisSome]
  exact .pure (.onward (rel_getD hstart ht) (.cons hnode (List.rel_append hr (.cons hbody .nil)))
    trivial)

theorem classDefinition_tandem (h : Good σ p p' r n) :
    Tandem (Ahead σ d) (Alike σ d) n 1 (Node.Twin σ) (classDefinition p) (classDefinition p') :=
  (token rfl).next fun _ hm _ _ ht => ofName.weaken.bind fun _ _ _ =>
    (callArguments_tandem (h.next hm)).optional.bind fun _ _ hbases =>
      (suite_tandem (h.next hm)).weaken.bind fun _ _ hbody =>
        .pure (.onward ht (List.rel_append (rel_toList hbases) (.cons hbody .nil)) trivial)

theorem asyncFunction_tandem (h : Good σ p p' r n) :
    Tandem (Ahead σ d) (Alike σ d) n 1 (Node.Twin σ) (asyncFunction p) (asyncFunction p') :=
  (token rfl).next fun _ hm _ _ ht => (functionDefinition_tandem (h.next hm) (.some ht)).weaken

theorem asyncStatement_tandem (h : Good σ p p' r n) :
    Tandem (Ahead σ d) (Alike σ d) n 1 (Node.Twin σ) (asyncStatement p) (asyncStatement p') :=
  (token rfl).next fun _ hm _ _ ht =>
    ((forStatement_tandem (h.next hm)).orElse (withStatement_tandem (h.next hm))).weaken.bind
      fun _ _ hn => .pure (.onward ht (.cons hn .nil) trivial)

theorem decorator_tandem (h : Good σ p p' r n) :
    Tandem (Ahead σ d) (Alike σ d) n 1 (Node.Twin σ) (decorator p) (decorator p') :=
  (token rfl).next fun _ hm _ _ ht => (h.next hm).named.weaken.bind fun _ _ hn =>
    newline_tandem.weaken.bind fun _ _ _ => .pure (.onward ht (.cons hn .nil) trivial)

/-- What may stand below decorators. -/
theorem definition_tandem (h : Good σ p p' r n) :
    Tandem (Ahead σ d) (Alike σ d) n 1 (Node.Twin σ)
      (functionDefinition p none <|> asyncFunction p <|> classDefinition p)
      (functionDefinition p' none <|> asyncFunction p' <|> classDefinition p') :=
  (functionDefinition_tandem h .none).orElse
    ((asyncFunction_tandem h).orElse (classDefinition_tandem h))

/-- Inside of a block something stands below decorators. -/
theorem decoratedDefinition_tandem (h : Good σ p p' r n) :
    Tandem (Ahead σ (d + 1)) (Alike σ (d + 1)) n 1 (Node.Twin σ) (decoratedDefinition p)
      (decoratedDefinition p') := by
  have hdecorator : Tandem (Ahead σ (d + 1)) (Ahead σ (d + 1)) n 1 (Node.Twin σ) (decorator p)
      (decorator p') :=
    (decorator_tandem h).land fun _ _ => Alike.ahead
  refine (hdecorator.many1 fun _ _ => Ahead.length_le).next fun m hm decorators decorators' hs => ?_
  refine (definition_tandem (h.restrict (by omega))).weaken.bind fun node node' hn => ?_
  exact .pure (.spanning_of_ne_nil (by simp) (List.rel_append hs.each (.cons hn .nil)) trivial)

theorem caseClause_tandem (h : Good σ p p' r n) :
    Tandem (Ahead σ d) (Alike σ d) n 1 (Node.Twins σ) (caseClause p) (caseClause p') := by
  refine (token rfl).next fun m hm _ _ _ => ?_
  have hg := h.next hm
  refine (casePatterns_tandem hg).weaken.bind fun _ _ _ => ?_
  have hcondition : Tandem (Ahead σ d) (Ahead σ d) m 0 (Node.Twins σ)
      ((do let _ ← keyword "if"; return [← p .named]) <|> pure [])
      ((do let _ ← keyword "if"; return [← p' .named]) <|> pure []) :=
    .orElse (weaken ((token rfl).next fun _ hk _ _ _ => single_tandem (hg.next hk).named))
      (.pure .nil)
  refine hcondition.bind fun condition condition' hs => ?_
  exact (suite_tandem hg).weaken.bind fun _ _ hbody =>
    .pure (List.rel_append hs (.cons hbody .nil))

theorem matchStatement_tandem (h : Good σ p p' r n) :
    Tandem (Ahead σ d) (Alike σ d) n 1 (Node.Twin σ) (matchStatement p) (matchStatement p') := by
  refine (token rfl).next fun m hm t t' ht => ?_
  have hg := h.next hm
  refine (splatOrNamed_tandem hg).commaList.weaken.bind fun x x' hx => ?_
  refine (token rfl).weaken.bind fun _ _ _ => newline_tandem.weaken.bind fun _ _ _ => ?_
  refine indent_tandem.weaken.bind fun _ _ _ => ?_
  have hcase : Tandem (Ahead σ (d + 1)) (Ahead σ (d + 1)) m 1 (Node.Twins σ) (caseClause p)
      (caseClause p') :=
    (caseClause_tandem hg).land fun _ _ => Alike.ahead
  refine (hcase.many1 fun _ _ => Ahead.length_le).weaken.bind fun cases cases' hcases => ?_
  refine dedent_tandem.weaken.bind fun _ _ _ => ?_
  exact .pure (.onward ht (List.rel_append hx.several.each (List.rel_flatten hcases.each)) trivial)

/-- A statement, at places from where decorated definitions are read in tandem. -/
theorem line_tandem {D : List Token → List Token → Prop} (h : Good σ p p' (r + 5) n)
    (hD : ∀ ts ts', D ts ts' → Ahead σ d ts ts')
    (hdecorated : Tandem D (Alike σ d) n 1 (Node.Twin σ) (decoratedDefinition p)
      (decoratedDefinition p')) :
    Tandem D (Alike σ d) n 1 (Node.LineTwin σ) (line p) (line p') := by
  have hcompound : Tandem D (Alike σ d) n 1 (Node.Twin σ) (compoundStatement p)
      (compoundStatement p') :=
    .orElse ((functionDefinition_tandem h .none).comap hD) <|
    .orElse ((classDefinition_tandem h).comap hD) <|
    .orElse ((ifStatement_tandem h).comap hD) <|
    .orElse ((forStatement_tandem h).comap hD) <|
    .orElse ((whileStatement_tandem h).comap hD) <|
    .orElse ((tryStatement_tandem h).comap hD) <|
    .orElse ((withStatement_tandem h).comap hD) <|
    .orElse hdecorated <|
    .orElse ((asyncFunction_tandem h).comap hD) <|
    .orElse ((asyncStatement_tandem h).comap hD) ((matchStatement_tandem h).comap hD)
  exact .orElse (hcompound.next fun _ _ _ _ hn =>
    .pure ⟨.spanning hn .nil trivial, List.cons_ne_nil _ _⟩) ((simpleLine_tandem h).comap hD)

/-! All goals. -/

theorem agrees_rule {g : Goal} (h : Good σ p p' g.rank n) :
    g.Agrees σ n (rule p g) (rule p' g) := by
  cases g with
  | named => exact fun _ => named_tandem (show Good σ p p' (0 + 4) n from h)
  | expr => exact fun _ => expression_tandem (show Good σ p p' (0 + 3) n from h)
  | operators => exact fun _ => operators_tandem (show Good σ p p' (0 + 2) n from h)
  | negation => exact fun _ => negation_tandem (show Good σ p p' (0 + 1) n from h)
  | operand => exact fun _ => operand_tandem h
  | primary => exact fun _ => primary_tandem h
  | interpolation => exact fun _ => interpolation_tandem h
  | pattern => exact fun _ => pattern_tandem h
  | line =>
    exact fun _ => (line_tandem (show Good σ p p' (0 + 5) n from h) (fun _ _ hd => hd)
      (decoratedDefinition_tandem h)).land fun _ _ => Alike.ahead

/-- With enough fuel the readers of a goal agree. -/
theorem agrees_read {g : Goal} {fuel fuel' : Nat} (hf : 8 * n + g.rank < fuel)
    (hf' : 8 * n + g.rank < fuel') : g.Agrees σ n (read fuel g) (read fuel' g) := by
  suffices h : ∀ bound g n, 8 * n + g.rank < bound → ∀ fuel fuel', bound ≤ fuel → bound ≤ fuel' →
      Goal.Agrees σ n (read fuel g) (read fuel' g) g from
    h (8 * n + g.rank + 1) g n (by omega) fuel fuel' hf hf'
  intro bound
  induction bound with
  | zero => exact fun g n h => absurd h (Nat.not_lt_zero _)
  | succ bound ih =>
    intro g n hn fuel fuel' hfuel hfuel'
    obtain ⟨fuel, rfl⟩ := Nat.exists_eq_add_of_le' (Nat.le_trans (Nat.le_add_left 1 bound) hfuel)
    obtain ⟨fuel', rfl⟩ := Nat.exists_eq_add_of_le' (Nat.le_trans (Nat.le_add_left 1 bound) hfuel')
    refine agrees_rule ⟨fun g' hg' => ?_, fun m hm g' => ?_⟩
    · exact ih g' n (by omega) fuel fuel' (by omega) (by omega)
    · have hrank : g'.rank ≤ 5 := by cases g' <;> decide
      exact ih g' m (by omega) fuel fuel' (by omega) (by omega)

end AgentWorkbench.Python.Grammar
