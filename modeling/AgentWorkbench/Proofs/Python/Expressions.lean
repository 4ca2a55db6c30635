import AgentWorkbench.Proofs.Python.Tandem
import AgentWorkbench.Python.Grammar.Pattern

/-!
The rules of expressions and patterns in tandem. A rule is read in tandem if the goals to which it
leads are: those that it may come to before it takes a token with as many tokens left, and all
others with fewer.
-/
namespace AgentWorkbench.Python

/-- Reading a goal leads to goals of lower rank before it takes a token. -/
def Goal.rank : Goal → Nat
  | .named => 4
  | .expr => 3
  | .operators => 2
  | .negation => 1
  | .operand | .primary | .interpolation | .pattern => 0
  | .line => 5

/-- A line's node and its statements, of which there is at least one. -/
structure Node.LineTwin (σ : Shift) (n n' : Node) : Prop where
  twin : Node.Twin σ n n'
  ne_nil : n.children ≠ []

/-- What readers of a goal have in common at corresponding places. Nothing is kept of a pattern,
and lines are read inside of blocks. -/
def Goal.Agrees (σ : Shift) (n : Nat) (p p' : Parse Node) : Goal → Prop
  | .pattern => ∀ d, Tandem (Ahead σ d) (Ahead σ d) n 1 (fun _ _ => True) p p'
  | .line => ∀ d, Tandem (Ahead σ (d + 1)) (Ahead σ (d + 1)) n 1 (Node.LineTwin σ) p p'
  | _ => ∀ d, Tandem (Ahead σ d) (Ahead σ d) n 1 (Node.Twin σ) p p'

namespace Grammar

/-- The goals of which the rank is below `r` agree with at most `n` tokens left, and all goals do
with fewer. -/
structure Good (σ : Shift) (p p' : Goal → Parse Node) (r n : Nat) : Prop where
  now : ∀ g : Goal, g.rank < r → g.Agrees σ n (p g) (p' g)
  later : ∀ m < n, ∀ g : Goal, g.Agrees σ m (p g) (p' g)

variable {σ : Shift} {p p' : Goal → Parse Node} {d r n m : Nat}

namespace Good

theorem next (h : Good σ p p' r n) (hm : m < n) : Good σ p p' 6 m where
  now g _ := h.later m hm g
  later k hk := h.later k (Nat.lt_trans hk hm)

theorem restrict (h : Good σ p p' r n) (hm : m ≤ n) : Good σ p p' r m where
  now g hg := by
    rcases Nat.lt_or_eq_of_le hm with hlt | rfl
    · exact h.later m hlt g
    · exact h.now g hg
  later k hk := h.later k (Nat.lt_of_lt_of_le hk hm)

theorem named (h : Good σ p p' (r + 5) n) :
    Tandem (Ahead σ d) (Ahead σ d) n 1 (Node.Twin σ) (p .named) (p' .named) :=
  h.now .named (by simp only [Goal.rank]; omega) d

theorem expr (h : Good σ p p' (r + 4) n) :
    Tandem (Ahead σ d) (Ahead σ d) n 1 (Node.Twin σ) (p .expr) (p' .expr) :=
  h.now .expr (by simp only [Goal.rank]; omega) d

theorem operators (h : Good σ p p' (r + 3) n) :
    Tandem (Ahead σ d) (Ahead σ d) n 1 (Node.Twin σ) (p .operators) (p' .operators) :=
  h.now .operators (by simp only [Goal.rank]; omega) d

theorem negation (h : Good σ p p' (r + 2) n) :
    Tandem (Ahead σ d) (Ahead σ d) n 1 (Node.Twin σ) (p .negation) (p' .negation) :=
  h.now .negation (by simp only [Goal.rank]; omega) d

theorem operand (h : Good σ p p' (r + 1) n) :
    Tandem (Ahead σ d) (Ahead σ d) n 1 (Node.Twin σ) (p .operand) (p' .operand) :=
  h.now .operand (by simp only [Goal.rank]; omega) d

theorem primary (h : Good σ p p' (r + 1) n) :
    Tandem (Ahead σ d) (Ahead σ d) n 1 (Node.Twin σ) (p .primary) (p' .primary) :=
  h.now .primary (by simp only [Goal.rank]; omega) d

theorem interpolation (h : Good σ p p' (r + 1) n) :
    Tandem (Ahead σ d) (Ahead σ d) n 1 (Node.Twin σ) (p .interpolation) (p' .interpolation) :=
  h.now .interpolation (by simp only [Goal.rank]; omega) d

theorem pattern (h : Good σ p p' (r + 1) n) :
    Tandem (Ahead σ d) (Ahead σ d) n 1 (fun _ _ => True) (p .pattern) (p' .pattern) :=
  h.now .pattern (by simp only [Goal.rank]; omega) d

end Good

open Parse Tandem

/-! Parameters. -/

theorem annotation_tandem (h : Good σ p p' r n) (allowed : Bool) :
    Tandem (Ahead σ d) (Ahead σ d) n 0 (Node.Twins σ) ( annotation p allowed)
      ( annotation p' allowed) := by
  cases allowed with
  | false => exact .pure .nil
  | true =>
    refine .orElse (weaken ((token rfl).next fun _ hm _ _ _ => ?_)) (.pure .nil)
    refine (token? rfl).bind fun star star' hs => ?_
    refine (h.next hm).expr.weaken.bind fun n n' hn => ?_
    cases hs with
    | none => exact .pure (.cons hn .nil)
    | some ht => exact .pure (.cons (.onward ht (.cons hn .nil) trivial) .nil)

theorem defaultValue_tandem (h : Good σ p p' r n) :
    Tandem (Ahead σ d) (Ahead σ d) n 0 (Node.Twins σ) (defaultValue p) (defaultValue p') :=
  .orElse (weaken ((token rfl).next fun _ hm _ _ _ =>
    (h.next hm).expr.weaken.bind fun _ _ hn => .pure (.cons hn .nil))) (.pure .nil)

theorem parameter_tandem (h : Good σ p p' r n) (annotated : Bool) :
    Tandem (Ahead σ d) (Ahead σ d) n 1 (Node.Twin σ) (parameter p annotated)
      (parameter p' annotated) := by
  refine .orElse ?slash (.orElse ?star (.orElse ?stars ?plain))
  case slash => exact (token rfl).next fun _ _ _ _ ht => .pure (.leaf ht trivial)
  case star =>
    refine (token rfl).next fun m hm star star' ht => ofName.optional.bind fun x x' hx => ?_
    cases hx with
    | none => exact .pure (.leaf ht trivial)
    | some hx =>
      refine (annotation_tandem (h.next hm) annotated).bind fun type type' hs => .pure ?_
      have hl := Node.Twin.last_stop hs hx.2.stop hx.2.bound
      exact .of_children ht.start hl.1 hl.2 hs trivial
  case stars =>
    refine (token rfl).next fun m hm stars stars' ht => ofName.weaken.bind fun x x' hx => ?_
    refine (annotation_tandem (h.next hm) annotated).bind fun type type' hs => .pure ?_
    have hl := Node.Twin.last_stop hs hx.2.stop hx.2.bound
    exact .of_children ht.start hl.1 hl.2 hs trivial
  case plain =>
    refine ofName.next fun m hm (text, token) (text', token') ⟨⟨ht, _⟩, hp⟩ => ?_
    obtain rfl : text' = text := ht
    refine (annotation_tandem (h.next hm) annotated).bind fun type type' hs => ?_
    refine (defaultValue_tandem (h.next hm)).bind fun value value' hv => .pure ?_
    exact .onward hp (List.rel_append hs hv) trivial

theorem parameters_tandem (h : Good σ p p' r n) (annotated : Bool) :
    Tandem (Ahead σ d) (Ahead σ d) n 0 (Node.Twins σ) (parameters p annotated)
      (parameters p' annotated) :=
  .orElse (weaken ((parameter_tandem h annotated).commaList.next fun _ _ _ _ hs =>
    .pure hs.several.each)) (.pure .nil)

/-! Lists of expressions. -/

theorem splat_tandem (h : Good σ p p' r n) :
    Tandem (Ahead σ d) (Ahead σ d) n 1 (Node.Twin σ) (splat p) (splat p') :=
  (token rfl).next fun _ hm _ _ ht =>
    (h.next hm).expr.weaken.bind fun _ _ hn => .pure (.onward ht (.cons hn .nil) trivial)

theorem splatOrExpr_tandem (h : Good σ p p' (r + 4) n) :
    Tandem (Ahead σ d) (Ahead σ d) n 1 (Node.Twin σ) (splatOrExpr p) (splatOrExpr p') :=
  (splat_tandem h).orElse h.expr

theorem splatOrNamed_tandem (h : Good σ p p' (r + 5) n) :
    Tandem (Ahead σ d) (Ahead σ d) n 1 (Node.Twin σ) (splatOrNamed p) (splatOrNamed p') :=
  (splat_tandem h).orElse h.named

theorem bareTuple_tandem {q q' : Parse Node}
    (hq : Tandem (Ahead σ d) (Ahead σ d) n 1 (Node.Twin σ) q q') :
    Tandem (Ahead σ d) (Ahead σ d) n 1 (Node.Twin σ)
      (do let (nodes, trailing) ← commaList q; return .bareTuple nodes trailing)
      (do let (nodes, trailing) ← commaList q'; return .bareTuple nodes trailing) :=
  hq.commaList.next fun _ _ _ _ hs =>
    .pure (.bareTuple hs.several.ne_nil hs.several.each hs.comma)

theorem expressions_tandem (h : Good σ p p' (r + 4) n) :
    Tandem (Ahead σ d) (Ahead σ d) n 1 (Node.Twin σ) (expressions p) (expressions p') :=
  bareTuple_tandem (splatOrExpr_tandem h)

theorem yieldExpression_tandem (h : Good σ p p' r n) :
    Tandem (Ahead σ d) (Ahead σ d) n 1 (Node.Twin σ) (yieldExpression p) (yieldExpression p') := by
  refine (token rfl).next fun m hm t t' ht => .orElse ?_ (.orElse ?_ ?_)
  · exact weaken ((token rfl).next fun _ hk _ _ _ => ((h.next hm).next hk).expr.weaken.bind
      fun _ _ hn => .pure (.onward ht (.cons hn .nil) trivial))
  · exact (expressions_tandem (h.next hm)).weaken.bind fun _ _ hn =>
      .pure (.onward ht (.cons hn .nil) trivial)
  · exact .pure (.leaf ht trivial)

theorem value_tandem (h : Good σ p p' (r + 4) n) :
    Tandem (Ahead σ d) (Ahead σ d) n 1 (Node.Twin σ) (value p) (value p') :=
  (yieldExpression_tandem h).orElse (expressions_tandem h)

theorem target_tandem (h : Good σ p p' (r + 1) n) :
    Tandem (Ahead σ d) (Ahead σ d) n 1 (Node.Twin σ) (target p) (target p') := by
  refine (token? rfl).bind fun star star' hs => h.primary.next fun m hm node node' hn => ?_
  cases hs with
  | none => exact (guarded (by rw [hn.isTarget_eq])).bind fun _ _ _ => .pure hn
  | @some t t' ht =>
    have hsplat : Node.Twin σ (.onward t .splat [node]) (.onward t' .splat [node']) :=
      .onward ht (.cons hn .nil) trivial
    exact (guarded (by rw [hsplat.isTarget_eq])).bind fun _ _ _ => .pure hsplat

theorem targets_tandem (h : Good σ p p' (r + 1) n) :
    Tandem (Ahead σ d) (Ahead σ d) n 1 (Node.Twin σ) (targets p) (targets p') :=
  bareTuple_tandem (target_tandem h)

/-! Comprehensions. -/

theorem comprehensionClause_tandem (h : Good σ p p' r n) :
    Tandem (Ahead σ d) (Ahead σ d) n 1 (Node.Twins σ) (comprehensionClause p)
      (comprehensionClause p') := by
  refine (token? rfl).bind fun _ _ _ => (token rfl).next fun m hm _ _ _ => ?_
  refine (targets_tandem (h.next hm)).weaken.bind fun target target' ht => ?_
  refine weaken ((token rfl).next fun k hk _ _ _ => ?_)
  refine ((h.next hm).next hk).operators.weaken.bind fun source source' hs => ?_
  have hcondition : Tandem (Ahead σ d) (Ahead σ d) k 1 (Node.Twin σ)
      (do let _ ← keyword "if"; p .operators) (do let _ ← keyword "if"; p' .operators) :=
    (token rfl).next fun _ hl _ _ _ => (((h.next hm).next hk).next hl).operators.weaken
  exact (hcondition.many fun _ _ => Ahead.length_le).bind fun _ _ hc =>
    .pure (.cons ht (.cons hs hc))

theorem comprehensionClauses_tandem (h : Good σ p p' r n) :
    Tandem (Ahead σ d) (Ahead σ d) n 1 (Node.Twins σ) (comprehensionClauses p)
      (comprehensionClauses p') :=
  ((comprehensionClause_tandem h).many1 fun _ _ => Ahead.length_le).next fun _ _ _ _ hc =>
    .pure (List.rel_flatten hc.each)

/-! Bracketed expressions. -/

theorem isSplat_eq {node node' : Node} (h : Node.Twin σ node node') :
    isSplat node' = isSplat node := by
  rw [isSplat, isSplat, h.kind_eq]

structure Remaining (σ : Shift) (x x' : List Node × Bool × Token) : Prop where
  nodes : Node.Twins σ x.1 x'.1
  commas : x'.2.1 = x.2.1
  close : Token.Placed σ x.2.2 x'.2.2

theorem remaining_tandem {q q' : Parse Node}
    (hq : Tandem (Ahead σ d) (Ahead σ d) n 1 (Node.Twin σ) q q') (close : String) :
    Tandem (Ahead σ d) (Ahead σ d) n 0 (Remaining σ) (remaining q close) (remaining q' close) := by
  have hmore : Tandem (Ahead σ d) (Ahead σ d) n 1 (Node.Twin σ) (do let _ ← op ","; q)
      (do let _ ← op ","; q') :=
    (token rfl).next fun _ hm _ _ _ => (hq.restrict (Nat.le_of_lt hm)).weaken
  refine (hmore.many fun _ _ => Ahead.length_le).bind fun rest rest' hrest => ?_
  refine (token? rfl).bind fun trailing trailing' ht => (token rfl).weaken.bind fun _ _ hclose => ?_
  refine .pure ⟨hrest, ?_, hclose⟩
  have hempty : rest'.isEmpty = rest.isEmpty := by cases hrest <;> rfl
  cases ht <;> simp [hempty]

/-- What may follow the first part inside of brackets: the clauses of a comprehension, or more
parts. -/
theorem clausesOrRemaining_tandem {q q' : Parse Node} {first first' : Token} {node node' : Node}
    {b b' : Bool} {kind kind' : NodeKind} (h : Good σ p p' 6 n)
    (hfirst : Token.Placed σ first first') (hn : Node.Twin σ node node') (hb : b' = b)
    (hq : Tandem (Ahead σ d) (Ahead σ d) n 1 (Node.Twin σ) q q') (close : String)
    (hk : kind.Allowed σ) (hk' : kind'.Allowed σ) :
    Tandem (Ahead σ d) (Ahead σ d) n 0 (Node.Twin σ)
      ((do
        guard b
        let clauses ← comprehensionClauses p
        return .between first (← op close) kind (node :: clauses)) <|>
      (do
        let (rest, _, close) ← remaining q close
        return .between first close kind' (node :: rest)))
      ((do
        guard b'
        let clauses ← comprehensionClauses p'
        return .between first' (← op close) kind (node' :: clauses)) <|>
      (do
        let (rest, _, close) ← remaining q' close
        return .between first' close kind' (node' :: rest))) := by
  refine .orElse ?_ ?_
  · refine (guarded (by rw [hb])).bind fun _ _ _ => ?_
    refine (comprehensionClauses_tandem h).weaken.bind fun _ _ hc => ?_
    exact (token rfl).weaken.bind fun _ _ hclose => .pure (.between hfirst hclose (.cons hn hc) hk)
  · exact (remaining_tandem hq close).bind
      fun _ _ hx => .pure (.between hfirst hx.close (.cons hn hx.nodes) hk')

theorem parenthesized_tandem (h : Good σ p p' r n) :
    Tandem (Ahead σ d) (Ahead σ d) n 1 (Node.Twin σ) (parenthesized p) (parenthesized p') := by
  refine (token rfl).next fun m hm first first' hfirst => .orElse ?_ (.orElse ?_ ?_)
  · exact (token rfl).weaken.bind fun _ _ hclose => .pure (.between hfirst hclose .nil trivial)
  · refine (yieldExpression_tandem (h.next hm)).weaken.bind fun node node' hn => ?_
    exact (token rfl).weaken.bind fun _ _ hclose =>
      .pure (.between hfirst hclose (.cons hn .nil) trivial)
  · refine weaken ((splatOrNamed_tandem (h.next hm)).next fun k hk node node' hn => ?_)
    have hsplat := isSplat_eq hn
    refine .orElse ?_ ?_
    · refine (guarded (by rw [hsplat])).bind fun _ _ _ => ?_
      refine (comprehensionClauses_tandem ((h.next hm).next hk)).weaken.bind fun _ _ hc => ?_
      exact (token rfl).weaken.bind fun _ _ hclose =>
        .pure (.between hfirst hclose (.cons hn hc) trivial)
    · refine (remaining_tandem (splatOrNamed_tandem ((h.next hm).next hk)) ")").bind
        fun x x' hx => ?_
      obtain ⟨rest, commas, close⟩ := x
      obtain ⟨rest', commas', close'⟩ := x'
      obtain rfl : commas' = commas := hx.commas
      cases commas' with
      | true => exact .pure (.between hfirst hx.close (.cons hn hx.nodes) trivial)
      | false =>
        exact (guarded (by rw [hsplat])).bind fun _ _ _ =>
          .pure (.between hfirst hx.close (.cons hn .nil) trivial)

theorem list_tandem (h : Good σ p p' r n) :
    Tandem (Ahead σ d) (Ahead σ d) n 1 (Node.Twin σ) (list p) (list p') := by
  refine (token rfl).next fun m hm first first' hfirst => .orElse ?_ ?_
  · exact (token rfl).weaken.bind fun _ _ hclose => .pure (.between hfirst hclose .nil trivial)
  · exact weaken ((splatOrNamed_tandem (h.next hm)).next fun k hk _ _ hn =>
      have hg := (h.next hm).next hk
      clausesOrRemaining_tandem hg hfirst hn (congrArg not (isSplat_eq hn))
        (splatOrNamed_tandem hg) "]" trivial trivial)

theorem mappingSplat_tandem (h : Good σ p p' r n) :
    Tandem (Ahead σ d) (Ahead σ d) n 1 (Node.Twin σ) (mappingSplat p) (mappingSplat p') :=
  (token rfl).next fun _ hm _ _ ht =>
    (h.next hm).expr.weaken.bind fun _ _ hn => .pure (.onward ht (.cons hn .nil) trivial)

theorem mappingItem_tandem (h : Good σ p p' (r + 4) n) :
    Tandem (Ahead σ d) (Ahead σ d) n 1 (Node.Twin σ) (mappingItem p) (mappingItem p') :=
  (mappingSplat_tandem h).orElse (h.expr.next fun _ hm _ _ hkey =>
    (token rfl).weaken.bind fun _ _ _ => (h.next hm).expr.weaken.bind fun _ _ hn =>
      .pure (.spanning hkey (.cons hn .nil) trivial))

theorem braced_tandem (h : Good σ p p' r n) :
    Tandem (Ahead σ d) (Ahead σ d) n 1 (Node.Twin σ) (braced p) (braced p') := by
  refine (token rfl).next fun m hm first first' hfirst => .orElse ?_ (.orElse ?_ ?_)
  · exact (token rfl).weaken.bind fun _ _ hclose => .pure (.between hfirst hclose .nil trivial)
  · refine (mappingSplat_tandem (h.next hm)).weaken.bind fun node node' hn => ?_
    exact (remaining_tandem (mappingItem_tandem (h.next hm)) "\x7d").bind
      fun _ _ hx => .pure (.between hfirst hx.close (.cons hn hx.nodes) trivial)
  · refine (splatOrNamed_tandem (h.next hm)).weaken.bind fun node node' hn => ?_
    have hitem : Tandem (Ahead σ d) (Ahead σ d) m 1 (Node.Twin σ)
        (do let _ ← op ":"; return Node.spanning .expression [node, ← p .expr])
        (do let _ ← op ":"; return Node.spanning .expression [node', ← p' .expr]) :=
      (token rfl).next fun _ hk _ _ _ => ((h.next hm).next hk).expr.weaken.bind fun _ _ hv =>
        .pure (.spanning hn (.cons hv .nil) trivial)
    refine hitem.optional.bind fun item item' hi => ?_
    cases hi with
    | none =>
      exact clausesOrRemaining_tandem (h.next hm) hfirst hn (congrArg not (isSplat_eq hn))
        (splatOrNamed_tandem (h.next hm)) "\x7d" trivial trivial
    | some hi =>
      exact clausesOrRemaining_tandem (h.next hm) hfirst hi (congrArg not (isSplat_eq hi))
        (mappingItem_tandem (h.next hm)) "\x7d" trivial trivial

/-! Strings. -/

theorem interpolation_tandem (h : Good σ p p' r n) :
    Tandem (Ahead σ d) (Ahead σ d) n 1 (Node.Twin σ) (interpolation p) (interpolation p') := by
  refine (token rfl).next fun m hm first first' hfirst => ?_
  have hg := h.next hm
  refine (((yieldExpression_tandem hg).orElse (bareTuple_tandem
    (splatOrNamed_tandem hg))).weaken).bind fun node node' hn => ?_
  refine (token? rfl).bind fun _ _ _ => (token? rfl).bind fun _ _ _ => ?_
  have hnested : Tandem (Ahead σ d) (Ahead σ d) m 1 (Node.Twins σ)
      (do let _ ← op ":"; many (p .interpolation)) (do let _ ← op ":"; many (p' .interpolation)) :=
    (token rfl).next fun k hk _ _ _ => (hg.next hk).interpolation.many fun _ _ => Ahead.length_le
  refine (orElse hnested.weaken (.pure .nil)).bind fun nested nested' hs => ?_
  exact (token rfl).weaken.bind fun _ _ hlast => .pure (.between hfirst hlast (.cons hn hs) trivial)

theorem stringPiece_tandem (h : Good σ p p' r n) :
    Tandem (Ahead σ d) (Ahead σ d) n 1 (Node.Twin σ) (stringPiece p) (stringPiece p') := by
  refine .orElse ?_ ?_
  · refine ofString.next fun m hm (flags, content, t) (flags', content', t') hx => ?_
    obtain ⟨⟨hflags, hcontent⟩, ht⟩ := hx
    obtain rfl : flags' = flags := hflags
    obtain rfl : content' = content := hcontent
    refine .pure (.between ht ht ?_ trivial)
    cases content'.isEmpty with
    | true => exact .nil
    | false => exact .cons (.leaf ht trivial) .nil
  · refine ofFormatStart.next fun m hm (flags, t) (flags', t') hx => ?_
    obtain ⟨hflags, ht⟩ := hx
    obtain rfl : flags' = flags := hflags
    have hpart : Tandem (Ahead σ d) (Ahead σ d) m 1 (Node.Twin σ) (formatPart p)
        (formatPart p') := by
      refine .orElse (ofFormatText.next fun _ _ (content, u) (content', u') hu => ?_)
        (h.next hm).interpolation
      obtain rfl : content' = content := hu.1
      exact .pure (.leaf hu.2 trivial)
    refine (hpart.many fun _ _ => Ahead.length_le).bind fun parts parts' hs => ?_
    exact (token rfl).weaken.bind fun _ _ hend => .pure (.between ht hend hs trivial)

theorem strings_tandem (h : Good σ p p' r n) :
    Tandem (Ahead σ d) (Ahead σ d) n 1 (Node.Twin σ) (strings p) (strings p') := by
  refine ((stringPiece_tandem h).many1 fun _ _ => Ahead.length_le).next
    fun m hm pieces pieces' hs => ?_
  obtain ⟨hne, hs⟩ := hs
  cases hs with
  | nil => exact absurd rfl hne
  | cons hn hs =>
    cases hs with
    | nil => exact .pure hn
    | cons hn' hs => exact .pure (.spanning hn (.cons hn' hs) trivial)

/-! Primaries. -/

theorem atom_tandem (h : Good σ p p' r n) :
    Tandem (Ahead σ d) (Ahead σ d) n 1 (Node.Twin σ) (atom p) (atom p') := by
  refine .orElse ?_ (.orElse ?_ (.orElse (strings_tandem h) (.orElse (parenthesized_tandem h)
    (.orElse (list_tandem h) (braced_tandem h)))))
  · refine ofName.next fun m hm (text, t) (text', t') hx => ?_
    obtain ⟨⟨ht, hallowed⟩, hp⟩ := hx
    obtain rfl : text' = text := ht
    exact .pure (.leaf hp hallowed)
  · exact (tokenOf (by decide)).next fun _ _ _ _ ht => .pure (.leaf ht trivial)

theorem keywordArgument_tandem (h : Good σ p p' r n) :
    Tandem (Ahead σ d) (Ahead σ d) n 1 (Node.Twin σ) (keywordArgument p) (keywordArgument p') := by
  refine ofName.next fun m hm (text, t) (text', t') hx => ?_
  obtain ⟨⟨ht, -⟩, hp⟩ := hx
  obtain rfl : text' = text := ht
  refine (token rfl).weaken.bind fun _ _ _ => (h.next hm).expr.weaken.bind fun _ _ hn => ?_
  exact .pure (.onward hp (.cons hn .nil) trivial)

theorem argument_tandem (h : Good σ p p' (r + 5) n) :
    Tandem (Ahead σ d) (Ahead σ d) n 1 (Node.Twin σ) (argument p) (argument p') :=
  (splat_tandem h).orElse ((mappingSplat_tandem h).orElse
    ((keywordArgument_tandem h).orElse h.named))

theorem isPlainArgument_eq {node node' : Node} (h : Node.Twin σ node node') :
    isPlainArgument node' = isPlainArgument node := by
  rw [isPlainArgument, isPlainArgument, h.kind_eq]

theorem callArguments_tandem (h : Good σ p p' r n) :
    Tandem (Ahead σ d) (Ahead σ d) n 1 (Node.Twin σ) (callArguments p) (callArguments p') := by
  refine (token rfl).next fun m hm first first' hfirst => .orElse ?_ ?_
  · exact (token rfl).weaken.bind fun _ _ hclose => .pure (.between hfirst hclose .nil trivial)
  · exact weaken ((argument_tandem (h.next hm)).next fun k hk _ _ hn =>
      have hg := (h.next hm).next hk
      clausesOrRemaining_tandem hg hfirst hn (isPlainArgument_eq hn) (argument_tandem hg) ")"
        trivial trivial)

theorem subscriptPart_tandem (h : Good σ p p' (r + 5) n) :
    Tandem (Ahead σ d) (Ahead σ d) n 0 (Node.Twin σ) (subscriptPart p) (subscriptPart p') := by
  refine (splat_tandem h).weaken.orElse (h.named.optional.bind fun lower lower' hlower => ?_)
  refine (token? rfl).bind fun first first' hfirst => ?_
  cases hfirst with
  | none =>
    cases hlower with
    | none => exact .failure
    | some hn => exact .pure hn
  | @some colon colon' hcolon =>
    refine h.expr.optional.bind fun upper upper' hupper => ?_
    refine (token? rfl).bind fun second second' hs => ?_
    have hend : ∀ {step step' : Option Node}, Option.Rel (Node.Twin σ) step step' →
        Node.Twin σ
          (.mk .expression ((lower.map Node.start).getD colon.start)
            ((((step.map Node.stop).or (second.map (·.stop))).or (upper.map Node.stop)).getD
              colon.stop) (lower.toList ++ upper.toList ++ step.toList))
          (.mk .expression ((lower'.map Node.start).getD colon'.start)
            ((((step'.map Node.stop).or (second'.map (·.stop))).or (upper'.map Node.stop)).getD
              colon'.stop) (lower'.toList ++ upper'.toList ++ step'.toList)) := by
      intro step step' hstep
      have hstart := rel_getD (S := fun e e' => e' = e + σ.distance)
        (rel_map hlower fun _ _ hn => hn.start_eq) hcolon.start
      have hstop := rel_getD (S := σ.Ends) (rel_or (rel_or
        (rel_map hstep fun _ _ hn => ⟨hn.stop_eq, hn.bound⟩)
        (rel_map hs fun _ _ ht => ⟨ht.stop, ht.bound⟩))
        (rel_map hupper fun _ _ hn => ⟨hn.stop_eq, hn.bound⟩)) ⟨hcolon.stop, hcolon.bound⟩
      exact .of_children hstart hstop.1 hstop.2
        (List.rel_append (List.rel_append (rel_toList hlower) (rel_toList hupper))
          (rel_toList hstep)) trivial
    cases hs with
    | none => exact Tandem.bind (.pure .none) fun _ _ hstep => .pure (hend hstep)
    | some hs => exact h.expr.optional.bind fun _ _ hstep => .pure (hend hstep)

theorem trailer_tandem (h : Good σ p p' r n) {base base' : Node} (hb : Node.Twin σ base base') :
    Tandem (Ahead σ d) (Ahead σ d) n 1 (Node.Twin σ) (trailer p base) (trailer p' base') := by
  refine .orElse ?_ (.orElse ?_ ?_)
  · refine (token rfl).next fun m hm _ _ _ => ofName.weaken.bind fun (text, t) (text', t') hx => ?_
    obtain rfl : text' = text := hx.1.1
    exact .pure (.of_children hb.start_eq hx.2.stop hx.2.bound (.cons hb .nil) trivial)
  · exact (callArguments_tandem h).next fun _ _ _ _ hn =>
      .pure (.spanning hb (.cons hn .nil) trivial)
  · refine (token rfl).next fun m hm _ _ _ => ?_
    refine (subscriptPart_tandem (h.next hm)).commaList.bind fun _ _ hs => ?_
    refine (token rfl).weaken.bind fun _ _ hclose => ?_
    exact .pure (.of_children hb.start_eq hclose.stop hclose.bound (.cons hb hs.several.each)
      trivial)

theorem trailers_tandem (h : Good σ p p' r n) {base base' : Node} (hb : Node.Twin σ base base')
    {budget budget' : List Token} {ts ts' : List Token} (hd : Ahead σ d ts ts')
    (hl : ts.length ≤ n) (hbudget : ts.length ≤ budget.length)
    (hbudget' : ts.length ≤ budget'.length) :
    Outcome (Ahead σ d) ts.length 0 (Node.Twin σ) (trailers p budget base ts)
      (trailers p' budget' base' ts') := by
  induction budget generalizing base base' budget' ts ts' with
  | nil => exact absurd (List.eq_nil_of_length_eq_zero (Nat.le_zero.1 hbudget)) hd.ne_nil
  | cons b budget ih =>
    cases budget' with
    | nil => exact absurd (List.eq_nil_of_length_eq_zero (Nat.le_zero.1 hbudget')) hd.ne_nil
    | cons b' budget' =>
      simp only [trailers, bind_apply, Parse.optional]
      obtain ⟨ho, ho'⟩ | ⟨v, v', us, us', ho, ho', hs, he, hlen⟩ :=
        (trailer_tandem h hb hd hl).cases
      · simp only [ho, ho', Option.bind_some]
        exact .both hb hd (Nat.le_refl _)
      · simp only [ho, ho', Option.bind_some]
        simp only [List.length_cons] at hbudget hbudget'
        exact (ih hs he (by omega) (by omega) (by omega)).grow (by omega)

theorem primary_tandem (h : Good σ p p' r n) :
    Tandem (Ahead σ d) (Ahead σ d) n 1 (Node.Twin σ) (primary p) (primary p') :=
  (atom_tandem h).next fun _ hm _ _ hb _ _ hd hl =>
    trailers_tandem (h.next hm) hb hd hl (Nat.le_refl _) hd.length_le

/-! Operators. -/

theorem operand_tandem (h : Good σ p p' r n) :
    Tandem (Ahead σ d) (Ahead σ d) n 1 (Node.Twin σ) (operand p) (operand p') := by
  refine .orElse ?_ (.orElse ?_ (primary_tandem h))
  · exact (tokenOf (by decide)).next fun _ hm _ _ ht => (h.next hm).operand.weaken.bind
      fun _ _ hn => .pure (.onward ht (.cons hn .nil) trivial)
  · exact (token rfl).next fun _ hm _ _ ht => (h.next hm).primary.weaken.bind
      fun _ _ hn => .pure (.onward ht (.cons hn .nil) trivial)

theorem binaryOperator_tandem :
    Tandem (Ahead σ d) (Ahead σ d) n 1 (fun _ _ => True) binaryOperator binaryOperator := by
  refine .orElse ?_ (.orElse ?_ ?_)
  · exact (tokenOf (by decide)).next fun _ _ _ _ _ => .pure trivial
  · exact (token rfl).next fun _ _ _ _ _ => (token? rfl).bind fun _ _ _ => .pure trivial
  · exact (token rfl).next fun _ _ _ _ _ => (token rfl).weaken.bind fun _ _ _ => .pure trivial

theorem negation_tandem (h : Good σ p p' (r + 1) n) :
    Tandem (Ahead σ d) (Ahead σ d) n 1 (Node.Twin σ) (negation p) (negation p') := by
  refine .orElse ?_ ?_
  · exact (token rfl).next fun _ hm _ _ ht => (h.next hm).negation.weaken.bind
      fun _ _ hn => .pure (.onward ht (.cons hn .nil) trivial)
  · refine h.operand.next fun m hm first first' hfirst => ?_
    have hmore : Tandem (Ahead σ d) (Ahead σ d) m 1 (Node.Twin σ)
        (do binaryOperator; p .operand) (do binaryOperator; p' .operand) :=
      binaryOperator_tandem.next fun _ hk _ _ _ => ((h.next hm).next hk).operand.weaken
    exact (hmore.many fun _ _ => Ahead.length_le).bind fun _ _ hs => .pure (.chain hfirst hs)

theorem operators_tandem (h : Good σ p p' (r + 2) n) :
    Tandem (Ahead σ d) (Ahead σ d) n 1 (Node.Twin σ) (operators p) (operators p') := by
  refine h.negation.next fun m hm first first' hfirst => ?_
  have hmore : Tandem (Ahead σ d) (Ahead σ d) m 1 (Node.Twin σ)
      (do let _ ← oneOf [.keyword "and", .keyword "or"]; p .negation)
      (do let _ ← oneOf [.keyword "and", .keyword "or"]; p' .negation) :=
    (tokenOf (by decide)).next fun _ hk _ _ _ => ((h.next hm).next hk).negation.weaken
  exact (hmore.many fun _ _ => Ahead.length_le).bind fun _ _ hs => .pure (.chain hfirst hs)

theorem lambda_tandem (h : Good σ p p' r n) :
    Tandem (Ahead σ d) (Ahead σ d) n 1 (Node.Twin σ) (lambda p) (lambda p') := by
  refine (token rfl).next fun m hm t t' ht => ?_
  refine (parameters_tandem (h.next hm) false).bind fun params params' hs => ?_
  refine (token rfl).weaken.bind fun _ _ _ => (h.next hm).expr.weaken.bind fun _ _ hn => ?_
  exact .pure (.onward ht (List.rel_append hs (.cons hn .nil)) trivial)

theorem expression_tandem (h : Good σ p p' (r + 3) n) :
    Tandem (Ahead σ d) (Ahead σ d) n 1 (Node.Twin σ) (expression p) (expression p') := by
  refine (lambda_tandem h).orElse (h.operators.next fun m hm node node' hn => .orElse ?_ (.pure hn))
  refine weaken ((token rfl).next fun k hk _ _ _ => ?_)
  have hg := (h.next hm).next hk
  refine hg.operators.weaken.bind fun _ _ hcondition => (token rfl).weaken.bind fun _ _ _ => ?_
  exact hg.expr.weaken.bind fun _ _ hother =>
    .pure (.spanning hn (.cons hcondition (.cons hother .nil)) trivial)

theorem isIdentifier_eq {node node' : Node} (h : Node.Twin σ node node') :
    isIdentifier node' = isIdentifier node := by
  rw [isIdentifier, isIdentifier, h.kind_eq]

theorem named_tandem (h : Good σ p p' (r + 4) n) :
    Tandem (Ahead σ d) (Ahead σ d) n 1 (Node.Twin σ) (named p) (named p') := by
  refine h.expr.next fun m hm node node' hn => .orElse ?_ (.pure hn)
  refine (guarded (by rw [isIdentifier_eq hn])).bind fun _ _ _ => (token rfl).weaken.bind
    fun _ _ _ => ?_
  exact (h.next hm).expr.weaken.bind fun _ _ hv => .pure (.spanning hn (.cons hv .nil) trivial)

/-! Patterns, of which nothing is kept. -/

theorem patternParts_tandem {q q' : Parse Unit} {c : Nat}
    (hq : Tandem (Ahead σ d) (Ahead σ d) n c (fun _ _ => True) q q') (close : String) :
    Tandem (Ahead σ d) (Ahead σ d) n 1 (Token.Placed σ) (patternParts q close)
      (patternParts q' close) :=
  hq.commaList.optional.bind fun _ _ _ => token rfl

theorem numberPattern_tandem :
    Tandem (Ahead σ d) (Ahead σ d) n 1 (fun _ _ => True) numberPattern numberPattern := by
  refine (token? rfl).bind fun _ _ _ => (token rfl).next fun m hm _ _ _ => ?_
  have himaginary : Tandem (Ahead σ d) (Ahead σ d) m 1 (Token.Placed σ)
      (do let _ ← oneOf [.op "+", .op "-"]; accept .number)
      (do let _ ← oneOf [.op "+", .op "-"]; accept .number) :=
    (tokenOf (by decide)).next fun _ _ _ _ _ => (token rfl).weaken
  exact himaginary.optional.bind fun _ _ _ => .pure trivial

theorem dottedName_tandem :
    Tandem (Ahead σ d) (Ahead σ d) n 1 (fun _ _ => True) dottedName dottedName := by
  refine ofName.next fun m hm _ _ _ => ?_
  have hpart : Tandem (Ahead σ d) (Ahead σ d) m 1 (fun _ _ => True)
      (do let _ ← op "."; name) (do let _ ← op "."; name) :=
    (token rfl).next fun _ _ _ _ _ => ofName.mono (Nat.le_refl _) (Nat.zero_le _)
      fun _ _ _ => trivial
  exact (hpart.many fun _ _ => Ahead.length_le).bind fun _ _ _ => .pure trivial

theorem asName_tandem :
    Tandem (Ahead σ d) (Ahead σ d) n 1 (fun _ _ => True) (do let _ ← keyword "as"; name)
      (do let _ ← keyword "as"; name) :=
  (token rfl).next fun _ _ _ _ _ => ofName.mono (Nat.le_refl _) (Nat.zero_le _)
    fun _ _ _ => trivial

theorem starPattern_tandem :
    Tandem (Ahead σ d) (Ahead σ d) n 1 (fun _ _ => True) starPattern starPattern :=
  (token rfl).next fun _ _ _ _ _ => ofName.weaken.bind fun _ _ _ => .pure trivial

theorem subpattern_tandem (h : Good σ p p' (r + 1) n) :
    Tandem (Ahead σ d) (Ahead σ d) n 1 (fun _ _ => True) (subpattern p) (subpattern p') :=
  h.pattern.next fun _ _ _ _ _ => .pure trivial

theorem subpatternOrStar_tandem (h : Good σ p p' (r + 1) n) :
    Tandem (Ahead σ d) (Ahead σ d) n 1 (fun _ _ => True) (subpatternOrStar p)
      (subpatternOrStar p') :=
  starPattern_tandem.orElse (subpattern_tandem h)

theorem keywordPattern_tandem (h : Good σ p p' (r + 1) n) :
    Tandem (Ahead σ d) (Ahead σ d) n 1 (fun _ _ => True) (keywordPattern p)
      (keywordPattern p') := by
  refine .orElse ?_ (subpattern_tandem h)
  exact ofName.next fun _ hm _ _ _ => (token rfl).weaken.bind fun _ _ _ =>
    (subpattern_tandem (h.next hm)).weaken

theorem literalPattern_tandem (h : Good σ p p' r n) :
    Tandem (Ahead σ d) (Ahead σ d) n 1 (fun _ _ => True) (literalPattern p)
      (literalPattern p') := by
  refine numberPattern_tandem.orElse (.orElse ?_ ?_)
  · exact (strings_tandem h).next fun _ _ _ _ _ => .pure trivial
  · exact (tokenOf (by decide)).next fun _ _ _ _ _ => .pure trivial

theorem mappingPattern_tandem (h : Good σ p p' r n) :
    Tandem (Ahead σ d) (Ahead σ d) n 1 (fun _ _ => True) (mappingPattern p)
      (mappingPattern p') := by
  refine .orElse ?_ ?_
  · exact (token rfl).next fun _ _ _ _ _ => ofName.weaken.bind fun _ _ _ => .pure trivial
  · exact ((literalPattern_tandem h).orElse dottedName_tandem).next fun _ hm _ _ _ =>
      (token rfl).weaken.bind fun _ _ _ => (subpattern_tandem (h.next hm)).weaken

theorem closedPattern_tandem (h : Good σ p p' r n) :
    Tandem (Ahead σ d) (Ahead σ d) n 1 (fun _ _ => True) (closedPattern p) (closedPattern p') := by
  refine (literalPattern_tandem h).orElse (.orElse ?_ (.orElse ?_ (.orElse ?_ ?_)))
  · refine dottedName_tandem.next fun m hm _ _ _ => ?_
    have harguments : Tandem (Ahead σ d) (Ahead σ d) m 1 (Token.Placed σ)
        (do let _ ← op "("; patternParts (keywordPattern p) ")")
        (do let _ ← op "("; patternParts (keywordPattern p') ")") :=
      (token rfl).next fun _ hk _ _ _ =>
        (patternParts_tandem (keywordPattern_tandem ((h.next hm).next hk)) ")").weaken
    exact harguments.optional.bind fun _ _ _ => .pure trivial
  · exact (token rfl).next fun _ hm _ _ _ =>
      (patternParts_tandem (subpatternOrStar_tandem (h.next hm)) ")").weaken.bind
        fun _ _ _ => .pure trivial
  · exact (token rfl).next fun _ hm _ _ _ =>
      (patternParts_tandem (subpatternOrStar_tandem (h.next hm)) "]").weaken.bind
        fun _ _ _ => .pure trivial
  · exact (token rfl).next fun _ hm _ _ _ =>
      (patternParts_tandem (mappingPattern_tandem (h.next hm)) "\x7d").weaken.bind
        fun _ _ _ => .pure trivial

theorem pattern_tandem (h : Good σ p p' r n) :
    Tandem (Ahead σ d) (Ahead σ d) n 1 (fun _ _ => True) (pattern p) (pattern p') := by
  refine (closedPattern_tandem h).next fun m hm _ _ _ => ?_
  have hmore : Tandem (Ahead σ d) (Ahead σ d) m 1 (fun _ _ => True)
      (do let _ ← op "|"; closedPattern p) (do let _ ← op "|"; closedPattern p') :=
    (token rfl).next fun _ hk _ _ _ => (closedPattern_tandem ((h.next hm).next hk)).weaken
  refine (hmore.many fun _ _ => Ahead.length_le).bind fun _ _ _ => ?_
  exact asName_tandem.optional.bind fun _ _ _ => .pure trivial

theorem casePatterns_tandem (h : Good σ p p' (r + 1) n) :
    Tandem (Ahead σ d) (Ahead σ d) n 1 (fun _ _ => True) (casePatterns p) (casePatterns p') :=
  (subpatternOrStar_tandem h).commaList.next fun _ _ _ _ _ => .pure trivial

end Grammar

end AgentWorkbench.Python
