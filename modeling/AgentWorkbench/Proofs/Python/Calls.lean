import AgentWorkbench.Proofs.Python.File
import Mathlib.Data.Option.Basic

/-!
Reading an expression where one ends. The tokens of a primary are read as an expression, if none
behind them goes on with it; so are calls, lists, and the statements over one expression.
-/
namespace AgentWorkbench.Python.Grammar

open Parse

/-! Reading one after the other. -/

/-- A reader reads these things one after the other, and nothing more behind them. -/
inductive Chain {α : Type} (p : Parse α) : List Token → List α → List Token → Prop
  | done {ts : List Token} : p ts = none → Chain p ts [] ts
  | more {ts us rest : List Token} {a : α} {as : List α} : p ts = some (a, us) →
    us.length < ts.length → Chain p us as rest → Chain p ts (a :: as) rest

section Chains

variable {α : Type} {p : Parse α} {ts rest : List Token} {as : List α}

theorem Chain.manyWithin (h : Chain p ts as rest) {budget : List Token}
    (enough : ts.length ≤ budget.length) : manyWithin p budget ts = some (as, rest) := by
  induction h generalizing budget with
  | @done ts stops =>
      cases budget with
      | nil => rfl
      | cons b budget => simp only [Parse.manyWithin, stops]
  | more reads shorter _ ih =>
      cases budget with
      | nil => exact absurd (Nat.lt_of_lt_of_le shorter enough) (Nat.not_lt_zero _)
      | cons b budget =>
          rw [List.length_cons] at enough
          simp only [Parse.manyWithin, reads, ih (show _ ≤ budget.length by omega), Option.map_some]

theorem Chain.many (h : Chain p ts as rest) : many p ts = some (as, rest) :=
  h.manyWithin (Nat.le_refl _)

theorem Chain.many1 {a : α} (h : Chain p ts (a :: as) rest) :
    many1 p ts = some (a :: as, rest) := by
  cases h with
  | more reads _ later =>
      simp only [Parse.many1, bind_apply, pure_apply, reads, later.many, Option.bind_some]

end Chains

/-! From a primary to an expression. -/

section Expressions

variable {p : Goal → Parse Node} {ts rest : List Token} {node : Node}

/-- The kinds of tokens that end an expression: inside brackets, before its value is given to it,
or at the end of a line. -/
def closers : List TokenKind := [.op ",", .op ")", .op "]", .op "=", .newline]

/-- The kinds of tokens with which no primary starts. -/
def signs : List TokenKind :=
  [.op "+", .op "-", .op "~", .op "*", .op "**", .op ")", .op "]", .keyword "await",
    .keyword "not", .keyword "lambda", .keyword "yield"]

/-- Some tokens of which the first one ends an expression. -/
def Closes (ts : List Token) : Prop := ∃ t rest, ts = t :: rest ∧ t.kind ∈ closers

/-- Some tokens of which the first one may start a primary. -/
def Starts (ts : List Token) : Prop := ∃ t rest, ts = t :: rest ∧ t.kind ∉ signs

theorem closes_cons {kind : TokenKind} (h : kind ∈ closers) (s e : Nat) (rest : List Token) :
    Closes (⟨kind, s, e⟩ :: rest) :=
  ⟨_, rest, rfl, h⟩

theorem starts_cons {kind : TokenKind} (h : kind ∉ signs) (s e : Nat) (rest : List Token) :
    Starts (⟨kind, s, e⟩ :: rest) :=
  ⟨_, rest, rfl, h⟩

theorem Closes.accept (h : Closes ts) {kind : TokenKind} (other : kind ∉ closers) :
    accept kind ts = none := by
  obtain ⟨t, rest, rfl, mem⟩ := h
  exact if_neg fun same : t.kind = kind => other (same ▸ mem)

theorem Closes.oneOf (h : Closes ts) {kinds : List TokenKind}
    (others : ∀ kind ∈ closers, kinds.contains kind = false) : oneOf kinds ts = none := by
  obtain ⟨t, rest, rfl, mem⟩ := h
  simp only [Parse.oneOf, others t.kind mem, Bool.false_eq_true, if_false]

theorem Starts.accept (h : Starts ts) {kind : TokenKind} (mem : kind ∈ signs) :
    accept kind ts = none := by
  obtain ⟨t, rest, rfl, other⟩ := h
  exact if_neg fun same : t.kind = kind => other (same ▸ mem)

theorem Starts.oneOf (h : Starts ts) {kinds : List TokenKind} (all : ∀ kind ∈ kinds, kind ∈ signs) :
    oneOf kinds ts = none := by
  obtain ⟨t, rest, rfl, other⟩ := h
  have absent : kinds.contains t.kind = false := by
    simpa using fun mem => other (all t.kind mem)
  simp only [Parse.oneOf, absent, Bool.false_eq_true, if_false]

theorem many_of_none {α : Type} {q : Parse α} (h : q rest = none) :
    many q rest = some ([], rest) :=
  (Chain.done h).many

theorem operand_of_primary (start : Starts ts) (h : primary p ts = some (node, rest)) :
    operand p ts = some (node, rest) := by
  have unsigned : oneOf [.op "+", .op "-", .op "~"] ts = none := start.oneOf (by decide)
  have unawaited : keyword "await" ts = none := start.accept (by decide)
  simp only [operand, orElse_apply, bind_apply, unsigned, unawaited, Option.bind_none,
    Option.none_or, h]

theorem negation_of_operand (unnegated : keyword "not" ts = none) (closes : Closes rest)
    (h : p .operand ts = some (node, rest)) : negation p ts = some (node, rest) := by
  have alone : binaryOperator rest = none := by
    have first : oneOf binaryOperators rest = none := closes.oneOf (by decide)
    have second : keyword "is" rest = none := closes.accept (by decide)
    have third : keyword "not" rest = none := closes.accept (by decide)
    simp only [binaryOperator, orElse_apply, bind_apply, first, second, third, Option.bind_none,
      Option.none_or]
  have ends : many (do binaryOperator; p .operand) rest = some ([], rest) :=
    many_of_none (by rw [bind_apply, alone, Option.bind_none])
  simp only [negation, orElse_apply, bind_apply, unnegated, Option.bind_none, Option.none_or, h,
    Option.bind_some]
  change (many (do binaryOperator; p .operand) rest).bind _ = _
  rw [ends]
  rfl

theorem operators_of_negation (closes : Closes rest) (h : p .negation ts = some (node, rest)) :
    Grammar.operators p ts = some (node, rest) := by
  have alone : oneOf [.keyword "and", .keyword "or"] rest = none := closes.oneOf (by decide)
  have ends : many (do let _ ← oneOf [.keyword "and", .keyword "or"]; p .negation) rest =
      some ([], rest) :=
    many_of_none (by rw [bind_apply, alone, Option.bind_none])
  rw [Grammar.operators, bind_apply, h, Option.bind_some, bind_apply, ends]
  rfl

theorem expression_of_operators (unbound : keyword "lambda" ts = none) (closes : Closes rest)
    (h : p .operators ts = some (node, rest)) : expression p ts = some (node, rest) := by
  have unconditional : keyword "if" rest = none := closes.accept (by decide)
  simp only [expression, lambda, orElse_apply, bind_apply, unbound, Option.bind_none,
    Option.none_or, h, Option.bind_some, unconditional, pure_apply]

/-- A primary is read as an expression where one ends. -/
theorem read_expr {fuel : Nat} (start : Starts ts) (closes : Closes rest)
    (h : primary (read fuel) ts = some (node, rest)) :
    read (fuel + 4) .expr ts = some (node, rest) :=
  expression_of_operators (start.accept (by decide)) closes (operators_of_negation closes
    (negation_of_operand (start.accept (by decide)) closes (operand_of_primary start h)))

/-- So is one behind a sign. -/
theorem read_expr_signed {fuel : Nat} {sign : String} (isSign : sign = "+" ∨ sign = "-")
    (start : Starts ts) (closes : Closes rest) (h : primary (read fuel) ts = some (node, rest))
    (s e : Nat) : read (fuel + 5) .expr (⟨.op sign, s, e⟩ :: ts) =
      some (.onward ⟨.op sign, s, e⟩ .expression [node], rest) := by
  have signed : oneOf [.op "+", .op "-", .op "~"] (⟨.op sign, s, e⟩ :: ts) =
      some (⟨.op sign, s, e⟩, ts) := by
    obtain rfl | rfl := isSign <;> rfl
  have operand_eq : operand (read (fuel + 1)) (⟨.op sign, s, e⟩ :: ts) =
      some (.onward ⟨.op sign, s, e⟩ .expression [node], rest) := by
    have inner : read (fuel + 1) .operand ts = some (node, rest) := operand_of_primary start h
    simp only [operand, orElse_apply, bind_apply, pure_apply, signed, inner, Option.bind_some,
      Option.some_or]
  exact expression_of_operators rfl closes (operators_of_negation closes
    (negation_of_operand rfl closes operand_eq))

theorem read_named {fuel : Nat} (start : Starts ts) (closes : Closes rest)
    (h : primary (read fuel) ts = some (node, rest)) :
    read (fuel + 5) .named ts = some (node, rest) := by
  have unnamed : op ":=" rest = none := closes.accept (by decide)
  change named (read (fuel + 4)) ts = _
  simp only [named, orElse_apply, bind_apply, read_expr start closes h, Option.bind_some]
  cases isIdentifier node
  · rfl
  · simp only [guard, if_true, pure_apply, Option.bind_some, unnamed, Option.bind_none,
      Option.none_or]

end Expressions

/-! Primaries. -/

section Primaries

variable {p : Goal → Parse Node} {ts rest : List Token} {node : Node}

theorem trailer_closes (closes : Closes rest) (base : Node) : trailer p base rest = none := by
  have dot : op "." rest = none := closes.accept (by decide)
  have call : op "(" rest = none := closes.accept (by decide)
  have item : op "[" rest = none := closes.accept (by decide)
  simp only [trailer, callArguments, orElse_apply, bind_apply, dot, call, item, Option.bind_none,
    Option.none_or]

theorem trailers_closes (closes : Closes rest) (budget : List Token) (base : Node) :
    trailers p budget base rest = some (base, rest) := by
  cases budget with
  | nil => rfl
  | cons b budget =>
      simp only [trailers, Parse.optional, bind_apply, trailer_closes closes, Option.bind_some,
        pure_apply]

theorem trailers_step {base : Node} (h : trailer p base ts = some (node, rest)) (b : Token)
    (budget : List Token) : trailers p (b :: budget) base ts = trailers p budget node rest := by
  simp only [trailers, Parse.optional, bind_apply, h, Option.bind_some]

theorem splatOrNamed_eq (start : Starts ts) : splatOrNamed p ts = p .named ts := by
  have unstarred : op "*" ts = none := start.accept (by decide)
  simp only [splatOrNamed, splat, orElse_apply, bind_apply, unstarred, Option.bind_none,
    Option.none_or]

theorem splatOrExpr_eq (start : Starts ts) : splatOrExpr p ts = p .expr ts := by
  have unstarred : op "*" ts = none := start.accept (by decide)
  simp only [splatOrExpr, splat, orElse_apply, bind_apply, unstarred, Option.bind_none,
    Option.none_or]

variable {s e s₀ e₀ : Nat}

/-- A call with one argument. -/
theorem callArguments_one (start : Starts ts)
    (h : argument p ts = some (node, ⟨.op ")", s, e⟩ :: rest)) :
    callArguments p (⟨.op "(", s₀, e₀⟩ :: ts) = some (.mk .arguments s₀ e [node], rest) := by
  let close : Token := ⟨.op ")", s, e⟩
  have opened : op "(" (⟨.op "(", s₀, e₀⟩ :: ts) = some (⟨.op "(", s₀, e₀⟩, ts) := rfl
  have some_argument : op ")" ts = none := start.accept (by decide)
  have no_clauses : comprehensionClauses p (close :: rest) = none := rfl
  have alone : remaining (argument p) ")" (close :: rest) = some (([], false, close), rest) := rfl
  simp only [callArguments, bind_apply, orElse_apply, opened, Option.bind_some, some_argument,
    Option.bind_none, Option.none_or, h]
  have refused : (guard (false = true) : Parse Unit) (close :: rest) = none := rfl
  have allowed : (guard (true = true) : Parse Unit) (close :: rest) = some ((), close :: rest) := rfl
  cases isPlainArgument node <;>
    simp only [refused, allowed, close, no_clauses, alone, Option.bind_some, Option.bind_none,
      Option.none_or] <;>
    rfl

/-- A list of one item. -/
theorem list_one (start : Starts ts) (h : p .named ts = some (node, ⟨.op "]", s, e⟩ :: rest))
    (item : isSplat node = false) :
    list p (⟨.op "[", s₀, e₀⟩ :: ts) = some (.mk .list s₀ e [node], rest) := by
  let close : Token := ⟨.op "]", s, e⟩
  have opened : op "[" (⟨.op "[", s₀, e₀⟩ :: ts) = some (⟨.op "[", s₀, e₀⟩, ts) := rfl
  have some_item : op "]" ts = none := start.accept (by decide)
  have no_clauses : comprehensionClauses p (close :: rest) = none := rfl
  have alone : remaining (splatOrNamed p) "]" (close :: rest) = some (([], false, close), rest) :=
    rfl
  simp only [list, bind_apply, orElse_apply, opened, Option.bind_some, some_item,
    Option.bind_none, Option.none_or, splatOrNamed_eq start, h, item, guard, Bool.not_false,
    if_true, pure_apply, close, no_clauses, alone]
  rfl

theorem argument_keyword (name : String) (h : p .expr ts = some (node, rest)) :
    argument p (⟨.name name, s, e⟩ :: ⟨.op "=", s₀, e₀⟩ :: ts) =
      some (.onward ⟨.name name, s, e⟩ (.keywordArgument name) [node], rest) := by
  have unstarred : splat p (⟨.name name, s, e⟩ :: ⟨.op "=", s₀, e₀⟩ :: ts) = none := rfl
  have unstarred' : mappingSplat p (⟨.name name, s, e⟩ :: ⟨.op "=", s₀, e₀⟩ :: ts) = none := rfl
  simp only [argument, orElse_apply, unstarred, unstarred', Option.none_or]
  change ((p .expr ts).bind _).or _ = _
  rw [h]
  rfl

theorem argument_list (h : p .named (⟨.op "[", s, e⟩ :: ts) = some (node, rest)) :
    argument p (⟨.op "[", s, e⟩ :: ts) = some (node, rest) := by
  have unstarred : splat p (⟨.op "[", s, e⟩ :: ts) = none := rfl
  have unstarred' : mappingSplat p (⟨.op "[", s, e⟩ :: ts) = none := rfl
  have unnamed : keywordArgument p (⟨.op "[", s, e⟩ :: ts) = none := rfl
  simp only [argument, orElse_apply, unstarred, unstarred', unnamed, Option.none_or, h]

/-- A call of a name. -/
theorem primary_call (name : String) (closes : Closes rest)
    (h : callArguments p (⟨.op "(", s₀, e₀⟩ :: ts) = some (node, rest)) :
    primary p (⟨.name name, s, e⟩ :: ⟨.op "(", s₀, e₀⟩ :: ts) =
      some (.spanning .call [.mk (.identifier name) s e [], node], rest) := by
  let base := Node.mk (.identifier name) s e []
  have called : trailer p base (⟨.op "(", s₀, e₀⟩ :: ts) =
      some (.spanning .call [base, node], rest) := by
    have undotted : op "." (⟨.op "(", s₀, e₀⟩ :: ts) = none := rfl
    simp only [trailer, orElse_apply, bind_apply, undotted, Option.bind_none, Option.none_or, h]
    rfl
  change trailers p (⟨.op "(", s₀, e₀⟩ :: ts) base (⟨.op "(", s₀, e₀⟩ :: ts) = _
  rw [trailers_step called, trailers_closes closes]

theorem primary_name (name : String) (closes : Closes rest) :
    primary p (⟨.name name, s, e⟩ :: rest) = some (.mk (.identifier name) s e [], rest) :=
  trailers_closes closes rest _

/-- A call of a method of a name. -/
theorem primary_method (object method : String) {s₁ e₁ s₂ e₂ : Nat} (closes : Closes rest)
    (h : callArguments p (⟨.op "(", s₀, e₀⟩ :: ts) = some (node, rest)) :
    primary p (⟨.name object, s, e⟩ :: ⟨.op ".", s₁, e₁⟩ :: ⟨.name method, s₂, e₂⟩ ::
        ⟨.op "(", s₀, e₀⟩ :: ts) =
      some (.spanning .call [.mk (.attribute method) s e₂ [.mk (.identifier object) s e []], node],
        rest) := by
  let base := Node.mk (.attribute method) s e₂ [.mk (.identifier object) s e []]
  have called : trailer p base (⟨.op "(", s₀, e₀⟩ :: ts) =
      some (.spanning .call [base, node], rest) := by
    have undotted : op "." (⟨.op "(", s₀, e₀⟩ :: ts) = none := rfl
    simp only [trailer, orElse_apply, bind_apply, undotted, Option.bind_none, Option.none_or, h]
    rfl
  change trailers p (⟨.name method, s₂, e₂⟩ :: ⟨.op "(", s₀, e₀⟩ :: ts) base
    (⟨.op "(", s₀, e₀⟩ :: ts) = _
  rw [trailers_step called, trailers_closes closes]

theorem primary_list (closes : Closes rest)
    (h : list p (⟨.op "[", s, e⟩ :: ts) = some (node, rest)) :
    primary p (⟨.op "[", s, e⟩ :: ts) = some (node, rest) := by
  have unnamed : name (⟨.op "[", s, e⟩ :: ts) = none := rfl
  have other : oneOf [.number, .keyword "True", .keyword "False", .keyword "None", .op "..."]
      (⟨.op "[", s, e⟩ :: ts) = none := rfl
  have unquoted : strings p (⟨.op "[", s, e⟩ :: ts) = none := rfl
  have ungrouped : parenthesized p (⟨.op "[", s, e⟩ :: ts) = none := rfl
  have base : atom p (⟨.op "[", s, e⟩ :: ts) = some (node, rest) := by
    simp only [atom, orElse_apply, bind_apply, unnamed, other, unquoted, ungrouped, h,
      Option.bind_none, Option.none_or, Option.some_or]
  rw [primary, bind_apply, base, Option.bind_some]
  exact trailers_closes closes rest node

/-- The kinds of tokens with which a string starts. -/
def IsLiteral : TokenKind → Prop
  | .string _ _ | .formatStart _ => True
  | _ => False

theorem primary_strings {t : Token} (literal : IsLiteral t.kind) (closes : Closes rest)
    (h : strings p (t :: ts) = some (node, rest)) : primary p (t :: ts) = some (node, rest) := by
  obtain ⟨kind, s, e⟩ := t
  have others : name (⟨kind, s, e⟩ :: ts) = none ∧
      oneOf [.number, .keyword "True", .keyword "False", .keyword "None", .op "..."]
        (⟨kind, s, e⟩ :: ts) = none := by
    cases kind <;> first | exact ⟨rfl, rfl⟩ | exact literal.elim
  have base : atom p (⟨kind, s, e⟩ :: ts) = some (node, rest) := by
    simp only [atom, orElse_apply, bind_apply, others.1, others.2, h, Option.bind_none,
      Option.none_or, Option.some_or]
  rw [primary, bind_apply, base, Option.bind_some]
  exact trailers_closes closes rest node

end Primaries

/-! Statements. -/

section Statements

variable {p : Goal → Parse Node} {ts rest : List Token} {node : Node}

theorem accept?_of_none {kind : TokenKind} (h : accept kind ts = none) :
    accept? kind ts = some (none, ts) := by
  rw [accept?, h]

theorem commaList_one {q : Parse Node} (h : q ts = some (node, rest)) (alone : op "," rest = none) :
    commaList q ts = some (([node], none), rest) := by
  have ends : many (do let _ ← op ","; q) rest = some ([], rest) :=
    many_of_none (by rw [bind_apply, alone, Option.bind_none])
  simp only [commaList, bind_apply, h, Option.bind_some]
  change (many (do let _ ← op ","; q) rest).bind _ = _
  rw [ends]
  change (accept? (.op ",") rest).bind _ = _
  rw [accept?_of_none alone]
  rfl

theorem commaList_splatOrExpr (start : Starts ts) (alone : op "," rest = none)
    (h : p .expr ts = some (node, rest)) :
    commaList (splatOrExpr p) ts = some (([node], none), rest) :=
  commaList_one ((splatOrExpr_eq start).trans h) alone

theorem expressions_one (start : Starts ts) (alone : op "," rest = none)
    (h : p .expr ts = some (node, rest)) : expressions p ts = some (node, rest) := by
  rw [expressions, bind_apply, commaList_splatOrExpr start alone h]
  rfl

theorem yieldExpression_none (start : Starts ts) : yieldExpression p ts = none := by
  rw [yieldExpression, bind_apply, keyword, start.accept (by decide), Option.bind_none]

theorem expressionStatement_call (start : Starts ts) {s e : Nat}
    (h : p .expr ts = some (node, ⟨.newline, s, e⟩ :: rest)) (call : node.kind = .call) :
    expressionStatement p ts =
      some (.spanning .expressionStatement [node], ⟨.newline, s, e⟩ :: rest) := by
  obtain ⟨kind, s', e', children⟩ := node
  obtain rfl : kind = .call := call
  have first := commaList_splatOrExpr start rfl h
  simp only [expressionStatement, orElse_apply, bind_apply, yieldExpression_none start,
    Option.bind_none, Option.none_or, first, Option.bind_some]
  rfl

theorem expressionStatement_value (start : Starts ts) {s e s₀ e₀ s₁ e₁ : Nat} {name : String}
    (target : p .expr (⟨.name name, s₀, e₀⟩ :: ⟨.op "=", s₁, e₁⟩ :: ts) =
      some (.mk (.identifier name) s₀ e₀ [], ⟨.op "=", s₁, e₁⟩ :: ts))
    (h : p .expr ts = some (node, ⟨.newline, s, e⟩ :: rest)) :
    expressionStatement p (⟨.name name, s₀, e₀⟩ :: ⟨.op "=", s₁, e₁⟩ :: ts) =
      some (.spanning .expressionStatement [.spanning (.assignment false)
        [.mk (.identifier name) s₀ e₀ [], node]], ⟨.newline, s, e⟩ :: rest) := by
  have opens : Starts (⟨.name name, s₀, e₀⟩ :: ⟨.op "=", s₁, e₁⟩ :: ts) :=
    starts_cons (by simp [signs]) ..
  have first := commaList_splatOrExpr opens rfl target
  have right : value p ts = some (node, ⟨.newline, s, e⟩ :: rest) := by
    rw [value, orElse_apply, yieldExpression_none start, Option.none_or]
    exact expressions_one start rfl h
  let sign : Token := ⟨.op "=", s₁, e₁⟩
  have chain : assignmentChain p (sign :: ts) (.mk (.identifier name) s₀ e₀ []) (sign :: ts) =
      some (.spanning (.assignment false) [.mk (.identifier name) s₀ e₀ [], node],
        ⟨.newline, s, e⟩ :: rest) := by
    simp only [assignmentChain, bind_apply]
    change (value p ts).bind _ = _
    rw [right]
    rfl
  simp only [expressionStatement, orElse_apply, bind_apply, yieldExpression_none opens,
    Option.bind_none, Option.none_or, first, Option.bind_some]
  change ((assignmentChain p (sign :: ts) (.mk (.identifier name) s₀ e₀ [])
    (sign :: ts)).bind _).or _ = _
  rw [chain]
  rfl

/-- An expression statement that starts with a name is a statement where its line ends. -/
theorem simpleStatement_expression {name : String} {s e s₀ e₀ : Nat}
    (h : expressionStatement p (⟨.name name, s₀, e₀⟩ :: ts) =
      some (node, ⟨.newline, s, e⟩ :: rest)) :
    simpleStatement p (⟨.name name, s₀, e₀⟩ :: ts) = some (node, ⟨.newline, s, e⟩ :: rest) := by
  have other (text : String) (parts : Parse (List Node)) :
      keywordStatement text parts (⟨.name name, s₀, e₀⟩ :: ts) = none := rfl
  simp only [simpleStatement, orElse_apply, bind_apply, other, Option.none_or, h,
    Option.bind_some]
  rfl

/-- The statement that returns a value. -/
theorem simpleStatement_return (s₀ e₀ : Nat) (h : expressions p ts = some (node, rest)) :
    simpleStatement p (⟨.keyword "return", s₀, e₀⟩ :: ts) =
      some (.onward ⟨.keyword "return", s₀, e₀⟩ .statement [node], rest) := by
  let token : Token := ⟨.keyword "return", s₀, e₀⟩
  have returned : keywordStatement "return"
      (do return (← Parse.optional (expressions p)).toList) (token :: ts) =
        some (.onward token .statement [node], rest) := by
    have value : Parse.optional (expressions p) ts = some (some node, rest) := by
      rw [Parse.optional, h]
    simp only [keywordStatement, bind_apply]
    change ((Parse.optional (expressions p) ts).bind _).bind _ = _
    rw [value]
    rfl
  have before (text : String) (parts : Parse (List Node)) (other : accept (.keyword text)
      (token :: ts) = none) : keywordStatement text parts (token :: ts) = none := by
    rw [keywordStatement, bind_apply, keyword, other, Option.bind_none]
  simp only [simpleStatement, orElse_apply]
  rw [before "pass" _ rfl, before "break" _ rfl, before "continue" _ rfl, before "del" _ rfl,
    before "assert" _ rfl, returned]
  rfl

theorem simpleLine_one {s e : Nat} (h : simpleStatement p ts = some (node, ⟨.newline, s, e⟩ :: rest)) :
    simpleLine p ts = some (.spanning .block [node], rest) := by
  have alone : many (do let _ ← op ";"; simpleStatement p) (⟨.newline, s, e⟩ :: rest) =
      some ([], ⟨.newline, s, e⟩ :: rest) := many_of_none rfl
  simp only [simpleLine, bind_apply, h, Option.bind_some]
  change (many (do let _ ← op ";"; simpleStatement p) _).bind _ = _
  rw [alone]
  rfl

/-- No compound statement starts with a name, but one. -/
theorem compoundStatement_name {name : String} (h : name ≠ "match") (s e : Nat) :
    compoundStatement p (⟨.name name, s, e⟩ :: ts) = none := by
  have other : matchStatement p (⟨.name name, s, e⟩ :: ts) = none := by
    have absent : accept (.name "match") (⟨.name name, s, e⟩ :: ts) = none :=
      if_neg fun same : TokenKind.name name = .name "match" => h (TokenKind.name.inj same)
    rw [matchStatement, bind_apply, word, absent, Option.bind_none]
  simp only [compoundStatement, orElse_apply, other]
  rfl

/-- No compound statement is an assignment to a name. -/
theorem compoundStatement_target (fuel : Nat) (name : String) (s e s' e' : Nat) (ts : List Token) :
    compoundStatement (read (fuel + 6)) (⟨.name name, s, e⟩ :: ⟨.op "=", s', e'⟩ :: ts) = none := by
  by_cases special : name = "match"
  · subst special
    rfl
  · exact compoundStatement_name special s e


theorem line_of_simpleLine (other : compoundStatement p ts = none) : line p ts = simpleLine p ts := by
  simp only [line, orElse_apply, bind_apply, other, Option.bind_none, Option.none_or]

end Statements

end AgentWorkbench.Python.Grammar
