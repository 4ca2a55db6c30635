import AgentWorkbench.Proofs.Python.Calls
import AgentWorkbench.Proofs.Python.Lexemes
import AgentWorkbench.Python.Definition

/-!
The parameters of a function as they are written: positional ones, a slash, a star, those that are
given by name only, and a mapping for the other ones. Of the nodes that are read of them, those
between the slash and the star are the ones that can be given by position and by name.
-/
namespace AgentWorkbench.Python

/-! Headers. -/

inductive Sign where
  | plus
  | minus

structure Integer where
  sign : Option Sign
  numeral : Numeral

/-- A name, with an annotation or without one. -/
structure Annotated where
  name : Identifier
  type : Option Identifier

structure Parameter extends Annotated where
  default : Option Integer

/-- What ends the positional parameters, and the parameters that are given by name only. -/
inductive Star where
  | none
  /-- A star alone, which some parameter follows. -/
  | bare (first : Parameter) (more : List Parameter)
  /-- A star that takes the other positional arguments. -/
  | args (rest : Annotated) (keywordOnly : List Parameter)

structure Header where
  positionalOnly : List Parameter
  ordinary : List Parameter
  star : Star
  /-- What takes the other arguments that are given by name. -/
  mapping : Option Annotated
  /-- Whether a comma is behind the last part, if there is one. -/
  trailing : Bool

/-- What stands between the commas of a header. -/
inductive Item where
  | plain (parameter : Parameter)
  | slash
  | star (rest : Option Annotated)
  | mapping (rest : Annotated)

namespace Item

def kind : Item → NodeKind
  | plain parameter => .parameter parameter.name.name
  | slash => .slash
  | star _ => .starParameter
  | mapping _ => .mappingParameter

end Item

def Star.items : Star → List Item
  | none => []
  | bare first more => .star Option.none :: .plain first :: more.map .plain
  | args rest keywordOnly => .star (some rest) :: keywordOnly.map .plain

def Header.items (header : Header) : List Item :=
  header.positionalOnly.map .plain ++ ((if header.positionalOnly.isEmpty then [] else [.slash]) ++
    (header.ordinary.map .plain ++ (header.star.items ++ header.mapping.toList.map .mapping)))

/-! Lexemes. -/

def Sign.mark : Sign → Mark
  | plus => .plus
  | minus => .minus

def Integer.lexemes (value : Integer) : List Lexeme :=
  value.sign.toList.map (fun sign => .mark sign.mark) ++ [.number value.numeral]

def annotationLexemes (type : Option Identifier) : List Lexeme :=
  type.toList.flatMap fun named => [.mark .colon, .word named]

def defaultLexemes (default : Option Integer) : List Lexeme :=
  default.toList.flatMap fun value => .mark .equals :: value.lexemes

def Annotated.lexemes (x : Annotated) : List Lexeme :=
  .word x.name :: annotationLexemes x.type

namespace Item

def lexemes : Item → List Lexeme
  | plain parameter => parameter.toAnnotated.lexemes ++ defaultLexemes parameter.default
  | slash => [.mark .slash]
  | star none => [.mark .star]
  | star (some rest) => .mark .star :: rest.lexemes
  | mapping rest => .mark .stars :: rest.lexemes

end Item

/-- The parts behind the first one, and the commas before them and behind the last one. -/
def furtherLexemes (trailing : Bool) : List Item → List Lexeme
  | [] => if trailing then [.mark .comma] else []
  | item :: more => .mark .comma :: (item.lexemes ++ furtherLexemes trailing more)

def Header.lexemes (header : Header) : List Lexeme :=
  match header.items with
  | [] => []
  | first :: more => first.lexemes ++ furtherLexemes header.trailing more

theorem Item.isChain_lexemes (item : Item) :
    (item.lexemes ++ [Lexeme.mark .comma]).IsChain Lexeme.Precedes := by
  obtain ⟨⟨name, _ | type⟩, _ | ⟨_ | _ | _, numeral⟩⟩ | _ | (_ | ⟨name, _ | type⟩) |
    ⟨name, _ | type⟩ := item <;>
  simp [Item.lexemes, Annotated.lexemes, annotationLexemes, defaultLexemes, Integer.lexemes,
    Sign.mark, Lexeme.Precedes]

/-- Behind a part are only those that its last lexeme precedes. -/
theorem Item.isChain_append (item : Item) {trailing : Bool} {more : List Item}
    (h : (furtherLexemes trailing more).IsChain Lexeme.Precedes) :
    (item.lexemes ++ furtherLexemes trailing more).IsChain Lexeme.Precedes := by
  cases more with
  | nil =>
      cases trailing with
      | true => exact item.isChain_lexemes
      | false => simpa [furtherLexemes] using item.isChain_lexemes.left_of_append
  | cons next more => exact List.isChain_split.mpr ⟨item.isChain_lexemes, h⟩

theorem isChain_furtherLexemes (trailing : Bool) (items : List Item) :
    (furtherLexemes trailing items).IsChain Lexeme.Precedes := by
  have comma (lexeme : Lexeme) : Lexeme.Precedes (.mark .comma) lexeme := by
    cases lexeme <;> trivial
  induction items with
  | nil => cases trailing <;> simp [furtherLexemes]
  | cons item items ih => exact (item.isChain_append ih).cons fun lexeme _ => comma lexeme

theorem Header.isChain_lexemes (header : Header) :
    header.lexemes.IsChain Lexeme.Precedes := by
  rw [lexemes]
  split
  · exact .nil
  · next first more _ => exact first.isChain_append (isChain_furtherLexemes _ more)

/-! Reading. -/

namespace Grammar

open Parse

/-- Some tokens of which the first one ends a part of a list in parentheses. -/
def EndsPart (ts : List Token) : Prop :=
  ∃ t rest, ts = t :: rest ∧ (t.kind = .op "," ∨ t.kind = .op ")")

variable {ts rest : List Token} (fuel : Nat)

theorem EndsPart.closes (h : EndsPart ts) : Closes ts := by
  obtain ⟨t, rest, rfl, kind⟩ := h
  refine ⟨t, rest, rfl, ?_⟩
  obtain kind | kind := kind <;> rw [kind] <;> decide

theorem EndsPart.accept (h : EndsPart ts) {kind : TokenKind} (comma : .op "," ≠ kind)
    (close : .op ")" ≠ kind) : accept kind ts = none := by
  obtain ⟨t, rest, rfl, is⟩ := h
  refine if_neg fun same : t.kind = kind => ?_
  obtain is | is := is
  · exact comma (is.symm.trans same)
  · exact close (is.symm.trans same)

theorem primary_number {p : Goal → Parse Node} (closes : Closes rest) (s e : Nat) :
    primary p (⟨.number, s, e⟩ :: rest) = some (.mk .constant s e [], rest) :=
  trailers_closes closes rest _

theorem starts_number (s e : Nat) (rest : List Token) : Starts (⟨.number, s, e⟩ :: rest) :=
  starts_cons (by decide) s e rest

/-- An integer is read as an expression. -/
theorem read_integer (value : Integer) (h : ts.map (·.kind) = value.lexemes.map Lexeme.kind)
    (closes : Closes rest) : ∃ node, read (fuel + 5) .expr (ts ++ rest) = some (node, rest) := by
  obtain ⟨sign, numeral⟩ := value
  cases sign with
  | none =>
      obtain ⟨⟨_, s, e⟩, _, rfl, rfl, done⟩ := List.map_eq_cons_iff.mp h
      obtain rfl := List.map_eq_nil_iff.mp done
      exact ⟨_, read_expr (starts_number s e rest) closes (primary_number closes s e)⟩
  | some sign =>
      obtain ⟨⟨_, s, e⟩, _, rfl, rfl, later⟩ := List.map_eq_cons_iff.mp h
      obtain ⟨⟨_, s₁, e₁⟩, _, rfl, rfl, done⟩ := List.map_eq_cons_iff.mp later
      obtain rfl := List.map_eq_nil_iff.mp done
      have signed : sign.mark.text = "+" ∨ sign.mark.text = "-" := by
        cases sign
        · exact .inl rfl
        · exact .inr rfl
      exact ⟨_, read_expr_signed signed (starts_number s₁ e₁ rest) closes
        (primary_number closes s₁ e₁) s e⟩

theorem annotation_read (type : Option Identifier)
    (h : ts.map (·.kind) = (annotationLexemes type).map Lexeme.kind) (closes : Closes rest) :
    ∃ nodes, annotation (read (fuel + 5)) true (ts ++ rest) = some (nodes, rest) := by
  cases type with
  | none =>
      obtain rfl := List.map_eq_nil_iff.mp h
      have absent : op ":" rest = none := closes.accept (by decide)
      refine ⟨[], ?_⟩
      simp only [ annotation, if_true, List.nil_append, orElse_apply, bind_apply, absent,
        Option.bind_none, Option.none_or, pure_apply]
  | some type =>
      obtain ⟨⟨_, s, e⟩, _, rfl, rfl, later⟩ := List.map_eq_cons_iff.mp h
      obtain ⟨⟨_, s₁, e₁⟩, _, rfl, rfl, done⟩ := List.map_eq_cons_iff.mp later
      obtain rfl := List.map_eq_nil_iff.mp done
      have name : read (fuel + 5) .expr (⟨.name type.name, s₁, e₁⟩ :: rest) =
          some (.mk (.identifier type.name) s₁ e₁ [], rest) :=
        read_expr (starts_cons (by simp [signs]) ..) closes (primary_name type.name closes)
      refine ⟨[.mk (.identifier type.name) s₁ e₁ []], ?_⟩
      simp only [ annotation, if_true, orElse_apply]
      change ((read (fuel + 5) .expr (⟨.name type.name, s₁, e₁⟩ :: rest)).bind _).or _ = _
      rw [name]
      rfl

theorem defaultValue_read (default : Option Integer)
    (h : ts.map (·.kind) = (defaultLexemes default).map Lexeme.kind) (ends : EndsPart rest) :
    ∃ nodes, defaultValue (read (fuel + 5)) (ts ++ rest) = some (nodes, rest) := by
  cases default with
  | none =>
      obtain rfl := List.map_eq_nil_iff.mp h
      have absent : op "=" rest = none := ends.accept (by decide) (by decide)
      refine ⟨[], ?_⟩
      simp only [defaultValue, List.nil_append, orElse_apply, bind_apply, absent,
        Option.bind_none, Option.none_or, pure_apply]
  | some value =>
      have kinds : (defaultLexemes (some value)).map Lexeme.kind =
          .op "=" :: value.lexemes.map Lexeme.kind := by
        simp [defaultLexemes, Lexeme.kind, Mark.text]
      rw [kinds] at h
      obtain ⟨⟨_, s, e⟩, us, rfl, rfl, later⟩ := List.map_eq_cons_iff.mp h
      obtain ⟨node, reads⟩ := read_integer fuel value later ends.closes
      refine ⟨[node], ?_⟩
      simp only [defaultValue, orElse_apply]
      change ((read (fuel + 5) .expr (us ++ rest)).bind _).or _ = _
      rw [reads]
      rfl

theorem closes_default (default : Option Integer)
    (h : ts.map (·.kind) = (defaultLexemes default).map Lexeme.kind) (ends : EndsPart rest) :
    Closes (ts ++ rest) := by
  cases default with
  | none =>
      obtain rfl := List.map_eq_nil_iff.mp h
      exact ends.closes
  | some value =>
      obtain ⟨⟨_, s, e⟩, us, rfl, rfl, -⟩ := List.map_eq_cons_iff.mp h
      exact closes_cons (by decide : TokenKind.op "=" ∈ closers) s e (us ++ rest)

/-- A part of a header is read as one parameter, of its kind. -/
theorem parameter_item (item : Item) (h : ts.map (·.kind) = item.lexemes.map Lexeme.kind)
    (ends : EndsPart rest) : ∃ node, node.kind = item.kind ∧
      parameter (read (fuel + 5)) true (ts ++ rest) = some (node, rest) := by
  cases item with
  | plain parameter =>
      obtain ⟨⟨name, type⟩, default⟩ := parameter
      obtain ⟨⟨_, s, e⟩, us, rfl, rfl, later⟩ := List.map_eq_cons_iff.mp h
      obtain ⟨us₁, us₂, rfl, typed, valued⟩ :=
        List.map_eq_append_iff.mp (later.trans List.map_append)
      obtain ⟨types, read_type⟩ := annotation_read fuel type typed
        (closes_default default valued ends)
      obtain ⟨values, read_value⟩ := defaultValue_read fuel default valued ends
      let token : Token := ⟨.name name.name, s, e⟩
      refine ⟨.onward token (.parameter name.name) (types ++ values), rfl, ?_⟩
      have others (text : String) : op text (token :: (us₁ ++ us₂ ++ rest)) = none := rfl
      have named : Parse.name (token :: (us₁ ++ us₂ ++ rest)) =
          some ((name.name, token), us₁ ++ (us₂ ++ rest)) := by
        rw [← List.append_assoc]
        rfl
      change parameter _ true (token :: (us₁ ++ us₂ ++ rest)) = _
      simp only [parameter, orElse_apply, bind_apply, others, named, read_type, read_value,
        Option.bind_none, Option.none_or, Option.bind_some, pure_apply]
  | slash =>
      obtain ⟨⟨_, s, e⟩, _, rfl, rfl, done⟩ := List.map_eq_cons_iff.mp h
      obtain rfl := List.map_eq_nil_iff.mp done
      exact ⟨_, rfl, rfl⟩
  | star named =>
      cases named with
      | none =>
          obtain ⟨⟨_, s, e⟩, _, rfl, rfl, done⟩ := List.map_eq_cons_iff.mp h
          obtain rfl := List.map_eq_nil_iff.mp done
          obtain ⟨⟨kind, s₁, e₁⟩, rest, rfl, ends⟩ := ends
          obtain rfl | rfl := ends <;> exact ⟨_, rfl, rfl⟩
      | some x =>
          obtain ⟨⟨_, s, e⟩, us, rfl, rfl, later⟩ := List.map_eq_cons_iff.mp h
          obtain ⟨⟨_, s₁, e₁⟩, us, rfl, rfl, typed⟩ := List.map_eq_cons_iff.mp later
          obtain ⟨types, read_type⟩ := annotation_read fuel x.type typed ends.closes
          refine ⟨.mk .starParameter s ((types.getLast?.map Node.stop).getD e₁) types, rfl, ?_⟩
          let star : Token := ⟨.op "*", s, e⟩
          let token : Token := ⟨.name x.name.name, s₁, e₁⟩
          have slash : op "/" (star :: token :: (us ++ rest)) = none := rfl
          have here : op "*" (star :: token :: (us ++ rest)) =
              some (star, token :: (us ++ rest)) := rfl
          have named : Parse.optional Parse.name (token :: (us ++ rest)) =
              some (some (x.name.name, token), us ++ rest) := rfl
          change parameter _ true (star :: token :: (us ++ rest)) = _
          simp only [parameter, orElse_apply, bind_apply, slash, here, named, read_type,
            Option.bind_none, Option.none_or, Option.bind_some, Option.some_or, pure_apply]
          rfl
  | mapping x =>
      obtain ⟨⟨_, s, e⟩, us, rfl, rfl, later⟩ := List.map_eq_cons_iff.mp h
      obtain ⟨⟨_, s₁, e₁⟩, us, rfl, rfl, typed⟩ := List.map_eq_cons_iff.mp later
      obtain ⟨types, read_type⟩ := annotation_read fuel x.type typed ends.closes
      refine ⟨.mk .mappingParameter s ((types.getLast?.map Node.stop).getD e₁) types, rfl, ?_⟩
      let stars : Token := ⟨.op "**", s, e⟩
      let token : Token := ⟨.name x.name.name, s₁, e₁⟩
      have slash : op "/" (stars :: token :: (us ++ rest)) = none := rfl
      have star : op "*" (stars :: token :: (us ++ rest)) = none := rfl
      have here : op "**" (stars :: token :: (us ++ rest)) =
          some (stars, token :: (us ++ rest)) := rfl
      have named : Parse.name (token :: (us ++ rest)) =
          some ((x.name.name, token), us ++ rest) := rfl
      change parameter _ true (stars :: token :: (us ++ rest)) = _
      simp only [parameter, orElse_apply, bind_apply, slash, star, here, named, read_type,
        Option.bind_none, Option.none_or, Option.bind_some, Option.some_or, pure_apply]
      rfl

/-- The part that a list in parentheses ends with, behind a comma that may be there. -/
theorem endsPart_further {trailing : Bool} {items : List Item} (s e : Nat) (rest : List Token)
    (h : ts.map (·.kind) = (furtherLexemes trailing items).map Lexeme.kind) :
    EndsPart (ts ++ ⟨.op ")", s, e⟩ :: rest) := by
  have comma {more : List Lexeme} (h : ts.map (·.kind) = .op "," :: more.map Lexeme.kind) :
      EndsPart (ts ++ ⟨.op ")", s, e⟩ :: rest) := by
    obtain ⟨t, us, rfl, kind, -⟩ := List.map_eq_cons_iff.mp h
    exact ⟨t, us ++ ⟨.op ")", s, e⟩ :: rest, rfl, .inl kind⟩
  cases items with
  | cons item items => exact comma h
  | nil =>
      cases trailing with
      | true => exact comma (show ts.map (·.kind) = .op "," :: [].map Lexeme.kind from h)
      | false =>
          obtain rfl := List.map_eq_nil_iff.mp h
          exact ⟨_, rest, rfl, .inr rfl⟩

/-- Behind the first part the others are read one by one, up to the last comma. -/
theorem chain_further (trailing : Bool) (items : List Item) (s e : Nat) (rest : List Token)
    (h : ts.map (·.kind) = (furtherLexemes trailing items).map Lexeme.kind) :
    ∃ nodes behind comma, nodes.map Node.kind = items.map Item.kind ∧
      Chain (do let _ ← op ","; parameter (read (fuel + 5)) true) (ts ++ ⟨.op ")", s, e⟩ :: rest)
        nodes behind ∧
      accept? (.op ",") behind = some (comma, ⟨.op ")", s, e⟩ :: rest) := by
  let close : Token := ⟨.op ")", s, e⟩
  induction items generalizing ts with
  | nil =>
      cases trailing with
      | false =>
          obtain rfl := List.map_eq_nil_iff.mp h
          exact ⟨[], close :: rest, none, rfl, .done rfl, rfl⟩
      | true =>
          obtain ⟨⟨_, s₁, e₁⟩, _, rfl, rfl, done⟩ := List.map_eq_cons_iff.mp h
          obtain rfl := List.map_eq_nil_iff.mp done
          exact ⟨[], _, some ⟨.op ",", s₁, e₁⟩, rfl, .done rfl, rfl⟩
  | cons item items ih =>
      obtain ⟨⟨_, s₁, e₁⟩, _, rfl, rfl, later⟩ := List.map_eq_cons_iff.mp h
      obtain ⟨here, there, rfl, own, further⟩ :=
        List.map_eq_append_iff.mp (later.trans List.map_append)
      obtain ⟨node, kind, reads⟩ := parameter_item fuel item own
        (endsPart_further s e rest further)
      obtain ⟨nodes, behind, comma, kinds, chain, ends⟩ := ih further
      have first : (do let _ ← op ","; parameter (read (fuel + 5)) true)
          (⟨.op ",", s₁, e₁⟩ :: (here ++ there ++ close :: rest)) =
            some (node, there ++ close :: rest) := by
        rw [List.append_assoc]
        exact reads
      refine ⟨node :: nodes, behind, comma, ?_, .more first ?_ chain, ends⟩
      · rw [List.map_cons, List.map_cons, kind, kinds]
      · simp only [List.length_cons, List.length_append]
        omega

/-- The parameters of a header are read up to the closing parenthesis, each of its kind. -/
theorem parameters_header (header : Header) (h : ts.map (·.kind) = header.lexemes.map Lexeme.kind)
    {close : Token} (ends : close.kind = .op ")") (rest : List Token) :
    ∃ nodes, nodes.map Node.kind = header.items.map Item.kind ∧
      parameters (read (fuel + 5)) true (ts ++ close :: rest) = some (nodes, close :: rest) := by
  obtain ⟨_, s, e⟩ := close
  obtain rfl := ends
  rw [Header.lexemes] at h
  split at h
  · next none =>
      obtain rfl := List.map_eq_nil_iff.mp h
      exact ⟨[], by rw [none]; rfl, rfl⟩
  · next item items parts =>
      obtain ⟨here, there, rfl, own, further⟩ :=
        List.map_eq_append_iff.mp (h.trans List.map_append)
      obtain ⟨node, kind, reads⟩ := parameter_item fuel item own
        (endsPart_further s e rest further)
      obtain ⟨nodes, behind, comma, kinds, chain, last⟩ :=
        chain_further fuel header.trailing items s e rest further
      refine ⟨node :: nodes, by rw [parts, List.map_cons, List.map_cons, kind, kinds], ?_⟩
      rw [List.append_assoc]
      simp only [parameters, commaList, orElse_apply, bind_apply, pure_apply, reads, chain.many,
        last, Option.bind_some, Option.some_or]

end Grammar

/-! Positional parameters. -/

theorem positionalParams_plain (parameters : List Parameter) (names : List String)
    {nodes : List Node} (rest : List Node)
    (h : nodes.map Node.kind = (parameters.map Item.plain).map Item.kind) :
    positionalParams names (nodes ++ rest) =
      positionalParams (names ++ parameters.map (·.name.name)) rest := by
  induction parameters generalizing names nodes with
  | nil =>
      obtain rfl := List.map_eq_nil_iff.mp h
      simp
  | cons parameter parameters ih =>
      obtain ⟨node, nodes, rfl, kind, later⟩ := List.map_eq_cons_iff.mp h
      change node.kind = .parameter parameter.name.name at kind
      rw [List.cons_append, positionalParams, kind]
      simpa using ih (names ++ [parameter.name.name]) later

/-- A star or the end: the positional parameters are those found before. -/
theorem positionalParams_star (star : Star) (mapping : Option Annotated) (names : List String)
    {nodes : List Node}
    (h : nodes.map Node.kind = (star.items ++ mapping.toList.map Item.mapping).map Item.kind) :
    positionalParams names nodes = names := by
  have stops {more : List Item} {named : Option Annotated}
      (h : nodes.map Node.kind = (Item.star named :: more).map Item.kind) :
      positionalParams names nodes = names := by
    obtain ⟨node, nodes, rfl, kind, -⟩ := List.map_eq_cons_iff.mp h
    change node.kind = .starParameter at kind
    rw [positionalParams, kind]
  cases star with
  | bare => exact stops h
  | args => exact stops h
  | none =>
      cases mapping with
      | none =>
          obtain rfl := List.map_eq_nil_iff.mp h
          rfl
      | some rest =>
          obtain ⟨node, nodes, rfl, kind, done⟩ := List.map_eq_cons_iff.mp h
          obtain rfl := List.map_eq_nil_iff.mp done
          change node.kind = .mappingParameter at kind
          rw [positionalParams, kind]
          rfl

/-- The positional parameters of a header are those between the slash and the star. -/
theorem positionalParams_header (header : Header) {nodes : List Node}
    (h : nodes.map Node.kind = header.items.map Item.kind) :
    positionalParams [] nodes = header.ordinary.map (·.name.name) := by
  rw [Header.items, List.map_append, List.map_append, List.map_append] at h
  obtain ⟨before, _, rfl, before_kinds, h⟩ := List.map_eq_append_iff.mp h
  obtain ⟨slash, _, rfl, slash_kinds, h⟩ := List.map_eq_append_iff.mp h
  obtain ⟨ordinary, behind, rfl, ordinary_kinds, behind_kinds⟩ := List.map_eq_append_iff.mp h
  have positional := positionalParams_plain header.ordinary [] behind ordinary_kinds
  rw [positionalParams_star header.star header.mapping _ behind_kinds, List.nil_append] at positional
  cases only : header.positionalOnly with
  | nil =>
      rw [only] at before_kinds slash_kinds
      obtain rfl := List.map_eq_nil_iff.mp before_kinds
      obtain rfl := List.map_eq_nil_iff.mp slash_kinds
      exact positional
  | cons first more =>
      rw [only] at slash_kinds
      obtain ⟨mark, _, rfl, kind, done⟩ := List.map_eq_cons_iff.mp slash_kinds
      obtain rfl := List.map_eq_nil_iff.mp done
      change mark.kind = .slash at kind
      rw [positionalParams_plain header.positionalOnly [] _ before_kinds, List.cons_append,
        positionalParams, kind]
      exact positional

end AgentWorkbench.Python
