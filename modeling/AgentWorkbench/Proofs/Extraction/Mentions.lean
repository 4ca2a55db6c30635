import AgentWorkbench.Proofs.Extraction.Edits
import AgentWorkbench.Proofs.Python.Names
import AgentWorkbench.Proofs.Text.Search

/-!
What is named in a source stands in its text. The name of an identifier is the text of a token, so
that a text without a word has no identifier, and no argument of a call, with that name.
-/
namespace AgentWorkbench.Python

open Text Lexer Grammar

variable {d n bound : Nat} {cs : List Char} {ts ts' rest : List Token} {tree : SourceTree}

/-- The names of alike tokens, as they are known of the tokens. -/
theorem Alike.allowing {allowed : String → Prop} (h : Alike (.by d bound rest) n ts ts')
    (names : ∀ t ∈ ts, ∀ name, t.kind = .name name → allowed name) :
    Alike { distance := d, bound, allowed, rest } n ts ts' := by
  induction h with
  | done fresh => exact .done fresh
  | token plain twin ne _ ih =>
    obtain ⟨here, later⟩ := List.forall_mem_cons.mp names
    have placed (plain) : Token.Placed { distance := d, bound, allowed, rest } _ _ :=
      ⟨(twin.placed plain).start, (twin.placed plain).stop, (twin.placed plain).bound⟩
    exact .token plain ⟨twin.kind, here, placed⟩ ne (ih later)
  | newline kind kind' _ ih => exact .newline kind kind' (ih (List.forall_mem_cons.mp names).2)
  | indent kind kind' _ ih => exact .indent kind kind' (ih (List.forall_mem_cons.mp names).2)
  | dedent kind kind' _ ih => exact .dedent kind kind' (ih (List.forall_mem_cons.mp names).2)

theorem Lexer.Covers.isInfix {t : Token} (h : Covers cs t) {name : String}
    (kind : t.kind = .name name) : name.toList <:+: cs := by
  rw [← h name kind]
  exact (List.take_prefix _ _).isInfix.trans (List.drop_suffix _ _).isInfix

/-- The names of identifiers stand in the source. -/
theorem identifier_isInfix (h : SourceTree.parse? cs = some tree) {n m : Node}
    (mem : n ∈ tree.root.children) (below : m ∈ n.preorder) {name : String}
    (kind : m.kind = .identifier name) : name.toList <:+: cs := by
  obtain ⟨ts, tokens, parsed, -⟩ := parse?_eq_some.mp h
  have alike := alike_tokenize tokens (nofun : Fresh []) 0
  rw [List.append_nil, Token.map_moved_zero] at alike
  have twins := file_alike (alike.allowing fun t mem name => (covers_tokenize tokens t mem).isInfix)
    rfl
  rw [parsed] at twins
  cases twins with
  | some twins =>
    have allowed := ((Node.twins_iff.mp twins).2 n mem m below).allowed
    rwa [kind] at allowed

namespace SourceTree

theorem lowerList_eq_map (tree : SourceTree) (ns : List Node) :
    tree.lowerList ns = ns.map tree.lower := by
  induction ns with
  | nil => rfl
  | cons n ns ih => rw [lowerList, List.map_cons, ih]

theorem name?_lowerStrings (tree : SourceTree) (source : String) (pieces : List Node) :
    (tree.lowerStrings source pieces).name? = none := by
  rw [lowerStrings_eq]
  split_ifs <;> rfl

/-- An expression that is a name stands for an identifier. -/
theorem identifier_of_name? {name : String} : ∀ n : Node, (tree.lower n).name? = some name →
    ∃ m ∈ n.preorder, m.kind = .identifier name
  | .mk kind start stop children, named => by
    cases kind with
    | identifier => exact ⟨_, Node.mem_preorder_self _, congrArg _ (Option.some.inj named)⟩
    | string | concatenation =>
      rw [lower, name?_lowerStrings] at named
      contradiction
    | group | keywordArgument =>
      match children with
      | [inner] =>
        obtain ⟨m, below, kind⟩ := identifier_of_name? inner named
        exact ⟨m, Node.mem_preorder_of_child List.mem_cons_self below, kind⟩
      | [] | _ :: _ :: _ => contradiction
    | call =>
      match children with
      | [_, _] | [] | [_] | _ :: _ :: _ :: _ => contradiction
    | _ =>
      match children with
      | [_] | [] | _ :: _ :: _ => contradiction

/-- So does an argument of a call that is a name. -/
theorem identifier_of_argument {n : Node} (kind : n.kind = .call) {call : Call}
    (found : (tree.lower n).call? = some call) {e : Expr} (arg : e ∈ call.args) {name : String}
    (named : e.name? = some name) : ∃ m ∈ n.preorder, m.kind = .identifier name := by
  obtain ⟨_, start, stop, children⟩ := n
  obtain rfl := kind
  match children, found with
  | [callee, .mk kind start' stop' args], found =>
    obtain rfl := Option.some.inj found
    obtain ⟨argument, mem, positional⟩ := List.mem_filterMap.mp arg
    by_cases listed : kind = .arguments
    · subst listed
      rw [lowerArguments, lowerList_eq_map, List.zipWith_map_right, List.zipWith_self,
        List.mem_map] at mem
      obtain ⟨inner, mem, rfl⟩ := mem
      have value : tree.lower inner = e := by
        rw [SourceTree.argument] at positional
        split at positional <;> first | exact Option.some.inj positional | contradiction
      obtain ⟨m, below, kind⟩ := identifier_of_name? inner (value ▸ named)
      refine ⟨m, ?_, kind⟩
      exact Node.mem_preorder_of_child (List.mem_cons_of_mem _ List.mem_cons_self)
        (Node.mem_preorder_of_child mem below)
    · have alone : ∃ source, argument = .positional (.other source) := by
        cases kind <;> first
          | exact absurd rfl listed
          | exact ⟨_, List.mem_singleton.mp mem⟩
      obtain ⟨source, rfl⟩ := alone
      obtain rfl := Option.some.inj positional
      contradiction
  | [], found | [_], found | _ :: _ :: _ :: _, found => contradiction

end SourceTree

end AgentWorkbench.Python

namespace AgentWorkbench.Extraction

open Text Python

variable {cs : List Char} {tree : SourceTree} {name : String}

/-- A name that does not occur in a source is no argument of a call. -/
theorem Unnamed.of_absent (parsed : SourceTree.parse? cs = some tree)
    (absent : contains name.toList cs = false) : Unnamed name tree := by
  intro call mem e arg named
  rw [builderCalls] at mem
  split at mem
  · next builder found =>
    obtain ⟨node, inside, found'⟩ := List.mem_filterMap.mp mem
    obtain ⟨n, top, defined⟩ := List.mem_filterMap.mp (List.mem_of_find?_eq_some found)
    split at found'
    · next kind =>
      obtain ⟨m, below, kind⟩ := SourceTree.identifier_of_argument kind found' arg named
      have inner : m ∈ n.preorder := Node.mem_preorder_trans n (functionOf?_mem_preorder defined)
        (Node.mem_preorder_trans _ inside below)
      rw [contains_iff_isInfix.mpr (identifier_isInfix parsed top inner kind)] at absent
      contradiction
    · contradiction
  · contradiction

end AgentWorkbench.Extraction
