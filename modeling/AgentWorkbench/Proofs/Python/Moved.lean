import AgentWorkbench.Proofs.Python.Runs
import AgentWorkbench.Proofs.Python.Tandem

/-!
The tokens of a run and the same ones moved. A run opens and closes blocks one inside the other, and
a token that ends no line is followed by another one, so that the tokens at both places lie as the
grammar needs it to read the same of them.
-/
namespace AgentWorkbench.Python

open Text

theorem Token.map_moved_zero (ts : List Token) : ts.map (Token.moved 0) = ts :=
  List.map_id ts

/-- A stretch of tokens that ends before `bound`, at a place `distance` further on, with the tokens
`rest` behind it there. -/
def Shift.by (distance bound : Nat) (rest : List Token) : Shift :=
  { distance, bound, allowed := fun _ => True, rest }

namespace Lexer

/-- How many blocks are open. -/
def depth (s : LexState) : Nat := s.blocks.length - 1

/-- The tokens that close a source: the break of the last line, if it is open, and the ends of the
blocks. -/
def ends (s : LexState) (start stop : Nat) : List Token :=
  (if s.lineOpen then [⟨.newline, start, stop⟩] else []) ++
    List.replicate (depth s) ⟨.dedent, stop, stop⟩

variable {s s' : LexState} {pos d bound k n : Nat} {cs : List Char} {lexed : Lexed}
  {ts ts' us us' vs rest : List Token}

theorem Nested.length_pos {blocks : List Nat} (h : Nested blocks) : 0 < blocks.length := by
  cases h <;> exact Nat.zero_lt_succ _

theorem closeBlocks_tokens (h : Nested s.blocks) (pos : Nat) :
    (closeBlocks pos 0 s.blocks).1 = List.replicate (depth s) ⟨.dedent, pos, pos⟩ := by
  obtain ⟨k, tokens, length, -⟩ := closeBlocks_nested h pos 0
  rw [closeBlocks_margin h pos, List.length_singleton] at length
  rw [tokens, depth, length, Nat.add_sub_cancel_left]

theorem closing_eq_some (valid : Valid s) :
    closing s pos = some ts ↔ s.contexts = [] ∧ ts = ends s pos pos := by
  rw [closing, ends, closeBlocks_tokens valid.blocks]
  by_cases outside : s.contexts = []
  · rw [if_pos (List.isEmpty_iff.mpr outside), Option.some.injEq]
    exact ⟨fun h => ⟨outside, h.symm⟩, fun h => h.2.symm⟩
  · rw [if_neg (mt List.isEmpty_iff.mp outside)]
    exact ⟨fun h => absurd h.symm (Option.some_ne_none ts), fun h => absurd h.1 outside⟩

theorem opening_isBreak (valid : Valid s) : ∀ t ∈ (opening s pos).1, t.kind.isBreak = true := by
  intro t mem
  rw [opening] at mem
  split at mem
  · obtain ⟨blocks, opened, -⟩ | ⟨k, blocks, opened, -⟩ := openLine_cases valid.blocks pos
    · rw [opened, List.mem_singleton] at mem
      rw [mem]
      rfl
    · rw [opened] at mem
      rw [List.eq_of_mem_replicate mem]
      rfl
  · exact absurd mem List.not_mem_nil

/-! Tokens at two places. -/

theorem alike_plain (plain : ∀ t ∈ vs, t.kind.isBreak = false) (inside : ∀ t ∈ vs, t.stop ≤ bound)
    (ne : us ≠ []) (later : Alike (.by d bound rest) n us us') :
    Alike (.by d bound rest) n (vs ++ us) (vs.map (Token.moved d) ++ us') := by
  induction vs with
  | nil => exact later
  | cons t vs ih =>
    rw [List.forall_mem_cons] at plain inside
    refine .token plain.1 ⟨rfl, fun _ _ => trivial, fun _ => ⟨rfl, rfl, inside.1⟩⟩ ?_
      (ih plain.2 inside.2)
    exact fun h => ne (List.append_eq_nil_iff.mp h).2

theorem alike_dedents {σ : Shift} {t t' : Token} (kind : t.kind = .dedent) (kind' : t'.kind = .dedent)
    (later : Alike σ n us us') :
    Alike σ (n + k) (List.replicate k t ++ us) (List.replicate k t' ++ us') := by
  induction k with
  | zero => exact later
  | succ k ih => exact .dedent kind kind' ih

theorem alike_ends {start stop : Nat} (fresh : Fresh rest) (distance bound pos : Nat) :
    Alike (.by distance bound rest) (depth s) (ends s pos pos) (ends s start stop ++ rest) := by
  have done : Alike (.by distance bound rest) 0 [] rest := .done fresh
  have dedents : Alike (.by distance bound rest) (0 + depth s)
      (List.replicate (depth s) ⟨.dedent, pos, pos⟩ ++ [])
      (List.replicate (depth s) ⟨.dedent, stop, stop⟩ ++ rest) := alike_dedents rfl rfl done
  rw [Nat.zero_add, List.append_nil] at dedents
  rw [ends, ends]
  split
  · exact .newline rfl rfl dedents
  · exact dedents

/-- What opens a line at two places. -/
theorem alike_opening (valid : Valid s)
    (later : Alike (.by d bound rest) (depth (opening s pos).2) us us') :
    Alike (.by d bound rest) (depth s) ((opening s pos).1 ++ us)
      ((opening s pos).1.map (Token.moved d) ++ us') := by
  rw [opening] at later ⊢
  split at later
  · next start =>
    rw [if_pos start]
    obtain ⟨blocks, opened, rfl, nested⟩ | ⟨k, blocks, opened, length, nested⟩ :=
      openLine_cases valid.blocks pos
    · rw [opened] at later ⊢
      refine .indent rfl rfl ?_
      have deeper : depth { s with lineOpen := true, blocks := s.column :: s.blocks } =
          depth s + 1 :=
        (Nat.sub_add_cancel valid.blocks.length_pos).symm
      rwa [deeper] at later
    · rw [opened] at later ⊢
      have shallower : depth s = depth { s with lineOpen := true, blocks } + k := by
        have := nested.length_pos
        rw [depth, depth, length]
        change blocks.length + k - 1 = blocks.length - 1 + k
        omega
      rw [shallower, List.map_replicate]
      exact alike_dedents rfl rfl later
  · next inside =>
    rw [if_neg inside]
    exact later

/-- One step at two places. -/
theorem alike_step (valid : Valid s) (stepped : Stepped s pos cs lexed)
    (inside : pos + cs.length ≤ bound) (ne : lexed.state.lineOpen = true → us ≠ [])
    (later : Alike (.by d bound rest) (depth lexed.state) us us') :
    Alike (.by d bound rest) (depth s) (lexed.tokens ++ us)
        (lexed.tokens.map (Token.moved d) ++ us') ∧
      (s.lineOpen = true → lexed.tokens ++ us ≠ []) := by
  cases stepped.did with
  | skip column tokens state =>
    rw [tokens]
    rw [state] at ne later
    exact ⟨later, ne⟩
  | newline _ _ tokens state =>
    rw [tokens]
    rw [state] at later
    exact ⟨.newline rfl rfl later, fun _ => List.cons_ne_nil _ _⟩
  | emit inner emits eq =>
    rw [eq] at ne later ⊢
    have some_token : inner.tokens ++ us ≠ [] := fun h =>
      emits.some_token (List.append_eq_nil_iff.mp h).1
    have lineOpen : inner.state.lineOpen = true :=
      emits.lineOpen.trans (opening_lineOpen valid.inLine)
    have before (t : Token) (mem : t ∈ inner.tokens) : t.stop ≤ bound := by
      have := emits.bound t mem
      have := emits.taken.2
      omega
    have blocks : depth inner.state = depth (opening s pos).2 := by
      rw [depth, depth, emits.blocks]
    have tokens := alike_plain emits.plain before (ne lineOpen) (blocks ▸ later)
    dsimp only
    rw [List.map_append, List.append_assoc, List.append_assoc]
    refine ⟨alike_opening valid tokens, fun _ h => some_token (List.append_eq_nil_iff.mp h).2⟩

/-- A run at two places. -/
theorem Reads.alike (h : Reads s pos cs ts s') (valid : Valid s) (inside : pos + cs.length ≤ bound)
    (ne : s'.lineOpen = true → us ≠ []) (later : Alike (.by d bound rest) (depth s') us us') :
    Alike (.by d bound rest) (depth s) (ts ++ us) (ts.map (Token.moved d) ++ us') ∧
      (s.lineOpen = true → ts ++ us ≠ []) := by
  induction h with
  | done => exact ⟨later, ne⟩
  | @step s s' pos c cs lexed more made _ ih =>
    have stepped := (valid.stepsOver made).1
    have inside' : pos + lexed.taken + lexed.rest.length ≤ bound := by
      rw [stepped.rest, List.length_drop]
      have := stepped.taken
      omega
    obtain ⟨alike, some_token⟩ := ih (valid.stepped stepped) inside' ne later
    have whole := alike_step valid stepped inside some_token alike
    rwa [List.map_append, List.append_assoc, List.append_assoc]

/-- The tokens of a run start before its end, those that end a line or delimit blocks apart. -/
theorem Reads.begins (h : Reads s pos cs ts s') (valid : Valid s) :
    ∀ t ∈ ts, t.kind.isBreak = false → t.start < pos + cs.length := by
  induction h with
  | done => exact List.forall_mem_nil _
  | @step s s' pos c cs lexed more made _ ih =>
    have stepped := (valid.stepsOver made).1
    have length : pos + lexed.taken + lexed.rest.length = pos + (c :: cs).length := by
      rw [stepped.rest, List.length_drop]
      have := stepped.taken
      omega
    have later := ih (valid.stepped stepped)
    rw [length] at later
    intro t mem plain
    obtain mem | mem := List.mem_append.mp mem
    · cases stepped.did with
      | skip column tokens state =>
        rw [tokens] at mem
        contradiction
      | newline _ _ tokens state =>
        rw [tokens, List.mem_singleton] at mem
        rw [mem] at plain
        contradiction
      | emit inner emits eq =>
        rw [eq] at mem length
        obtain mem | mem := List.mem_append.mp mem
        · exact absurd (opening_isBreak valid t mem) (by simp [plain])
        · have := emits.begins t mem
          have := emits.taken
          dsimp only at length
          omega
    · exact later t mem plain

theorem ends_ne_nil {start stop : Nat} (open_ : s.lineOpen = true) : ends s start stop ≠ [] := by
  simp [ends, open_]

/-- A source that is read by itself, and its tokens at another place with others behind them. The
ends of its blocks and of its last line may stand anywhere. -/
theorem Reads.alike_ends (h : Reads {} 0 cs ts s) (fresh : Fresh rest) (d start stop : Nat) :
    Alike (.by d cs.length rest) 0 (ts ++ ends s cs.length cs.length)
      (ts.map (Token.moved d) ++ (ends s start stop ++ rest)) :=
  (h.alike .start (Nat.le_of_eq (Nat.zero_add _)) ends_ne_nil
    (Lexer.alike_ends fresh d cs.length cs.length)).1

theorem map_moved_ends (start stop d : Nat) :
    (ends s start stop).map (Token.moved d) = ends s (start + d) (stop + d) := by
  rw [ends, ends, List.map_append, List.map_replicate]
  split <;> rfl

end Lexer

open Lexer

variable {d a b n bound : Nat} {cs : List Char} {ts ts' rest : List Token}

theorem tokenize_eq_some (cs : List Char) (ts : List Token) : tokenize cs = some ts →
    ∃ us s, Reads {} 0 cs us s ∧ s.contexts = [] ∧ ts = us ++ ends s cs.length cs.length := by
  intro found
  obtain ⟨us, s, last, reads, close, rfl⟩ := exists_reads .start found
  rw [Nat.zero_add, closing_eq_some (reads.valid .start)] at close
  exact ⟨us, s, reads, close.1, by rw [close.2]⟩

theorem ends_isBreak {s : LexState} {start stop : Nat} :
    ∀ t ∈ ends s start stop, t.kind.isBreak = true := by
  intro t mem
  rw [ends, List.mem_append, List.mem_ite_nil_right, List.mem_singleton] at mem
  obtain ⟨-, rfl⟩ | mem := mem
  · rfl
  · rw [List.eq_of_mem_replicate mem]
    rfl

/-- The tokens from a state on, and the same ones at another place with others behind them. -/
theorem alike_tokensAt {s : LexState} {pos : Nat} (valid : Valid s)
    (found : tokensAt s pos cs = some ts) (fresh : Fresh rest) (d : Nat) :
    Alike (.by d (pos + cs.length) rest) (Lexer.depth s) ts (ts.map (Token.moved d) ++ rest) := by
  obtain ⟨us, s', last, reads, close, rfl⟩ := exists_reads valid found
  obtain ⟨-, rfl⟩ := (closing_eq_some (reads.valid valid)).mp close
  have later : Alike (.by d (pos + cs.length) rest) (Lexer.depth s')
      (ends s' (pos + cs.length) (pos + cs.length))
      (ends s' (pos + cs.length + d) (pos + cs.length + d) ++ rest) :=
    alike_ends fresh d (pos + cs.length) (pos + cs.length)
  have alike := (reads.alike valid (Nat.le_refl _) ends_ne_nil later).1
  rwa [← map_moved_ends (s := s') (pos + cs.length) (pos + cs.length) d, ← List.append_assoc,
    ← List.map_append] at alike

/-- The tokens of a source, and the same ones at another place with others behind them. -/
theorem alike_tokenize (found : tokenize cs = some ts) (fresh : Fresh rest) (d : Nat) :
    Alike (.by d cs.length rest) 0 ts (ts.map (Token.moved d) ++ rest) := by
  have alike := alike_tokensAt .start (tokenize_eq cs ▸ found) fresh d
  rwa [Nat.zero_add] at alike

/-- What is alike from a place on is alike from a later one on. -/
theorem Alike.from_moved (h : Alike (.by (a + b) bound rest) n ts ts') :
    Alike (.by b (bound + a) rest) n (ts.map (Token.moved a)) ts' := by
  induction h with
  | done fresh => exact .done fresh
  | token plain twin ne _ ih =>
    refine .token plain ⟨twin.kind, fun _ _ => trivial, fun _ => ?_⟩ (by simpa using ne) ih
    have placed := twin.placed plain
    refine ⟨?_, ?_, Nat.add_le_add_right placed.bound a⟩
    · rw [placed.start]
      exact (Nat.add_assoc _ _ _).symm
    · rw [placed.stop]
      exact (Nat.add_assoc _ _ _).symm
  | newline kind kind' _ ih => exact .newline kind kind' ih
  | indent kind kind' _ ih => exact .indent kind kind' ih
  | dedent kind kind' _ ih => exact .dedent kind kind' ih

theorem Fresh.map_moved (h : Fresh ts) (d : Nat) : Fresh (ts.map (Token.moved d)) := by
  cases ts with
  | nil => exact h
  | cons t ts =>
    intro u head
    cases head
    exact h t rfl

end AgentWorkbench.Python
