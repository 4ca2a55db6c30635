import AgentWorkbench.Proofs.Instrument.Boundary

/-!
What the search for a guard finds. A guard has a fixed form, with blanks of any kind between its
words. The search gives the first guard at the start of a line, and it gives one if there is one.
-/
namespace AgentWorkbench.Instrument

open Text

def IsQuote (c : Char) : Prop := c = '"' ∨ c = '\''

/-- A guard written out: its indentation, its words with blanks between them, and its colon. -/
inductive GuardText (indent : List Char) : List Char → Prop
  | words {b₁ b₂ b₃ b₄ : List Char} {q q' : Char}
      (indented : ∀ c ∈ indent, isIndent c = true)
      (blank : ∀ gap ∈ [b₁, b₂, b₃, b₄], ∀ c ∈ gap, isBlank c = true) (apart : b₁ ≠ [])
      (quote : IsQuote q) (quote' : IsQuote q') :
      GuardText indent (indent ++ ("if".toList ++ (b₁ ++ ("__name__".toList ++ (b₂ ++
        ("==".toList ++ (b₃ ++ (q :: ("__main__".toList ++ (q' :: (b₄ ++ ":".toList)))))))))))

theorem stripStart_append (pat rest : List Char) : stripStart pat (pat ++ rest) = some rest :=
  stripStart_eq_some_iff.mpr rfl

theorem afterQuote?_eq_some_iff {cs rest : List Char} :
    afterQuote? cs = some rest ↔ ∃ q, IsQuote q ∧ cs = q :: rest := by
  cases cs with
  | nil => simp [afterQuote?]
  | cons c cs => simp [afterQuote?, IsQuote, and_comm]

theorem afterQuote?_cons {q : Char} (h : IsQuote q) (rest : List Char) :
    afterQuote? (q :: rest) = some rest :=
  afterQuote?_eq_some_iff.mpr ⟨q, h, rfl⟩

theorem dropBlanks_gap {gap rest : List Char} (blank : ∀ c ∈ gap, isBlank c = true)
    (solid : ∀ c ∈ rest.head?, isBlank c = false) : dropBlanks (gap ++ rest) = rest := by
  rw [dropBlanks, List.dropWhile_append_of_pos blank]
  cases rest with
  | nil => rfl
  | cons c rest => rw [List.dropWhile_cons_of_neg (by simp [solid c rfl])]

theorem exists_gap (cs : List Char) :
    ∃ gap, (∀ c ∈ gap, isBlank c = true) ∧ gap ++ dropBlanks cs = cs :=
  ⟨cs.takeWhile isBlank, fun _ => List.mem_takeWhile_imp, List.takeWhile_append_dropWhile⟩

theorem isBlank_quote {q : Char} (h : IsQuote q) : isBlank q = false := by
  obtain rfl | rfl := h <;> decide

theorem guardAt?_form {cs : List Char} {g : MainGuard} (h : guardAt? cs = some g) :
    GuardText g.indent g.text := by
  have cut := guardAt?_cut h
  simp only [guardAt?, Option.bind_eq_bind, Option.bind_eq_some_iff, Option.pure_def,
    Option.some.injEq, stripStart_eq_some_iff, afterQuote?_eq_some_iff] at h
  obtain ⟨r₁, h₁, _, apart, r₂, h₂, r₃, h₃, r₄, ⟨q, quote, h₄⟩, r₅, rfl, r₆, ⟨q', quote', rfl⟩,
    r₇, h₇, rfl⟩ := h
  obtain ⟨b₁, blank₁, gap₁⟩ := exists_gap r₁
  obtain ⟨b₂, blank₂, gap₂⟩ := exists_gap r₂
  obtain ⟨b₃, blank₃, gap₃⟩ := exists_gap r₃
  obtain ⟨b₄, blank₄, gap₄⟩ := exists_gap r₆
  have parted : b₁ ≠ [] := by
    rintro rfl
    rw [← gap₁, List.nil_append, h₂] at apart
    exact absurd apart (by simp [isBlank])
  have whole : cs = (cs.takeWhile isIndent ++ ("if".toList ++ (b₁ ++ ("__name__".toList ++ (b₂ ++
      ("==".toList ++ (b₃ ++ (q :: ("__main__".toList ++ (q' :: (b₄ ++ ":".toList))))))))))) ++
      r₇ := by
    conv_lhs => rw [← List.takeWhile_append_dropWhile (l := cs), h₁, ← gap₁, h₂, ← gap₂, h₃,
      ← gap₃, h₄, ← gap₄, h₇]
    simp only [List.append_assoc, List.cons_append]
  dsimp only at cut ⊢
  rw [List.append_cancel_right (cut.trans whole)]
  refine .words (fun _ => List.mem_takeWhile_imp) ?_ parted quote quote'
  simp only [List.forall_mem_cons]
  exact ⟨blank₁, blank₂, blank₃, blank₄, by simp⟩

theorem guardAt?_of_form {indent text : List Char} (h : GuardText indent text)
    (after : List Char) : guardAt? (text ++ after) = some { indent, text, after } := by
  obtain ⟨indented, blank, apart, quote, quote'⟩ := h
  next b₁ b₂ b₃ b₄ q q' =>
  simp only [List.forall_mem_cons] at blank
  obtain ⟨blank₁, blank₂, blank₃, blank₄, -⟩ := blank
  have first_blank : ∀ rest : List Char, (b₁ ++ rest).head?.any isBlank = true := by
    intro rest
    cases b₁ with
    | nil => contradiction
    | cons c b₁ => exact blank₁ c List.mem_cons_self
  have words : ∀ rest, dropBlanks (b₁ ++ ("__name__".toList ++ rest)) = "__name__".toList ++ rest :=
    fun _ => dropBlanks_gap blank₁ (by simp [isBlank])
  have equals : ∀ rest, dropBlanks (b₂ ++ ("==".toList ++ rest)) = "==".toList ++ rest :=
    fun _ => dropBlanks_gap blank₂ (by simp [isBlank])
  have opened : ∀ rest, dropBlanks (b₃ ++ q :: rest) = q :: rest :=
    fun _ => dropBlanks_gap blank₃ (by simp [isBlank_quote quote])
  have closed : ∀ rest, dropBlanks (b₄ ++ (":".toList ++ rest)) = ":".toList ++ rest :=
    fun _ => dropBlanks_gap blank₄ (by simp [isBlank])
  have margin : ∀ rest, (indent ++ ("if".toList ++ rest)).takeWhile isIndent = indent ∧
      (indent ++ ("if".toList ++ rest)).dropWhile isIndent = "if".toList ++ rest := by
    intro rest
    rw [List.takeWhile_append_of_pos indented, List.dropWhile_append_of_pos indented]
    exact ⟨by simp [isIndent], by simp [isIndent]⟩
  have found : ∃ text, guardAt? ((indent ++ ("if".toList ++ (b₁ ++ ("__name__".toList ++ (b₂ ++
      ("==".toList ++ (b₃ ++ (q :: ("__main__".toList ++ (q' :: (b₄ ++ ":".toList))))))))))) ++
      after) = some { indent, text, after } := by
    simp only [guardAt?, List.append_assoc, List.cons_append, (margin _).1, (margin _).2,
      stripStart_append, first_blank, words, equals, opened, afterQuote?_cons quote,
      afterQuote?_cons quote', closed, Option.bind_eq_bind, Option.bind_some, guard_true,
      Option.pure_def]
    exact ⟨_, rfl⟩
  obtain ⟨text, found⟩ := found
  have whole : text ++ after = _ := guardAt?_cut found
  rw [found, List.append_cancel_right whole]

/-- A place at which a line starts: behind a break, or at the text's start if `lineStart` says so. -/
def AtLine (lineStart : Bool) (before : List Char) : Prop :=
  if before = [] then lineStart = true else WholeLines before

theorem atLine_cons {lineStart : Bool} {c : Char} {before : List Char} :
    AtLine lineStart (c :: before) ↔ AtLine (c = '\n') before := by
  cases before with
  | nil => simp [AtLine, WholeLines]
  | cons d before => simp [AtLine, WholeLines, List.getLast?_cons_cons]

/-- A guard of the text: it starts a line. -/
structure GuardOf (lineStart : Bool) (cs before : List Char) (g : MainGuard) : Prop where
  cut : before ++ (g.text ++ g.after) = cs
  starts : AtLine lineStart before
  form : GuardText g.indent g.text

theorem GuardOf.nil_iff {lineStart : Bool} {cs : List Char} {g : MainGuard} :
    GuardOf lineStart cs [] g ↔ lineStart = true ∧ guardAt? cs = some g := by
  constructor
  · rintro ⟨rfl, starts, form⟩
    exact ⟨starts, guardAt?_of_form form _⟩
  · rintro ⟨starts, found⟩
    exact ⟨guardAt?_cut found, starts, guardAt?_form found⟩

theorem GuardOf.cons_iff {lineStart : Bool} {c d : Char} {cs before : List Char} {g : MainGuard} :
    GuardOf lineStart (c :: cs) (d :: before) g ↔ d = c ∧ GuardOf (c = '\n') cs before g := by
  constructor
  · intro h
    obtain ⟨rfl, cut⟩ := List.cons_eq_cons.mp h.cut
    exact ⟨rfl, cut, atLine_cons.mp h.starts, h.form⟩
  · rintro ⟨rfl, ⟨cut, starts, form⟩⟩
    exact ⟨congrArg (d :: ·) cut, atLine_cons.mpr starts, form⟩

theorem GuardOf.not_nil {lineStart : Bool} {before : List Char} {g : MainGuard} :
    ¬ GuardOf lineStart [] before g := by
  intro h
  obtain ⟨rfl, -⟩ := List.append_eq_nil_iff.mp h.cut
  exact absurd (nil_iff.mp h).2 (by simp [guardAt?, stripStart])

/-- The guard of the text that no other one comes before. -/
structure FirstGuard (lineStart : Bool) (cs before : List Char) (g : MainGuard) : Prop
    extends GuardOf lineStart cs before g where
  first : ∀ {before' g'}, GuardOf lineStart cs before' g' → before.length ≤ before'.length

theorem FirstGuard.here {lineStart : Bool} {cs before : List Char} {g g' : MainGuard}
    (here : GuardOf lineStart cs [] g) :
    FirstGuard lineStart cs before g' ↔ before = [] ∧ g' = g := by
  constructor
  · intro h
    obtain rfl := List.length_eq_zero_iff.mp (Nat.le_zero.mp (h.first here))
    have same := (GuardOf.nil_iff.mp h.toGuardOf).2.symm.trans (GuardOf.nil_iff.mp here).2
    exact ⟨rfl, Option.some.inj same⟩
  · rintro ⟨rfl, rfl⟩
    exact ⟨here, fun _ => Nat.zero_le _⟩

theorem FirstGuard.later {lineStart : Bool} {c : Char} {cs before : List Char} {g : MainGuard}
    (none_here : ∀ g', ¬ GuardOf lineStart (c :: cs) [] g') :
    FirstGuard lineStart (c :: cs) before g ↔
      ∃ front, before = c :: front ∧ FirstGuard (c = '\n') cs front g := by
  constructor
  · rintro ⟨guard, first⟩
    cases before with
    | nil => exact absurd guard (none_here g)
    | cons d front =>
      obtain ⟨rfl, later⟩ := GuardOf.cons_iff.mp guard
      refine ⟨front, rfl, later, fun other => ?_⟩
      exact Nat.le_of_succ_le_succ (first (GuardOf.cons_iff.mpr ⟨rfl, other⟩))
  · rintro ⟨front, rfl, guard, first⟩
    refine ⟨GuardOf.cons_iff.mpr ⟨rfl, guard⟩, fun {before' g'} other => ?_⟩
    cases before' with
    | nil => exact absurd other (none_here g')
    | cons d front' => exact Nat.succ_le_succ (first (GuardOf.cons_iff.mp other).2)

theorem firstGuard?_eq_some_iff {lineStart : Bool} {cs before : List Char} {g : MainGuard} :
    firstGuard? lineStart cs = some (before, g) ↔ FirstGuard lineStart cs before g := by
  induction cs generalizing lineStart before with
  | nil => exact ⟨nofun, fun h => absurd h.toGuardOf GuardOf.not_nil⟩
  | cons c cs ih =>
    rw [firstGuard?]
    split
    · next g₀ found =>
      have here : GuardOf lineStart (c :: cs) [] g₀ := by
        rw [GuardOf.nil_iff]
        simpa using found
      rw [FirstGuard.here here]
      simp [eq_comm]
    · next missed =>
      have none_here : ∀ g', ¬ GuardOf lineStart (c :: cs) [] g' := by
        intro g' guard
        obtain ⟨starts, found⟩ := GuardOf.nil_iff.mp guard
        simp [starts, found] at missed
      rw [FirstGuard.later none_here]
      simp only [Option.map_eq_some_iff, Prod.exists, Prod.mk.injEq, ← ih]
      grind

/-! Lines that start no guard. -/

theorem stripStart_line {pat : List Char} (unbroken : '\n' ∉ pat) (line rest : List Char) :
    stripStart pat (line ++ '\n' :: rest) = (stripStart pat line).map (· ++ '\n' :: rest) := by
  induction pat generalizing line with
  | nil => simp [stripStart]
  | cons p pat ih =>
    obtain ⟨other, later⟩ := not_or.mp (List.mem_cons.not.mp unbroken)
    cases line with
    | nil => simp [stripStart, Ne.symm other]
    | cons c line =>
      by_cases same : p = c
      · simp [stripStart, same, ih later]
      · simp [stripStart, same]

/-- Whether a line starts no guard, whatever is below it. -/
def guardFree (line : List Char) : Bool :=
  match stripStart "if".toList (line.dropWhile isIndent) with
  | none => true
  | some rest =>
    !(dropBlanks rest).isEmpty && (stripStart "__name__".toList (dropBlanks rest)).isNone

/-- Dropping characters of a kind stops at a line break that is of another kind. -/
theorem dropWhile_line {p : Char → Bool} {line : List Char} (stop : line.dropWhile p ≠ [] ∨
    p '\n' = false) (rest : List Char) :
    (line ++ '\n' :: rest).dropWhile p = line.dropWhile p ++ '\n' :: rest := by
  rw [List.dropWhile_append]
  split
  · next dropped =>
    rw [List.isEmpty_iff] at dropped
    obtain left | stop := stop
    · exact absurd dropped left
    · rw [dropped, List.dropWhile_cons_of_neg (by simp [stop]), List.nil_append]
  · rfl

theorem guardAt?_guardFree {line : List Char} (free : guardFree line = true) (rest : List Char) :
    guardAt? (line ++ '\n' :: rest) = none := by
  have margin : (line ++ '\n' :: rest).dropWhile isIndent =
      line.dropWhile isIndent ++ '\n' :: rest := dropWhile_line (.inr rfl) rest
  have keyword := stripStart_line (show '\n' ∉ "if".toList by decide) (line.dropWhile isIndent) rest
  rw [guardFree] at free
  simp only [guardAt?, margin, keyword, Option.bind_eq_bind]
  split at free
  · next absent => rw [absent, Option.map_none, Option.bind_none]
  · next behind found =>
    rw [Bool.and_eq_true, Bool.not_eq_true', List.isEmpty_eq_false_iff, Option.isNone_iff_eq_none]
      at free
    have blanks := dropWhile_line (.inl free.1) rest
    have name := stripStart_line (show '\n' ∉ "__name__".toList by decide) (dropBlanks behind) rest
    rw [← dropBlanks, ← dropBlanks] at blanks
    rw [found, Option.map_some, Option.bind_some, blanks, name, free.2, Option.map_none]
    exact Option.bind_eq_none_iff.mpr fun _ _ => rfl

/-- The search passes over a line that starts no guard. -/
theorem firstGuard?_line {line : List Char} (clean : '\n' ∉ line) (free : guardFree line = true)
    (rest : List Char) : firstGuard? true (line ++ '\n' :: rest) =
      (firstGuard? true rest).map fun x => (line ++ '\n' :: x.1, x.2) := by
  have inside (line : List Char) (clean : '\n' ∉ line) : firstGuard? false (line ++ '\n' :: rest) =
      (firstGuard? true rest).map fun x => (line ++ '\n' :: x.1, x.2) := by
    induction line with
    | nil => rfl
    | cons c line ih =>
      obtain ⟨other, later⟩ := not_or.mp (List.mem_cons.not.mp clean)
      rw [List.cons_append, firstGuard?, decide_eq_false (Ne.symm other), ih later, Option.map_map]
      rfl
  have none_here := guardAt?_guardFree free rest
  cases line with
  | nil =>
    rw [List.nil_append] at none_here
    rw [List.nil_append, firstGuard?, if_pos rfl, none_here]
    rfl
  | cons c line =>
    obtain ⟨other, later⟩ := not_or.mp (List.mem_cons.not.mp clean)
    rw [List.cons_append] at none_here
    rw [List.cons_append, firstGuard?, if_pos rfl, none_here, decide_eq_false (Ne.symm other),
      inside line later, Option.map_map]
    rfl

/-- Lines that start no guard, each with a break. -/
def PassedOver (text : List Char) : Prop :=
  ∃ lines : List (List Char), text = lines.flatMap (· ++ ['\n']) ∧
    ∀ line ∈ lines, '\n' ∉ line ∧ guardFree line = true

theorem PassedOver.firstGuard? {text : List Char} (h : PassedOver text) (rest : List Char) :
    Instrument.firstGuard? true (text ++ rest) =
      (Instrument.firstGuard? true rest).map fun x => (text ++ x.1, x.2) := by
  obtain ⟨lines, rfl, free⟩ := h
  induction lines with
  | nil => simp
  | cons line lines ih =>
    obtain ⟨⟨clean, here⟩, later⟩ := List.forall_mem_cons.mp free
    have text (rest : List Char) : (line :: lines).flatMap (· ++ ['\n']) ++ rest =
        line ++ '\n' :: (lines.flatMap (· ++ ['\n']) ++ rest) := by simp
    rw [text, firstGuard?_line clean here, ih later, Option.map_map]
    congr 1
    funext x
    exact congrArg (·, x.2) (text x.1).symm

theorem PassedOver.append {text more : List Char} (h : PassedOver text) (h' : PassedOver more) :
    PassedOver (text ++ more) := by
  obtain ⟨lines, rfl, free⟩ := h
  obtain ⟨lines', rfl, free'⟩ := h'
  exact ⟨lines ++ lines', List.flatMap_append.symm, List.forall_mem_append.mpr ⟨free, free'⟩⟩

theorem PassedOver.of_lines {lines : List String}
    (free : ∀ line ∈ lines.map String.toList, '\n' ∉ line ∧ guardFree line = true) :
    PassedOver (lines.flatMap (·.toList ++ ['\n'])) :=
  ⟨lines.map String.toList, by rw [List.flatMap_map], free⟩

/-- Without a guard there is no place for the hook. -/
theorem PassedOver.injectHook {text : List Char} (h : PassedOver text) :
    Instrument.injectHook text = text := by
  have missed := h.firstGuard? []
  rw [List.append_nil, Instrument.firstGuard?, Option.map_none] at missed
  simp [Instrument.injectHook, hookInsertion?, missed, insertOr]

/-- Nothing but a comment follows the guard on its line. -/
def OpensBlock (g : MainGuard) : Prop :=
  let rest := trim (g.after.takeWhile (· ≠ '\n'))
  rest = [] ∨ rest.head? = some '#'

theorem isCodeLine_eq_false_iff {line : List Char} :
    isCodeLine line = false ↔ trim line = [] ∨ (trim line).head? = some '#' := by
  by_cases empty : trim line = [] <;> simp [isCodeLine, empty]

/-- The hook that goes below a guard. -/
def hookBelow (g : MainGuard) : List String :=
  hookLines (String.ofList (bodyIndent g.indent (g.after.dropWhile (· ≠ '\n'))))

theorem hookInsertion?_eq_some_iff {source : List Char} {i : Insertion} :
    hookInsertion? source = some i ↔ contains hookMarker.toList source = false ∧
      ∃ before g, FirstGuard true source before g ∧ OpensBlock g ∧
        i = { before := before ++ g.text ++ g.after.takeWhile (· ≠ '\n')
              block := (hookBelow g).flatMap ('\n' :: ·.toList)
              after := g.after.dropWhile (· ≠ '\n') } := by
  simp only [hookInsertion?, Option.bind_eq_bind, Option.bind_eq_some_iff, Option.pure_def,
    Option.guard_eq_some', exists_const, Prod.exists, firstGuard?_eq_some_iff, Option.some.injEq,
    Bool.not_eq_true', isCodeLine_eq_false_iff]
  simp only [OpensBlock, hookBelow, eq_comm]

end AgentWorkbench.Instrument
