import AgentWorkbench.Proofs.Python.Scanners

/-!
The contents of strings. What a scanner of string contents finds is a part of the text up to the
closing quote, and it is the same part if more text stands behind a line boundary.
-/
namespace AgentWorkbench.Python.Lexer

open Text

/-- The quotes of a string: one, or three of a kind. -/
def IsQuoting (quote : List Char) : Prop :=
  ∃ c, StringPrefix.isQuote c = true ∧ (quote = [c] ∨ quote = [c, c, c])

variable {cs more content after quote : List Char} {c : Char}

theorem quote?_quoting {rest : List Char} (h : quote? cs = some (quote, rest)) :
    IsQuoting quote := by
  cases cs with
  | nil => contradiction
  | cons c cs =>
    rw [quote?_cons] at h
    split_ifs at h with opens
    · cases h
      exact ⟨c, opens, .inr rfl⟩
    · cases h
      exact ⟨c, opens, .inl rfl⟩

theorem stringStart?_quoting {letters rest : List Char}
    (h : stringStart? cs = some (letters, quote, rest)) : IsQuoting quote := by
  simp only [stringStart?, Option.map_eq_some_iff, Prod.exists, Prod.mk.injEq] at h
  obtain ⟨_, _, opened, -, rfl, -⟩ := h
  exact quote?_quoting opened

namespace IsQuoting

theorem unbroken (h : IsQuoting quote) : '\n' ∉ quote := by
  obtain ⟨c, opens, rfl | rfl⟩ := h <;> simp [(isQuote_ne_break opens).symm]

theorem length_pos (h : IsQuoting quote) : 0 < quote.length := by
  obtain ⟨c, -, rfl | rfl⟩ := h <;> simp

/-- What a quote starts with. -/
theorem isQuote_head (h : IsQuoting quote) (front : quote.isPrefixOf (c :: cs) = true) :
    StringPrefix.isQuote c = true := by
  obtain ⟨q, opens, rfl | rfl⟩ := h
  all_goals
    rw [List.isPrefixOf_iff_prefix, List.cons_prefix_cons] at front
    exact front.1 ▸ opens

end IsQuoting

/-! Strings. -/

theorem stringContent?_plain (ne : c ≠ '\\') : stringContent? quote (c :: cs) =
    if quote.isPrefixOf (c :: cs) then some ([], (c :: cs).drop quote.length)
    else if c.toNat = 0 ∨ (c = '\n' ∧ quote.length = 1) then none
    else stringContent?.extend [c] (stringContent? quote cs) :=
  stringContent?.eq_3 quote c cs (fun _ h => absurd h ne) (fun _ _ h => absurd h ne)

theorem extend_eq_some {front : List Char} {o : Option (List Char × List Char)} :
    stringContent?.extend front o = some (content, after) ↔
      ∃ more, o = some (more, after) ∧ content = front ++ more := by
  simp only [stringContent?.extend, Option.map_eq_some_iff, Prod.exists, Prod.mk.injEq]
  constructor
  · rintro ⟨more, _, rfl, rfl, rfl⟩
    exact ⟨more, rfl, rfl⟩
  · rintro ⟨more, rfl, rfl⟩
    exact ⟨more, after, rfl, rfl, rfl⟩

/-- The text is the content, the quote and what is after it. -/
theorem stringContent?_cut (found : stringContent? quote cs = some (content, after)) :
    cs = content ++ (quote ++ after) := by
  induction cs using stringContent?.induct quote generalizing content with
  | case1 rest ih =>
    rw [stringContent?.eq_1, extend_eq_some] at found
    obtain ⟨inner, found, rfl⟩ := found
    simp [ih found]
  | case2 c rest other ih =>
    rw [stringContent?.eq_2 _ _ _ other, extend_eq_some] at found
    obtain ⟨inner, found, rfl⟩ := found
    simp [ih found]
  | case3 c rest h₁ h₂ front =>
    rw [stringContent?.eq_3 _ _ _ h₁ h₂, if_pos front] at found
    cases found
    obtain ⟨rest', cut⟩ := List.isPrefixOf_iff_prefix.mp front
    simp [← cut]
  | case4 c rest h₁ h₂ front ends =>
    rw [stringContent?.eq_3 _ _ _ h₁ h₂, if_neg front, if_pos ends] at found
    contradiction
  | case5 c rest h₁ h₂ front ends ih =>
    rw [stringContent?.eq_3 _ _ _ h₁ h₂, if_neg front, if_neg ends, extend_eq_some] at found
    obtain ⟨inner, found, rfl⟩ := found
    simp [ih found]
  | case6 => contradiction

theorem stringContent?_append (quoting : IsQuoting quote) (h : LineBoundary cs more)
    (found : stringContent? quote cs = some (content, after)) :
    stringContent? quote (cs ++ more) = some (content, after ++ more) := by
  induction cs using stringContent?.induct quote generalizing content with
  | case1 rest ih =>
    rw [stringContent?.eq_1, extend_eq_some] at found
    obtain ⟨inner, found, rfl⟩ := found
    have later := ih h.tail.tail.tail found
    rw [List.cons_append, List.cons_append, List.cons_append, stringContent?.eq_1, later]
    rfl
  | case2 c rest other ih =>
    rw [stringContent?.eq_2 _ _ _ other, extend_eq_some] at found
    obtain ⟨inner, found, rfl⟩ := found
    have later := ih h.tail.tail found
    have other' : ∀ rest', c = '\r' → rest ++ more = '\n' :: rest' → False := by
      intro rest' hc cut
      cases rest with
      | nil => contradiction
      | cons d rest => exact other rest hc (by rw [(List.cons_eq_cons.mp cut).1])
    rw [List.cons_append, List.cons_append, stringContent?.eq_2 _ _ _ other', later]
    rfl
  | case3 c rest h₁ h₂ front =>
    rw [stringContent?.eq_3 _ _ _ h₁ h₂, if_pos front] at found
    cases found
    have ne : c ≠ '\\' := by
      rintro rfl
      exact absurd (quoting.isQuote_head front) (by decide)
    have front' : quote.isPrefixOf (c :: (rest ++ more)) = true := by
      rw [← List.cons_append, (h.halts (List.cons_ne_nil c rest)).isPrefixOf quoting.unbroken, front]
    have enough : quote.length ≤ (c :: rest).length :=
      (List.isPrefixOf_iff_prefix.mp front).length_le
    rw [List.cons_append, stringContent?_plain ne, if_pos front', ← List.cons_append,
      List.drop_append_of_le_length enough]
  | case4 c rest h₁ h₂ front ends =>
    rw [stringContent?.eq_3 _ _ _ h₁ h₂, if_neg front, if_pos ends] at found
    contradiction
  | case5 c rest h₁ h₂ front ends ih =>
    rw [stringContent?.eq_3 _ _ _ h₁ h₂, if_neg front, if_neg ends, extend_eq_some] at found
    obtain ⟨inner, found, rfl⟩ := found
    have ne : c ≠ '\\' := by
      rintro rfl
      cases rest with
      | nil => contradiction
      | cons d rest => exact h₂ d rest rfl rfl
    have front' : ¬ quote.isPrefixOf (c :: (rest ++ more)) = true := by
      rwa [← List.cons_append, (h.halts (List.cons_ne_nil c rest)).isPrefixOf quoting.unbroken]
    rw [List.cons_append, stringContent?_plain ne, if_neg front', if_neg ends, ih h.tail found]
    rfl
  | case6 => contradiction

/-! Format strings. -/

/-- What ends the literal text of a format string. -/
def FormatStop.closing (quote : List Char) : FormatStop → List Char
  | .quote => quote
  | .brace => ['\x7b']

variable {raw : Bool} {stop : FormatStop}

theorem formatExtend_eq_some {front : List Char}
    {o : Option (List Char × FormatStop × List Char)} :
    formatContent?.extend front o = some (content, stop, after) ↔
      ∃ more, o = some (more, stop, after) ∧ content = front ++ more := by
  simp only [formatContent?.extend, Option.map_eq_some_iff, Prod.exists, Prod.mk.injEq]
  constructor
  · rintro ⟨more, _, _, rfl, rfl, rfl, rfl⟩
    exact ⟨more, rfl, rfl⟩
  · rintro ⟨more, rfl, rfl⟩
    exact ⟨more, stop, after, rfl, rfl, rfl, rfl⟩

/-- What the scanner finds in a text it finds in the text with more behind a line boundary, and it
is the front of the text. -/
def Finds (quote : List Char) (scan : List Char → Option (List Char × FormatStop × List Char))
    (cs : List Char) : Prop :=
  ∀ ⦃content stop after⦄, scan cs = some (content, stop, after) →
    cs = content ++ (stop.closing quote ++ after) ∧
      ∀ more, LineBoundary cs more → scan (cs ++ more) = some (content, stop, after ++ more)

/-- A scanner that takes some characters and goes on as another one does. -/
theorem Finds.extend {scan scan' : List Char → Option (List Char × FormatStop × List Char)}
    {inner : List Char} (front : List Char) (found : Finds quote scan inner)
    (here : scan' (front ++ inner) = formatContent?.extend front (scan inner))
    (longer : ∀ more, LineBoundary (front ++ inner) more → scan inner ≠ none →
      scan' (front ++ (inner ++ more)) = formatContent?.extend front (scan (inner ++ more))) :
    Finds quote scan' (front ++ inner) := by
  intro content stop after h
  rw [here, formatExtend_eq_some] at h
  obtain ⟨content, h, rfl⟩ := h
  obtain ⟨cut, append⟩ := found h
  refine ⟨by rw [List.append_assoc, ← cut], fun more boundary => ?_⟩
  have inside : LineBoundary inner more :=
    boundary.imp_left (·.of_isSuffix (List.suffix_append front _))
  rw [List.append_assoc, longer more boundary (by simp [h]), append more inside]
  rfl

theorem Finds.of_none {scan : List Char → Option (List Char × FormatStop × List Char)}
    (h : scan cs = none) : Finds quote scan cs := by
  intro content stop after found
  rw [h] at found
  contradiction

theorem formatContent?_plain (open_ : c ≠ '\x7b') (close : c ≠ '\x7d') (plain : c ≠ '\\') :
    formatContent? raw quote (c :: cs) =
      if quote.isPrefixOf (c :: cs) then some ([], .quote, (c :: cs).drop quote.length)
      else if c.toNat = 0 ∨ (c = '\n' ∧ quote.length = 1) then none
      else formatContent?.extend [c] (formatContent? raw quote cs) :=
  formatContent?.eq_8 raw quote c cs (fun _ h => absurd h open_) (fun _ h => absurd h close)
    open_ close (fun _ h => absurd h plain) (fun _ h => absurd h plain) (fun _ _ h => absurd h plain)

theorem formatContent?_backslash (quoting : IsQuoting quote) :
    formatContent? raw quote ['\\'] = none := by
  have unclosed : ¬ quote.isPrefixOf ['\\'] = true := fun front =>
    absurd (quoting.isQuote_head front) (by decide)
  rw [formatContent?.eq_8 raw quote '\\' [] (fun _ => nofun) (fun _ => nofun) nofun nofun
    (fun _ _ => nofun) (fun _ _ => nofun) (fun _ _ _ => nofun), if_neg unclosed]
  rfl

theorem finds_formatContent? (quoting : IsQuoting quote) (cs : List Char) :
    Finds quote (formatContent? raw quote) cs := by
  induction cs using formatContent?.induct raw quote
    (Finds quote (formatContent?.named? raw quote)) with
  | case1 rest ih => exact ih.extend ['\x7d'] rfl fun _ _ _ => rfl
  | case2 rest _ => exact .of_none rfl
  | case3 c rest other unbroken ih =>
    refine ih.extend [c] ?_ fun _ _ _ => ?_
    · exact (formatContent?.named?.eq_2 raw quote c rest other).trans (if_neg unbroken)
    · exact (formatContent?.named?.eq_2 raw quote c _ other).trans (if_neg unbroken)
  | case4 => exact .of_none rfl
  | case5 rest ih =>
    refine ih.extend ['\x7b', '\x7b'] ?_ fun _ _ _ => ?_
    · exact formatContent?.eq_1 raw quote rest
    · exact formatContent?.eq_1 raw quote _
  | case6 rest ih =>
    refine ih.extend ['\x7d', '\x7d'] ?_ fun _ _ _ => ?_
    · exact formatContent?.eq_2 raw quote rest
    · exact formatContent?.eq_2 raw quote _
  | case7 rest single =>
    intro content stop after found
    rw [formatContent?.eq_3 raw quote rest single] at found
    cases found
    refine ⟨rfl, fun more boundary => ?_⟩
    refine formatContent?.eq_3 raw quote (rest ++ more) fun rest' doubled => ?_
    cases rest with
    | cons d rest => exact single rest (by rw [(List.cons_eq_cons.mp doubled).1])
    | nil =>
      have clean : WholeLines ['\x7b'] → False := fun whole => absurd (whole _ rfl) (by decide)
      have tail := boundary.resolve_left clean
      rw [List.nil_append] at doubled
      rw [doubled] at tail
      exact absurd (tail _ rfl) (by decide)
  | case8 rest single => exact .of_none (formatContent?.eq_4 raw quote rest single)
  | case9 rest ih =>
    refine ih.extend ['\\', '\r', '\n'] ?_ fun _ _ _ => ?_
    · exact formatContent?.eq_5 raw quote rest
    · exact formatContent?.eq_5 raw quote _
  | case10 rest hraw ih =>
    refine ih.extend ['\\', 'N'] ?_ fun _ _ _ => ?_
    · exact (formatContent?.eq_6 raw quote rest).trans (if_pos hraw)
    · exact (formatContent?.eq_6 raw quote _).trans (if_pos hraw)
  | case11 rest hraw ih =>
    refine ih.extend ['\\', 'N', '\x7b'] ?_ fun _ _ _ => ?_
    · exact (formatContent?.eq_6 raw quote rest).trans (if_neg hraw)
    · exact (formatContent?.eq_6 raw quote _).trans (if_neg hraw)
  | case12 c rest h₁ h₂ brace ih =>
    refine ih.extend ['\\'] ?_ fun more _ _ => ?_
    · exact (formatContent?.eq_7 raw quote c rest h₁ h₂).trans (if_pos brace)
    · have ne : c ≠ '\r' ∧ c ≠ 'N' := by obtain rfl | rfl := brace <;> decide
      exact (formatContent?.eq_7 raw quote c (rest ++ more) (fun _ h => absurd h ne.1)
        (fun _ h => absurd h ne.2)).trans (if_pos brace)
  | case13 c rest h₁ h₂ brace ih =>
    refine ih.extend ['\\', c] ?_ fun more _ some_found => ?_
    · exact (formatContent?.eq_7 raw quote c rest h₁ h₂).trans (if_neg brace)
    · -- an escape at the end of the text closes no string
      cases rest with
      | nil => exact absurd (formatContent?.eq_9 raw quote) some_found
      | cons d rest =>
        refine (formatContent?.eq_7 raw quote c (d :: (rest ++ more)) (fun rest' hc cut => ?_)
          (fun rest' hc cut => ?_)).trans (if_neg brace)
        · exact h₁ rest hc (by rw [(List.cons_eq_cons.mp cut).1])
        · exact h₂ rest hc (by rw [(List.cons_eq_cons.mp cut).1])
  | case14 c rest _ _ hopen hclose h₁ h₂ h₃ front =>
    have plain : c ≠ '\\' := by
      rintro rfl
      exact absurd (quoting.isQuote_head front) (by decide)
    intro content stop after found
    rw [formatContent?_plain hopen hclose plain, if_pos front] at found
    cases found
    have enough : quote.length ≤ (c :: rest).length :=
      (List.isPrefixOf_iff_prefix.mp front).length_le
    refine ⟨?_, fun more boundary => ?_⟩
    · exact (List.prefix_iff_eq_append.mp (List.isPrefixOf_iff_prefix.mp front)).symm
    · have front' : quote.isPrefixOf (c :: (rest ++ more)) = true := by
        rw [← List.cons_append,
          (boundary.halts (List.cons_ne_nil c rest)).isPrefixOf quoting.unbroken, front]
      rw [List.cons_append, formatContent?_plain hopen hclose plain, if_pos front',
        ← List.cons_append, List.drop_append_of_le_length enough]
  | case15 c rest g₁ g₂ hopen hclose h₁ h₂ h₃ front ends =>
    refine .of_none ?_
    rw [formatContent?.eq_8 raw quote c rest g₁ g₂ hopen hclose h₁ h₂ h₃, if_neg front, if_pos ends]
  | case16 c rest g₁ g₂ hopen hclose h₁ h₂ h₃ front ends ih =>
    by_cases plain : c = '\\'
    · subst plain
      cases rest with
      | nil => exact .of_none (formatContent?_backslash quoting)
      | cons d rest => exact absurd rfl fun h => h₃ d rest h rfl
    · have step : ∀ rest, ¬ quote.isPrefixOf (c :: rest) = true →
          formatContent? raw quote (c :: rest) =
            formatContent?.extend [c] (formatContent? raw quote rest) := by
        intro rest front
        rw [formatContent?_plain hopen hclose plain, if_neg front, if_neg ends]
      refine ih.extend [c] (step rest front) fun more boundary _ => ?_
      have halts : Halts (c :: rest) more := LineBoundary.halts boundary (List.cons_ne_nil c rest)
      have front' : ¬ quote.isPrefixOf (c :: (rest ++ more)) = true := by
        rwa [← List.cons_append, halts.isPrefixOf quoting.unbroken]
      exact step (rest ++ more) front'
  | case17 => exact .of_none (formatContent?.eq_9 raw quote)

end AgentWorkbench.Python.Lexer
