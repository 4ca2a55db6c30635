import AgentWorkbench.Proofs.Python.Twin

/-!
Two readers in tandem: on tokens at corresponding places both fail, or both succeed with
corresponding results and are at corresponding places again. The second reader may have other
tokens behind those that the two share; the grammar never goes on over the end of a line at the
top level, unless with the clauses of a compound statement.
-/
namespace AgentWorkbench.Python

/-- The kinds of tokens with which no statement starts. -/
def continuing : List TokenKind :=
  [.newline, .indent, .dedent, .keyword "elif", .keyword "else", .keyword "except",
    .keyword "finally"]

/-- Tokens that go on with nothing that is before them. -/
def Fresh (ts : List Token) : Prop :=
  ∀ t ∈ ts.head?, t.kind ∉ continuing

/-- The tokens left to two readers inside `depth` blocks: those of the first one close the blocks
and end their lines, and the second one has the same and fresh tokens after them. -/
inductive Alike (σ : Shift) : (depth : Nat) → List Token → List Token → Prop
  | done : Fresh σ.rest → Alike σ 0 [] σ.rest
  | token {depth : Nat} {t t' : Token} {ts ts' : List Token} :
    t.kind.isBreak = false → Token.Twin σ t t' → ts ≠ [] → Alike σ depth ts ts' →
      Alike σ depth (t :: ts) (t' :: ts')
  | newline {depth : Nat} {t t' : Token} {ts ts' : List Token} :
    t.kind = .newline → t'.kind = .newline → Alike σ depth ts ts' →
      Alike σ depth (t :: ts) (t' :: ts')
  | indent {depth : Nat} {t t' : Token} {ts ts' : List Token} :
    t.kind = .indent → t'.kind = .indent → Alike σ (depth + 1) ts ts' →
      Alike σ depth (t :: ts) (t' :: ts')
  | dedent {depth : Nat} {t t' : Token} {ts ts' : List Token} :
    t.kind = .dedent → t'.kind = .dedent → Alike σ depth ts ts' →
      Alike σ (depth + 1) (t :: ts) (t' :: ts')

/-- The same with tokens left to the first reader. -/
structure Ahead (σ : Shift) (depth : Nat) (ts ts' : List Token) : Prop where
  ne_nil : ts ≠ []
  alike : Alike σ depth ts ts'

variable {σ : Shift} {d n c : Nat} {ts ts' : List Token}

theorem Alike.length_eq (h : Alike σ d ts ts') : ts'.length = ts.length + σ.rest.length := by
  induction h with
  | done _ => simp
  | token _ _ _ _ ih | newline _ _ _ ih | indent _ _ _ ih | dedent _ _ _ ih =>
    simp only [List.length_cons, ih]
    omega

theorem Alike.length_le (h : Alike σ d ts ts') : ts.length ≤ ts'.length := by
  rw [h.length_eq]
  exact Nat.le_add_right _ _

theorem Alike.ahead (h : Alike σ (d + 1) ts ts') : Ahead σ (d + 1) ts ts' := by
  refine ⟨?_, h⟩
  rintro rfl
  cases h

/-- What two readers give that started with `room` tokens: both nothing, or related values. -/
inductive Outcome {α β : Type} (E : List Token → List Token → Prop) (room c : Nat)
    (S : α → β → Prop) : Option (α × List Token) → Option (β × List Token) → Prop
  | neither : Outcome E room c S none none
  | both {v : α} {v' : β} {ts ts' : List Token} :
    S v v' → E ts ts' → ts.length + c ≤ room → Outcome E room c S (some (v, ts)) (some (v', ts'))

theorem Outcome.cases {α β : Type} {E : List Token → List Token → Prop} {room : Nat}
    {S : α → β → Prop} {r : Option (α × List Token)} {r' : Option (β × List Token)}
    (h : Outcome E room c S r r') :
    (r = none ∧ r' = none) ∨ ∃ v v' us us', r = some (v, us) ∧ r' = some (v', us') ∧
      S v v' ∧ E us us' ∧ us.length + c ≤ room := by
  cases h with
  | neither => exact .inl ⟨rfl, rfl⟩
  | both hs he hl => exact .inr ⟨_, _, _, _, rfl, rfl, hs, he, hl⟩

theorem Outcome.grow {α β : Type} {E : List Token → List Token → Prop} {room room' a : Nat}
    {S : α → β → Prop} {r : Option (α × List Token)} {r' : Option (β × List Token)}
    (h : Outcome E room a S r r') (hr : room + c ≤ room' + a) : Outcome E room' c S r r' := by
  cases h with
  | neither => exact .neither
  | both hs he hl => exact .both hs he (by omega)

/-- From places related by `D`, with at most `n` tokens left, the readers take at least `c` tokens
and come to places related by `E`, with values related by `S`; or both fail. -/
def Tandem {α β : Type} (D E : List Token → List Token → Prop) (n c : Nat) (S : α → β → Prop)
    (p : Parse α) (p' : Parse β) : Prop :=
  ∀ ⦃ts ts' : List Token⦄, D ts ts' → ts.length ≤ n → Outcome E ts.length c S (p ts) (p' ts')

namespace Parse

variable {α β : Type}

theorem bind_apply (p : Parse α) (f : α → Parse β) (ts : List Token) :
    (p >>= f) ts = (p ts).bind fun x => f x.1 x.2 := rfl

theorem pure_apply (a : α) (ts : List Token) : (pure a : Parse α) ts = some (a, ts) := rfl

theorem orElse_apply (p q : Parse α) (ts : List Token) : (p <|> q) ts = (p ts).or (q ts) := by
  cases h : p ts <;> simp [HOrElse.hOrElse, OrElse.orElse, Alternative.orElse, StateT.orElse, h]

end Parse

namespace Tandem

variable {α α' β β' γ γ' : Type} {D E F : List Token → List Token → Prop}
  {S : α → α' → Prop} {T : β → β' → Prop} {p q : Parse α} {p' q' : Parse α'}
  {f : α → Parse β} {f' : α' → Parse β'} {a m : Nat}

protected theorem pure {v : α} {v' : α'} (h : S v v') : Tandem D D n 0 S (pure v) (pure v') :=
  fun _ _ hd _ => .both h hd (Nat.le_refl _)

protected theorem failure : Tandem D E n c S failure failure :=
  fun _ _ _ _ => .neither

theorem mono {S' : α → α' → Prop} (h : Tandem D E n a S p p') (hm : m ≤ n) (hc : c ≤ a)
    (hS : ∀ v v', S v v' → S' v v') : Tandem D E m c S' p p' := by
  intro ts ts' hd hl
  obtain ⟨h, h'⟩ | ⟨v, v', us, us', h, h', hs, he, hlen⟩ := (h hd (Nat.le_trans hl hm)).cases
  · rw [h, h']
    exact .neither
  · rw [h, h']
    exact .both (hS _ _ hs) he (by omega)

/-- The same from fewer places, and to more of them. -/
theorem widen {D' E' : List Token → List Token → Prop} (h : Tandem D E n c S p p')
    (hD : ∀ ts ts', D' ts ts' → D ts ts') (hE : ∀ ts ts', E ts ts' → E' ts ts') :
    Tandem D' E' n c S p p' := by
  intro ts ts' hd hl
  obtain ⟨h, h'⟩ | ⟨v, v', us, us', h, h', hs, he, hlen⟩ := (h (hD _ _ hd) hl).cases
  · rw [h, h']
    exact .neither
  · rw [h, h']
    exact .both hs (hE _ _ he) hlen

theorem comap {D' : List Token → List Token → Prop} (h : Tandem D E n c S p p')
    (hD : ∀ ts ts', D' ts ts' → D ts ts') : Tandem D' E n c S p p' :=
  h.widen hD fun _ _ h => h

theorem land {E' : List Token → List Token → Prop} (h : Tandem D E n c S p p')
    (hE : ∀ ts ts', E ts ts' → E' ts ts') : Tandem D E' n c S p p' :=
  h.widen (fun _ _ h => h) hE

theorem restrict (h : Tandem D E n c S p p') (hm : m ≤ n) : Tandem D E m c S p p' :=
  h.mono hm (Nat.le_refl _) fun _ _ h => h

theorem weaken (h : Tandem D E n a S p p') : Tandem D E n 0 S p p' :=
  h.mono (Nat.le_refl _) (Nat.zero_le _) fun _ _ h => h

protected theorem bind (hp : Tandem D E n a S p p')
    (hf : ∀ v v', S v v' → Tandem E F n c T (f v) (f' v')) :
    Tandem D F n c T (p >>= f) (p' >>= f') := by
  intro ts ts' hd hl
  rw [Parse.bind_apply, Parse.bind_apply]
  obtain ⟨h, h'⟩ | ⟨v, v', us, us', h, h', hs, he, hlen⟩ := (hp hd hl).cases
  · rw [h, h']
    exact .neither
  · rw [h, h', Option.bind_some, Option.bind_some]
    exact (hf v v' hs he (by omega)).grow (by omega)

/-- A reader that takes tokens leaves less room to the ones after it. -/
theorem next (hp : Tandem D E n a S p p')
    (hf : ∀ m, m + a ≤ n → ∀ v v', S v v' → Tandem E F m 0 T (f v) (f' v')) :
    Tandem D F n a T (p >>= f) (p' >>= f') := by
  intro ts ts' hd hl
  rw [Parse.bind_apply, Parse.bind_apply]
  obtain ⟨h, h'⟩ | ⟨v, v', us, us', h, h', hs, he, hlen⟩ := (hp hd hl).cases
  · rw [h, h']
    exact .neither
  · rw [h, h', Option.bind_some, Option.bind_some]
    exact (hf us.length (by omega) v v' hs he (Nat.le_refl _)).grow (by omega)

theorem orElse (hp : Tandem D E n c S p p') (hq : Tandem D E n c S q q') :
    Tandem D E n c S (p <|> q) (p' <|> q') := by
  intro ts ts' hd hl
  rw [Parse.orElse_apply, Parse.orElse_apply]
  obtain ⟨h, h'⟩ | ⟨v, v', us, us', h, h', hs, he, hlen⟩ := (hp hd hl).cases
  · rw [h, h']
    exact hq hd hl
  · rw [h, h']
    exact .both hs he hlen

theorem guarded {b b' : Prop} [Decidable b] [Decidable b'] (h : b ↔ b') :
    Tandem D D n 0 (fun _ _ => True) (guard b : Parse Unit) (guard b') := by
  by_cases hb : b
  · simp only [guard, hb, h.1 hb, if_true]
    exact Tandem.pure trivial
  · simp only [guard, hb, mt h.2 hb, if_false]
    exact Tandem.failure

theorem optional (hp : Tandem D D n a S p p') :
    Tandem D D n 0 (Option.Rel S) (Parse.optional p) (Parse.optional p') := by
  intro ts ts' hd hl
  obtain ⟨h, h'⟩ | ⟨v, v', us, us', h, h', hs, he, hlen⟩ := (hp hd hl).cases
  · simp only [Parse.optional, h, h']
    exact .both .none hd (Nat.le_refl _)
  · simp only [Parse.optional, h, h']
    exact .both (.some hs) he (by omega)

theorem manyWithin (hp : Tandem D D n 1 S p p') {budget budget' : List Token}
    (hd : D ts ts') (hl : ts.length ≤ n) (hb : ts.length ≤ budget.length)
    (hb' : ts.length ≤ budget'.length) :
    Outcome D ts.length 0 (List.Forall₂ S) (Parse.manyWithin p budget ts)
      (Parse.manyWithin p' budget' ts') := by
  induction budget generalizing ts ts' budget' with
  | nil =>
    -- Without tokens the first reader stops, and so does the second one whatever its budget is.
    have hnil : ts = [] := List.eq_nil_of_length_eq_zero (Nat.le_zero.1 hb)
    obtain ⟨h, h'⟩ | ⟨v, v', us, us', -, -, -, -, hlen⟩ := (hp hd hl).cases
    · cases budget' with
      | nil => exact .both .nil hd (Nat.le_refl _)
      | cons b' budget' =>
        simp only [Parse.manyWithin, h']
        exact .both .nil hd (Nat.le_refl _)
    · simp [hnil] at hlen
  | cons b budget ih =>
    obtain ⟨h, h'⟩ | ⟨v, v', us, us', h, h', hs, he, hlen⟩ := (hp hd hl).cases
    · cases budget' with
      | nil =>
        simp only [Parse.manyWithin, h]
        exact .both .nil hd (Nat.le_refl _)
      | cons b' budget' =>
        simp only [Parse.manyWithin, h, h']
        exact .both .nil hd (Nat.le_refl _)
    · cases budget' with
      | nil => simp at hb'; simp [hb'] at hlen
      | cons b' budget' =>
        simp only [List.length_cons] at hb hb'
        simp only [Parse.manyWithin, h, h']
        have hrest : Outcome D us.length 0 (List.Forall₂ S) (Parse.manyWithin p budget us)
            (Parse.manyWithin p' budget' us') :=
          ih he (by omega) (by omega) (by omega)
        obtain ⟨hm, hm'⟩ | ⟨w, w', vs, vs', hm, hm', ht, hv, hlen'⟩ := hrest.cases
        · rw [hm, hm']
          exact .neither
        · rw [hm, hm', Option.map_some, Option.map_some]
          have hshort : vs.length + 0 ≤ ts.length := by omega
          exact .both (.cons hs ht) hv hshort

theorem many (hD : ∀ ts ts', D ts ts' → ts.length ≤ ts'.length) (hp : Tandem D D n 1 S p p') :
    Tandem D D n 0 (List.Forall₂ S) (Parse.many p) (Parse.many p') :=
  fun _ _ hd hl => hp.manyWithin hd hl (Nat.le_refl _) (hD _ _ hd)

end Tandem

/-- Nonempty lists of related values. -/
structure Several {α β : Type} (S : α → β → Prop) (vs : List α) (vs' : List β) : Prop where
  ne_nil : vs ≠ []
  each : List.Forall₂ S vs vs'

/-- What is read of a list with commas. -/
structure Listed {α β : Type} (σ : Shift) (S : α → β → Prop) (x : List α × Option Token)
    (x' : List β × Option Token) : Prop where
  several : Several S x.1 x'.1
  comma : Option.Rel (Token.Placed σ) x.2 x'.2

theorem Ahead.head_kind (h : Ahead σ d ts ts') :
    ts'.head?.map Token.kind = ts.head?.map Token.kind := by
  cases h.alike with
  | done _ => exact absurd rfl h.ne_nil
  | token _ ht _ _ => simp [ht.kind]
  | newline hk hk' _ | indent hk hk' _ | dedent hk hk' _ => simp [hk, hk']

theorem Ahead.length_le (h : Ahead σ d ts ts') : ts.length ≤ ts'.length :=
  h.alike.length_le

namespace Tandem

variable {α α' β β' : Type} {S : α → α' → Prop} {p : Parse α} {p' : Parse α'}

/-! One token. -/

/-- A reader that decides by the kind of the first token, and takes none that ends a line. -/
theorem ofKind {γ : Type} {p : Parse α} {S : α → α → Prop} (g : TokenKind → Option γ)
    (pack : γ → Token → α) (hp : ∀ t ts, p (t :: ts) = (g t.kind).map fun x => (pack x t, ts))
    (hbreak : ∀ kind, kind.isBreak = true → g kind = none)
    (hS : ∀ x t t', g t.kind = some x → Token.Twin σ t t' → Token.Placed σ t t' →
      S (pack x t) (pack x t')) :
    Tandem (Ahead σ d) (Ahead σ d) n 1 S p p := by
  rintro ts ts' ⟨hne, ha⟩ hl
  cases ha with
  | done _ => exact absurd rfl hne
  | @token _ t t' us us' hb ht hts ha =>
    rw [hp, hp, ht.kind]
    cases h : g t.kind with
    | some x => exact .both (hS x t t' h ht (ht.placed hb)) ⟨hts, ha⟩ (Nat.le_refl _)
    | none => exact .neither
  | newline hk hk' _ | indent hk hk' _ | dedent hk hk' _ =>
    rw [hp, hp, hk, hk', hbreak _ rfl]
    exact .neither

theorem token {kind : TokenKind} (hk : kind.isBreak = false) :
    Tandem (Ahead σ d) (Ahead σ d) n 1 (Token.Placed σ) (Parse.accept kind)
      (Parse.accept kind) := by
  refine ofKind (fun k => if k = kind then some () else none) (fun _ t => t) ?_ ?_ ?_
  · intro t ts
    by_cases h : t.kind = kind <;> simp [Parse.accept, h]
  · intro k hb
    have : k ≠ kind := by
      rintro rfl
      rw [hk] at hb
      cases hb
    simp [this]
  · exact fun _ _ _ _ _ ht => ht

theorem tokenOf {kinds : List TokenKind} (hk : ∀ kind ∈ kinds, kind.isBreak = false) :
    Tandem (Ahead σ d) (Ahead σ d) n 1 (Token.Placed σ) (Parse.oneOf kinds)
      (Parse.oneOf kinds) := by
  refine ofKind (fun k => if k ∈ kinds then some () else none) (fun _ t => t) ?_ ?_ ?_
  · intro t ts
    by_cases h : t.kind ∈ kinds <;> simp [Parse.oneOf, h]
  · intro k hb
    have : k ∉ kinds := fun h => by simp [hk k h] at hb
    simp [this]
  · exact fun _ _ _ _ _ ht => ht

/-- The text of a name, and what the other kinds of tokens with a content carry. -/
def nameText? : TokenKind → Option String
  | .name text => some text
  | _ => none

def stringParts? : TokenKind → Option (StringPrefix × List Char)
  | .string flags content => some (flags, content)
  | _ => none

def formatFlags? : TokenKind → Option StringPrefix
  | .formatStart flags => some flags
  | _ => none

def formatContent? : TokenKind → Option (List Char)
  | .formatText content => some content
  | _ => none

theorem ofName :
    Tandem (Ahead σ d) (Ahead σ d) n 1
      (fun x x' => (x'.1 = x.1 ∧ σ.allowed x.1) ∧ Token.Placed σ x.2 x'.2) Parse.name
      Parse.name := by
  refine ofKind nameText? Prod.mk ?_ ?_ ?_
  · rintro ⟨kind, start, stop⟩ ts
    cases kind <;> rfl
  · intro kind hb
    cases kind <;> first | rfl | cases hb
  · rintro text ⟨kind, start, stop⟩ t' hx ht hp
    cases kind <;> cases hx
    exact ⟨⟨rfl, ht.name text rfl⟩, hp⟩

theorem ofString :
    Tandem (Ahead σ d) (Ahead σ d) n 1
      (fun x x' => (x'.1 = x.1 ∧ x'.2.1 = x.2.1) ∧ Token.Placed σ x.2.2 x'.2.2)
      Parse.plainString Parse.plainString := by
  refine ofKind stringParts?
    (fun x t => (x.1, x.2, t)) ?_ ?_ fun _ _ _ _ _ hp => ⟨⟨rfl, rfl⟩, hp⟩
  · rintro ⟨kind, start, stop⟩ ts
    cases kind <;> rfl
  · intro kind hb
    cases kind <;> first | rfl | cases hb

theorem ofFormatStart :
    Tandem (Ahead σ d) (Ahead σ d) n 1
      (fun x x' => x'.1 = x.1 ∧ Token.Placed σ x.2 x'.2) Parse.formatStart
      Parse.formatStart := by
  refine ofKind formatFlags? Prod.mk ?_ ?_
    fun _ _ _ _ _ hp => ⟨rfl, hp⟩
  · rintro ⟨kind, start, stop⟩ ts
    cases kind <;> rfl
  · intro kind hb
    cases kind <;> first | rfl | cases hb

theorem ofFormatText :
    Tandem (Ahead σ d) (Ahead σ d) n 1
      (fun x x' => x'.1 = x.1 ∧ Token.Placed σ x.2 x'.2) Parse.formatText
      Parse.formatText := by
  refine ofKind formatContent? Prod.mk ?_ ?_
    fun _ _ _ _ _ hp => ⟨rfl, hp⟩
  · rintro ⟨kind, start, stop⟩ ts
    cases kind <;> rfl
  · intro kind hb
    cases kind <;> first | rfl | cases hb

theorem peeked : Tandem (Ahead σ d) (Ahead σ d) n 0 (fun x x' => x' = x) Parse.peek Parse.peek :=
  fun _ _ hd _ => .both hd.head_kind hd (Nat.le_refl _)

theorem token? {kind : TokenKind} (hk : kind.isBreak = false) :
    Tandem (Ahead σ d) (Ahead σ d) n 0 (Option.Rel (Token.Placed σ)) (Parse.accept? kind)
      (Parse.accept? kind) := by
  have h : Parse.accept? kind = Parse.optional (Parse.accept kind) := by
    funext ts
    simp only [Parse.accept?, Parse.optional]
    cases Parse.accept kind ts <;> rfl
  rw [h]
  exact (token hk).optional

theorem many1 (hD : ∀ ts ts', D ts ts' → ts.length ≤ ts'.length) (hp : Tandem D D n 1 S p p') :
    Tandem D D n 1 (Several S) (Parse.many1 p) (Parse.many1 p') :=
  hp.next fun _ hm _ _ h =>
    ((hp.restrict (Nat.le_of_lt hm)).many hD).bind fun _ _ hs =>
      .pure ⟨List.cons_ne_nil _ _, .cons h hs⟩

theorem commaList (hp : Tandem (Ahead σ d) (Ahead σ d) n c S p p') :
    Tandem (Ahead σ d) (Ahead σ d) n c (Listed σ S) (Parse.commaList p) (Parse.commaList p') :=
  hp.next fun m hm _ _ h =>
    have hmore : Tandem (Ahead σ d) (Ahead σ d) m 1 S (do let _ ← Parse.op ","; p)
        (do let _ ← Parse.op ","; p') :=
      (token rfl).next fun k hk _ _ _ => (hp.restrict (by omega)).weaken
    (hmore.many fun _ _ => Ahead.length_le).bind fun _ _ hs =>
      (token? rfl).bind fun _ _ hc => .pure ⟨⟨List.cons_ne_nil _ _, .cons h hs⟩, hc⟩

end Tandem

end AgentWorkbench.Python
