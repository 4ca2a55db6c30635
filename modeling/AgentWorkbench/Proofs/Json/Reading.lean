import AgentWorkbench.Json.Record
import AgentWorkbench.Proofs.Json.Layout

/-!
Readers that read every layout of a value. Each reader of the library has one lemma: it reads the
layouts of a value as the datum that the value stands for, whatever gap is in front of it, and
leaves what follows. A free-form value reads as itself when it is not nested too deep and its
objects are sorted.
-/
namespace AgentWorkbench

namespace JsonReader

open Json

variable {α β σ : Type}

/-- The reader takes every layout of the value for the datum, and leaves what follows it. -/
def Reads (r : JsonReader α) (v : Json) (a : α) : Prop :=
  ∀ ⦃cs gap rest : List Char⦄, Layout (.value v) cs → Gap gap → Delimited rest →
    r (gap ++ (cs ++ rest)) = .ok (a, rest)

theorem skipGap_append {gap cs : List Char} (hgap : Gap gap)
    (solid : ∀ c ∈ cs.head?, isGap c = false) : skipGap (gap ++ cs) = cs := by
  have stop : cs.dropWhile isGap = cs := by
    cases cs with
    | nil => rfl
    | cons c cs => simp [solid c rfl]
  rw [skipGap, List.dropWhile_append_of_pos hgap, stop]

theorem skipGap_cons {gap : List Char} (hgap : Gap gap) {c : Char} (solid : isGap c = false)
    (cs : List Char) : skipGap (gap ++ c :: cs) = c :: cs :=
  skipGap_append hgap (by rintro d ⟨⟩; exact solid)

theorem skipGap_layout {v : Json} {cs gap : List Char} (h : Layout (.value v) cs)
    (hgap : Gap gap) (rest : List Char) : skipGap (gap ++ (cs ++ rest)) = cs ++ rest := by
  obtain ⟨c, tail, rfl, solid, -⟩ := h.head
  exact skipGap_cons hgap solid (tail ++ rest)

theorem nextItem_noItem (first : Bool) {gap : List Char} (hgap : Gap gap) (rest : List Char) :
    nextItem first (gap ++ ']' :: rest) = .ok (false, rest) := by
  rw [nextItem, skipGap_cons hgap (by decide)]
  rfl

theorem nextItem_item {first : Bool} {sep cs : List Char} {v : Json} (hsep : Separator first sep)
    (h : Layout (.value v) cs) (rest : List Char) :
    nextItem first (sep ++ (cs ++ rest)) = .ok (true, cs ++ rest) := by
  obtain ⟨c, tail, rfl, solid, opening, -⟩ := h.head
  cases hsep with
  | first hgap => simp [nextItem, skipGap_cons hgap solid]
  | next before after =>
      rw [List.append_assoc, List.cons_append, nextItem, skipGap_cons before (by decide)]
      simp [skipGap_cons after solid, opening]

theorem nextKey_noMember (first : Bool) {gap : List Char} (hgap : Gap gap) (rest : List Char) :
    nextKey first (gap ++ '\x7d' :: rest) = .ok (false, rest) := by
  rw [nextKey, skipGap_cons hgap (by decide)]
  rfl

theorem nextKey_member {first : Bool} {sep : List Char} (hsep : Separator first sep)
    (rest : List Char) : nextKey first (sep ++ '"' :: rest) = .ok (true, rest) := by
  cases hsep with
  | first hgap =>
      rw [nextKey, skipGap_cons hgap (by decide)]
      rfl
  | next before after =>
      rw [List.append_assoc, List.cons_append, nextKey, skipGap_cons before (by decide)]
      simp [skipGap_cons after (by decide : isGap '"' = false)]

theorem colon_append {gap : List Char} (hgap : Gap gap) (rest : List Char) :
    colon (gap ++ ':' :: rest) = .ok rest := by
  rw [colon, skipGap_cons hgap (by decide)]
  rfl

theorem delimited_gap {gap : List Char} (hgap : Gap gap) {c : Char}
    (hc : c = ',' ∨ c = ']' ∨ c = '\x7d') (rest : List Char) :
    Delimited (gap ++ c :: rest) := by
  cases gap with
  | nil =>
      rintro d ⟨⟩
      exact .inr hc
  | cons d gap =>
      rintro d ⟨⟩
      exact .inl (hgap d (by simp))

theorem delimited_separator {sep : List Char} (h : Separator false sep) (rest : List Char) :
    Delimited (sep ++ rest) := by
  cases h with
  | next before after =>
      rw [List.append_assoc, List.cons_append]
      exact delimited_gap before (.inl rfl) _

theorem delimited_items {l : List Json} {cs : List Char} (h : Layout (.items false l) cs)
    (rest : List Char) : Delimited (cs ++ rest) := by
  cases h with
  | noItem hgap =>
      rw [List.append_assoc, List.cons_append]
      exact delimited_gap hgap (.inr (.inl rfl)) _
  | item hsep here more =>
      rw [List.append_assoc]
      exact delimited_separator hsep _

theorem delimited_members {l : List (String × Json)} {cs : List Char}
    (h : Layout (.members false l) cs) (rest : List Char) : Delimited (cs ++ rest) := by
  cases h with
  | noMember hgap =>
      rw [List.append_assoc, List.cons_append]
      exact delimited_gap hgap (.inr (.inr rfl)) _
  | member key hsep before after here more =>
      rw [List.append_assoc]
      exact delimited_separator hsep _

theorem reads_items {item : JsonReader α} {f : α → Json} {xs : List α}
    (reads : ∀ x ∈ xs, Reads item (f x) x) {first : Bool} {cs : List Char} {fuel : Nat}
    (h : Layout (.items first (xs.map f)) cs) (enough : xs.length < fuel) (rest : List Char) :
    items item fuel first (cs ++ rest) = .ok (xs, rest) := by
  induction xs generalizing first cs fuel with
  | nil =>
      cases fuel with
      | zero => contradiction
      | succ fuel =>
          cases h with
          | noItem hgap =>
              rw [List.append_assoc, List.cons_append, items, nextItem_noItem first hgap]
              rfl
  | cons x xs ih =>
      obtain ⟨here, others⟩ := List.forall_mem_cons.mp reads
      cases fuel with
      | zero => contradiction
      | succ fuel =>
          cases h with
          | @item _ _ _ sep cs more hsep hx hmore =>
              have first_read := here hx .nil (delimited_items hmore rest)
              have rest_read := ih others hmore (Nat.lt_of_succ_lt_succ enough)
              rw [List.nil_append] at first_read
              rw [List.append_assoc, List.append_assoc, items, nextItem_item hsep hx]
              simp only [bind, Except.bind, if_true, first_read, rest_read]
              rfl

theorem reads_members {value : JsonReader Json} {ms : List (String × Json)}
    (reads : ∀ m ∈ ms, Reads value m.2 m.2) {first : Bool} {cs : List Char} {fuel : Nat}
    (h : Layout (.members first ms) cs) (enough : ms.length < fuel) (rest : List Char) :
    members value fuel first (cs ++ rest) = .ok (ms, rest) := by
  induction ms generalizing first cs fuel with
  | nil =>
      cases fuel with
      | zero => contradiction
      | succ fuel =>
          cases h with
          | noMember hgap =>
              rw [List.append_assoc, List.cons_append, members, nextKey_noMember first hgap]
              rfl
  | cons m ms ih =>
      obtain ⟨here, others⟩ := List.forall_mem_cons.mp reads
      cases fuel with
      | zero => contradiction
      | succ fuel =>
          cases h with
          | @member _ key v _ sep before after cs more hsep hbefore hafter hv hmore =>
              have value_read := here hv hafter (delimited_members hmore rest)
              have rest_read := ih others hmore (Nat.lt_of_succ_lt_succ enough)
              simp only [List.append_assoc, List.cons_append, List.nil_append, quote, members,
                nextKey_member hsep, bind, Except.bind, if_true, stringRest_quoted,
                colon_append hbefore, value_read, rest_read, String.ofList_toList]
              rfl

theorem number_rereads {n : JsonNumber} (h : n.Rereads) {rest : List Char}
    (delimited : Delimited rest) : number (n.toText ++ rest) = .ok (n, rest) :=
  (Bounded.number _ _ _ h).2 rest delimited

/-- The first character of a number tells that it is one. -/
theorem startsNumber_of_rereads {n : JsonNumber} (h : n.Rereads) :
    ∃ c tail, n.toText = c :: tail ∧ startsNumber c = true := by
  obtain ⟨sign, digit, tail, eq, rfl | rfl, hd⟩ := exists_digit_of_number h
  · exact ⟨digit, tail, eq, by simp [startsNumber, hd]⟩
  · exact ⟨'-', digit :: tail, eq, by decide⟩

theorem scalar_number {n : JsonNumber} (h : n.Rereads) {rest : List Char}
    (delimited : Delimited rest) : scalar (n.toText ++ rest) = .ok (.num n, rest) := by
  have read := number_rereads h delimited
  obtain ⟨c, tail, eq, starts⟩ := startsNumber_of_rereads h
  rw [eq, List.cons_append] at read ⊢
  have apart : c ≠ '"' ∧ c ≠ 'n' ∧ c ≠ 't' ∧ c ≠ 'f' := by
    refine ⟨?_, ?_, ?_, ?_⟩ <;> (rintro rfl; contradiction)
  simp [scalar, apart, starts, read, bind, Except.bind, pure, Except.pure]

theorem scalar_layout {v : Json} (plain : v.nesting = 0) {cs rest : List Char}
    (h : Layout (.value v) cs) (delimited : Delimited rest) :
    scalar (cs ++ rest) = .ok (v, rest) := by
  cases h with
  | null | yes | no => rfl
  | num rereads => exact scalar_number rereads delimited
  | str s =>
      simp [quote, scalar, stringRest_quoted, bind, Except.bind, pure, Except.pure]
  | arr | obj => simp [nesting] at plain

theorem document_scalar {v : Json} (plain : v.nesting = 0) (fuel depth : Nat) :
    Reads (document (fuel + 1) depth) v v := by
  intro cs gap rest h hgap delimited
  rw [document, skipGap_layout h hgap]
  have read := scalar_layout plain h delimited
  cases h with
  | null | yes | no | str => exact read
  | num rereads =>
      obtain ⟨c, tail, eq, starts⟩ := startsNumber_of_rereads rereads
      rw [eq, List.cons_append] at read ⊢
      have apart : c ≠ '[' ∧ c ≠ '\x7b' := by
        refine ⟨?_, ?_⟩ <;> (rintro rfl; contradiction)
      simpa [apart] using read
  | arr | obj => simp [nesting] at plain

theorem reads_document (v : Json) {fuel depth : Nat} (enough : v.nesting < fuel)
    (shallow : v.nesting ≤ depth) : Reads (document fuel depth) v v := by
  induction v using value_induction generalizing fuel depth with
  | null | bool | num | str =>
      obtain ⟨fuel, rfl⟩ := Nat.exists_eq_succ_of_ne_zero (Nat.ne_zero_of_lt enough)
      exact document_scalar rfl fuel depth
  | arr xs ih =>
      intro cs gap rest h hgap _
      rw [nesting] at enough shallow
      obtain ⟨fuel, rfl⟩ := Nat.exists_eq_succ_of_ne_zero (Nat.ne_zero_of_lt enough)
      obtain ⟨depth, rfl⟩ := Nat.exists_eq_succ_of_ne_zero (Nat.ne_zero_of_lt shallow)
      have inside : ∀ x ∈ xs, Reads (document fuel depth) (id x) x := by
        intro x hx
        have inner := nesting_le_items hx
        have enough : x.nesting < fuel := by omega
        have shallow : x.nesting ≤ depth := by omega
        exact ih x hx enough shallow
      cases h with
      | @arr _ cs h =>
          have bound := h.bound_le
          have room : xs.length < (cs ++ rest).length + 1 := by
            rw [Part.bound] at bound
            rw [List.length_append]
            omega
          rw [← List.map_id xs] at h
          rw [document, List.cons_append, skipGap_cons hgap (by decide)]
          simp only [reads_items inside h room rest, bind, Except.bind]
          rfl
  | obj ms ih =>
      intro cs gap rest h hgap _
      rw [nesting] at enough shallow
      obtain ⟨fuel, rfl⟩ := Nat.exists_eq_succ_of_ne_zero (Nat.ne_zero_of_lt enough)
      obtain ⟨depth, rfl⟩ := Nat.exists_eq_succ_of_ne_zero (Nat.ne_zero_of_lt shallow)
      have inside : ∀ m ∈ ms, Reads (document fuel depth) m.2 m.2 := by
        intro m hm
        have inner := nesting_le_members hm
        have enough : m.2.nesting < fuel := by omega
        have shallow : m.2.nesting ≤ depth := by omega
        exact ih m hm enough shallow
      cases h with
      | @obj _ cs h =>
          have bound := h.bound_le
          have room : ms.length < (cs ++ rest).length + 1 := by
            rw [Part.bound] at bound
            rw [List.length_append]
            omega
          rw [document, List.cons_append, skipGap_cons hgap (by decide)]
          simp only [reads_members inside h room rest, bind, Except.bind]
          rfl

end JsonReader

namespace Json

mutual

/-- In every object inside the value the keys ascend. -/
def Canonical : Json → Prop
  | .arr items => CanonicalItems items
  | .obj members => members.Pairwise (fun m m' => m.1 < m'.1) ∧ CanonicalMembers members
  | _ => True

def CanonicalItems : List Json → Prop
  | [] => True
  | item :: rest => item.Canonical ∧ CanonicalItems rest

def CanonicalMembers : List (String × Json) → Prop
  | [] => True
  | (_, value) :: rest => value.Canonical ∧ CanonicalMembers rest

end

theorem canonical_arr_iff {items : List Json} :
    (Json.arr items).Canonical ↔ ∀ item ∈ items, item.Canonical := by
  rw [Canonical]
  induction items with
  | nil => simp [CanonicalItems]
  | cons item rest ih => rw [CanonicalItems, ih, List.forall_mem_cons]

theorem canonical_obj_iff {members : List (String × Json)} :
    (Json.obj members).Canonical ↔
      members.Pairwise (fun m m' => m.1 < m'.1) ∧ ∀ m ∈ members, m.2.Canonical := by
  have inside : CanonicalMembers members ↔ ∀ m ∈ members, m.2.Canonical := by
    induction members with
    | nil => simp [CanonicalMembers]
    | cons m rest ih => rw [CanonicalMembers, ih, List.forall_mem_cons]
  rw [Canonical, inside]

theorem insertMember_last {key : String} {members : List (String × Json)}
    (h : ∀ m ∈ members, m.1 < key) (value : Json) :
    insertMember key value members = members ++ [(key, value)] := by
  induction members with
  | nil => rfl
  | cons m rest ih =>
      obtain ⟨here, others⟩ := List.forall_mem_cons.mp h
      have apart : key ≠ m.1 := fun same => String.lt_irrefl _ (same ▸ here)
      rw [insertMember, if_neg (String.lt_asymm here), if_neg apart, ih others, List.cons_append]

theorem sortMembers_of_ascending {members : List (String × Json)}
    (h : members.Pairwise fun m m' => m.1 < m'.1) : sortMembers members = members := by
  suffices ∀ sorted, (sorted ++ members).Pairwise (fun m m' => m.1 < m'.1) →
      members.foldl (fun sorted m => insertMember m.1 m.2 sorted) sorted = sorted ++ members from
    this [] h
  clear h
  induction members with
  | nil => simp
  | cons m rest ih =>
      intro sorted h
      have below : ∀ m' ∈ sorted, m'.1 < m.1 :=
        fun m' hm' => (List.pairwise_append.mp h).2.2 m' hm' m (by simp)
      obtain ⟨key, value⟩ := m
      simp only [List.foldl_cons, insertMember_last below value]
      rw [ih _ (by simpa using h), List.append_assoc, List.singleton_append]

/-- A value whose objects are sorted is kept as it is. -/
theorem normalize_of_canonical {v : Json} (h : v.Canonical) : v.normalize = v := by
  induction v using value_induction with
  | null | bool | num | str => rfl
  | arr items ih =>
      have inside := canonical_arr_iff.mp h
      have same : normalizeItems items = items := by
        clear h
        induction items with
        | nil => rfl
        | cons item rest more =>
            rw [List.forall_mem_cons] at ih inside
            rw [normalizeItems, ih.1 inside.1, more ih.2 inside.2]
      rw [normalize, same]
  | obj members ih =>
      obtain ⟨ascending, inside⟩ := canonical_obj_iff.mp h
      have same : normalizeMembers members = members := by
        clear h ascending
        induction members with
        | nil => rfl
        | cons m rest more =>
            rw [List.forall_mem_cons] at ih inside
            rw [normalizeMembers, ih.1 inside.1, more ih.2 inside.2]
      rw [normalize, same, sortMembers_of_ascending ascending]

end Json

namespace JsonReader

open Json

variable {α β σ : Type}

/-- A free-form value of sorted objects is read as it is. -/
theorem reads_value {v : Json} (canonical : v.Canonical) {depth : Nat}
    (shallow : v.nesting ≤ depth) : Reads (value depth) v v := by
  intro cs gap rest h hgap delimited
  have bound := h.bound_le
  have enough : v.nesting < (gap ++ (cs ++ rest)).length + 1 := by
    rw [Part.bound] at bound
    simp only [List.length_append]
    omega
  rw [value, reads_document v enough shallow h hgap delimited]
  simp only [bind, Except.bind, normalize_of_canonical canonical]
  rfl

theorem reads_freeMembers {members : List (String × Json)} {depth : Nat}
    (canonical : (Json.obj members).Canonical) (shallow : (Json.obj members).nesting ≤ depth) :
    Reads (freeMembers depth) (.obj members) members := by
  intro cs gap rest h hgap delimited
  have read := reads_value canonical shallow h hgap delimited
  rw [freeMembers, skipGap_layout h hgap]
  cases h with
  | @obj _ cs h =>
      rw [List.cons_append] at read ⊢
      simp only [read, bind, Except.bind]
      rfl

theorem reads_text (s : String) : Reads text (.str s) s := by
  intro cs gap rest h hgap _
  rw [text, skipGap_layout h hgap]
  cases h with
  | str s => simp [quote, stringRest_quoted, bind, Except.bind, pure, Except.pure]

theorem reads_binary64 (n : JsonNumber) : Reads binary64 (.num n) n.toBinary64 := by
  intro cs gap rest h hgap delimited
  rw [binary64, skipGap_layout h hgap]
  cases h with
  | num rereads =>
      have read := number_rereads rereads delimited
      obtain ⟨c, tail, eq, starts⟩ := startsNumber_of_rereads rereads
      rw [eq, List.cons_append] at read ⊢
      simp [starts, read, bind, Except.bind, pure, Except.pure]

theorem reads_optional_text (s : String) : Reads (optional text) (.str s) (some s) := by
  intro cs gap rest h hgap delimited
  have read := reads_text s h .nil delimited
  rw [optional, skipGap_layout h hgap]
  cases h with
  | str s =>
      rw [List.nil_append] at read
      change (text (quote s ++ rest)).bind _ = _
      rw [read]
      rfl

theorem reads_list {item : Nat → JsonReader α} {f : α → Json} {xs : List α} {depth : Nat}
    (reads : ∀ x ∈ xs, Reads (item depth) (f x) x) :
    Reads (list item (depth + 1)) (.arr (xs.map f)) xs := by
  intro cs gap rest h hgap _
  rw [list, skipGap_layout h hgap]
  cases h with
  | @arr _ cs h =>
      have bound := h.bound_le
      have room : xs.length < (cs ++ rest).length + 1 := by
        rw [Part.bound, List.length_map] at bound
        rw [List.length_append]
        omega
      exact reads_items reads h room rest

/-- The members fill the state: each is a field that was not set and is read into it. -/
inductive Fills (fields : List (JsonField σ)) (depth : Nat) :
    σ → List (String × Json) → σ → Prop
  | nil (s : σ) : Fills fields depth s [] s
  | member {s s' last : σ} {field : JsonField σ} {key : String} {v : Json}
      {rest : List (String × Json)} :
      fields.find? (·.name.toList = key.toList) = some field → field.isSet s = false →
      Reads (field.read depth s) v s' → Fills fields depth s' rest last →
      Fills fields depth s ((key, v) :: rest) last

theorem reads_field {field : JsonField σ} {name : String} {get : σ → Option α}
    {put : σ → α → σ} {reader : Nat → JsonReader α} {depth : Nat} {v : Json} {a : α}
    (s : σ) (eq : field = .of name get put reader) (reads : Reads (reader depth) v a) :
    Reads (field.read depth s) v (put s a) := by
  intro cs gap rest h hgap delimited
  subst eq
  simp only [JsonField.of, reads h hgap delimited, bind, Except.bind]
  rfl

theorem recordMembers_of_fills {fields : List (JsonField σ)} {depth : Nat} {s last : σ}
    {ms : List (String × Json)} (fills : Fills fields depth s ms last) {first : Bool}
    {cs : List Char} {fuel : Nat} (h : Layout (.members first ms) cs) (enough : ms.length < fuel)
    (rest : List Char) :
    recordMembers fields depth fuel first s (cs ++ rest) = .ok (last, rest) := by
  induction fills generalizing first cs fuel with
  | nil s =>
      cases fuel with
      | zero => contradiction
      | succ fuel =>
          cases h with
          | noMember hgap =>
              rw [List.append_assoc, List.cons_append, recordMembers, nextKey_noMember first hgap]
              rfl
  | member found unset reads fills ih =>
      cases fuel with
      | zero => contradiction
      | succ fuel =>
          cases h with
          | @member _ key v _ sep before after cs more hsep hbefore hafter hv hmore =>
              have value_read := reads hv hafter (delimited_members hmore rest)
              have rest_read := ih hmore (Nat.lt_of_succ_lt_succ enough)
              simp only [List.append_assoc, List.cons_append, List.nil_append, quote,
                recordMembers, nextKey_member hsep, bind, Except.bind, if_true,
                stringRest_quoted, found, unset, colon_append hbefore, value_read, rest_read]
              rfl

/-- A record is read from the layouts of an object whose members fill its state. -/
theorem reads_record {fields : List (JsonField σ)} {init last : σ} {finish : σ → Option α}
    {depth : Nat} {ms : List (String × Json)} {a : α} (fills : Fills fields depth init ms last)
    (finished : finish last = some a) :
    Reads (record fields init finish (depth + 1)) (.obj ms) a := by
  intro cs gap rest h hgap _
  rw [record, skipGap_layout h hgap]
  cases h with
  | @obj _ cs h =>
      have bound := h.bound_le
      have room : ms.length < (cs ++ rest).length + 1 := by
        rw [Part.bound] at bound
        rw [List.length_append]
        omega
      rw [List.cons_append]
      simp only [recordMembers_of_fills fills h room rest, bind, Except.bind, finished]
      rfl

/-- A reader that reads the value reads the whole of its texts. -/
theorem run_of_reads {r : JsonReader α} {v : Json} {a : α} (reads : Reads r v a) {cs : List Char}
    (h : Layout (.value v) cs) : run r cs = .ok a := by
  have read := @reads cs [] [] h .nil (by simp [Delimited])
  rw [List.nil_append, List.append_nil] at read
  rw [run, read]
  rfl

end JsonReader

end AgentWorkbench
