import AgentWorkbench.Proofs.Json.Scalar

/-!
The texts that stand for a JSON value: its tokens in order, with a gap wherever one is allowed.
The compact and the pretty text are two of them. What is said of a layout is said of both, and a
reader that reads every layout does not depend on how the text is laid out.
-/
namespace AgentWorkbench

/-- The number's text is read as the number. -/
def JsonNumber.Rereads (n : JsonNumber) : Prop :=
  JsonReader.number n.toText = .ok (n, [])

namespace Json

open JsonReader

theorem value_induction {P : Json → Prop} (null : P .null) (bool : ∀ b, P (.bool b))
    (num : ∀ n, P (.num n)) (str : ∀ s, P (.str s))
    (arr : ∀ items, (∀ item ∈ items, P item) → P (.arr items))
    (obj : ∀ members : List (String × Json), (∀ m ∈ members, P m.2) → P (.obj members))
    (v : Json) : P v :=
  @Json.rec P (fun items => ∀ item ∈ items, P item) (fun members => ∀ m ∈ members, P m.2)
    (fun m => P m.2)
    null bool num str arr obj (by simp) (fun _ _ h hs => List.forall_mem_cons.mpr ⟨h, hs⟩)
    (by simp) (fun _ _ h hs => List.forall_mem_cons.mpr ⟨h, hs⟩) (fun _ _ h => h) v

mutual

/-- The numbers of a value, those inside it included. -/
def numbers : Json → List JsonNumber
  | .num n => [n]
  | .arr items => numbersOfItems items
  | .obj members => numbersOfMembers members
  | _ => []

def numbersOfItems : List Json → List JsonNumber
  | [] => []
  | item :: rest => item.numbers ++ numbersOfItems rest

def numbersOfMembers : List (String × Json) → List JsonNumber
  | [] => []
  | (_, value) :: rest => value.numbers ++ numbersOfMembers rest

end

mutual

/-- How many arrays and objects stand inside each other, the value itself included. -/
def nesting : Json → Nat
  | .arr items => nestingOfItems items + 1
  | .obj members => nestingOfMembers members + 1
  | _ => 0

def nestingOfItems : List Json → Nat
  | [] => 0
  | item :: rest => max item.nesting (nestingOfItems rest)

def nestingOfMembers : List (String × Json) → Nat
  | [] => 0
  | (_, value) :: rest => max value.nesting (nestingOfMembers rest)

end

theorem mem_numbers_arr {item : Json} {items : List Json} {n : JsonNumber} (h : item ∈ items)
    (hn : n ∈ item.numbers) : n ∈ (Json.arr items).numbers := by
  rw [numbers]
  induction h with
  | head rest => exact List.mem_append_left _ hn
  | tail other _ ih => exact List.mem_append_right _ ih

theorem mem_numbers_obj {m : String × Json} {members : List (String × Json)} {n : JsonNumber}
    (h : m ∈ members) (hn : n ∈ m.2.numbers) : n ∈ (Json.obj members).numbers := by
  rw [numbers]
  induction h with
  | head rest => exact List.mem_append_left _ hn
  | tail other _ ih => exact List.mem_append_right _ ih

theorem nesting_le_items {item : Json} {items : List Json} (h : item ∈ items) :
    item.nesting ≤ nestingOfItems items := by
  induction h with
  | head rest => exact Nat.le_max_left _ _
  | tail other _ ih => exact Nat.le_trans ih (Nat.le_max_right _ _)

theorem nesting_le_members {m : String × Json} {members : List (String × Json)}
    (h : m ∈ members) : m.2.nesting ≤ nestingOfMembers members := by
  induction h with
  | head rest => exact Nat.le_max_left _ _
  | tail other _ ih => exact Nat.le_trans ih (Nat.le_max_right _ _)

def Gap (cs : List Char) : Prop :=
  ∀ c ∈ cs, isGap c = true

@[simp] theorem Gap.nil : Gap [] := by
  simp [Gap]

theorem gap_newline (depth : Nat) : Gap (newline depth) := by
  intro c hc
  obtain rfl | hc := List.mem_cons.mp hc
  · rfl
  · rw [List.eq_of_mem_replicate hc]
    rfl

theorem gap_blank : Gap [' '] := by
  simp [Gap, isGap]

/-- What stands in front of an item or member: a comma unless it is the first. -/
inductive Separator : (first : Bool) → List Char → Prop
  | first {gap : List Char} : Gap gap → Separator true gap
  | next {before after : List Char} :
      Gap before → Gap after → Separator false (before ++ ',' :: after)

/-- A value, or what is left of an array or object at one of its items or members. -/
inductive Part where
  | value (v : Json)
  | items (first : Bool) (rest : List Json)
  | members (first : Bool) (rest : List (String × Json))

/-- The text stands for the part; what is left of an array or object has its bracket too. -/
inductive Layout : Part → List Char → Prop
  | null : Layout (.value .null) "null".toList
  | yes : Layout (.value (.bool true)) "true".toList
  | no : Layout (.value (.bool false)) "false".toList
  | num {n : JsonNumber} : n.Rereads → Layout (.value (.num n)) n.toText
  | str (s : String) : Layout (.value (.str s)) (quote s)
  | arr {items : List Json} {cs : List Char} :
      Layout (.items true items) cs → Layout (.value (.arr items)) ('[' :: cs)
  | obj {members : List (String × Json)} {cs : List Char} :
      Layout (.members true members) cs → Layout (.value (.obj members)) ('\x7b' :: cs)
  | noItem {first : Bool} {gap : List Char} :
      Gap gap → Layout (.items first []) (gap ++ [']'])
  | item {first : Bool} {v : Json} {rest : List Json} {sep cs more : List Char} :
      Separator first sep → Layout (.value v) cs → Layout (.items false rest) more →
      Layout (.items first (v :: rest)) (sep ++ (cs ++ more))
  | noMember {first : Bool} {gap : List Char} :
      Gap gap → Layout (.members first []) (gap ++ ['\x7d'])
  | member {first : Bool} (key : String) {v : Json} {rest : List (String × Json)}
      {sep before after cs more : List Char} :
      Separator first sep → Gap before → Gap after → Layout (.value v) cs →
      Layout (.members false rest) more →
      Layout (.members first ((key, v) :: rest))
        (sep ++ (quote key ++ (before ++ ':' :: (after ++ (cs ++ more)))))

theorem layout_compactMoreItems {items : List Json}
    (h : ∀ item ∈ items, Layout (.value item) item.compactChars) :
    Layout (.items false items) (compactMoreItems items ++ [']']) := by
  induction items with
  | nil => exact .noItem .nil
  | cons item rest ih =>
      obtain ⟨here, others⟩ := List.forall_mem_cons.mp h
      simpa [compactMoreItems] using Layout.item (.next .nil .nil) here (ih others)

theorem layout_compactMoreMembers {members : List (String × Json)}
    (h : ∀ m ∈ members, Layout (.value m.2) m.2.compactChars) :
    Layout (.members false members) (compactMoreMembers members ++ ['\x7d']) := by
  induction members with
  | nil => exact .noMember .nil
  | cons m rest ih =>
      obtain ⟨here, others⟩ := List.forall_mem_cons.mp h
      simpa [compactMoreMembers] using
        Layout.member m.1 (.next .nil .nil) .nil .nil here (ih others)

/-- The compact text is the layout without gaps. -/
theorem layout_compactChars (v : Json) (rereads : ∀ n ∈ v.numbers, n.Rereads) :
    Layout (.value v) v.compactChars := by
  induction v using value_induction with
  | null => exact .null
  | bool b =>
      cases b with
      | false => exact .no
      | true => exact .yes
  | num n => exact .num (rereads n (by simp [numbers]))
  | str s => exact .str s
  | arr items ih =>
      have inside : ∀ item ∈ items, Layout (.value item) item.compactChars :=
        fun item hi => ih item hi fun n hn => rereads n (mem_numbers_arr hi hn)
      rw [compactChars]
      cases items with
      | nil => exact .arr (.noItem .nil)
      | cons item rest =>
          obtain ⟨here, others⟩ := List.forall_mem_cons.mp inside
          simpa [compactItems] using
            Layout.arr (.item (.first .nil) here (layout_compactMoreItems others))
  | obj members ih =>
      have inside : ∀ m ∈ members, Layout (.value m.2) m.2.compactChars :=
        fun m hm => ih m hm fun n hn => rereads n (mem_numbers_obj hm hn)
      rw [compactChars]
      cases members with
      | nil => exact .obj (.noMember .nil)
      | cons m rest =>
          obtain ⟨here, others⟩ := List.forall_mem_cons.mp inside
          simpa [compactMembers] using
            Layout.obj (.member m.1 (.first .nil) .nil .nil here
              (layout_compactMoreMembers others))

theorem layout_prettyMoreItems {items : List Json} {depth : Nat} {gap : List Char}
    (hgap : Gap gap) (h : ∀ item ∈ items, Layout (.value item) (item.prettyChars depth)) :
    Layout (.items false items) (prettyMoreItems depth items ++ (gap ++ [']'])) := by
  induction items with
  | nil => exact .noItem hgap
  | cons item rest ih =>
      obtain ⟨here, others⟩ := List.forall_mem_cons.mp h
      simpa [prettyMoreItems] using
        Layout.item (.next .nil (gap_newline depth)) here (ih others)

theorem layout_prettyMoreMembers {members : List (String × Json)} {depth : Nat}
    {gap : List Char} (hgap : Gap gap)
    (h : ∀ m ∈ members, Layout (.value m.2) (m.2.prettyChars depth)) :
    Layout (.members false members) (prettyMoreMembers depth members ++ (gap ++ ['\x7d'])) := by
  induction members with
  | nil => exact .noMember hgap
  | cons m rest ih =>
      obtain ⟨here, others⟩ := List.forall_mem_cons.mp h
      simpa [prettyMoreMembers] using
        Layout.member m.1 (.next .nil (gap_newline depth)) .nil gap_blank here (ih others)

/-- The pretty text is a layout whose gaps are the line breaks with the blanks after them. -/
theorem layout_prettyChars (v : Json) (rereads : ∀ n ∈ v.numbers, n.Rereads) (depth : Nat) :
    Layout (.value v) (v.prettyChars depth) := by
  induction v using value_induction generalizing depth with
  | null => exact .null
  | bool b =>
      cases b with
      | false => exact .no
      | true => exact .yes
  | num n => exact .num (rereads n (by simp [numbers]))
  | str s => exact .str s
  | arr items ih =>
      have inside : ∀ item ∈ items, Layout (.value item) (item.prettyChars (depth + 1)) :=
        fun item hi => ih item hi (fun n hn => rereads n (mem_numbers_arr hi hn)) (depth + 1)
      cases items with
      | nil => exact .arr (.noItem .nil)
      | cons item rest =>
          obtain ⟨here, others⟩ := List.forall_mem_cons.mp inside
          simpa [prettyChars] using
            Layout.arr (.item (.first (gap_newline (depth + 1))) here
              (layout_prettyMoreItems (gap_newline depth) others))
  | obj members ih =>
      have inside : ∀ m ∈ members, Layout (.value m.2) (m.2.prettyChars (depth + 1)) :=
        fun m hm => ih m hm (fun n hn => rereads n (mem_numbers_obj hm hn)) (depth + 1)
      cases members with
      | nil => exact .obj (.noMember .nil)
      | cons m rest =>
          obtain ⟨here, others⟩ := List.forall_mem_cons.mp inside
          simpa [prettyChars] using
            Layout.obj (.member m.1 (.first (gap_newline (depth + 1))) .nil gap_blank here
              (layout_prettyMoreMembers (gap_newline depth) others))

/-- How long the text of a part is at least. -/
def Part.bound : Part → Nat
  | .value v => max 1 v.nesting
  | .items _ rest => max rest.length (nestingOfItems rest)
  | .members _ rest => max rest.length (nestingOfMembers rest)

theorem Layout.bound_le {part : Part} {cs : List Char} (h : Layout part cs) :
    part.bound ≤ cs.length := by
  induction h with
  | null | yes | no => decide
  | num rereads =>
      obtain ⟨sign, digit, tail, eq, -, -⟩ := exists_digit_of_number rereads
      simp only [Part.bound, nesting, eq, List.length_append, List.length_cons]
      omega
  | str s => simp [Part.bound, nesting, quote]
  | arr h ih | obj h ih =>
      simp only [Part.bound, nesting, List.length_cons] at ih ⊢
      omega
  | noItem gap | noMember gap => simp [Part.bound, nestingOfItems, nestingOfMembers]
  | item sep here more ihHere ihMore =>
      simp only [Part.bound, nestingOfItems, List.length_append, List.length_cons] at *
      omega
  | member key sep before after here more ihHere ihMore =>
      simp only [Part.bound, nestingOfMembers, List.length_append, List.length_cons] at *
      omega

/-- A value begins with a character that is no gap and closes or separates nothing. -/
theorem Layout.head {v : Json} {cs : List Char} (h : Layout (.value v) cs) :
    ∃ c tail, cs = c :: tail ∧ isGap c = false ∧ c ≠ ']' ∧ c ≠ ',' := by
  cases h with
  | null | yes | no | str | arr | obj => exact ⟨_, _, rfl, by decide⟩
  | num rereads =>
      obtain ⟨sign, digit, tail, eq, rfl | rfl, hd⟩ := exists_digit_of_number rereads
      · have solid : ¬ Delimited [digit] := by
          intro delimited
          rw [delimited.not_number.1] at hd
          contradiction
        simp only [Delimited, List.head?_cons, Option.mem_some_iff, forall_eq', not_or] at solid
        exact ⟨digit, tail, eq, eq_false_of_ne_true solid.1, solid.2.2.1, solid.2.1⟩
      · exact ⟨'-', digit :: tail, eq, by decide⟩

theorem Layout.getLast?_members {first : Bool} {ms : List (String × Json)} {cs : List Char}
    (h : Layout (.members first ms) cs) : cs.getLast? = some '\x7d' := by
  induction ms generalizing first cs with
  | nil =>
      cases h with
      | noMember hgap => simp
  | cons m ms ih =>
      cases h with
      | member key hsep before after here more =>
          simp [List.getLast?_append, List.getLast?_cons, ih more]

end Json

end AgentWorkbench
