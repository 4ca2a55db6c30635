import AgentWorkbench.Instrument.Routine

/-!
The lines of the routine as characters. Facts about the whole of its text are computed, and that is
done on characters: taking a string apart into its characters is the slow part of such a
computation, and a relation between strings and their characters makes it unnecessary.
-/
namespace AgentWorkbench.Instrument

/-- The texts have these characters. -/
inductive Spelled : List String → List (List Char) → Prop
  | nil : Spelled [] []
  | text {cs css texts} (rest : Spelled texts css) : Spelled (String.ofList cs :: texts) (cs :: css)
  | parts {cs ds css texts} (rest : Spelled texts css) :
      Spelled ((String.ofList cs ++ String.ofList ds) :: texts) ((cs ++ ds) :: css)

theorem Spelled.map_toList {texts : List String} {css : List (List Char)} (h : Spelled texts css) :
    texts.map String.toList = css := by
  induction h with
  | nil => rfl
  | text _ ih => rw [List.map_cons, ih, String.toList_ofList]
  | parts _ ih =>
      rw [List.map_cons, ih, String.toList_append, String.toList_ofList, String.toList_ofList]

end AgentWorkbench.Instrument
