import Cougr.Library.Transition

namespace Transition

variable {State Input Answer : Type*} {step : State → Input → State} {answer : State → Input → Answer}
  {mine : Input → Prop} [DecidablePred mine]

-- What the inputs of one owner are answered along a run.
def answersTo (step : State → Input → State) (answer : State → Input → Answer) (mine : Input → Prop)
    [DecidablePred mine] : State → List Input → List Answer :=
  emitted step fun state input => if mine input then [answer state input] else []

-- If the inputs of the others do not show in what an owner sees, and its own go by what it sees, then
-- leaving the others out changes neither what it sees nor what it is answered.
theorem run_filter (Alike : State → State → Prop) {ok : State → Input → Prop}
    (hother : ∀ state alone input, ¬mine input → ok state input → Alike state alone →
      Alike (step state input) alone)
    (hmine : ∀ state alone input, mine input → Alike state alone →
      answer state input = answer alone input ∧ Alike (step state input) (step alone input))
    {start alone : State} (hstart : Alike start alone) (inputs : List Input)
    (hmeet : StepsMeet step ok start inputs) :
    Alike (run step start inputs) (run step alone (inputs.filter mine)) ∧
      answersTo step answer mine start inputs = answersTo step answer mine alone (inputs.filter mine) := by
  induction inputs generalizing start alone with
  | nil => exact ⟨hstart, rfl⟩
  | cons input inputs ih =>
      obtain ⟨hok, hrest⟩ := hmeet
      by_cases hinput : mine input
      · obtain ⟨hanswer, hnext⟩ := hmine start alone input hinput hstart
        obtain ⟨hend, hanswers⟩ := ih hnext hrest
        rw [List.filter_cons_of_pos (by simpa using hinput)]
        refine ⟨hend, ?_⟩
        simp only [answersTo, emitted, if_pos hinput, hanswer] at hanswers ⊢
        rw [hanswers]
      · obtain ⟨hend, hanswers⟩ := ih (hother start alone input hinput hok hstart) hrest
        rw [List.filter_cons_of_neg (by simpa using hinput)]
        refine ⟨hend, ?_⟩
        simp only [answersTo, emitted, if_neg hinput, List.nil_append] at hanswers ⊢
        exact hanswers

section TwoRuns

variable {Alike : State → State → Prop} {ok : State → Input → Prop}

theorem answersTo_append (start : State) (first second : List Input) :
    answersTo step answer mine start (first ++ second) =
      answersTo step answer mine start first ++ answersTo step answer mine (run step start first) second := by
  induction first generalizing start with
  | nil => rfl
  | cons input first ih =>
      simp only [answersTo] at ih ⊢
      simp only [List.cons_append, emitted, ih, List.append_assoc, run_cons]

variable (answer) in
-- Inputs of the others alone show in nothing.
theorem run_others (hother : ∀ start state input, ¬mine input → ok state input → Alike start state →
      Alike start (step state input))
    {start state : State} (hstart : Alike start state) (inputs : List Input)
      (hall : ∀ input ∈ inputs, ¬mine input)
    (hmeet : StepsMeet step ok state inputs) :
    Alike start (run step state inputs) ∧ answersTo step answer mine state inputs = [] := by
  induction inputs generalizing state with
  | nil => exact ⟨hstart, rfl⟩
  | cons input inputs ih =>
      obtain ⟨hinput, hrest⟩ := List.forall_mem_cons.mp hall
      obtain ⟨hend, hanswers⟩ := ih (hother start state input hinput hmeet.1 hstart) hrest hmeet.2
      refine ⟨hend, ?_⟩
      simp only [answersTo, emitted, if_neg hinput, List.nil_append] at hanswers ⊢
      exact hanswers

-- Two runs with the same inputs of one owner, and any of the others between them.
theorem run_same_filter (hsymm : ∀ first second, Alike first second → Alike second first)
    (hother : ∀ start state input, ¬mine input → ok state input → Alike start state →
      Alike start (step state input))
    (hmine : ∀ first second input, mine input → ok first input → ok second input → Alike first second →
      answer first input = answer second input ∧ Alike (step first input) (step second input))
    {first second : State} (hstart : Alike first second) (inputs inputs' : List Input)
    (hfirst : StepsMeet step ok first inputs) (hsecond : StepsMeet step ok second inputs')
    (hsame : inputs.filter mine = inputs'.filter mine) :
    Alike (run step first inputs) (run step second inputs') ∧
      answersTo step answer mine first inputs = answersTo step answer mine second inputs' := by
  induction inputs generalizing first second inputs' with
  | nil =>
      have hall : ∀ input ∈ inputs', ¬mine input := by simpa using hsame.symm
      obtain ⟨hend, hanswers⟩ := run_others answer hother hstart inputs' hall hsecond
      exact ⟨hend, hanswers.symm⟩
  | cons input inputs ih =>
      by_cases hinput : mine input
      · -- the other run comes to this input after some of the others
        rw [List.filter_cons_of_pos (by simpa using hinput)] at hsame
        obtain ⟨past, rest, rfl, hpast, _, hrest⟩ := List.filter_eq_cons_iff.mp hsame.symm
        obtain ⟨hbefore, hok, hafter⟩ := (stepsMeet_append second past _).mp hsecond
        obtain ⟨hthere, hnone⟩ :=
          run_others answer hother hstart past (fun other h => by simpa using hpast other h) hbefore
        obtain ⟨hanswer, hnext⟩ := hmine _ _ input hinput hfirst.1 hok hthere
        obtain ⟨hend, hanswers⟩ := ih hnext rest hfirst.2 hafter hrest.symm
        refine ⟨by rwa [run_append], ?_⟩
        rw [answersTo_append, hnone, List.nil_append]
        simp only [answersTo, emitted, if_pos hinput, hanswer] at hanswers ⊢
        rw [hanswers]
      · rw [List.filter_cons_of_neg (by simpa using hinput)] at hsame
        have hmoved := hsymm _ _ (hother second first input hinput hfirst.1 (hsymm _ _ hstart))
        obtain ⟨hend, hanswers⟩ := ih hmoved inputs' hfirst.2 hsecond hsame
        refine ⟨hend, ?_⟩
        simp only [answersTo, emitted, if_neg hinput, List.nil_append] at hanswers ⊢
        exact hanswers

end TwoRuns

end Transition
