import Mathlib.Data.List.Induction

namespace Transition

variable {State Input : Type*} (step : State → Input → State)

-- The state reached from `start` by handling the inputs in order.
def run (start : State) (inputs : List Input) : State :=
  inputs.foldl step start

@[simp] theorem run_nil (start : State) : run step start [] = start := rfl

@[simp] theorem run_cons (start : State) (input : Input) (inputs : List Input) :
    run step start (input :: inputs) = run step (step start input) inputs := rfl

theorem run_append (start : State) (first second : List Input) :
    run step start (first ++ second) = run step (run step start first) second :=
  List.foldl_append

theorem run_concat (start : State) (inputs : List Input) (input : Input) :
    run step start (inputs ++ [input]) = step (run step start inputs) input := by
  rw [run_append, run_cons, run_nil]

-- Every input meets `ok` in the state that handles it.
def StepsMeet (ok : State → Input → Prop) : State → List Input → Prop
  | _, [] => True
  | state, input :: inputs => ok state input ∧ StepsMeet ok (step state input) inputs

instance decidableStepsMeet (ok : State → Input → Prop) [∀ state input, Decidable (ok state input)] :
    ∀ start inputs, Decidable (StepsMeet step ok start inputs)
  | _, [] => isTrue trivial
  | start, input :: inputs =>
    @instDecidableAnd _ _ _ (decidableStepsMeet ok (step start input) inputs)

variable {step} {ok : State → Input → Prop}

-- Runs that are stepped alike under a view stay alike.
theorem run_view {State' : Type*} {step' : State' → Input → State'} (view : State → State')
    (hview : ∀ state input, view (step state input) = step' (view state) input) (start : State)
    (inputs : List Input) : view (run step start inputs) = run step' (view start) inputs := by
  induction inputs generalizing start with
  | nil => rfl
  | cons input inputs ih => rw [run_cons, run_cons, ih, hview]

theorem stepsMeet_append (start : State) (first second : List Input) :
    StepsMeet step ok start (first ++ second) ↔
      StepsMeet step ok start first ∧ StepsMeet step ok (run step start first) second := by
  induction first generalizing start with
  | nil => simp [StepsMeet]
  | cons input inputs ih =>
      simp only [List.cons_append, StepsMeet, run_cons, ih, and_assoc]

theorem stepsMeet_concat (start : State) (inputs : List Input) (input : Input) :
    StepsMeet step ok start (inputs ++ [input]) ↔
      StepsMeet step ok start inputs ∧ ok (run step start inputs) input := by
  simp [stepsMeet_append, StepsMeet]

-- The same condition, read off every way of cutting the run at one input.
theorem stepsMeet_iff_forall_cut (start : State) (inputs : List Input) :
    StepsMeet step ok start inputs ↔
      ∀ past input rest, inputs = past ++ input :: rest → ok (run step start past) input := by
  constructor
  · rintro hmeet past input rest rfl
    exact ((stepsMeet_append start past _).mp hmeet).2.1
  · intro hcut
    induction inputs using List.reverseRecOn with
    | nil => trivial
    | append_singleton inputs input ih =>
        refine (stepsMeet_concat start inputs input).mpr ⟨ih ?_, hcut inputs input [] rfl⟩
        rintro past other rest rfl
        exact hcut past other (rest ++ [input]) (by simp)

-- What holds at first, and after a step exactly when the step meets the condition, holds throughout
-- a run exactly when all of its steps meet it.
theorem forall_prefix_iff_stepsMeet (Holds : State → Prop) {start : State} (hinit : Holds start)
    (hstep : ∀ past input, Holds (run step start past) →
      (Holds (step (run step start past) input) ↔ ok (run step start past) input)) (inputs : List Input) :
    (∀ past, past <+: inputs → Holds (run step start past)) ↔ StepsMeet step ok start inputs := by
  induction inputs using List.reverseRecOn with
  | nil =>
      refine iff_of_true (fun past hpast => ?_) trivial
      rw [List.prefix_nil.mp hpast]
      exact hinit
  | append_singleton inputs input ih =>
      simp only [List.prefix_concat_iff, or_imp, forall_and, forall_eq, ih, stepsMeet_concat, run_concat]
      rw [and_comm]
      exact and_congr_right fun hmeet => hstep inputs input (ih.mpr hmeet inputs (List.prefix_refl _))

theorem stepsMeet_of_forall (h : ∀ state input, ok state input) (start : State) (inputs : List Input) :
    StepsMeet step ok start inputs := by
  induction inputs generalizing start with
  | nil => trivial
  | cons input inputs ih => exact ⟨h start input, ih (step start input)⟩

-- A property of the inputs handled so far and the state they lead to, kept by
-- every admissible step, holds at the end of every admissible run.
theorem run_history {P : List Input → State → Prop} {start : State} (hinit : P [] start)
    (hstep : ∀ past input, P past (run step start past) → ok (run step start past) input →
      P (past ++ [input]) (step (run step start past) input))
    (inputs : List Input) (hmeet : StepsMeet step ok start inputs) :
    P inputs (run step start inputs) := by
  induction inputs using List.reverseRecOn with
  | nil => exact hinit
  | append_singleton inputs input ih =>
      obtain ⟨hpast, hok⟩ := (stepsMeet_concat start inputs input).mp hmeet
      rw [run_concat]
      exact hstep inputs input (ih hpast) hok

theorem run_invariant (Inv : State → Prop)
    (hstep : ∀ state input, Inv state → ok state input → Inv (step state input))
    {start : State} (hinit : Inv start) (inputs : List Input)
    (hmeet : StepsMeet step ok start inputs) : Inv (run step start inputs) :=
  run_history (P := fun _ state => Inv state) hinit (fun _ _ => hstep _ _) inputs hmeet

-- The same when what admits an input does not depend on the state.
theorem run_invariant_of_forall (Inv : State → Prop) {allowed : Input → Prop}
    (hstep : ∀ state input, Inv state → allowed input → Inv (step state input))
    {start : State} (hinit : Inv start) (inputs : List Input)
    (hall : ∀ input ∈ inputs, allowed input) : Inv (run step start inputs) := by
  induction inputs generalizing start with
  | nil => exact hinit
  | cons input inputs ih =>
      have hnext := hstep start input hinit (hall input List.mem_cons_self)
      exact ih hnext fun other hother => hall other (List.mem_cons_of_mem _ hother)

theorem run_invariant_of_step (Inv : State → Prop)
    (hstep : ∀ state input, Inv state → Inv (step state input))
    {start : State} (hinit : Inv start) (inputs : List Input) : Inv (run step start inputs) :=
  run_invariant_of_forall Inv (fun state input h (_ : True) => hstep state input h) hinit inputs
    fun _ _ => trivial

-- Two conditions that agree in the states which steps meeting the first one reach are met by the same runs.
theorem stepsMeet_congr (Inv : State → Prop) {first second : State → Input → Prop}
    (hagree : ∀ state input, Inv state → ok state input → (first state input ↔ second state input))
    (hstep : ∀ state input, Inv state → ok state input → first state input → Inv (step state input))
    {start : State} (hinit : Inv start) (inputs : List Input) (hmeet : StepsMeet step ok start inputs) :
    StepsMeet step first start inputs ↔ StepsMeet step second start inputs := by
  induction inputs generalizing start with
  | nil => exact Iff.rfl
  | cons input inputs ih =>
      have hhere := hagree start input hinit hmeet.1
      constructor
      · rintro ⟨hfirst, hrest⟩
        exact ⟨hhere.mp hfirst, (ih (hstep start input hinit hmeet.1 hfirst) hmeet.2).mp hrest⟩
      · rintro ⟨hsecond, hrest⟩
        have hfirst := hhere.mpr hsecond
        exact ⟨hfirst, (ih (hstep start input hinit hmeet.1 hfirst) hmeet.2).mpr hrest⟩

-- Whatever a run holds at its end was put there by one of its inputs and has survived
-- every input since.
theorem run_provenance {α : Type*} (Member : State → α → Prop) (Born Lost : State → Input → α → Prop)
    {start : State} (hinit : ∀ item, ¬Member start item)
    (hstep : ∀ state input item, Member (step state input) item →
      Born state input item ∨ Member state item ∧ ¬Lost state input item)
    (inputs : List Input) (item : α) (hmember : Member (run step start inputs) item) :
    ∃ past input rest, inputs = past ++ input :: rest ∧ Born (run step start past) input item ∧
      StepsMeet step (fun state input => ¬Lost state input item)
        (run step start (past ++ [input])) rest := by
  induction inputs using List.reverseRecOn with
  | nil => exact absurd hmember (hinit item)
  | append_singleton inputs input ih =>
      rw [run_concat] at hmember
      rcases hstep _ input item hmember with hborn | ⟨hold, hkept⟩
      · exact ⟨inputs, input, [], rfl, hborn, trivial⟩
      · obtain ⟨past, source, rest, rfl, hborn, hrest⟩ := ih hold
        refine ⟨past, source, rest ++ [input], by simp, hborn, ?_⟩
        refine (stepsMeet_concat _ rest input).mpr ⟨hrest, ?_⟩
        rwa [← run_append, List.append_assoc]

-- A cut of a longer run stands at its last input, or is a cut of the run before.
theorem exists_cut_concat_iff {P : List Input → Input → List Input → Prop} {inputs : List Input} {last : Input} :
    (∃ past input rest, inputs ++ [last] = past ++ input :: rest ∧ P past input rest) ↔
      P inputs last [] ∨ ∃ past input rest, inputs = past ++ input :: rest ∧ P past input (rest ++ [last]) := by
  constructor
  · rintro ⟨past, input, rest, hsplit, h⟩
    rcases List.eq_nil_or_concat rest with rfl | ⟨rest, other, rfl⟩
    · obtain ⟨rfl, hlast⟩ := List.append_inj' hsplit rfl
      cases hlast
      exact Or.inl h
    · rw [List.concat_eq_append] at h hsplit
      rw [← List.cons_append, ← List.append_assoc] at hsplit
      obtain ⟨rfl, hlast⟩ := List.append_inj' hsplit rfl
      cases hlast
      exact Or.inr ⟨past, input, rest, rfl, h⟩
  · rintro (h | ⟨past, input, rest, rfl, h⟩)
    · exact ⟨inputs, last, [], rfl, h⟩
    · exact ⟨past, input, rest ++ [last], by simp, h⟩

-- Something that certain inputs set and others clear is there at the end of a run exactly
-- when some input has set it and none has cleared it since.
theorem run_present_iff_of_reachable (Present : State → Prop) {Sets Clears : Input → Prop} {start : State}
    (hinit : ¬Present start)
    (hstep : ∀ past input, Present (step (run step start past) input) ↔
      Sets input ∨ Present (run step start past) ∧ ¬Clears input)
    (inputs : List Input) :
    Present (run step start inputs) ↔ ∃ past input rest, inputs = past ++ input :: rest ∧ Sets input ∧
      ∀ other ∈ rest, ¬Clears other := by
  induction inputs using List.reverseRecOn with
  | nil => simpa using hinit
  | append_singleton inputs input ih =>
      rw [run_concat, hstep, ih, exists_cut_concat_iff]
      simp only [List.forall_mem_append, List.forall_mem_singleton]
      constructor
      · rintro (hsets | ⟨⟨past, source, rest, hsplit, hsets, hrest⟩, hkept⟩)
        · exact Or.inl ⟨hsets, by simp⟩
        · exact Or.inr ⟨past, source, rest, hsplit, hsets, hrest, hkept⟩
      · rintro (⟨hsets, _⟩ | ⟨past, source, rest, hsplit, hsets, hrest, hkept⟩)
        · exact Or.inl hsets
        · exact Or.inr ⟨⟨past, source, rest, hsplit, hsets, hrest⟩, hkept⟩

-- The same when every state steps so.
theorem run_present_iff (Present : State → Prop) {Sets Clears : Input → Prop} {start : State}
    (hinit : ¬Present start)
    (hstep : ∀ state input, Present (step state input) ↔ Sets input ∨ Present state ∧ ¬Clears input)
    (inputs : List Input) :
    Present (run step start inputs) ↔ ∃ past input rest, inputs = past ++ input :: rest ∧ Sets input ∧
      ∀ other ∈ rest, ¬Clears other :=
  run_present_iff_of_reachable Present hinit (fun past input => hstep (run step start past) input) inputs

-- What a run puts out, step by step.
def emitted {Output : Type*} (step : State → Input → State) (emit : State → Input → List Output) :
    State → List Input → List Output
  | _, [] => []
  | state, input :: inputs => emit state input ++ emitted step emit (step state input) inputs

theorem emitted_concat {Output : Type*} (emit : State → Input → List Output) (start : State)
    (inputs : List Input) (input : Input) :
    emitted step emit start (inputs ++ [input]) =
      emitted step emit start inputs ++ emit (run step start inputs) input := by
  induction inputs generalizing start with
  | nil => simp [emitted]
  | cons first rest ih => simp only [List.cons_append, emitted, run_cons, ih, List.append_assoc]

-- A value carried along a run: each step hands on what it makes of it, or drops it.
def carry {α : Type*} (step : State → Input → State) (next : State → Input → α → Option α) :
    State → List Input → α → Option α
  | _, [], value => some value
  | state, input :: inputs, value => (next state input value).bind (carry step next (step state input) inputs)

theorem carry_concat {α : Type*} (next : State → Input → α → Option α) (start : State) (inputs : List Input)
    (input : Input) (value : α) :
    carry step next start (inputs ++ [input]) value =
      (carry step next start inputs value).bind (next (run step start inputs) input) := by
  induction inputs generalizing start value with
  | nil =>
      simp only [List.nil_append, carry, run_nil, Option.bind_some]
      cases next start input value <;> rfl
  | cons first rest ih =>
      simp only [List.cons_append, carry, run_cons, Option.bind_assoc]
      congr
      funext middle
      exact ih (step start first) middle

-- A value that certain inputs set and the others hand on or drop is, at the end of a run, what the
-- run has made of it since the last input that set it.
theorem run_value_iff {α : Type*} {value : State → Option α} {sets : Input → Option α}
    {next : State → Input → α → Option α} {start : State} (hinit : value start = none)
    (hstep : ∀ past input, value (step (run step start past) input) =
      (sets input).or ((value (run step start past)).bind (next (run step start past) input)))
    (inputs : List Input) (final : α) :
    value (run step start inputs) = some final ↔
      ∃ past input rest first, inputs = past ++ input :: rest ∧ sets input = some first ∧
        (∀ other ∈ rest, sets other = none) ∧
        carry step next (run step start (past ++ [input])) rest first = some final := by
  induction inputs using List.reverseRecOn generalizing final with
  | nil => simp [hinit]
  | append_singleton inputs input ih =>
      simp only [exists_and_left] at ih ⊢
      rw [run_concat, hstep, exists_cut_concat_iff]
      cases hsets : sets input with
      | some first =>
          -- the last input sets the value, so that nothing before it counts
          simp only [Option.some_or, List.forall_mem_append, List.forall_mem_singleton, hsets]
          simp [carry]
      | none =>
          simp only [Option.none_or, List.forall_mem_append, List.forall_mem_singleton, hsets]
          simp only [Option.bind_eq_some_iff, ih, carry_concat]
          constructor
          · rintro ⟨middle, ⟨past, source, rest, rfl, first, hfirst, hrest, hcarry⟩, hnext⟩
            refine Or.inr ⟨past, source, rest, rfl, first, hfirst, ⟨hrest, trivial⟩, middle, hcarry, ?_⟩
            rwa [← run_append, List.append_assoc]
          · rintro (⟨_, hnone, _⟩ | ⟨past, source, rest, rfl, first, hfirst, ⟨hrest, _⟩, middle,
              hcarry, hnext⟩)
            · cases hnone
            · refine ⟨middle, ⟨past, source, rest, rfl, first, hfirst, hrest, hcarry⟩, ?_⟩
              rwa [← run_append, List.append_assoc] at hnext

end Transition
