import Cougr.Library.Transition

-- Answers about a state that are kept for as long as the version of the state stays the same.
namespace VersionedCache

open Transition

variable {State Input Answer Cache : Type*} {step : State → Input → State} {ok : State → Input → Prop}
  {version : State → Nat} {answer : State → Answer}

section Versions

-- An admitted step never turns the version back, and whatever it does to the answer shows in the version.
structure Versioned (step : State → Input → State) (ok : State → Input → Prop) (version : State → Nat)
    (answer : State → Answer) : Prop where
  grows : ∀ state input, ok state input → version state ≤ version (step state input)
  kept : ∀ state input, ok state input → version (step state input) = version state →
    answer (step state input) = answer state

theorem Versioned.grows_run (h : Versioned step ok version answer) {state : State} {inputs : List Input}
    (hmeet : StepsMeet step ok state inputs) : version state ≤ version (run step state inputs) := by
  induction inputs generalizing state with
  | nil => exact Nat.le_refl _
  | cons input inputs ih =>
      have hfirst := h.grows state input hmeet.1
      have hrest := ih hmeet.2
      rw [run_cons]
      omega

-- A run that comes back to the version it started with has never left it.
theorem Versioned.kept_run (h : Versioned step ok version answer) {state : State} {inputs : List Input}
    (hmeet : StepsMeet step ok state inputs) (hversion : version (run step state inputs) = version state) :
    answer (run step state inputs) = answer state := by
  induction inputs generalizing state with
  | nil => rfl
  | cons input inputs ih =>
      have hfirst := h.grows state input hmeet.1
      have hrest := h.grows_run hmeet.2
      rw [run_cons] at hversion ⊢
      rw [ih hmeet.2 (by omega)]
      exact h.kept state input hmeet.1 (by omega)

end Versions

section Caches

-- What a cache remembers, if anything, is an answer and the version it was given at. `about` tells which
-- caches are for this question. Invalidation forgets the answer or dates it back.
structure Lawful (version : State → Nat) (answer : State → Answer) (about : Cache → Prop)
    (memory : Cache → Option (Nat × Answer)) (execute : Cache → State → Answer × Cache)
    (invalidate : Cache → Cache) : Prop where
  about_execute : ∀ cache state, about cache → about (execute cache state).2
  about_invalidate : ∀ cache, about cache → about (invalidate cache)
  memory_execute : ∀ cache state, about cache →
    memory (execute cache state).2 = some (version state, (execute cache state).1)
  answer_execute : ∀ cache state, about cache → (execute cache state).1 = answer state ∨
    memory cache = some (version state, (execute cache state).1)
  memory_invalidate : ∀ cache date value, memory (invalidate cache) = some (date, value) →
    ∃ later, date ≤ later ∧ memory cache = some (later, value)

-- Nothing remembered is from the future, and what is of the current version is the answer.
def Fresh (version : State → Nat) (answer : State → Answer) (memory : Cache → Option (Nat × Answer))
    (cache : Cache) (state : State) : Prop :=
  ∀ date value, memory cache = some (date, value) →
    date ≤ version state ∧ (date = version state → value = answer state)

inductive Call (Input : Type*) where
  | step (input : Input)
  | execute
  | invalidate

-- Steps of the state and uses of the cache, in any order.
def handle (step : State → Input → State) (execute : Cache → State → Answer × Cache)
    (invalidate : Cache → Cache) (held : State × Cache) : Call Input → State × Cache
  | .step input => (step held.1 input, held.2)
  | .execute => (held.1, (execute held.2 held.1).2)
  | .invalidate => (held.1, invalidate held.2)

def Admitted (ok : State → Input → Prop) (held : State × Cache) : Call Input → Prop
  | .step input => ok held.1 input
  | .execute => True
  | .invalidate => True

theorem Admitted.of_forall (h : ∀ state input, ok state input) (held : State × Cache) (call : Call Input) :
    Admitted ok held call := by
  cases call with
  | step input => exact h held.1 input
  | execute => trivial
  | invalidate => trivial

-- The steps among the calls.
def steps : List (Call Input) → List Input
  | [] => []
  | .step input :: calls => input :: steps calls
  | .execute :: calls => steps calls
  | .invalidate :: calls => steps calls

theorem stepsMeet_admitted (execute : Cache → State → Answer × Cache) (invalidate : Cache → Cache)
    (held : State × Cache) (calls : List (Call Input)) :
    StepsMeet (handle step execute invalidate) (Admitted ok) held calls ↔
      StepsMeet step ok held.1 (steps calls) := by
  induction calls generalizing held with
  | nil => exact Iff.rfl
  | cons call calls ih =>
      have hrest := ih (handle step execute invalidate held call)
      cases call with
      | step input => exact and_congr_right fun _ => hrest
      | execute => exact (iff_of_eq (true_and _)).trans hrest
      | invalidate => exact (iff_of_eq (true_and _)).trans hrest

variable {about : Cache → Prop} {memory : Cache → Option (Nat × Answer)}
  {execute : Cache → State → Answer × Cache} {invalidate : Cache → Cache}

theorem Lawful.execute_eq (h : Lawful version answer about memory execute invalidate) {cache : Cache}
    {state : State} (habout : about cache) (hfresh : Fresh version answer memory cache state) :
    (execute cache state).1 = answer state := by
  rcases h.answer_execute cache state habout with hcomputed | hremembered
  · exact hcomputed
  · exact (hfresh _ _ hremembered).2 rfl

theorem fresh_step (hversioned : Versioned step ok version answer) {cache : Cache} {state : State}
    (hfresh : Fresh version answer memory cache state) {input : Input} (hok : ok state input) :
    Fresh version answer memory cache (step state input) := by
  intro date value hmemory
  obtain ⟨hpast, hcurrent⟩ := hfresh date value hmemory
  have hgrows := hversioned.grows state input hok
  refine ⟨by omega, fun hdate => ?_⟩
  rw [hversioned.kept state input hok (by omega)]
  exact hcurrent (by omega)

theorem Lawful.fresh_execute (h : Lawful version answer about memory execute invalidate) {cache : Cache}
    {state : State} (habout : about cache) (hfresh : Fresh version answer memory cache state) :
    Fresh version answer memory (execute cache state).2 state := by
  intro date value hmemory
  rw [h.memory_execute cache state habout, h.execute_eq habout hfresh] at hmemory
  cases hmemory
  exact ⟨Nat.le_refl _, fun _ => rfl⟩

theorem Lawful.fresh_invalidate (h : Lawful version answer about memory execute invalidate) {cache : Cache}
    {state : State} (hfresh : Fresh version answer memory cache state) :
    Fresh version answer memory (invalidate cache) state := by
  intro date value hmemory
  obtain ⟨later, hdate, hremembered⟩ := h.memory_invalidate cache date value hmemory
  obtain ⟨hpast, hcurrent⟩ := hfresh later value hremembered
  exact ⟨by omega, fun heq => hcurrent (by omega)⟩

theorem Lawful.fresh_run (h : Lawful version answer about memory execute invalidate)
    (hversioned : Versioned step ok version answer) {state : State} {cache : Cache} (habout : about cache)
    (hfresh : Fresh version answer memory cache state) (calls : List (Call Input))
    (hmeet : StepsMeet (handle step execute invalidate) (Admitted ok) (state, cache) calls) :
    about (run (handle step execute invalidate) (state, cache) calls).2 ∧
      Fresh version answer memory (run (handle step execute invalidate) (state, cache) calls).2
        (run (handle step execute invalidate) (state, cache) calls).1 := by
  have hstep : ∀ held call, about held.2 ∧ Fresh version answer memory held.2 held.1 →
      Admitted ok held call → about (handle step execute invalidate held call).2 ∧
        Fresh version answer memory (handle step execute invalidate held call).2
          (handle step execute invalidate held call).1 := by
    intro held call hheld hadmitted
    obtain ⟨habout, hfresh⟩ := hheld
    cases call with
    | step input => exact ⟨habout, fresh_step hversioned hfresh hadmitted⟩
    | execute => exact ⟨h.about_execute _ _ habout, h.fresh_execute habout hfresh⟩
    | invalidate => exact ⟨h.about_invalidate _ habout, h.fresh_invalidate hfresh⟩
  exact run_invariant (fun held => about held.2 ∧ Fresh version answer memory held.2 held.1) hstep
    ⟨habout, hfresh⟩ calls hmeet

-- However steps, executions and invalidations interleave, an execution gives the answer of the moment.
theorem Lawful.execute_run (h : Lawful version answer about memory execute invalidate)
    (hversioned : Versioned step ok version answer) {state : State} {cache : Cache} (habout : about cache)
    (hfresh : Fresh version answer memory cache state) (calls : List (Call Input))
    (hmeet : StepsMeet (handle step execute invalidate) (Admitted ok) (state, cache) calls) :
    (execute (run (handle step execute invalidate) (state, cache) calls).2
        (run (handle step execute invalidate) (state, cache) calls).1).1 =
      answer (run (handle step execute invalidate) (state, cache) calls).1 := by
  obtain ⟨habout', hfresh'⟩ := h.fresh_run hversioned habout hfresh calls hmeet
  exact h.execute_eq habout' hfresh'

end Caches

end VersionedCache
