import Mathlib.Data.List.Basic

-- Programs over a state: they act on it, look at it to decide how to go on, and call items, whatever a call
-- of an item may run.
inductive Program (State Action Item : Type) where
  | done
  | act (action : Action) (rest : Program State Action Item)
  | look (rest : State → Program State Action Item)
  | call (item : Item) (rest : Program State Action Item)

namespace Program

variable {State Action Item Event : Type}

-- The run of a program with what it leaves on record. A call that does not come back ends it.
def run (perform : State → Action → State) (answer : State → Item → Option (State × List Event)) :
    Program State Action Item → State → Option (State × List Event)
  | .done, state => some (state, [])
  | .act action rest, state => rest.run perform answer (perform state action)
  | .look rest, state => (rest state).run perform answer state
  | .call item rest, state =>
    (answer state item).bind fun (middle, events) =>
      (rest.run perform answer middle).map fun (final, more) => (final, events ++ more)

section Total

variable {perform : State → Action → State} {κ : Type} 
  {answer : κ → State → Item → Option (State × List Event)}
  {admitted : κ → Prop} {Inv : State → Prop} {Leads : State → State → List Event → Prop}

-- Calls that come back from every state of the invariant, with one outcome whichever of the admitted answers
-- they get, make programs that do. What calls and actions lead to is chained by `Leads`.
theorem run_total (hrefl : ∀ state, Leads state state [])
    (htrans : ∀ {first middle last events more}, Leads first middle events → Leads middle last more →
      Leads first last (events ++ more))
    (hact : ∀ state action, Inv state → Inv (perform state action) ∧ Leads state (perform state action) [])
    (hcall : ∀ state item, Inv state → ∃ final events,
      (∀ k, admitted k → answer k state item = some (final, events)) ∧ Inv final ∧ Leads state final events)
    (program : Program State Action Item) {state : State} (h : Inv state) :
    ∃ final events, (∀ k, admitted k → program.run perform (answer k) state = some (final, events)) ∧
      Inv final ∧ Leads state final events := by
  induction program generalizing state with
  | done => exact ⟨state, [], fun _ _ => rfl, h, hrefl state⟩
  | act action rest ih =>
      obtain ⟨hnext, hleads⟩ := hact state action h
      obtain ⟨final, events, hrun, hfinal, hrest⟩ := ih hnext
      exact ⟨final, events, hrun, hfinal, htrans hleads hrest⟩
  | look rest ih => exact ih state h
  | call item rest ih =>
      obtain ⟨middle, events, hanswer, hmiddle, hleads⟩ := hcall state item h
      obtain ⟨final, more, hrun, hfinal, hrest⟩ := ih hmiddle
      refine ⟨final, events ++ more, fun k hk => ?_, hfinal, htrans hleads hrest⟩
      simp only [run, hanswer k hk, Option.bind_some, hrun k hk, Option.map_some]

end Total

end Program
