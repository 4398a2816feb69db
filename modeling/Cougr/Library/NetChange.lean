import Mathlib.Data.Option.Basic

-- What records of additions, removals and modifications owe to a value that comes and goes.
namespace NetChange

variable {α : Type*}

-- The records explain how the value `before` became the value `after`.
structure Recorded (before after : Option α) (added removed modified : Prop) : Prop where
  appeared : before = none → after.isSome → added
  vanished : before.isSome → after = none → removed
  changed : ∀ old new, before = some old → after = some new → old ≠ new → modified ∨ (removed ∧ added)
  unchanged : ¬added → ¬removed → ¬modified → after = before

-- One step of a value and of its records, which are never taken back.
structure Noted (value next : Option α) (added removed modified added' removed' modified' : Prop) : Prop where
  appeared : value = none → next.isSome → added'
  vanished : value.isSome → next = none → removed'
  changed : ∀ old new, value = some old → next = some new → old ≠ new → modified'
  keepsAdded : added → added'
  keepsRemoved : removed → removed'
  keepsModified : modified → modified'

variable {before value next : Option α} {added removed modified added' removed' modified' : Prop}

theorem recorded_refl (value : Option α) (added removed modified : Prop) :
    Recorded value value added removed modified where
  appeared hnone hsome := by simp [hnone] at hsome
  vanished hsome hnone := by simp [hnone] at hsome
  changed old new hold hnew hne := absurd (Option.some.inj (hold.symm.trans hnew)) hne
  unchanged _ _ _ := rfl

-- A step that leaves the value alone needs no record.
theorem noted_of_eq (hsame : next = value) (hadded : added → added') (hremoved : removed → removed')
    (hmodified : modified → modified') :
    Noted value next added removed modified added' removed' modified' where
  appeared hnone hsome := by simp [hsame, hnone] at hsome
  vanished hsome hnone := by simp [← hsame, hnone] at hsome
  changed old new hold hnew hne := absurd (Option.some.inj (by rw [← hold, ← hnew, hsame])) hne
  keepsAdded := hadded
  keepsRemoved := hremoved
  keepsModified := hmodified

theorem Noted.eq_of_unrecorded (h : Noted value next added removed modified added' removed' modified')
    (hadded : ¬added') (hremoved : ¬removed') (hmodified : ¬modified') : next = value := by
  cases hvalue : value with
  | none =>
      by_contra hne
      exact hadded (h.appeared hvalue (Option.isSome_iff_ne_none.mpr hne))
  | some old =>
      cases hnext : next with
      | none => exact absurd (h.vanished (by rw [hvalue]; rfl) hnext) hremoved
      | some new =>
          by_contra hne
          have hdiffers : old ≠ new := fun heq => hne (congrArg some heq.symm)
          exact hmodified (h.changed old new hvalue hnext hdiffers)

-- Records that explain a history still do so when it goes on by a step that is noted.
theorem Recorded.step (h : Recorded before value added removed modified)
    (hstep : Noted value next added removed modified added' removed' modified') :
    Recorded before next added' removed' modified' where
  appeared hbefore hnext := by
    cases hvalue : value with
    | none => exact hstep.appeared hvalue hnext
    | some old => exact hstep.keepsAdded (h.appeared hbefore (by rw [hvalue]; rfl))
  vanished hbefore hnext := by
    cases hvalue : value with
    | none => exact hstep.keepsRemoved (h.vanished hbefore hvalue)
    | some old => exact hstep.vanished (by rw [hvalue]; rfl) hnext
  changed old new hbefore hnext hne := by
    cases hvalue : value with
    | none =>
        have hgone := hstep.keepsRemoved (h.vanished (by rw [hbefore]; rfl) hvalue)
        have hback := hstep.appeared hvalue (by rw [hnext]; rfl)
        exact Or.inr ⟨hgone, hback⟩
    | some middle =>
        by_cases hmiddle : old = middle
        · subst hmiddle
          exact Or.inl (hstep.changed old new hvalue hnext hne)
        · rcases h.changed old middle hbefore hvalue hmiddle with hmodified | ⟨hgone, hback⟩
          · exact Or.inl (hstep.keepsModified hmodified)
          · exact Or.inr ⟨hstep.keepsRemoved hgone, hstep.keepsAdded hback⟩
  unchanged hadded hremoved hmodified := by
    have hbefore := h.unchanged (mt hstep.keepsAdded hadded) (mt hstep.keepsRemoved hremoved)
      (mt hstep.keepsModified hmodified)
    exact (hstep.eq_of_unrecorded hadded hremoved hmodified).trans hbefore

end NetChange
