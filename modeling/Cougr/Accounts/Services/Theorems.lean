import Cougr.Accounts.Services.Writes
import Cougr.Accounts.Services.Reads
import Cougr.Library.Projection

namespace Cougr.Accounts

namespace ServiceCall

open Transition

section Interleavings

-- The entries of one owner.
def Alike (owner : Address × Service) (entries alone : Entries) : Prop :=
  ∀ key, key.owner = owner → entries.get key = alone.get key

variable {entries alone : Entries} {call : ServiceCall}

theorem alike_step_own (h : Alike call.owner entries alone) :
    reply entries call = reply alone call ∧ Alike call.owner (step entries call) (step alone call) := by
  have hsame : SameFor call.owner (call.env entries) (call.env alone) := ⟨rfl, rfl, rfl, h⟩
  have hrel := rel_invoke hsame
  simp only [reply, step, invoke]
  cases hfirst : call.op.invoke call.account (call.env entries) with
  | none =>
      rw [hfirst] at hrel
      cases hsecond : call.op.invoke call.account (call.env alone) with
      | none => exact ⟨rfl, h⟩
      | some outcome =>
          rw [hsecond] at hrel
          cases hrel
  | some first =>
      rw [hfirst] at hrel
      cases hsecond : call.op.invoke call.account (call.env alone) with
      | none =>
          rw [hsecond] at hrel
          cases hrel
      | some second =>
          rw [hsecond] at hrel
          obtain ⟨hanswer, hafter⟩ : Parallel _ first second := by
            cases hrel
            assumption
          refine ⟨?_, hafter.entries⟩
          rw [Option.map_some, Option.map_some, hanswer, hafter.authLog]

theorem alike_step_other {owner : Address × Service} (hother : call.owner ≠ owner)
    (hkept : owner.2 = .recovery → ¬call.HandsOverTo owner.1 entries) (h : Alike owner entries alone) :
    Alike owner (step entries call) alone := by
  intro key hkey
  rw [← h key hkey, step]
  cases hcall : call.invoke entries with
  | none => rfl
  | some outcome =>
      obtain ⟨answer, after⟩ := outcome
      refine get_invoke_of_ne hcall (fun heq => hother (heq.symm.trans hkey)) fun hop newOwner hok hnew => ?_
      rw [hkey] at hnew
      exact hkept (congrArg Prod.snd hnew) ⟨hop, by rw [hnew, hok]⟩

-- Calls on other accounts, and on other services of the same account, come in between in any order: an owner
-- finds the same entries and is answered the same as if they were left out. Only a recovery that hands over to
-- the account reaches into its entries.
theorem own_calls_undisturbed (start : Entries) (calls : List ServiceCall) (account : Address) (service : Service)
    (hkept : service = .recovery → StepsMeet step (fun entries call =>
      call.account ≠ account → ¬call.HandsOverTo account entries) start calls) :
    Alike (account, service) (run step start calls)
        (run step start (calls.filter fun call => call.owner = (account, service))) ∧
      answersTo step reply (fun call => call.owner = (account, service)) start calls =
        answersTo step reply (fun call => call.owner = (account, service)) start
          (calls.filter fun call => call.owner = (account, service)) := by
  have hmeet : StepsMeet step (fun entries call =>
      service = .recovery → call.account ≠ account → ¬call.HandsOverTo account entries) start calls := by
    by_cases hservice : service = .recovery
    · simpa only [hservice, true_implies] using hkept hservice
    · exact stepsMeet_of_forall (fun _ _ hrecovery => absurd hrecovery hservice) start calls
  refine run_filter (Alike (account, service)) ?_ ?_ (fun _ _ => rfl) calls hmeet
  · intro entries alone call hother hok halike
    refine alike_step_other hother (fun hrecovery hhands => hok hrecovery (fun hsame => ?_) hhands) halike
    -- an execution on the account itself is one of its own calls
    have howner : call.owner = (account, .recovery) := by rw [owner, hsame, hhands.1]; rfl
    exact hother (howner.trans (congrArg (Prod.mk account) hrecovery.symm))
  · rintro entries alone call hown halike
    rw [← hown] at halike ⊢
    exact alike_step_own halike

def alice : Address := .contract (Vector.replicate 32 1)

def bob : Address := .contract (Vector.replicate 32 2)

def callBy (account : Address) (op : ServiceOp) : ServiceCall := ⟨5, fun _ => false, account, op⟩

-- Bob executes a recovery, to which nobody has to agree, between the calls of Alice.
def interleaved : List ServiceCall :=
  [callBy alice (.newRecovery ⟨1, 10, 3⟩), callBy bob (.newRecovery ⟨0, 0, 3⟩), callBy alice (.addGuardian bob),
    callBy bob (.initiateRecovery bob), callBy alice (.initiateRecovery bob), callBy bob .executeRecovery,
    callBy alice (.createSession ⟨[], 3, 9⟩), callBy alice (.approveRecovery bob)]

theorem alice_undisturbed_by_bob :
    Alike (alice, .recovery) (run step KeyStore.empty interleaved)
        (run step KeyStore.empty (interleaved.filter fun call => call.owner = (alice, .recovery))) ∧
      answersTo step reply (fun call => call.owner = (alice, .recovery)) KeyStore.empty interleaved =
        answersTo step reply (fun call => call.owner = (alice, .recovery)) KeyStore.empty
          (interleaved.filter fun call => call.owner = (alice, .recovery)) := by
  refine own_calls_undisturbed KeyStore.empty interleaved alice .recovery fun _ => ?_
  simp only [interleaved, callBy, StepsMeet, HandsOverTo, reduceCtorEq, false_and, not_false_eq_true,
    implies_true, true_and, and_true]
  intro _ hhands
  have hself : (.ok bob : Except AccountError Address) = .ok alice := hhands
  exact absurd (Except.ok.inj hself) (by decide)

end Interleavings

end ServiceCall

end Cougr.Accounts
