import Cougr.Accounts.Recovery.Theorems

namespace Cougr.Accounts

open RecoveryStorage Transition

namespace RecoveryCall

@[simp] theorem timestamp_step (env : Env) (call : RecoveryCall) :
    (step env call).timestamp = call.timestamp := by
  have heffect := effect_step env call
  generalize step env call = env' at heffect ⊢
  cases heffect <;> rfl

-- Ledger times never go back.
def Ordered (env : Env) (calls : List RecoveryCall) : Prop :=
  StepsMeet step (fun env call => env.timestamp ≤ call.timestamp) env calls

theorem timestamp_le_run {env : Env} {calls : List RecoveryCall} (hordered : Ordered env calls) :
    env.timestamp ≤ (run step env calls).timestamp := by
  induction calls generalizing env with
  | nil => exact Nat.le_refl _
  | cons call calls ih =>
      obtain ⟨hfirst, hrest⟩ := hordered
      have hle := ih hrest
      rw [timestamp_step] at hle
      exact Nat.le_trans hfirst hle

def StaysPending (env : Env) (account : Address) (calls : List RecoveryCall) : Prop :=
  StepsMeet step (fun env call => loadRequest (step env call) account ≠ none) env calls

-- A request that stays is not renewed: only approvals are added to it.
theorem timelockUntil_step {env : Env} {call : RecoveryCall} {account : Address}
    {request after : RecoveryRequest} (hbefore : loadRequest env account = some request)
    (hafter : loadRequest (step env call) account = some after) :
    after.timelockUntil = request.timelockUntil := by
  have hchange := requestChange_step env call account
  rw [hafter] at hchange
  generalize hresult : some after = result at hchange
  cases hchange with
  | same =>
      rw [hbefore] at hresult
      cases hresult
      rfl
  | initiated newOwner config haccount hop hnone hconfig =>
      rw [hbefore] at hnone
      cases hnone
  | approved guardian old haccount hop hold hregistered hnew =>
      rw [hbefore] at hold
      cases hold
      cases hresult
      rfl
  | removed => cases hresult

theorem timelockUntil_run {env : Env} {calls : List RecoveryCall} {account : Address}
    {request after : RecoveryRequest} (hpending : StaysPending env account calls)
    (hbefore : loadRequest env account = some request)
    (hafter : loadRequest (run step env calls) account = some after) :
    after.timelockUntil = request.timelockUntil := by
  induction calls generalizing env request with
  | nil =>
      rw [run_nil, hbefore] at hafter
      cases hafter
      rfl
  | cons call calls ih =>
      obtain ⟨hfirst, hrest⟩ := hpending
      obtain ⟨next, hnext⟩ := Option.ne_none_iff_exists'.mp hfirst
      rw [ih hrest hnext hafter, timelockUntil_step hbefore hnext]

end RecoveryCall

-- The approval brings the request of its account to the threshold.
structure ReachesQuorum (env : Env) (approval : RecoveryCall) (config : RecoveryConfig)
    (request : RecoveryRequest) : Prop where
  configured : loadConfig env approval.account = some config
  pending : loadRequest env approval.account = some request
  below : request.approvals.length < config.threshold
  reached : ∃ after, loadRequest (approval.step env) approval.account = some after ∧
    config.threshold ≤ after.approvals.length

-- However the run goes on after the approval, the request is not executed before the
-- period has passed since the approval.
def WaitsAfterQuorum (start : Env) (past : List RecoveryCall) (approval : RecoveryCall)
    (period : Nat) : Prop :=
  ∀ (rest : List RecoveryCall) (timestamp : Nat),
    RecoveryCall.Ordered (run RecoveryCall.step start (past ++ [approval])) rest →
    RecoveryCall.StaysPending (run RecoveryCall.step start (past ++ [approval])) approval.account rest →
    (run RecoveryCall.step start (past ++ approval :: rest)).timestamp ≤ timestamp →
    ∀ newOwner self' env',
      (RecoverableAccount.load approval.account).executeRecovery
          ((run RecoveryCall.step start (past ++ approval :: rest)).atTime timestamp) =
        (.ok newOwner, self', env') →
      approval.timestamp + period ≤ timestamp

-- The deadline is fixed when recovery is initiated, so the wait is as long as documented
-- exactly when the quorum was there at that moment.
theorem waits_after_quorum_iff (start : Env) (hnone : ∀ account, loadRequest start account = none)
    (past : List RecoveryCall) (approval : RecoveryCall) (config : RecoveryConfig)
    (request : RecoveryRequest)
    (hquorum : ReachesQuorum (run RecoveryCall.step start past) approval config request) :
    WaitsAfterQuorum start past approval config.timelockPeriod ↔
      approval.timestamp ≤ request.initiatedAt ∨ config.timelockPeriod = 0 := by
  obtain ⟨hconfig, hpending, _, after, hafter, hreached⟩ := hquorum
  rw [← run_concat RecoveryCall.step] at hafter
  have hdeadline : after.timelockUntil = request.initiatedAt + config.timelockPeriod := by
    obtain ⟨config', hconfig', htimelock⟩ := (requestsFit_run hnone past _ request hpending).timelock
    rw [hconfig] at hconfig'
    cases hconfig'
    rw [← htimelock]
    exact RecoveryCall.timelockUntil_step hpending (run_concat RecoveryCall.step .. ▸ hafter)
  constructor
  · intro hwaits
    -- the next call executes the request as soon as its deadline has passed
    let deadline := max approval.timestamp (request.initiatedAt + config.timelockPeriod)
    have hactive : after.cancelled = false := (requestsFit_run hnone _ _ after hafter).notCancelled
    have hconfig' : loadConfig (run RecoveryCall.step start (past ++ [approval])) approval.account =
        some config := by
      rw [loadConfig_run] at hconfig ⊢
      exact hconfig
    have hpassed : after.timelockUntil ≤ deadline := by
      rw [hdeadline]
      exact Nat.le_max_right ..
    have hexecuted : (RecoverableAccount.load approval.account).executeRecovery
        ((run RecoveryCall.step start (past ++ [approval])).atTime deadline) = (.ok after.newOwner, _, _) :=
      RecoverableAccount.executeRecovery_ok_iff.mpr
        ⟨after, config, hafter, hactive, hconfig', hreached, hpassed, rfl, rfl, rfl⟩
    have hnow : (run RecoveryCall.step start (past ++ [approval])).timestamp ≤ deadline := by
      rw [run_concat, RecoveryCall.timestamp_step]
      exact Nat.le_max_left ..
    have hlate := hwaits [] deadline trivial trivial hnow _ _ _ hexecuted
    omega
  · intro hcondition rest timestamp hordered hstays htime newOwner self' env' hexecuted
    obtain ⟨final, _, hfinal, _, _, _, hpassed, _⟩ :=
      RecoverableAccount.executeRecovery_ok_iff.mp hexecuted
    have hsplit : run RecoveryCall.step start (past ++ approval :: rest) =
        run RecoveryCall.step (run RecoveryCall.step start (past ++ [approval])) rest := by
      rw [← run_append, List.append_assoc]
      rfl
    rw [hsplit] at htime hfinal
    have hle := RecoveryCall.timestamp_le_run hordered
    rw [run_concat, RecoveryCall.timestamp_step] at hle
    have hsame := RecoveryCall.timelockUntil_run hstays hafter hfinal
    rw [Env.timestamp_atTime, hsame, hdeadline] at hpassed
    rw [run_concat] at htime
    omega

namespace RecoverableAccount

-- The approval comes when the period has already passed since the initiation.
theorem executed_at_quorum :
    ReachesQuorum (afterCalls 1 10 [⟨0, owner, .addGuardian friend⟩, ⟨1, owner, .initiateRecovery heir⟩])
        ⟨11, owner, .approveRecovery friend⟩ ⟨1, 10, 2⟩ ⟨heir, [], 1, 11, false⟩ ∧
      ¬WaitsAfterQuorum (afterCalls 1 10 [])
        [⟨0, owner, .addGuardian friend⟩, ⟨1, owner, .initiateRecovery heir⟩]
        ⟨11, owner, .approveRecovery friend⟩ 10 := by
  refine ⟨⟨rfl, rfl, by decide, _, rfl, by decide⟩, ?_⟩
  intro hwaits
  exact absurd (hwaits [] 11 trivial trivial (by decide) heir _ _ rfl) (by decide)

theorem waits_after_immediate_quorum :
    WaitsAfterQuorum (afterCalls 1 10 [])
      [⟨0, owner, .addGuardian friend⟩, ⟨1, owner, .initiateRecovery heir⟩]
      ⟨1, owner, .approveRecovery friend⟩ 10 :=
  (waits_after_quorum_iff (afterCalls 1 10 []) (loadRequest_new owner _ 0) _ _ ⟨1, 10, 2⟩
    ⟨heir, [], 1, 11, false⟩ ⟨rfl, rfl, by decide, _, rfl, by decide⟩).mpr (Or.inl (by decide))

end RecoverableAccount

end Cougr.Accounts
