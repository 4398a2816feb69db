import Cougr.Accounts.Recovery.Bookkeeping

namespace Cougr.Accounts.RecoverableAccount

open RecoveryStorage Transition

-- After the execution the handle `recovered` reads the guardians and the config that `account` had: more
-- guardians can be added, recovery can be initiated, and no later execution, whatever is called in
-- between, asks for fewer approvals.
structure StaysRecoverable (env : Env) (account : Address) (recovered : RecoverableAccount) (env' : Env) :
    Prop where
  guardians : loadGuardians env' recovered.address = loadGuardians env account
  config : loadConfig env' recovered.address = loadConfig env account
  guardianCount : recovered.guardianCount env' = (load account).guardianCount env
  recoveryConfig : recovered.recoveryConfig env' = (load account).recoveryConfig env
  addGuardian : ∀ timestamp guardian,
    (recovered.addGuardian (env'.atTime timestamp) guardian).1 ≠ .error .StorageError
  initiates : ∀ timestamp newOwner,
    (∀ config, loadConfig env account = some config → timestamp + config.timelockPeriod ≤ u64Max) →
    ∃ request env'', recovered.initiateRecovery (env'.atTime timestamp) newOwner = some (.ok request, env'')
  threshold : ∀ (calls : List RecoveryCall) timestamp newOwner self' env'',
    recovered.executeRecovery ((run RecoveryCall.step env' calls).atTime timestamp) =
    (.ok newOwner, self', env'') →
    ∃ request config, loadRequest (run RecoveryCall.step env' calls) recovered.address = some request ∧
      loadConfig env account = some config ∧ config.threshold ≤ request.approvals.length

-- The address that a pending request names holds the guardians and the config of the account.
def SharedWithNewOwner (env : Env) (account : Address) : Prop :=
  ∀ request, loadRequest env account = some request →
    loadGuardians env request.newOwner = loadGuardians env account ∧
      loadConfig env request.newOwner = loadConfig env account

theorem addGuardian_finds_config {self : RecoverableAccount} {env : Env}
    (hconfig : (loadConfig env self.address).isSome) (guardian : Address) :
    (self.addGuardian env guardian).1 ≠ .error .StorageError := by
  obtain ⟨config, hconfig⟩ := Option.isSome_iff_exists.mp hconfig
  unfold addGuardian
  rw [hconfig]
  dsimp only
  split_ifs <;> intro h <;> cases h

theorem initiateRecovery_ok {self : RecoverableAccount} {env : Env} (newOwner : Address)
    (hnone : loadRequest env self.address = none) (hconfig : (loadConfig env self.address).isSome)
    (hroom : ∀ config, loadConfig env self.address = some config →
      env.timestamp + config.timelockPeriod ≤ u64Max) :
    ∃ request env', self.initiateRecovery env newOwner = some (.ok request, env') := by
  obtain ⟨⟨result, env'⟩, hcall⟩ := Option.isSome_iff_exists.mp (initiateRecovery_isSome newOwner hroom)
  cases result with
  | ok request => exact ⟨request, env', hcall⟩
  | error error =>
      rcases (initiateRecovery_error_iff self env newOwner).mp ⟨error, env', hcall⟩ with hactive | hmissing
      · rw [hnone] at hactive
        cases hactive
      · rw [hmissing] at hconfig
        cases hconfig

section NewOwner

variable {env : Env} {account newOwner : Address}

theorem guardians_of_stays {timestamp : Nat}
    (h : StaysRecoverable env account ⟨newOwner⟩ (removeRequest (env.atTime timestamp) newOwner)) :
    loadGuardians env newOwner = loadGuardians env account ∧ loadConfig env newOwner = loadConfig env account :=
  ⟨by simpa using h.guardians, by simpa using h.config⟩

-- What the account has is then all under the address the handle has moved to.
theorem stays_of_shared (timestamp : Nat) (hconfig : (loadConfig env account).isSome)
    (hguardians : loadGuardians env newOwner = loadGuardians env account)
    (hsame : loadConfig env newOwner = loadConfig env account) :
    StaysRecoverable env account ⟨newOwner⟩ (removeRequest (env.atTime timestamp) newOwner) := by
  have hguardians' : loadGuardians (removeRequest (env.atTime timestamp) newOwner) newOwner =
      loadGuardians env account := by
    rw [loadGuardians_removeRequest, loadGuardians_atTime, hguardians]
  have hconfig' : loadConfig (removeRequest (env.atTime timestamp) newOwner) newOwner =
      loadConfig env account := by
    rw [loadConfig_removeRequest, loadConfig_atTime, hsame]
  have hnone : loadRequest (removeRequest (env.atTime timestamp) newOwner) newOwner = none :=
    loadRequest_removeRequest_self _ newOwner
  generalize removeRequest (env.atTime timestamp) newOwner = env' at hguardians' hconfig' hnone ⊢
  refine ⟨hguardians', hconfig', ?_, ?_, ?_, ?_, ?_⟩
  · exact congrArg List.length hguardians'
  · rw [recoveryConfig, hconfig']
    rfl
  · intro timestamp guardian
    apply addGuardian_finds_config
    rwa [loadConfig_atTime, hconfig']
  · intro timestamp newOwner' hroom
    apply initiateRecovery_ok
    · rwa [loadRequest_atTime]
    · rwa [loadConfig_atTime, hconfig']
    · rwa [loadConfig_atTime, hconfig']
  · intro calls timestamp newOwner' self' env'' hexecuted
    obtain ⟨request, config, hrequest, _, hfound, hthreshold, _⟩ := executeRecovery_ok_iff.mp hexecuted
    rw [loadConfig_atTime, loadConfig_run, hconfig'] at hfound
    exact ⟨request, config, hrequest, hfound, hthreshold⟩

end NewOwner

-- The handle moves to the new owner, and nothing that the account had is copied there.
theorem staysRecoverable_iff (start : Env) (calls : List RecoveryCall) (account : Address) (timestamp : Nat)
    (newOwner : Address) (self' : RecoverableAccount) (env' : Env)
    (hexecuted : (load account).executeRecovery ((run RecoveryCall.step start calls).atTime timestamp) =
      (.ok newOwner, self', env')) :
    StaysRecoverable (run RecoveryCall.step start calls) account self' env' ↔
      SharedWithNewOwner (run RecoveryCall.step start calls) account := by
  obtain ⟨request, config, hrequest, _, hconfig, _, _, rfl, rfl, rfl⟩ := executeRecovery_ok_iff.mp hexecuted
  constructor
  · intro hstays other hother
    cases hrequest.symm.trans hother
    exact guardians_of_stays hstays
  · intro hshared
    obtain ⟨hguardians, hsame⟩ := hshared request hrequest
    exact stays_of_shared timestamp (Option.isSome_of_eq_some hconfig) hguardians hsame

-- The heir has neither guardians nor a config.
theorem heir_not_recoverable :
    ∃ self' env', (load owner).executeRecovery ((afterCalls 1 0 (approvedFor heir)).atTime 2) =
        (.ok heir, self', env') ∧
      ¬StaysRecoverable (afterCalls 1 0 (approvedFor heir)) owner self' env' := by
  refine ⟨_, _, rfl, fun hstays => ?_⟩
  exact absurd hstays.guardianCount (by decide)

theorem same_owner_stays_recoverable :
    ∃ self' env', (load owner).executeRecovery ((afterCalls 1 0 (approvedFor owner)).atTime 2) =
        (.ok owner, self', env') ∧
      StaysRecoverable (afterCalls 1 0 (approvedFor owner)) owner self' env' := by
  refine ⟨_, _, rfl, ?_⟩
  refine (staysRecoverable_iff (afterCalls 1 0 []) (approvedFor owner) owner 2 owner _ _ rfl).mpr ?_
  intro request hrequest
  have howner : request.newOwner = owner := by
    have hpending : loadRequest (afterCalls 1 0 (approvedFor owner)) owner =
        some ⟨owner, [friend], 1, 1, false⟩ := rfl
    cases hpending.symm.trans hrequest
    rfl
  rw [howner]
  exact ⟨rfl, rfl⟩

end Cougr.Accounts.RecoverableAccount
