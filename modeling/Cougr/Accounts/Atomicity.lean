import Cougr.Accounts.Recovery
import Cougr.Accounts.Devices
import Cougr.Accounts.Authorize

namespace Cougr.Accounts

-- A call that fails leaves the state it was given: the environment, or the handle and the environment.
def FailsClean {α σ : Type} (state : σ) (outcome : Except AccountError α × σ) : Prop :=
  ∀ error, outcome.1 = .error error → outcome.2 = state

section Outcomes

variable {α σ : Type} {state : σ}

theorem failsClean_error (error : AccountError) :
    FailsClean state ((.error error, state) : Except AccountError α × σ) := fun _ _ => rfl

theorem failsClean_ok (value : α) (after : σ) :
    FailsClean state ((.ok value, after) : Except AccountError α × σ) := by
  intro error herror
  cases herror

-- An early return on a failed check, before anything is written.
theorem failsClean_guard {check : Prop} [Decidable check] (error : AccountError)
    {rest : Except AccountError α × σ} (hrest : FailsClean state rest) :
    FailsClean state (if check then (.error error, state) else rest) := by
  split_ifs
  · exact failsClean_error error
  · exact hrest

end Outcomes

namespace RecoverableAccount

variable (self : RecoverableAccount) (env : Env)

theorem failsClean_addGuardian (guardian : Address) : FailsClean env (self.addGuardian env guardian) := by
  unfold addGuardian
  split
  · exact failsClean_error .StorageError
  · apply failsClean_guard
    apply failsClean_guard
    exact failsClean_ok () _

theorem failsClean_removeGuardian (guardian : Address) : FailsClean env (self.removeGuardian env guardian) := by
  unfold removeGuardian
  apply failsClean_guard
  exact failsClean_ok () _

-- A time lock that overflows traps, so there is no error after the request is stored.
theorem failsClean_initiateRecovery {newOwner : Address} {outcome : Except AccountError RecoveryRequest × Env}
    (h : self.initiateRecovery env newOwner = some outcome) : FailsClean env outcome := by
  unfold initiateRecovery at h
  split at h
  · cases h
    exact failsClean_error .RecoveryAlreadyActive
  · split at h
    · cases h
      exact failsClean_error .StorageError
    · obtain ⟨timelockUntil, _, rfl⟩ := Option.map_eq_some_iff.mp h
      exact failsClean_ok _ _

theorem failsClean_approveRecovery (guardian : Address) : FailsClean env (self.approveRecovery env guardian) := by
  unfold approveRecovery
  split
  · exact failsClean_error .RecoveryNotInitiated
  · apply failsClean_guard
    apply failsClean_guard
    split_ifs
    · exact failsClean_ok () _
    · exact failsClean_ok () _

theorem failsClean_cancelRecovery : FailsClean env (self.cancelRecovery env) := by
  unfold cancelRecovery
  split
  · exact failsClean_error .RecoveryNotInitiated
  · apply failsClean_guard
    exact failsClean_ok () _

-- The one call that moves its handle does so after its last check.
theorem failsClean_executeRecovery : FailsClean (self, env) (self.executeRecovery env) := by
  unfold executeRecovery
  split
  · exact failsClean_error .RecoveryNotInitiated
  · apply failsClean_guard
    split
    · exact failsClean_error .StorageError
    · apply failsClean_guard
      apply failsClean_guard
      exact failsClean_ok _ _

end RecoverableAccount

namespace DeviceManager

open DeviceStorage

variable (self : DeviceManager) (env : Env)

theorem failsClean_registerDevice (keyId : BytesN 32) (deviceName : Symbol) :
    FailsClean env (self.registerDevice env keyId deviceName) := by
  unfold registerDevice
  split
  · exact failsClean_error .StorageError
  · apply failsClean_guard
    apply failsClean_guard
    exact failsClean_ok _ _

-- `revoke_device` and `update_last_used` differ in the updater only.
theorem failsClean_updateDevice (account : Address) (keyId : BytesN 32) (updater : DeviceKey → DeviceKey) :
    FailsClean env (updateDevice env account keyId updater) := by
  unfold updateDevice
  apply failsClean_guard
  exact failsClean_ok () _

end DeviceManager

theorem failsClean_revokeSession (self : ContractAccount) (env : Env) (keyId : BytesN 32) :
    FailsClean env (self.revokeSession env keyId) := by
  unfold ContractAccount.revokeSession SessionStorage.remove
  by_cases hfound : (SessionStorage.loadAll env self.address).any fun key => key.keyId = keyId
  · simp only [hfound, if_true]
    exact failsClean_ok () _
  · simp only [hfound]
    exact failsClean_error .InvalidScope

theorem failsClean_incrementUsage {env : Env} {account : Address} {keyId : BytesN 32}
    {outcome : Except AccountError Unit × Env}
    (h : SessionStorage.incrementUsage env account keyId = some outcome) : FailsClean env outcome := by
  unfold SessionStorage.incrementUsage at h
  dsimp only at h
  split at h
  · cases h
  · split_ifs at h
    · cases h
      exact failsClean_ok () _
    · cases h
      exact failsClean_error .InvalidScope

-- The calls on an account that answer with a `Result`, whatever kind of handle they are made through.
inductive AccountCall where
  | addGuardian (guardian : Address)
  | removeGuardian (guardian : Address)
  | initiateRecovery (newOwner : Address)
  | approveRecovery (guardian : Address)
  | cancelRecovery
  | executeRecovery
  | registerDevice (keyId : BytesN 32) (deviceName : Symbol)
  | revokeDevice (keyId : BytesN 32)
  | updateLastUsed (keyId : BytesN 32)
  | revokeSession (keyId : BytesN 32)
  | incrementUsage (keyId : BytesN 32)

namespace AccountCall

open RecoverableAccount renaming load → recoverable

-- What the caller has after a call that does not assign to its handle.
def through {α : Type} (address : Address) (outcome : Except AccountError α × Env) :
    Except AccountError Unit × Address × Env :=
  (outcome.1.map fun _ => (), address, outcome.2)

-- The call through a handle on `address`: its result, the address of the handle afterwards and the environment.
def invoke (address : Address) (env : Env) : AccountCall → Option (Except AccountError Unit × Address × Env)
  | .addGuardian guardian => some (through address ((recoverable address).addGuardian env guardian))
  | .removeGuardian guardian => some (through address ((recoverable address).removeGuardian env guardian))
  | .initiateRecovery newOwner => ((recoverable address).initiateRecovery env newOwner).map (through address)
  | .approveRecovery guardian => some (through address ((recoverable address).approveRecovery env guardian))
  | .cancelRecovery => some (through address ((recoverable address).cancelRecovery env))
  | .executeRecovery =>
    let (result, self, env) := (recoverable address).executeRecovery env
    some (through self.address (result, env))
  | .registerDevice keyId deviceName =>
    some (through address ((DeviceManager.load address).registerDevice env keyId deviceName))
  | .revokeDevice keyId => some (through address ((DeviceManager.load address).revokeDevice env keyId))
  | .updateLastUsed keyId => some (through address ((DeviceManager.load address).updateLastUsed env keyId))
  | .revokeSession keyId => some (through address ((ContractAccount.mk address).revokeSession env keyId))
  | .incrementUsage keyId => (SessionStorage.incrementUsage env address keyId).map (through address)

theorem through_error {α : Type} {address address' : Address} {env env' : Env} {error : AccountError}
    {outcome : Except AccountError α × Env} (hclean : FailsClean env outcome)
    (h : through address outcome = (.error error, address', env')) : address' = address ∧ env' = env := by
  obtain ⟨result, left⟩ := outcome
  cases result with
  | ok value => cases h
  | error failure =>
      have hleft : left = env := hclean failure rfl
      cases h
      exact ⟨rfl, hleft⟩

-- A call that fails leaves the whole storage, and the handle it was made through, as they were.
theorem failed_call_leaves_no_trace (address : Address) (env : Env) (call : AccountCall) (error : AccountError)
    (address' : Address) (env' : Env) (h : call.invoke address env = some (.error error, address', env')) :
    address' = address ∧ env' = env := by
  have hsome : ∀ {α : Type} {outcome : Except AccountError α × Env}, FailsClean env outcome →
      some (through address outcome) = some (.error error, address', env') → address' = address ∧ env' = env :=
    fun hclean heq => through_error hclean (Option.some.inj heq)
  cases call with
  | addGuardian guardian => exact hsome (RecoverableAccount.failsClean_addGuardian _ env guardian) h
  | removeGuardian guardian => exact hsome (RecoverableAccount.failsClean_removeGuardian _ env guardian) h
  | initiateRecovery newOwner =>
      obtain ⟨outcome, hcall, hthrough⟩ := Option.map_eq_some_iff.mp h
      exact through_error (RecoverableAccount.failsClean_initiateRecovery _ env hcall) hthrough
  | approveRecovery guardian => exact hsome (RecoverableAccount.failsClean_approveRecovery _ env guardian) h
  | cancelRecovery => exact hsome (RecoverableAccount.failsClean_cancelRecovery _ env) h
  | executeRecovery =>
      have hclean := RecoverableAccount.failsClean_executeRecovery (.load address) env
      simp only [invoke] at h
      generalize (recoverable address).executeRecovery env = outcome at h hclean
      obtain ⟨result, self, left⟩ := outcome
      cases result with
      | ok value => cases h
      | error failure =>
          cases hclean failure rfl
          cases h
          exact ⟨rfl, rfl⟩
  | registerDevice keyId deviceName =>
      exact hsome (DeviceManager.failsClean_registerDevice _ env keyId deviceName) h
  | revokeDevice keyId => exact hsome (DeviceManager.failsClean_updateDevice env address keyId _) h
  | updateLastUsed keyId => exact hsome (DeviceManager.failsClean_updateDevice env address keyId _) h
  | revokeSession keyId => exact hsome (failsClean_revokeSession _ env keyId) h
  | incrementUsage keyId =>
      obtain ⟨outcome, hcall, hthrough⟩ := Option.map_eq_some_iff.mp h
      exact through_error (failsClean_incrementUsage hcall) hthrough

-- An account that takes no guardians, asked to take one.
theorem refused_guardian_leaves_no_trace :
    let address : Address := .contract (Vector.replicate 32 0)
    let config : RecoveryConfig := { threshold := 1, timelockPeriod := 10, maxGuardians := 0 }
    let env := (RecoverableAccount.new address config (Env.fresh 7)).2
    (AccountCall.addGuardian address).invoke address env = some (.error .MaxGuardiansReached, address, env) := by
  intro address config env
  have hcall : ∃ address' env', (AccountCall.addGuardian address).invoke address env =
      some (.error .MaxGuardiansReached, address', env') := ⟨_, _, rfl⟩
  obtain ⟨address', env', hcall⟩ := hcall
  obtain ⟨rfl, rfl⟩ := failed_call_leaves_no_trace _ _ _ _ _ _ hcall
  exact hcall

end AccountCall

end Cougr.Accounts
