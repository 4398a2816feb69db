import Cougr.Accounts.Services

namespace Cougr.Accounts

section Reads

variable {env alone : Env} {account : Address}

-- The environments are alike but for the entries of other owners.
structure SameFor (owner : Address × Service) (env alone : Env) : Prop where
  timestamp : env.timestamp = alone.timestamp
  authorized : env.authorized = alone.authorized
  authLog : env.authLog = alone.authLog
  entries : ∀ key, key.owner = owner → env.get key = alone.get key

theorem SameFor.set {owner : Address × Service} (h : SameFor owner env alone) (key : AccountKey)
    (value : key.Value) : SameFor owner (env.set key value) (alone.set key value) where
  timestamp := h.timestamp
  authorized := h.authorized
  authLog := h.authLog
  entries other howner := by
    by_cases heq : other = key
    · subst heq
      rw [Env.get_set_self, Env.get_set_self]
    · rw [Env.get_set_of_ne _ _ heq, Env.get_set_of_ne _ _ heq, h.entries other howner]

theorem SameFor.remove {owner : Address × Service} (h : SameFor owner env alone) (key : AccountKey) :
    SameFor owner (env.remove key) (alone.remove key) where
  timestamp := h.timestamp
  authorized := h.authorized
  authLog := h.authLog
  entries other howner := by
    by_cases heq : other = key
    · subst heq
      rw [Env.get_remove_self, Env.get_remove_self]
    · rw [Env.get_remove_of_ne _ heq, Env.get_remove_of_ne _ heq, h.entries other howner]

-- Outcomes with one answer, in environments that stay alike.
def Parallel {α : Type} (owner : Address × Service) (first second : α × Env) : Prop :=
  first.1 = second.1 ∧ SameFor owner first.2 second.2

section Sessions

variable (h : SameFor (account, .sessions) env alone)

include h

theorem loadAll_eq : SessionStorage.loadAll env account = SessionStorage.loadAll alone account :=
  congrArg (Option.getD · []) (h.entries (.sessKeys account) rfl)

theorem sameFor_writeKeys (keys : List SessionKey) :
    SameFor (account, .sessions) (SessionStorage.writeKeys env account keys)
      (SessionStorage.writeKeys alone account keys) := by
  unfold SessionStorage.writeKeys
  split_ifs
  · exact h.remove _
  · exact h.set _ _

theorem parallel_createSession (scope : SessionScope) :
    Parallel (account, .sessions) ((ContractAccount.mk account).createSession env scope)
      ((ContractAccount.mk account).createSession alone scope) := by
  simp only [Parallel, ContractAccount.createSession, SessionStorage.store, loadAll_eq h, h.timestamp, true_and]
  exact h.set _ _

theorem parallel_revokeSession (keyId : BytesN 32) :
    Parallel (account, .sessions) ((ContractAccount.mk account).revokeSession env keyId)
      ((ContractAccount.mk account).revokeSession alone keyId) := by
  unfold ContractAccount.revokeSession SessionStorage.remove
  rw [loadAll_eq h]
  by_cases hfound : (SessionStorage.loadAll alone account).any fun key => key.keyId = keyId
  · simp only [hfound, if_true]
    exact ⟨rfl, sameFor_writeKeys h _⟩
  · simp only [hfound]
    exact ⟨rfl, h⟩

theorem parallel_incrementUsage (keyId : BytesN 32) :
    Option.Rel (Parallel (account, .sessions)) (SessionStorage.incrementUsage env account keyId)
      (SessionStorage.incrementUsage alone account keyId) := by
  unfold SessionStorage.incrementUsage
  rw [loadAll_eq h]
  dsimp only
  cases SessionStorage.bumpAll keyId (SessionStorage.loadAll alone account) with
  | none => exact .none
  | some newKeys =>
      dsimp only
      split_ifs
      · exact .some ⟨rfl, h.set _ _⟩
      · exact .some ⟨rfl, h⟩

theorem parallel_cleanupExpired :
    Parallel (account, .sessions) (SessionStorage.cleanupExpired env account)
      (SessionStorage.cleanupExpired alone account) := by
  unfold SessionStorage.cleanupExpired
  rw [loadAll_eq h, h.timestamp]
  dsimp only
  split_ifs
  · exact ⟨rfl, sameFor_writeKeys h _⟩
  · exact ⟨rfl, h⟩

theorem parallel_authorize (action : GameAction) :
    Option.Rel (Parallel (account, .sessions)) ((ContractAccount.mk account).authorize env action)
      ((ContractAccount.mk account).authorize alone action) := by
  unfold ContractAccount.authorize Env.requireAuth
  rw [loadAll_eq h, h.authorized]
  dsimp only
  split_ifs
  · exact .some ⟨rfl, h⟩
  · exact .some ⟨rfl, h.timestamp, rfl, congrArg (· ++ [account]) h.authLog, h.entries⟩
  · exact .none

end Sessions

section Recovery

open RecoveryStorage

variable (h : SameFor (account, .recovery) env alone)

include h

theorem loadGuardians_eq : loadGuardians env account = loadGuardians alone account :=
  congrArg (Option.getD · []) (h.entries (.rcvGuard account) rfl)

theorem loadConfig_eq : loadConfig env account = loadConfig alone account := h.entries (.rcvConf account) rfl

theorem loadRequest_eq : loadRequest env account = loadRequest alone account := h.entries (.rcvReq account) rfl

theorem parallel_addGuardian (guardian : Address) :
    Parallel (account, .recovery) ((RecoverableAccount.mk account).addGuardian env guardian)
      ((RecoverableAccount.mk account).addGuardian alone guardian) := by
  simp only [RecoverableAccount.addGuardian, loadConfig_eq h, loadGuardians_eq h, h.timestamp]
  cases loadConfig alone account with
  | none => exact ⟨rfl, h⟩
  | some config =>
      dsimp only
      split_ifs
      · exact ⟨rfl, h⟩
      · exact ⟨rfl, h⟩
      · exact ⟨rfl, h.set _ _⟩

theorem parallel_removeGuardian (guardian : Address) :
    Parallel (account, .recovery) ((RecoverableAccount.mk account).removeGuardian env guardian)
      ((RecoverableAccount.mk account).removeGuardian alone guardian) := by
  simp only [RecoverableAccount.removeGuardian, loadGuardians_eq h]
  split_ifs
  · exact ⟨rfl, h.set _ _⟩
  · exact ⟨rfl, h⟩

theorem parallel_initiateRecovery (newOwner : Address) :
    Option.Rel (Parallel (account, .recovery)) ((RecoverableAccount.mk account).initiateRecovery env newOwner)
      ((RecoverableAccount.mk account).initiateRecovery alone newOwner) := by
  simp only [RecoverableAccount.initiateRecovery, loadRequest_eq h, loadConfig_eq h, h.timestamp]
  split_ifs
  · exact .some ⟨rfl, h⟩
  · cases loadConfig alone account with
    | none => exact .some ⟨rfl, h⟩
    | some config =>
        dsimp only
        cases checkedAdd u64Max alone.timestamp config.timelockPeriod with
        | none => exact .none
        | some timelockUntil => exact .some ⟨rfl, h.set _ _⟩

theorem parallel_approveRecovery (guardian : Address) :
    Parallel (account, .recovery) ((RecoverableAccount.mk account).approveRecovery env guardian)
      ((RecoverableAccount.mk account).approveRecovery alone guardian) := by
  simp only [RecoverableAccount.approveRecovery, loadRequest_eq h, loadGuardians_eq h]
  cases loadRequest alone account with
  | none => exact ⟨rfl, h⟩
  | some request =>
      dsimp only
      split_ifs
      · exact ⟨rfl, h⟩
      · exact ⟨rfl, h⟩
      · exact ⟨rfl, h.set _ _⟩
      · exact ⟨rfl, h⟩

theorem parallel_cancelRecovery :
    Parallel (account, .recovery) ((RecoverableAccount.mk account).cancelRecovery env)
      ((RecoverableAccount.mk account).cancelRecovery alone) := by
  simp only [RecoverableAccount.cancelRecovery, loadRequest_eq h]
  cases loadRequest alone account with
  | none => exact ⟨rfl, h⟩
  | some request =>
      dsimp only
      split_ifs
      · exact ⟨rfl, h⟩
      · exact ⟨rfl, h.remove _⟩

theorem parallel_executeRecovery :
    Option.Rel (Parallel (account, .recovery)) (ServiceOp.executeRecovery.invoke account env)
      (ServiceOp.executeRecovery.invoke account alone) := by
  simp only [ServiceOp.invoke, RecoverableAccount.executeRecovery, RecoverableAccount.load, loadRequest_eq h,
    loadConfig_eq h, h.timestamp]
  cases loadRequest alone account with
  | none => exact .some ⟨rfl, h⟩
  | some request =>
      cases loadConfig alone account with
      | none =>
          dsimp only
          split_ifs <;> exact .some ⟨rfl, h⟩
      | some config =>
          dsimp only
          split_ifs
          · exact .some ⟨rfl, h⟩
          · exact .some ⟨rfl, h⟩
          · exact .some ⟨rfl, h⟩
          · exact .some ⟨rfl, h.remove _⟩

end Recovery

section Devices

open DeviceStorage

variable (h : SameFor (account, .devices) env alone)

include h

theorem loadDevices_eq : loadDevices env account = loadDevices alone account :=
  congrArg (Option.getD · []) (h.entries (.devKeys account) rfl)

theorem loadPolicy_eq : loadPolicy env account = loadPolicy alone account := h.entries (.devPolicy account) rfl

theorem parallel_registerDevice (keyId : BytesN 32) (deviceName : Symbol) :
    Parallel (account, .devices) ((DeviceManager.mk account).registerDevice env keyId deviceName)
      ((DeviceManager.mk account).registerDevice alone keyId deviceName) := by
  simp only [DeviceManager.registerDevice, loadPolicy_eq h, loadDevices_eq h, h.timestamp]
  cases loadPolicy alone account with
  | none => exact ⟨rfl, h⟩
  | some policy =>
      dsimp only
      split_ifs
      · exact ⟨rfl, h⟩
      · exact ⟨rfl, h⟩
      · exact ⟨rfl, h.set _ _⟩

theorem parallel_updateDevice (keyId : BytesN 32) (updater : DeviceKey → DeviceKey) :
    Parallel (account, .devices) (updateDevice env account keyId updater)
      (updateDevice alone account keyId updater) := by
  simp only [updateDevice, loadDevices_eq h]
  split_ifs
  · exact ⟨rfl, h.set _ _⟩
  · exact ⟨rfl, h⟩

theorem parallel_updateLastUsed (keyId : BytesN 32) :
    Parallel (account, .devices) ((DeviceManager.mk account).updateLastUsed env keyId)
      ((DeviceManager.mk account).updateLastUsed alone keyId) := by
  simp only [DeviceManager.updateLastUsed, h.timestamp]
  exact parallel_updateDevice h keyId _

theorem parallel_cleanupInactive :
    Parallel (account, .devices) ((DeviceManager.mk account).cleanupInactive env)
      ((DeviceManager.mk account).cleanupInactive alone) := by
  simp only [DeviceManager.cleanupInactive, loadPolicy_eq h, loadDevices_eq h, h.timestamp]
  split_ifs
  · exact ⟨rfl, h⟩
  · exact ⟨rfl, h.set _ _⟩
  · exact ⟨rfl, h⟩

end Devices

section Passkeys

open Secp256r1Storage

variable (h : SameFor (account, .passkeys) env alone)

include h

theorem passkeys_eq : loadAll env account = loadAll alone account :=
  congrArg (Option.getD · []) (h.entries (.p256Keys account) rfl)

theorem sameFor_storePasskey (key : Secp256r1Key) :
    SameFor (account, .passkeys) (store env account key) (store alone account key) := by
  simp only [store, passkeys_eq h]
  exact h.set _ _

theorem parallel_removePasskey (label : Symbol) :
    Parallel (account, .passkeys) (remove env account label) (remove alone account label) := by
  simp only [remove, passkeys_eq h]
  split_ifs
  · exact ⟨rfl, h.remove _⟩
  · exact ⟨rfl, h.set _ _⟩
  · exact ⟨rfl, h⟩

end Passkeys

-- The answer and what is left of a service go by the entries of that service.
theorem rel_invoke {op : ServiceOp} (h : SameFor (account, op.service) env alone) :
    Option.Rel (Parallel (account, op.service)) (op.invoke account env) (op.invoke account alone) := by
  cases op with
  | createSession scope => exact .some (parallel_createSession h scope)
  | revokeSession keyId => exact .some (parallel_revokeSession h keyId)
  | incrementUsage keyId => exact parallel_incrementUsage h keyId
  | cleanupExpired => exact .some (parallel_cleanupExpired h)
  | authorize action => exact parallel_authorize h action
  | newRecovery config => exact .some ⟨rfl, (h.set (.rcvConf account) config).set (.rcvGuard account) []⟩
  | addGuardian guardian => exact .some (parallel_addGuardian h guardian)
  | removeGuardian guardian => exact .some (parallel_removeGuardian h guardian)
  | initiateRecovery newOwner => exact parallel_initiateRecovery h newOwner
  | approveRecovery guardian => exact .some (parallel_approveRecovery h guardian)
  | cancelRecovery => exact .some (parallel_cancelRecovery h)
  | executeRecovery => exact parallel_executeRecovery h
  | activeRequest => exact .some ⟨loadRequest_eq h, h⟩
  | newDevices policy => exact .some ⟨rfl, (h.set (.devPolicy account) policy).set (.devKeys account) []⟩
  | registerDevice keyId deviceName => exact .some (parallel_registerDevice h keyId deviceName)
  | revokeDevice keyId => exact .some (parallel_updateDevice h keyId _)
  | updateLastUsed keyId => exact .some (parallel_updateLastUsed h keyId)
  | setPolicy policy => exact .some ⟨rfl, h.set (.devPolicy account) policy⟩
  | cleanupInactive => exact .some (parallel_cleanupInactive h)
  | listDevices => exact .some ⟨loadDevices_eq h, h⟩
  | storePasskey key => exact .some ⟨rfl, sameFor_storePasskey h key⟩
  | removePasskey label => exact .some (parallel_removePasskey h label)
  | findPasskey label =>
      exact .some ⟨congrArg (KeyedList.lookup Secp256r1Key.label label) (passkeys_eq h), h⟩

end Reads

end Cougr.Accounts
