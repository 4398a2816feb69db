import Cougr.Accounts.Services

namespace Cougr.Accounts

section Writes

variable {env after : Env} {account : Address}

-- What is left when entries of one owner were written, and authorizations asked for.
inductive WritesOf (owner : Address × Service) : Env → Env → Prop where
  | unchanged (env : Env) : WritesOf owner env env
  | set {env env' : Env} (key : AccountKey) (value : key.Value) (howner : key.owner = owner)
      (h : WritesOf owner env env') : WritesOf owner env (env'.set key value)
  | remove {env env' : Env} (key : AccountKey) (howner : key.owner = owner) (h : WritesOf owner env env') :
      WritesOf owner env (env'.remove key)

theorem WritesOf.get_of_ne {owner : Address × Service} (h : WritesOf owner env after) {key : AccountKey}
    (hkey : key.owner ≠ owner) : after.get key = env.get key := by
  have hne : ∀ written : AccountKey, written.owner = owner → key ≠ written := by
    rintro written howner rfl
    exact hkey howner
  induction h with
  | unchanged => rfl
  | set written value howner _ ih => rw [Env.get_set_of_ne _ _ (hne written howner), ih]
  | remove written howner _ ih => rw [Env.get_remove_of_ne _ (hne written howner), ih]

theorem writesOf_writeKeys (env : Env) (account : Address) (keys : List SessionKey) :
    WritesOf (account, .sessions) env (SessionStorage.writeKeys env account keys) := by
  unfold SessionStorage.writeKeys
  split_ifs
  · exact .remove _ rfl (.unchanged env)
  · exact .set _ _ rfl (.unchanged env)

theorem writesOf_revokeSession (self : ContractAccount) (env : Env) (keyId : BytesN 32) :
    WritesOf (self.address, .sessions) env (self.revokeSession env keyId).2 := by
  unfold ContractAccount.revokeSession SessionStorage.remove
  by_cases hfound : (SessionStorage.loadAll env self.address).any fun key => key.keyId = keyId
  · simp only [hfound, if_true]
    exact writesOf_writeKeys env self.address _
  · simp only [hfound]
    exact .unchanged env

theorem writesOf_incrementUsage {result : Except AccountError Unit} {keyId : BytesN 32}
    (h : SessionStorage.incrementUsage env account keyId = some (result, after)) :
    WritesOf (account, .sessions) env after := by
  unfold SessionStorage.incrementUsage at h
  dsimp only at h
  split at h
  · cases h
  · split_ifs at h
    · cases h
      exact .set _ _ rfl (.unchanged env)
    · cases h
      exact .unchanged env

theorem writesOf_cleanupExpired (env : Env) (account : Address) :
    WritesOf (account, .sessions) env (SessionStorage.cleanupExpired env account).2 := by
  unfold SessionStorage.cleanupExpired
  dsimp only
  split_ifs
  · exact writesOf_writeKeys env account _
  · exact .unchanged env

theorem writesOf_addGuardian (self : RecoverableAccount) (env : Env) (guardian : Address) :
    WritesOf (self.address, .recovery) env (self.addGuardian env guardian).2 := by
  unfold RecoverableAccount.addGuardian
  split
  · exact .unchanged env
  · dsimp only
    split_ifs
    · exact .unchanged env
    · exact .unchanged env
    · exact .set _ _ rfl (.unchanged env)

theorem writesOf_removeGuardian (self : RecoverableAccount) (env : Env) (guardian : Address) :
    WritesOf (self.address, .recovery) env (self.removeGuardian env guardian).2 := by
  unfold RecoverableAccount.removeGuardian
  dsimp only
  split_ifs
  · exact .set _ _ rfl (.unchanged env)
  · exact .unchanged env

theorem writesOf_initiateRecovery {self : RecoverableAccount} {newOwner : Address}
    {result : Except AccountError RecoveryRequest}
    (h : self.initiateRecovery env newOwner = some (result, after)) :
    WritesOf (self.address, .recovery) env after := by
  unfold RecoverableAccount.initiateRecovery at h
  split at h
  · cases h
    exact .unchanged env
  · split at h
    · cases h
      exact .unchanged env
    · obtain ⟨timelockUntil, _, heq⟩ := Option.map_eq_some_iff.mp h
      cases heq
      exact .set _ _ rfl (.unchanged env)

theorem writesOf_approveRecovery (self : RecoverableAccount) (env : Env) (guardian : Address) :
    WritesOf (self.address, .recovery) env (self.approveRecovery env guardian).2 := by
  unfold RecoverableAccount.approveRecovery
  split
  · exact .unchanged env
  · dsimp only
    split_ifs
    · exact .unchanged env
    · exact .unchanged env
    · exact .set _ _ rfl (.unchanged env)
    · exact .unchanged env

theorem writesOf_cancelRecovery (self : RecoverableAccount) (env : Env) :
    WritesOf (self.address, .recovery) env (self.cancelRecovery env).2 := by
  unfold RecoverableAccount.cancelRecovery
  split
  · exact .unchanged env
  · split_ifs
    · exact .unchanged env
    · exact .remove _ rfl (.unchanged env)

-- Either nothing is written, or the request of the new owner goes.
theorem writesOf_executeRecovery (self : RecoverableAccount) (env : Env) :
    (self.executeRecovery env).2.2 = env ∨ ∃ newOwner, (self.executeRecovery env).1 = .ok newOwner ∧
      WritesOf (newOwner, .recovery) env (self.executeRecovery env).2.2 := by
  unfold RecoverableAccount.executeRecovery
  cases RecoveryStorage.loadRequest env self.address with
  | none => exact Or.inl rfl
  | some request =>
      cases RecoveryStorage.loadConfig env self.address with
      | none =>
          dsimp only
          split_ifs <;> exact Or.inl rfl
      | some config =>
          dsimp only
          split_ifs
          · exact Or.inl rfl
          · exact Or.inl rfl
          · exact Or.inl rfl
          · exact Or.inr ⟨request.newOwner, rfl, .remove _ rfl (.unchanged env)⟩

theorem writesOf_registerDevice (self : DeviceManager) (env : Env) (keyId : BytesN 32) (deviceName : Symbol) :
    WritesOf (self.address, .devices) env (self.registerDevice env keyId deviceName).2 := by
  unfold DeviceManager.registerDevice
  split
  · exact .unchanged env
  · dsimp only
    split_ifs
    · exact .unchanged env
    · exact .unchanged env
    · exact .set _ _ rfl (.unchanged env)

theorem writesOf_updateDevice (env : Env) (account : Address) (keyId : BytesN 32)
    (updater : DeviceKey → DeviceKey) :
    WritesOf (account, .devices) env (DeviceStorage.updateDevice env account keyId updater).2 := by
  unfold DeviceStorage.updateDevice
  dsimp only
  split_ifs
  · exact .set _ _ rfl (.unchanged env)
  · exact .unchanged env

theorem writesOf_cleanupInactive (self : DeviceManager) (env : Env) :
    WritesOf (self.address, .devices) env (self.cleanupInactive env).2 := by
  unfold DeviceManager.cleanupInactive
  dsimp only
  split_ifs
  · exact .unchanged env
  · exact .set _ _ rfl (.unchanged env)
  · exact .unchanged env

theorem writesOf_removePasskey (env : Env) (account : Address) (label : Symbol) :
    WritesOf (account, .passkeys) env (Secp256r1Storage.remove env account label).2 := by
  unfold Secp256r1Storage.remove
  dsimp only
  split_ifs
  · exact .remove _ rfl (.unchanged env)
  · exact .set _ _ rfl (.unchanged env)
  · exact .unchanged env

theorem writesOf_new_recovery (env : Env) (account : Address) (config : RecoveryConfig) :
    WritesOf (account, .recovery) env (RecoverableAccount.new account config env).2 :=
  .set (.rcvGuard account) _ rfl (.set (.rcvConf account) _ rfl (.unchanged env))

theorem writesOf_new_devices (env : Env) (account : Address) (policy : DevicePolicy) :
    WritesOf (account, .devices) env (DeviceManager.new account policy env).2 :=
  .set (.devKeys account) _ rfl (.set (.devPolicy account) _ rfl (.unchanged env))

theorem writesOf_of_some {owner : Address × Service} {α : Type} {outcome : α × Env} {answer : α}
    (hwrites : WritesOf owner env outcome.2)
    (h : some outcome = some (answer, after)) : WritesOf owner env after := by
  cases h
  exact hwrites

-- A call writes entries of its account's service, unless it hands over a recovery.
theorem get_invoke_of_ne {op : ServiceOp} {answer : op.Answer} (h : op.invoke account env = some (answer, after))
    {key : AccountKey} (hkey : key.owner ≠ (account, op.service))
    (hkept : op = .executeRecovery →
      ∀ newOwner, ((RecoverableAccount.load account).executeRecovery env).1 = .ok newOwner →
      key.owner ≠ (newOwner, .recovery)) : after.get key = env.get key := by
  cases op with
  | createSession scope =>
    exact (writesOf_of_some (.set (.sessKeys account) _ rfl (.unchanged env)) h).get_of_ne hkey
  | revokeSession keyId => exact (writesOf_of_some (writesOf_revokeSession ⟨account⟩ env keyId) h).get_of_ne hkey
  | incrementUsage keyId => exact (writesOf_incrementUsage h).get_of_ne hkey
  | cleanupExpired => exact (writesOf_of_some (writesOf_cleanupExpired env account) h).get_of_ne hkey
  | authorize action =>
      simp only [ServiceOp.invoke, ContractAccount.authorize] at h
      split_ifs at h
      · cases h
        rfl
      · obtain ⟨asked, hasked, heq⟩ := Option.map_eq_some_iff.mp h
        cases heq
        unfold Env.requireAuth at hasked
        split_ifs at hasked
        cases hasked
        rfl
  | newRecovery config =>
      cases h
      exact (writesOf_new_recovery env account config).get_of_ne hkey
  | addGuardian guardian =>
    exact (writesOf_of_some (writesOf_addGuardian ⟨account⟩ env guardian) h).get_of_ne hkey
  | removeGuardian guardian =>
      exact (writesOf_of_some (writesOf_removeGuardian ⟨account⟩ env guardian) h).get_of_ne hkey
  | initiateRecovery newOwner => exact (writesOf_initiateRecovery h).get_of_ne hkey
  | approveRecovery guardian =>
      exact (writesOf_of_some (writesOf_approveRecovery ⟨account⟩ env guardian) h).get_of_ne hkey
  | cancelRecovery => exact (writesOf_of_some (writesOf_cancelRecovery ⟨account⟩ env) h).get_of_ne hkey
  | executeRecovery =>
      cases h
      rcases writesOf_executeRecovery (.load account) env with hsame | ⟨newOwner, hok, hwrites⟩
      · exact congrArg (Env.get · key) hsame
      · exact hwrites.get_of_ne (hkept rfl newOwner hok)
  | activeRequest => exact (writesOf_of_some (.unchanged env) h).get_of_ne hkey
  | newDevices policy =>
      cases h
      exact (writesOf_new_devices env account policy).get_of_ne hkey
  | registerDevice keyId deviceName =>
      exact (writesOf_of_some (writesOf_registerDevice ⟨account⟩ env keyId deviceName) h).get_of_ne hkey
  | revokeDevice keyId => exact (writesOf_of_some (writesOf_updateDevice env account keyId _) h).get_of_ne hkey
  | updateLastUsed keyId => exact (writesOf_of_some (writesOf_updateDevice env account keyId _) h).get_of_ne hkey
  | setPolicy policy =>
    exact (writesOf_of_some (.set (.devPolicy account) _ rfl (.unchanged env)) h).get_of_ne hkey
  | cleanupInactive => exact (writesOf_of_some (writesOf_cleanupInactive ⟨account⟩ env) h).get_of_ne hkey
  | listDevices => exact (writesOf_of_some (.unchanged env) h).get_of_ne hkey
  | storePasskey passkey =>
      exact (writesOf_of_some (.set (.p256Keys account) _ rfl (.unchanged env)) h).get_of_ne hkey
  | removePasskey label => exact (writesOf_of_some (writesOf_removePasskey env account label) h).get_of_ne hkey
  | findPasskey label => exact (writesOf_of_some (.unchanged env) h).get_of_ne hkey

end Writes

end Cougr.Accounts
