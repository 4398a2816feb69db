import Cougr.Accounts.Recovery
import Cougr.Library.Transition

namespace Cougr.Accounts

namespace RecoveryStorage

variable (env : Env) (account : Address)

@[simp] theorem loadConfig_atTime (timestamp : Nat) :
    loadConfig (env.atTime timestamp) account = loadConfig env account := rfl

@[simp] theorem loadRequest_atTime (timestamp : Nat) :
    loadRequest (env.atTime timestamp) account = loadRequest env account := rfl

@[simp] theorem loadGuardians_atTime (timestamp : Nat) :
    loadGuardians (env.atTime timestamp) account = loadGuardians env account := rfl

@[simp] theorem loadGuardians_storeGuardians_self (guardians : List Guardian) :
    loadGuardians (storeGuardians env account guardians) account = guardians := by
  simp [loadGuardians, storeGuardians]

@[simp] theorem loadRequest_storeRequest_self (request : RecoveryRequest) :
    loadRequest (storeRequest env account request) account = some request := Env.get_set_self ..

@[simp] theorem loadRequest_removeRequest_self :
    loadRequest (removeRequest env account) account = none := Env.get_remove_self ..

variable {account} {other : Address}

@[simp] theorem loadGuardians_storeGuardians_of_ne (guardians : List Guardian) (h : other ≠ account) :
    loadGuardians (storeGuardians env account guardians) other = loadGuardians env other := by
  simp [loadGuardians, storeGuardians, h]

@[simp] theorem loadRequest_storeRequest_of_ne (request : RecoveryRequest) (h : other ≠ account) :
    loadRequest (storeRequest env account request) other = loadRequest env other :=
  Env.get_set_of_ne _ _ (by simp [h])

@[simp] theorem loadRequest_removeRequest_of_ne (h : other ≠ account) :
    loadRequest (removeRequest env account) other = loadRequest env other :=
  Env.get_remove_of_ne _ (by simp [h])

@[simp] theorem loadGuardians_storeRequest (request : RecoveryRequest) :
    loadGuardians (storeRequest env account request) other = loadGuardians env other := by
  simp [loadGuardians, storeRequest]

@[simp] theorem loadGuardians_removeRequest :
    loadGuardians (removeRequest env account) other = loadGuardians env other := by
  simp [loadGuardians, removeRequest]

@[simp] theorem loadGuardians_storeConfig (config : RecoveryConfig) :
    loadGuardians (storeConfig env account config) other = loadGuardians env other := by
  simp [loadGuardians, storeConfig]

@[simp] theorem loadConfig_storeGuardians (guardians : List Guardian) :
    loadConfig (storeGuardians env account guardians) other = loadConfig env other := by
  simp [loadConfig, storeGuardians]

@[simp] theorem loadConfig_storeRequest (request : RecoveryRequest) :
    loadConfig (storeRequest env account request) other = loadConfig env other := by
  simp [loadConfig, storeRequest]

@[simp] theorem loadConfig_removeRequest :
    loadConfig (removeRequest env account) other = loadConfig env other := by
  simp [loadConfig, removeRequest]

@[simp] theorem loadRequest_storeConfig (config : RecoveryConfig) :
    loadRequest (storeConfig env account config) other = loadRequest env other := by
  simp [loadRequest, storeConfig]

@[simp] theorem loadRequest_storeGuardians (guardians : List Guardian) :
    loadRequest (storeGuardians env account guardians) other = loadRequest env other := by
  simp [loadRequest, storeGuardians]

end RecoveryStorage

open RecoveryStorage

-- `guardian` is registered for the account.
def Registered (env : Env) (account guardian : Address) : Prop :=
  RecoverableAccount.listed (loadGuardians env account) guardian

instance (env : Env) (account guardian : Address) : Decidable (Registered env account guardian) :=
  inferInstanceAs (Decidable (_ = true))

namespace RecoverableAccount

variable {self : RecoverableAccount} {env env' : Env}

theorem listed_iff {guardians : List Guardian} {guardian : Address} :
    listed guardians guardian ↔ ∃ g ∈ guardians, g.address = guardian := by
  simp [listed]

-- What each operation writes; when it fails it writes nothing.

theorem addGuardian_env (self : RecoverableAccount) (env : Env) (guardian : Address) :
    (self.addGuardian env guardian).2 = env ∨
      ∃ config, loadConfig env self.address = some config ∧
        (loadGuardians env self.address).length < config.maxGuardians ∧
        ¬Registered env self.address guardian ∧
        (self.addGuardian env guardian).2 = storeGuardians env self.address
          (loadGuardians env self.address ++ [⟨guardian, env.timestamp⟩]) := by
  unfold addGuardian
  dsimp only
  split
  · exact Or.inl rfl
  · rename_i config hconfig
    split_ifs with hfull hlisted
    · exact Or.inl rfl
    · exact Or.inl rfl
    · exact Or.inr ⟨config, hconfig, Nat.lt_of_not_le hfull, hlisted, rfl⟩

theorem removeGuardian_env (self : RecoverableAccount) (env : Env) (guardian : Address) :
    (self.removeGuardian env guardian).2 = env ∨
      (self.removeGuardian env guardian).2 = storeGuardians env self.address
        (KeyedList.removeKey Guardian.address guardian (loadGuardians env self.address)) := by
  unfold removeGuardian
  dsimp only
  split_ifs
  · exact Or.inr rfl
  · exact Or.inl rfl

theorem initiateRecovery_env {newOwner : Address} {result : Except AccountError RecoveryRequest}
    (h : self.initiateRecovery env newOwner = some (result, env')) :
    env' = env ∨ ∃ config, loadRequest env self.address = none ∧
      loadConfig env self.address = some config ∧
      env' = storeRequest env self.address
        { newOwner, approvals := [], initiatedAt := env.timestamp,
          timelockUntil := env.timestamp + config.timelockPeriod, cancelled := false } := by
  unfold initiateRecovery checkedAdd at h
  split_ifs at h with hactive
  · cases h
    exact Or.inl rfl
  · split at h
    · cases h
      exact Or.inl rfl
    · rename_i config hconfig
      dsimp only at h
      split_ifs at h
      · cases h
        exact Or.inr ⟨config, by simpa using hactive, hconfig, rfl⟩
      · cases h

theorem approveRecovery_env (self : RecoverableAccount) (env : Env) (guardian : Address) :
    (self.approveRecovery env guardian).2 = env ∨
      ∃ request, loadRequest env self.address = some request ∧
        Registered env self.address guardian ∧ guardian ∉ request.approvals ∧
        (self.approveRecovery env guardian).2 = storeRequest env self.address
          { request with approvals := request.approvals ++ [guardian] } := by
  unfold approveRecovery
  split
  · exact Or.inl rfl
  · rename_i request hrequest
    split_ifs with hcancelled hlisted happroved
    · exact Or.inl rfl
    · exact Or.inl rfl
    · exact Or.inr ⟨request, hrequest, hlisted, happroved, rfl⟩
    · exact Or.inl rfl

theorem cancelRecovery_env (self : RecoverableAccount) (env : Env) :
    (self.cancelRecovery env).2 = env ∨ (self.cancelRecovery env).2 = removeRequest env self.address := by
  unfold cancelRecovery
  split
  · exact Or.inl rfl
  · split_ifs
    · exact Or.inl rfl
    · exact Or.inr rfl

-- Everything a successful execution has checked and done.
theorem executeRecovery_ok_iff {self' : RecoverableAccount} {newOwner : Address} :
    self.executeRecovery env = (.ok newOwner, self', env') ↔
      ∃ request config, loadRequest env self.address = some request ∧ request.cancelled = false ∧
        loadConfig env self.address = some config ∧ config.threshold ≤ request.approvals.length ∧
        request.timelockUntil ≤ env.timestamp ∧ newOwner = request.newOwner ∧
        self' = ⟨request.newOwner⟩ ∧ env' = removeRequest env request.newOwner := by
  unfold executeRecovery
  cases hrequest : loadRequest env self.address with
  | none => simp
  | some request =>
      cases hconfig : loadConfig env self.address with
      | none => by_cases hcancelled : request.cancelled <;> simp [hcancelled]
      | some config =>
          dsimp only
          split_ifs with hcancelled hthreshold htime
          · simp [hcancelled]
          · simp [hthreshold]
          · simp [htime]
          · simp only [Bool.not_eq_true] at hcancelled
            simp only [Nat.not_lt] at hthreshold htime
            simp only [Prod.mk.injEq, Except.ok.injEq, Option.some.injEq]
            constructor
            · rintro ⟨rfl, rfl, rfl⟩
              exact ⟨request, config, rfl, hcancelled, rfl, hthreshold, htime, rfl, rfl, rfl⟩
            · rintro ⟨_, _, rfl, _, rfl, _, _, rfl, rfl, rfl⟩
              exact ⟨rfl, rfl, rfl⟩

theorem executeRecovery_env (self : RecoverableAccount) (env : Env) :
    (self.executeRecovery env).2.2 = env ∨
      ∃ newOwner, (self.executeRecovery env).2.2 = removeRequest env newOwner := by
  unfold executeRecovery
  cases loadRequest env self.address with
  | none => exact Or.inl rfl
  | some request =>
      cases loadConfig env self.address with
      | none =>
          dsimp only
          split_ifs <;> exact Or.inl rfl
      | some config =>
          dsimp only
          split_ifs
          · exact Or.inl rfl
          · exact Or.inl rfl
          · exact Or.inl rfl
          · exact Or.inr ⟨_, rfl⟩

-- A new account on an empty host has no request, and neither has any other account.
theorem loadRequest_new (address : Address) (config : RecoveryConfig) (timestamp : Nat) (account : Address) :
    loadRequest (new address config (Env.fresh timestamp)).2 account = none := by
  rw [new, loadRequest_storeGuardians, loadRequest_storeConfig]
  rfl

end RecoverableAccount

namespace RecoveryCall

-- What a call does to the environment. An operation that fails writes nothing.
inductive Effect (env : Env) (call : RecoveryCall) : Env → Prop where
  | nothing : Effect env call (env.atTime call.timestamp)
  | guardianAdded (guardian : Address) :
      call.op = .addGuardian guardian →
      Effect env call (storeGuardians (env.atTime call.timestamp) call.account
        (loadGuardians env call.account ++ [⟨guardian, call.timestamp⟩]))
  | guardianRemoved (guardian : Address) :
      call.op = .removeGuardian guardian →
      Effect env call (storeGuardians (env.atTime call.timestamp) call.account
        (KeyedList.removeKey Guardian.address guardian (loadGuardians env call.account)))
  | initiated (newOwner : Address) (config : RecoveryConfig) :
      call.op = .initiateRecovery newOwner → loadRequest env call.account = none →
      loadConfig env call.account = some config →
      Effect env call (storeRequest (env.atTime call.timestamp) call.account
        { newOwner, approvals := [], initiatedAt := call.timestamp,
          timelockUntil := call.timestamp + config.timelockPeriod, cancelled := false })
  | approved (guardian : Address) (request : RecoveryRequest) :
      call.op = .approveRecovery guardian → loadRequest env call.account = some request →
      Registered env call.account guardian → guardian ∉ request.approvals →
      Effect env call (storeRequest (env.atTime call.timestamp) call.account
        { request with approvals := request.approvals ++ [guardian] })
  | cancelled :
      call.op = .cancelRecovery →
      Effect env call (removeRequest (env.atTime call.timestamp) call.account)
  | executed (newOwner : Address) :
      call.op = .executeRecovery →
      Effect env call (removeRequest (env.atTime call.timestamp) newOwner)

theorem effect_step (env : Env) (call : RecoveryCall) : Effect env call (step env call) := by
  obtain ⟨timestamp, account, op⟩ := call
  simp only [step]
  generalize hself : RecoverableAccount.load account = self
  generalize hnow : env.atTime timestamp = now
  have hnothing : Effect env ⟨timestamp, account, op⟩ now := hnow ▸ .nothing
  cases op with
  | addGuardian guardian =>
      dsimp only
      rcases self.addGuardian_env now guardian with h | ⟨config, hconfig, hroom, hnew, h⟩ <;> rw [h]
      · exact hnothing
      · subst hself hnow
        exact .guardianAdded guardian rfl
  | removeGuardian guardian =>
      dsimp only
      rcases self.removeGuardian_env now guardian with h | h <;> rw [h]
      · exact hnothing
      · subst hself hnow
        exact .guardianRemoved guardian rfl
  | initiateRecovery newOwner =>
      dsimp only
      cases hcall : self.initiateRecovery now newOwner with
      | none => exact hnothing
      | some pair =>
          obtain ⟨result, env'⟩ := pair
          rcases RecoverableAccount.initiateRecovery_env hcall with rfl | ⟨config, hnone, hconfig, rfl⟩
          · exact hnothing
          · subst hself hnow
            exact .initiated newOwner config rfl hnone hconfig
  | approveRecovery guardian =>
      dsimp only
      rcases self.approveRecovery_env now guardian with h | ⟨request, hrequest, hlisted, hnew, h⟩ <;>
        rw [h]
      · exact hnothing
      · subst hself hnow
        exact .approved guardian request rfl hrequest hlisted hnew
  | cancelRecovery =>
      dsimp only
      rcases self.cancelRecovery_env now with h | h <;> rw [h]
      · exact hnothing
      · subst hself hnow
        exact .cancelled rfl
  | executeRecovery =>
      dsimp only
      rcases self.executeRecovery_env now with h | ⟨newOwner, h⟩ <;> rw [h]
      · exact hnothing
      · subst hnow
        exact .executed newOwner rfl

-- No call of the run touches a config.
@[simp] theorem loadConfig_step (env : Env) (call : RecoveryCall) (account : Address) :
    loadConfig (step env call) account = loadConfig env account := by
  have heffect := effect_step env call
  generalize step env call = env' at heffect ⊢
  cases heffect <;> simp

-- How a call can change the request stored for an account.
inductive RequestChange (env : Env) (call : RecoveryCall) (account : Address) :
    Option RecoveryRequest → Prop where
  | same : RequestChange env call account (loadRequest env account)
  | initiated (newOwner : Address) (config : RecoveryConfig) :
      call.account = account → call.op = .initiateRecovery newOwner →
      loadRequest env account = none → loadConfig env account = some config →
      RequestChange env call account (some
        { newOwner, approvals := [], initiatedAt := call.timestamp,
          timelockUntil := call.timestamp + config.timelockPeriod, cancelled := false })
  | approved (guardian : Address) (request : RecoveryRequest) :
      call.account = account → call.op = .approveRecovery guardian →
      loadRequest env account = some request → Registered env account guardian →
      guardian ∉ request.approvals →
      RequestChange env call account (some { request with approvals := request.approvals ++ [guardian] })
  -- cancelled, or executed through some handle in favour of this address
  | removed : RequestChange env call account none

theorem requestChange_step (env : Env) (call : RecoveryCall) (account : Address) :
    RequestChange env call account (loadRequest (step env call) account) := by
  have hsame : ∀ env', loadRequest env' account = loadRequest env account →
      RequestChange env call account (loadRequest env' account) := by
    intro env' h
    rw [h]
    exact .same
  have hremoved : ∀ address, RequestChange env call account
      (loadRequest (removeRequest (env.atTime call.timestamp) address) account) := by
    intro address
    by_cases haddress : account = address
    · rw [haddress, loadRequest_removeRequest_self]
      exact .removed
    · exact hsame _ (loadRequest_removeRequest_of_ne _ haddress)
  have heffect := effect_step env call
  generalize step env call = env' at heffect ⊢
  cases heffect with
  | nothing => exact hsame _ rfl
  | guardianAdded guardian hop => exact hsame _ (loadRequest_storeGuardians ..)
  | guardianRemoved guardian hop => exact hsame _ (loadRequest_storeGuardians ..)
  | initiated newOwner config hop hnone hconfig =>
      by_cases haccount : account = call.account
      · rw [haccount, loadRequest_storeRequest_self]
        exact .initiated newOwner config rfl hop hnone hconfig
      · exact hsame _ (loadRequest_storeRequest_of_ne _ _ haccount)
  | approved guardian request hop hrequest hregistered hnew =>
      by_cases haccount : account = call.account
      · rw [haccount, loadRequest_storeRequest_self]
        exact .approved guardian request rfl hop hrequest hregistered hnew
      · exact hsame _ (loadRequest_storeRequest_of_ne _ _ haccount)
  | cancelled hop => exact hremoved call.account
  | executed newOwner hop => exact hremoved newOwner

-- How a call can change the guardian list of an account.
inductive GuardiansChange (env : Env) (call : RecoveryCall) (account : Address) : List Guardian → Prop where
  | same : GuardiansChange env call account (loadGuardians env account)
  | added (guardian : Address) (config : RecoveryConfig) :
      call.account = account → call.op = .addGuardian guardian →
      loadConfig env account = some config → (loadGuardians env account).length < config.maxGuardians →
      ¬Registered env account guardian →
      GuardiansChange env call account (loadGuardians env account ++ [⟨guardian, call.timestamp⟩])
  | removed (guardian : Address) :
      call.account = account → call.op = .removeGuardian guardian →
      GuardiansChange env call account
        (KeyedList.removeKey Guardian.address guardian (loadGuardians env account))

theorem guardiansChange_step (env : Env) (call : RecoveryCall) (account : Address) :
    GuardiansChange env call account (loadGuardians (step env call) account) := by
  have hsame : ∀ env', loadGuardians env' account = loadGuardians env account →
      GuardiansChange env call account (loadGuardians env' account) := by
    intro env' h
    rw [h]
    exact .same
  have heffect := effect_step env call
  generalize hafter : step env call = env' at heffect ⊢
  cases heffect with
  | nothing => exact hsame _ rfl
  | guardianAdded guardian hop =>
      by_cases haccount : account = call.account
      · -- the effect does not keep the checks, so the call is read once more
        have hcall : step env call =
            ((RecoverableAccount.load call.account).addGuardian (env.atTime call.timestamp) guardian).2 := by
          simp only [step, hop]
        rw [← hafter, hcall, haccount]
        rcases (RecoverableAccount.load call.account).addGuardian_env (env.atTime call.timestamp)
          guardian with h | ⟨config, hconfig, hroom, hnew, h⟩ <;> rw [h]
        · exact .same
        · rw [RecoverableAccount.load, loadGuardians_storeGuardians_self]
          exact .added guardian config rfl hop hconfig hroom hnew
      · exact hsame _ (loadGuardians_storeGuardians_of_ne _ _ haccount)
  | guardianRemoved guardian hop =>
      by_cases haccount : account = call.account
      · rw [haccount, loadGuardians_storeGuardians_self]
        exact .removed guardian rfl hop
      · exact hsame _ (loadGuardians_storeGuardians_of_ne _ _ haccount)
  | initiated newOwner config hop hnone hconfig => exact hsame _ (loadGuardians_storeRequest ..)
  | approved guardian request hop hrequest hregistered hnew => exact hsame _ (loadGuardians_storeRequest ..)
  | cancelled hop => exact hsame _ (loadGuardians_removeRequest ..)
  | executed newOwner hop => exact hsame _ (loadGuardians_removeRequest ..)

-- A guardian stays registered until `remove_guardian` is called for it.
theorem registered_step {env : Env} {call : RecoveryCall} {account guardian : Address}
    (hkept : ¬(call.account = account ∧ call.op = .removeGuardian guardian))
    (hregistered : Registered env account guardian) : Registered (step env call) account guardian := by
  obtain ⟨g, hg, rfl⟩ := RecoverableAccount.listed_iff.mp hregistered
  refine RecoverableAccount.listed_iff.mpr ⟨g, ?_, rfl⟩
  have hchange := guardiansChange_step env call account
  generalize loadGuardians (step env call) account = after at hchange ⊢
  cases hchange with
  | same => exact hg
  | added guardian config haccount hop hconfig hroom hnew => exact List.mem_append_left _ hg
  | removed guardian haccount hop =>
      have hne : g.address ≠ guardian := fun h => hkept ⟨haccount, by rw [hop, h]⟩
      exact List.mem_filter.mpr ⟨hg, by simpa using hne⟩

end RecoveryCall

-- What holds of a stored request, whatever calls have been made.
structure RequestFits (env : Env) (account : Address) (request : RecoveryRequest) : Prop where
  notCancelled : request.cancelled = false
  nodup : request.approvals.Nodup
  timelock : ∃ config, loadConfig env account = some config ∧
    request.timelockUntil = request.initiatedAt + config.timelockPeriod

def RequestsFit (env : Env) : Prop :=
  ∀ account request, loadRequest env account = some request → RequestFits env account request

theorem requestsFit_step (env : Env) (call : RecoveryCall) (hfit : RequestsFit env) :
    RequestsFit (call.step env) := by
  intro account request hrequest
  have hchange := RecoveryCall.requestChange_step env call account
  rw [hrequest] at hchange
  generalize hresult : some request = result at hchange
  cases hchange with
  | same =>
      obtain ⟨hcancelled, hnodup, htimelock⟩ := hfit account request hresult.symm
      exact ⟨hcancelled, hnodup, by simpa using htimelock⟩
  | initiated newOwner config haccount hop hnone hconfig =>
      cases hresult
      exact ⟨rfl, List.nodup_nil, config, by simpa using hconfig, rfl⟩
  | approved guardian old haccount hop hold hregistered hnew =>
      cases hresult
      obtain ⟨hcancelled, hnodup, htimelock⟩ := hfit account old hold
      refine ⟨hcancelled, ?_, by simpa using htimelock⟩
      exact List.nodup_append.mpr ⟨hnodup, List.nodup_singleton _, by
        rintro approver happrover _ (hmem : _ ∈ [guardian]) rfl
        exact hnew (List.mem_singleton.mp hmem ▸ happrover)⟩
  | removed => cases hresult

theorem requestsFit_run {start : Env} (hnone : ∀ account, loadRequest start account = none)
    (calls : List RecoveryCall) : RequestsFit (Transition.run RecoveryCall.step start calls) := by
  apply Transition.run_invariant_of_step RequestsFit requestsFit_step
  intro account request hrequest
  rw [hnone] at hrequest
  cases hrequest

theorem loadConfig_run (start : Env) (calls : List RecoveryCall) (account : Address) :
    loadConfig (Transition.run RecoveryCall.step start calls) account = loadConfig start account :=
  Transition.run_invariant_of_step (fun env => loadConfig env account = loadConfig start account)
    (fun env call h => by rw [RecoveryCall.loadConfig_step, h]) rfl calls

end Cougr.Accounts
