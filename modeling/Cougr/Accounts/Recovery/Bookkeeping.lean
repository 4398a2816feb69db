import Cougr.Accounts.Recovery.Theorems

namespace Cougr.Accounts

open RecoveryStorage Transition

namespace RecoverableAccount

theorem cancelRecovery_ok {self : RecoverableAccount} {env : Env}
    (h : (self.cancelRecovery env).1 = .ok ()) : loadRequest (self.cancelRecovery env).2 self.address = none := by
  unfold cancelRecovery at h ⊢
  split at h
  · cases h
  · split_ifs at h ⊢
    exact loadRequest_removeRequest_self env self.address

theorem initiateRecovery_error_iff (self : RecoverableAccount) (env : Env) (newOwner : Address) :
    (∃ error env', self.initiateRecovery env newOwner = some (.error error, env')) ↔
      (loadRequest env self.address).isSome ∨ loadConfig env self.address = none := by
  unfold initiateRecovery
  split_ifs with hactive
  · exact iff_of_true ⟨_, _, rfl⟩ (Or.inl hactive)
  · cases hconfig : loadConfig env self.address with
    | none => exact iff_of_true ⟨_, _, rfl⟩ (Or.inr rfl)
    | some config =>
        refine iff_of_false ?_ (by simp [hactive])
        rintro ⟨error, env', h⟩
        obtain ⟨_, _, h⟩ := Option.map_eq_some_iff.mp h
        cases h

-- The timelock is the only sum the call makes.
theorem initiateRecovery_isSome {self : RecoverableAccount} {env : Env} (newOwner : Address)
    (hroom : ∀ config, loadConfig env self.address = some config →
      env.timestamp + config.timelockPeriod ≤ u64Max) : (self.initiateRecovery env newOwner).isSome := by
  unfold initiateRecovery
  split_ifs
  · rfl
  · cases hconfig : loadConfig env self.address with
    | none => rfl
    | some config => simp [checkedAdd, hroom config hconfig]

-- A new account on an empty host has no guardians, and neither has any other account.
theorem loadGuardians_new (address : Address) (config : RecoveryConfig) (timestamp : Nat) (account : Address) :
    loadGuardians (new address config (Env.fresh timestamp)).2 account = [] := by
  by_cases haccount : account = address
  · rw [haccount]
    exact loadGuardians_storeGuardians_self ..
  · rw [new, loadGuardians_storeGuardians_of_ne _ _ haccount, loadGuardians_storeConfig]
    rfl

end RecoverableAccount

-- No guardian twice and no more of them than the config allows; without a config, none.
structure GuardiansFit (env : Env) (account : Address) : Prop where
  distinct : ((loadGuardians env account).map Guardian.address).Nodup
  bounded : (loadGuardians env account).length ≤
    ((RecoverableAccount.load account).recoveryConfig env).maxGuardians

theorem guardiansFit_step {env : Env} {account : Address} (h : GuardiansFit env account) (call : RecoveryCall) :
    GuardiansFit (call.step env) account := by
  obtain ⟨hdistinct, hbounded⟩ := h
  have hconfig : (RecoverableAccount.load account).recoveryConfig (call.step env) =
      (RecoverableAccount.load account).recoveryConfig env := by
    rw [RecoverableAccount.recoveryConfig, RecoveryCall.loadConfig_step]
    rfl
  have hchange := RecoveryCall.guardiansChange_step env call account
  constructor
  · generalize loadGuardians (call.step env) account = after at hchange ⊢
    cases hchange with
    | same => exact hdistinct
    | added guardian config haccount hop hconfig hroom hnew =>
        rw [List.map_append, List.map_singleton]
        refine List.nodup_append.mpr ⟨hdistinct, List.nodup_singleton _, ?_⟩
        intro address haddress other hother
        rw [List.mem_singleton.mp hother]
        rintro rfl
        exact hnew (RecoverableAccount.listed_iff.mpr (List.mem_map.mp haddress))
    | removed guardian haccount hop => exact KeyedList.nodup_filter hdistinct _
  · rw [hconfig]
    generalize loadGuardians (call.step env) account = after at hchange ⊢
    cases hchange with
    | same => exact hbounded
    | added guardian config haccount hop hconfig hroom hnew =>
        have hmax : ((RecoverableAccount.load account).recoveryConfig env).maxGuardians =
            config.maxGuardians := by
          rw [RecoverableAccount.recoveryConfig, RecoverableAccount.load, hconfig]
          rfl
        rw [hmax, List.length_append, List.length_singleton]
        exact hroom
    | removed guardian haccount hop => exact (List.length_filter_le _ _).trans hbounded

-- The call that initiated a stored request.
def initiation (account : Address) (request : RecoveryRequest) : RecoveryCall :=
  ⟨request.initiatedAt, account, .initiateRecovery request.newOwner⟩

-- The call adds the approval of a guardian registered at that moment.
structure AddsApproval (env : Env) (call : RecoveryCall) (account guardian : Address) : Prop where
  account_eq : call.account = account
  op_eq : call.op = .approveRecovery guardian
  registered : Registered env account guardian
  adds : ∃ request, loadRequest env account = some request ∧ guardian ∉ request.approvals ∧
    loadRequest (call.step env) account = some { request with approvals := request.approvals ++ [guardian] }

-- One of `calls`, made after `past`, adds the approval.
def ApprovedIn (start : Env) (past calls : List RecoveryCall) (account guardian : Address) : Prop :=
  ∃ before call after, calls = before ++ call :: after ∧
    AddsApproval (run RecoveryCall.step start (past ++ before)) call account guardian

-- A stored request goes back to one call that initiated it with no approvals, it has been pending ever
-- since, and all its approvals were given in that time.
structure InitiatedBy (start : Env) (past rest : List RecoveryCall) (account : Address)
    (request : RecoveryRequest) : Prop where
  noneBefore : loadRequest (run RecoveryCall.step start past) account = none
  initiated : loadRequest (run RecoveryCall.step start (past ++ [initiation account request])) account =
    some { request with approvals := [] }
  pending : ∀ since, since <+: rest →
    (loadRequest (run RecoveryCall.step start (past ++ [initiation account request] ++ since)) account).isSome
  approved : ∀ guardian ∈ request.approvals,
    ApprovedIn start (past ++ [initiation account request]) rest account guardian

def Initiated (start : Env) (calls : List RecoveryCall) (account : Address) (request : RecoveryRequest) : Prop :=
  ∃ past rest, calls = past ++ [initiation account request] ++ rest ∧ InitiatedBy start past rest account request

section Approvals

variable {start : Env} {past rest : List RecoveryCall} {account : Address}

theorem ApprovedIn.append {calls : List RecoveryCall} {guardian : Address}
    (h : ApprovedIn start past calls account guardian) (more : List RecoveryCall) :
    ApprovedIn start past (calls ++ more) account guardian := by
  obtain ⟨before, call, after, rfl, hadds⟩ := h
  exact ⟨before, call, after ++ more, by simp, hadds⟩

-- An approval made late was made after any earlier moment.
theorem ApprovedIn.of_append {early late : List RecoveryCall} {guardian : Address}
    (h : ApprovedIn start (past ++ early) late account guardian) :
    ApprovedIn start past (early ++ late) account guardian := by
  obtain ⟨before, call, after, rfl, hadds⟩ := h
  refine ⟨early ++ before, call, after, by simp, ?_⟩
  rwa [← List.append_assoc]

theorem InitiatedBy.append {request : RecoveryRequest} (h : InitiatedBy start past rest account request)
    (call : RecoveryCall)
    (hpending : (loadRequest (run RecoveryCall.step start
      (past ++ [initiation account request] ++ (rest ++ [call]))) account).isSome) :
    InitiatedBy start past (rest ++ [call]) account request where
  noneBefore := h.noneBefore
  initiated := h.initiated
  pending since hsince := by
    rcases List.prefix_concat_iff.mp hsince with rfl | hearlier
    · exact hpending
    · exact h.pending since hearlier
  approved guardian hguardian := (h.approved guardian hguardian).append [call]

end Approvals

theorem initiated_step {start : Env} {calls : List RecoveryCall} {account : Address}
    (hcalls : ∀ request, loadRequest (run RecoveryCall.step start calls) account = some request →
      Initiated start calls account request) (call : RecoveryCall) {request : RecoveryRequest}
    (hrequest : loadRequest (call.step (run RecoveryCall.step start calls)) account = some request) :
    Initiated start (calls ++ [call]) account request := by
  have hafter : loadRequest (run RecoveryCall.step start (calls ++ [call])) account = some request := by
    rw [run_concat]
    exact hrequest
  have hchange := RecoveryCall.requestChange_step (run RecoveryCall.step start calls) call account
  rw [hrequest] at hchange
  generalize hresult : some request = result at hchange
  cases hchange with
  | same =>
      obtain ⟨past, rest, rfl, hby⟩ := hcalls request hresult.symm
      rw [List.append_assoc] at hafter ⊢
      exact ⟨past, rest ++ [call], rfl, hby.append call (Option.isSome_of_eq_some hafter)⟩
  | initiated newOwner config haccount hop hnone hconfig =>
      cases hresult
      obtain ⟨timestamp, _, _⟩ := call
      cases haccount
      cases hop
      refine ⟨calls, [], (List.append_nil _).symm, hnone, hafter, ?_, by simp⟩
      intro since hsince
      rw [List.prefix_nil.mp hsince, List.append_nil]
      exact Option.isSome_of_eq_some hafter
  | approved guardian old haccount hop hold hregistered hnew =>
      cases hresult
      obtain ⟨past, rest, rfl, hby⟩ := hcalls old hold
      rw [List.append_assoc] at hafter ⊢
      refine ⟨past, rest ++ [call], rfl, ?_⟩
      have hold' := hby.append call (Option.isSome_of_eq_some hafter)
      refine ⟨hold'.noneBefore, hold'.initiated, hold'.pending, ?_⟩
      intro approver happrover
      rcases List.mem_append.mp happrover with hbefore | hlast
      · exact hold'.approved approver hbefore
      · rw [List.mem_singleton.mp hlast]
        exact ⟨rest, call, [], rfl, haccount, hop, hregistered, old, hold, hnew, hrequest⟩
  | removed => cases hresult

theorem initiated_run {start : Env} (hnone : ∀ account, loadRequest start account = none)
    (calls : List RecoveryCall) (account : Address) (request : RecoveryRequest)
    (hrequest : loadRequest (run RecoveryCall.step start calls) account = some request) :
    Initiated start calls account request := by
  induction calls using List.reverseRecOn generalizing request with
  | nil =>
      rw [run_nil, hnone] at hrequest
      cases hrequest
  | append_singleton calls call ih =>
      rw [run_concat] at hrequest
      exact initiated_step ih call hrequest

-- Once no request is pending, only approvals given from then on count.
theorem Initiated.approved_later {start : Env} {early late : List RecoveryCall} {account : Address}
    {request : RecoveryRequest} (h : Initiated start (early ++ late) account request)
    (hnone : loadRequest (run RecoveryCall.step start early) account = none) :
    ∀ guardian ∈ request.approvals, ApprovedIn start early late account guardian := by
  obtain ⟨past, rest, hsplit, hby⟩ := h
  rcases List.append_eq_append_iff.mp hsplit with ⟨between, hpast, rfl⟩ | ⟨since, rfl, rfl⟩
  · intro guardian hguardian
    have happroved := hby.approved guardian hguardian
    rw [hpast] at happroved
    exact happroved.of_append
  · have hpending := hby.pending since (List.prefix_append since late)
    rw [hnone] at hpending
    cases hpending

-- The state of a run, and what its calls have to do with it.
structure Bookkept (start : Env) (calls : List RecoveryCall) (account : Address) : Prop where
  guardians : GuardiansFit (run RecoveryCall.step start calls) account
  approvals : ∀ request, loadRequest (run RecoveryCall.step start calls) account = some request →
    request.approvals.Nodup ∧ Initiated start calls account request
  cancelled : ∀ early timestamp late, calls = early ++ [⟨timestamp, account, .cancelRecovery⟩] ++ late →
    ((RecoverableAccount.load account).cancelRecovery
      ((run RecoveryCall.step start early).atTime timestamp)).1 = .ok () →
    ∀ request, loadRequest (run RecoveryCall.step start calls) account = some request →
      ∀ guardian ∈ request.approvals,
        ApprovedIn start (early ++ [⟨timestamp, account, .cancelRecovery⟩]) late account guardian
  initiates : ∀ timestamp newOwner,
    ((∃ error env', (RecoverableAccount.load account).initiateRecovery
        ((run RecoveryCall.step start calls).atTime timestamp) newOwner = some (.error error, env')) ↔
      (loadRequest (run RecoveryCall.step start calls) account).isSome ∨ loadConfig start account = none) ∧
    ((∀ config, loadConfig start account = some config → timestamp + config.timelockPeriod ≤ u64Max) →
      ((RecoverableAccount.load account).initiateRecovery
        ((run RecoveryCall.step start calls).atTime timestamp) newOwner).isSome)

theorem recovery_bookkept (start : Env) (hguardians : ∀ account, loadGuardians start account = [])
    (hnone : ∀ account, loadRequest start account = none) (calls : List RecoveryCall) (account : Address) :
    Bookkept start calls account where
  guardians := by
    refine run_invariant_of_step (fun env => GuardiansFit env account)
      (fun _ call h => guardiansFit_step h call) ?_ calls
    constructor
    · rw [hguardians]
      exact List.nodup_nil
    · rw [hguardians]
      exact Nat.zero_le _
  approvals request hrequest :=
    ⟨(requestsFit_run hnone calls account request hrequest).nodup,
      initiated_run hnone calls account request hrequest⟩
  cancelled early timestamp late hcalls hcancelled request hrequest := by
    have hinitiated := initiated_run hnone calls account request hrequest
    rw [hcalls] at hinitiated
    apply hinitiated.approved_later
    rw [run_concat]
    exact RecoverableAccount.cancelRecovery_ok hcancelled
  initiates timestamp newOwner := by
    have hconfig : loadConfig ((run RecoveryCall.step start calls).atTime timestamp) account =
        loadConfig start account := loadConfig_run start calls account
    constructor
    · rw [← hconfig]
      exact RecoverableAccount.initiateRecovery_error_iff ..
    · rw [← hconfig]
      exact RecoverableAccount.initiateRecovery_isSome newOwner

theorem approved_request_bookkept :
    Bookkept (RecoverableAccount.afterCalls 1 0 []) (RecoverableAccount.approvedFor RecoverableAccount.heir)
      RecoverableAccount.owner :=
  recovery_bookkept (RecoverableAccount.afterCalls 1 0 [])
    (RecoverableAccount.loadGuardians_new RecoverableAccount.owner _ 0)
    (RecoverableAccount.loadRequest_new RecoverableAccount.owner _ 0)
    (RecoverableAccount.approvedFor RecoverableAccount.heir) RecoverableAccount.owner

end Cougr.Accounts
