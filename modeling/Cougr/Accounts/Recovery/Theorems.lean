import Cougr.Accounts.Recovery.Lemmas

namespace Cougr.Accounts

open RecoveryStorage Transition

namespace RecoveryCall

def Initiates (call : RecoveryCall) (account : Address) : Prop :=
  call.account = account ∧ ∃ newOwner, call.op = .initiateRecovery newOwner

theorem loadRequest_step_of_none {env : Env} {call : RecoveryCall} {account : Address}
    (hcall : ¬call.Initiates account) (hnone : loadRequest env account = none) :
    loadRequest (step env call) account = none := by
  have hchange := requestChange_step env call account
  generalize loadRequest (step env call) account = after at hchange ⊢
  cases hchange with
  | same => exact hnone
  | initiated newOwner config haccount hop => exact absurd ⟨haccount, newOwner, hop⟩ hcall
  | approved guardian request haccount hop hrequest =>
      rw [hnone] at hrequest
      cases hrequest
  | removed => rfl

theorem loadRequest_run_of_none {env : Env} {calls : List RecoveryCall} {account : Address}
    (hcalls : ∀ call ∈ calls, ¬call.Initiates account) (hnone : loadRequest env account = none) :
    loadRequest (run step env calls) account = none := by
  refine run_invariant_of_forall (fun env => loadRequest env account = none) ?_ hnone calls hcalls
  intro env call hbefore hcall
  exact loadRequest_step_of_none hcall hbefore

end RecoveryCall

namespace RecoverableAccount

-- No request is left for the account: none executes until recovery is initiated there
-- again, and initiating it does not find one active.
structure RequestUsedUp (env : Env) (account : Address) : Prop where
  noRequest : (load account).activeRequest env = none
  notAgain : ∀ calls : List RecoveryCall, (∀ call ∈ calls, ¬call.Initiates account) →
    ∀ timestamp newOwner self' env',
      (load account).executeRecovery ((run RecoveryCall.step env calls).atTime timestamp) ≠
        (.ok newOwner, self', env')
  initiates : ∀ timestamp newOwner env',
    (load account).initiateRecovery (env.atTime timestamp) newOwner ≠
      some (.error .RecoveryAlreadyActive, env')

structure OthersUnchanged (env env' : Env) (account : Address) : Prop where
  guardians : ∀ other ≠ account, loadGuardians env' other = loadGuardians env other
  config : ∀ other ≠ account, loadConfig env' other = loadConfig env other
  request : ∀ other ≠ account, loadRequest env' other = loadRequest env other

theorem requestUsedUp_of_none {env : Env} {account : Address} (hnone : loadRequest env account = none) :
    RequestUsedUp env account := by
  refine ⟨hnone, ?_, ?_⟩
  · intro calls hcalls timestamp newOwner self' env' h
    obtain ⟨request, _, hrequest, _⟩ := executeRecovery_ok_iff.mp h
    have hstill := RecoveryCall.loadRequest_run_of_none hcalls hnone
    rw [loadRequest_atTime, load, hstill] at hrequest
    cases hrequest
  · intro timestamp newOwner env' h
    unfold initiateRecovery at h
    simp only [load, loadRequest_atTime, hnone, Option.isSome_none, Bool.false_eq_true, if_false] at h
    split at h
    · cases h
    · obtain ⟨_, _, h⟩ := Option.map_eq_some_iff.mp h
      cases h

-- The handle moves to the new owner first, so it is the new owner's request that goes.
theorem executed_request_used_up_iff {env env' : Env} {account newOwner : Address}
    {self' : RecoverableAccount} (h : (load account).executeRecovery env = (.ok newOwner, self', env')) :
    RequestUsedUp env' account ∧ OthersUnchanged env env' account ↔ newOwner = account := by
  obtain ⟨request, config, hrequest, _, _, _, _, rfl, _, rfl⟩ := executeRecovery_ok_iff.mp h
  constructor
  · rintro ⟨hused, _⟩
    by_contra howner
    have hleft : loadRequest (removeRequest env request.newOwner) account = some request := by
      rw [loadRequest_removeRequest_of_ne env (Ne.symm howner)]
      exact hrequest
    have hnone : loadRequest (removeRequest env request.newOwner) account = none := hused.noRequest
    rw [hleft] at hnone
    cases hnone
  · intro howner
    rw [howner]
    refine ⟨requestUsedUp_of_none (loadRequest_removeRequest_self env account), ?_, ?_, ?_⟩
    · exact fun other _ => loadGuardians_removeRequest env
    · exact fun other _ => loadConfig_removeRequest env
    · exact fun other hother => loadRequest_removeRequest_of_ne env hother

-- One guardian who can pass the account on at once.
def owner : Address := .contract (Vector.replicate 32 1)

def heir : Address := .contract (Vector.replicate 32 2)

def friend : Address := .contract (Vector.replicate 32 3)

def afterCalls (threshold timelockPeriod : Nat) (calls : List RecoveryCall) : Env :=
  run RecoveryCall.step (new owner { threshold, timelockPeriod, maxGuardians := 2 } (Env.fresh 0)).2 calls

def approvedFor (newOwner : Address) : List RecoveryCall :=
  [⟨0, owner, .addGuardian friend⟩, ⟨1, owner, .initiateRecovery newOwner⟩,
    ⟨2, owner, .approveRecovery friend⟩]

theorem executed_request_left_behind :
    ∃ self' env', (load owner).executeRecovery (afterCalls 1 0 (approvedFor heir)) = (.ok heir, self', env') ∧
      ¬(RequestUsedUp env' owner ∧ OthersUnchanged (afterCalls 1 0 (approvedFor heir)) env' owner) := by
  refine ⟨_, _, rfl, ?_⟩
  rintro ⟨hused, _⟩
  exact absurd hused.noRequest (by decide)

theorem recovery_to_same_owner_used_up :
    ∃ self' env', (load owner).executeRecovery (afterCalls 1 0 (approvedFor owner)) = (.ok owner, self', env') ∧
      RequestUsedUp env' owner ∧ OthersUnchanged (afterCalls 1 0 (approvedFor owner)) env' owner :=
  ⟨_, _, rfl, (executed_request_used_up_iff rfl).mpr rfl⟩

end RecoverableAccount

-- An approval that a stored request counts.
structure Approval where
  account : Address
  guardian : Address
  newOwner : Address
  initiatedAt : Nat

namespace Approval

def Concerns (approval : Approval) (env : Env) (request : RecoveryRequest) : Prop :=
  loadRequest env approval.account = some request ∧ request.newOwner = approval.newOwner ∧
    request.initiatedAt = approval.initiatedAt

def Counted (approval : Approval) (env : Env) : Prop :=
  ∃ request, approval.Concerns env request ∧ approval.guardian ∈ request.approvals

-- The call gives the approval, by a guardian registered at that moment.
def GivenBy (approval : Approval) (env : Env) (call : RecoveryCall) : Prop :=
  call.account = approval.account ∧ call.op = .approveRecovery approval.guardian ∧
    Registered env approval.account approval.guardian ∧ ∃ request, approval.Concerns env request

def DroppedBy (approval : Approval) (env : Env) (call : RecoveryCall) : Prop :=
  loadRequest (call.step env) approval.account = none

theorem counted_step (approval : Approval) (env : Env) (call : RecoveryCall)
    (hcounted : approval.Counted (call.step env)) :
    approval.GivenBy env call ∨ approval.Counted env ∧ ¬approval.DroppedBy env call := by
  obtain ⟨request, ⟨hrequest, howner, htime⟩, happroved⟩ := hcounted
  have hkept : ¬approval.DroppedBy env call := by
    intro hdropped
    rw [DroppedBy, hrequest] at hdropped
    cases hdropped
  have hchange := RecoveryCall.requestChange_step env call approval.account
  rw [hrequest] at hchange
  generalize hafter : some request = after at hchange
  cases hchange with
  | same => exact Or.inr ⟨⟨request, ⟨hafter.symm, howner, htime⟩, happroved⟩, hkept⟩
  | initiated newOwner config haccount hop hnone hconfig =>
      cases hafter
      cases happroved
  | approved guardian old haccount hop hold hregistered hnew =>
      cases hafter
      rcases List.mem_append.mp happroved with hbefore | hlast
      · exact Or.inr ⟨⟨old, ⟨hold, howner, htime⟩, hbefore⟩, hkept⟩
      · cases List.mem_singleton.mp hlast
        exact Or.inl ⟨haccount, hop, hregistered, old, hold, howner, htime⟩
  | removed => cases hafter

-- The run contains the call that gave the approval; the request has stayed since, and
-- so has the guardian unless it was removed.
def Traced (approval : Approval) (start : Env) (calls : List RecoveryCall) : Prop :=
  ∃ past call rest, calls = past ++ call :: rest ∧
    approval.GivenBy (run RecoveryCall.step start past) call ∧
    StepsMeet RecoveryCall.step (fun env call => ¬approval.DroppedBy env call)
      (run RecoveryCall.step start (past ++ [call])) rest ∧
    ((∀ call ∈ rest, ¬(call.account = approval.account ∧ call.op = .removeGuardian approval.guardian)) →
      Registered (run RecoveryCall.step start calls) approval.account approval.guardian)

theorem registered_run {env : Env} {calls : List RecoveryCall} {account guardian : Address}
    (hkept : ∀ call ∈ calls, ¬(call.account = account ∧ call.op = .removeGuardian guardian))
    (hregistered : Registered env account guardian) :
    Registered (run RecoveryCall.step env calls) account guardian := by
  refine run_invariant_of_forall (fun env => Registered env account guardian) ?_ hregistered calls hkept
  intro env call hbefore hcall
  exact RecoveryCall.registered_step hcall hbefore

theorem traced_of_counted {start : Env} (hnone : ∀ account, loadRequest start account = none)
    (calls : List RecoveryCall) (approval : Approval)
    (hcounted : approval.Counted (run RecoveryCall.step start calls)) : approval.Traced start calls := by
  obtain ⟨past, call, rest, rfl, hgiven, hrest⟩ := run_provenance
    (fun env approval => Counted approval env) (fun env call approval => GivenBy approval env call)
    (fun env call approval => DroppedBy approval env call)
    (by
      rintro approval ⟨request, ⟨hrequest, _⟩, _⟩
      rw [hnone] at hrequest
      cases hrequest)
    (fun env call approval => counted_step approval env call) calls approval hcounted
  refine ⟨past, call, rest, rfl, hgiven, hrest, fun hkept => ?_⟩
  obtain ⟨haccount, hop, hregistered, _⟩ := hgiven
  rw [run_append]
  apply registered_run _ hregistered
  intro other hother
  rcases List.mem_cons.mp hother with rfl | hother
  · rintro ⟨_, hremoves⟩
    rw [hop] at hremoves
    cases hremoves
  · exact hkept other hother

end Approval

-- Whenever a request is executed, as many distinct addresses as the threshold asks for have
-- approved it, each of them a guardian of the account when it did.
theorem executed_with_guardian_quorum (start : Env) (hnone : ∀ account, loadRequest start account = none)
    (calls : List RecoveryCall) (account newOwner : Address) (timestamp : Nat)
    (self' : RecoverableAccount) (env' : Env)
    (hexecuted : (RecoverableAccount.load account).executeRecovery
      ((run RecoveryCall.step start calls).atTime timestamp) = (.ok newOwner, self', env')) :
    ∃ request config, loadRequest (run RecoveryCall.step start calls) account = some request ∧
      loadConfig start account = some config ∧ request.newOwner = newOwner ∧
      ∃ approvers : List Address, approvers.Nodup ∧ config.threshold ≤ approvers.length ∧
        ∀ guardian ∈ approvers,
          (Approval.mk account guardian newOwner request.initiatedAt).Traced start calls := by
  obtain ⟨request, config, hrequest, _, hconfig, hthreshold, _, rfl, _, _⟩ :=
    RecoverableAccount.executeRecovery_ok_iff.mp hexecuted
  rw [loadConfig_atTime, loadConfig_run] at hconfig
  have hfits := requestsFit_run hnone calls account request hrequest
  refine ⟨request, config, hrequest, hconfig, rfl, request.approvals, hfits.nodup, hthreshold, ?_⟩
  intro guardian hguardian
  exact Approval.traced_of_counted hnone calls _ ⟨request, ⟨hrequest, rfl, rfl⟩, hguardian⟩

-- At least `threshold` distinct guardians registered now have approved the request.
def CurrentQuorum (env : Env) (account : Address) (request : RecoveryRequest) (threshold : Nat) : Prop :=
  ∃ approvers : List Address, approvers.Nodup ∧ threshold ≤ approvers.length ∧
    ∀ guardian ∈ approvers, Registered env account guardian ∧ guardian ∈ request.approvals

namespace RecoverableAccount

-- The only guardian approves and is removed; the approval still counts.
def approvedThenRemoved : Env :=
  afterCalls 1 0 (approvedFor heir ++ [⟨3, owner, .removeGuardian friend⟩])

theorem executed_without_current_quorum :
    ∃ request self' env', loadRequest approvedThenRemoved owner = some request ∧
      (load owner).executeRecovery approvedThenRemoved = (.ok heir, self', env') ∧
      ¬CurrentQuorum approvedThenRemoved owner request 1 := by
  refine ⟨_, _, _, rfl, rfl, ?_⟩
  rintro ⟨approvers, _, hlength, hall⟩
  obtain ⟨guardian, hguardian⟩ := List.exists_mem_of_length_pos (Nat.lt_of_lt_of_le Nat.zero_lt_one hlength)
  obtain ⟨g, hg, _⟩ := listed_iff.mp (hall guardian hguardian).1
  have hempty : loadGuardians approvedThenRemoved owner = [] := rfl
  rw [hempty] at hg
  cases hg

theorem executed_with_friend_approval :
    ∃ request config, loadRequest (afterCalls 1 0 (approvedFor heir)) owner = some request ∧
      loadConfig (afterCalls 1 0 []) owner = some config ∧ request.newOwner = heir ∧
      ∃ approvers : List Address, approvers.Nodup ∧ config.threshold ≤ approvers.length ∧
        ∀ guardian ∈ approvers, (Approval.mk owner guardian heir request.initiatedAt).Traced
          (afterCalls 1 0 []) (approvedFor heir) :=
  executed_with_guardian_quorum (afterCalls 1 0 []) (loadRequest_new owner _ 0) (approvedFor heir) owner heir
    2 _ _ rfl

end RecoverableAccount

end Cougr.Accounts
