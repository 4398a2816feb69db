import Cougr.Accounts.Session.Theorems

namespace Cougr.Accounts.Budget

-- An authorization call on the account of a session. `withSession` tells whether the game
-- world holds the created key or no session at all.
inductive AuthCall where
  | executeAuthorized (withSession : Bool) (action : GameAction)
  | batchExecute (withSession : Bool) (actions : List GameAction)
  | batchOrSequential (actions : List GameAction)
  | authorize (action : GameAction)

namespace AuthCall

def actions : AuthCall → List GameAction
  | executeAuthorized _ action => [action]
  | batchExecute _ actions => actions
  | batchOrSequential actions => actions
  | authorize action => [action]

def withSession : AuthCall → Bool
  | executeAuthorized withSession _ => withSession
  | batchExecute withSession _ => withSession
  | batchOrSequential _ => false
  | authorize _ => false

def gameWorld (self : ContractAccount) (key : SessionKey) (withSession : Bool) :
    GameWorld ContractAccount :=
  if withSession then (GameWorld.new SimpleWorld.new self).setSession key
  else GameWorld.new SimpleWorld.new self

def outcome (self : ContractAccount) (key : SessionKey) (env : Env) : AuthCall → Outcome Unit
  | executeAuthorized withSession action => (gameWorld self key withSession).executeAuthorized env action
  | batchExecute withSession actions => (gameWorld self key withSession).batchExecute env actions
  | batchOrSequential actions => Accounts.batchOrSequential env self actions
  | authorize action => self.authorize env action

end AuthCall

structure TimedCall where
  timestamp : Nat
  authorized : Address → Bool
  call : AuthCall

-- The actions of a completed call for which `require_auth` was not reached. It is reached
-- at most once per action, and a call that traps or fails approves nothing.
def silentApprovals (env : Env) (actions : List GameAction) (outcome : Outcome Unit) : Nat :=
  match outcome with
  | some (.ok (), env') => actions.length - (env'.authLog.length - env.authLog.length)
  | _ => 0

def invoked (env : Env) (timed : TimedCall) : Env :=
  { env with timestamp := timed.timestamp, authorized := timed.authorized }

def totalSilentApprovals (self : ContractAccount) (key : SessionKey) : Env → List TimedCall → Nat
  | _, [] => 0
  | env, timed :: rest =>
    let env := invoked env timed
    let outcome := timed.call.outcome self key env
    silentApprovals env timed.call.actions outcome +
      totalSilentApprovals self key (match outcome with | some (_, env') => env' | none => env) rest

-- The session covers the action: its scope lists it, or the copy the game world holds is
-- not expired and allows it.
def covered (scope : SessionScope) (timed : TimedCall) (action : GameAction) : Bool :=
  action.systemName ∈ scope.allowedActions ||
    (timed.call.withSession && timed.timestamp < scope.expiresAt &&
      isActionAllowed scope action.systemName)

-- The covered actions of a call, if all its other actions are authorized by the account.
def coveredRequests (scope : SessionScope) (account : Address) (timed : TimedCall) : Nat :=
  if timed.call.actions.all fun action => covered scope timed action || timed.authorized account then
    timed.call.actions.countP (covered scope timed)
  else 0

theorem eachAction_singleton (authorizeOne : Env → GameAction → Outcome Unit) (env : Env)
    (action : GameAction) : eachAction authorizeOne env [action] = authorizeOne env action := by
  unfold eachAction
  split
  · rename_i heq
    rw [heq]
    rfl
  · rename_i heq
    exact heq.symm
  · rename_i heq
    exact heq.symm

-- A check that approves some actions silently and asks for the account's authorization for the rest.
def Asks (authorizeOne : Env → GameAction → Outcome Unit) (address : Address)
    (silent : GameAction → Bool) (base : Env) : Prop :=
  ∀ log action, authorizeOne { base with authLog := log } action =
    if silent action then some (.ok (), { base with authLog := log })
    else ({ base with authLog := log }.requireAuth address).map fun env => (.ok (), env)

theorem eachAction_of_asks {authorizeOne : Env → GameAction → Outcome Unit} {address : Address}
    {silent : GameAction → Bool} {base : Env} (hasks : Asks authorizeOne address silent base)
    (actions : List GameAction) (log : List Address) :
    eachAction authorizeOne { base with authLog := log } actions =
      if actions.all fun action => silent action || base.authorized address then
        some (.ok (), { base with
          authLog := log ++ List.replicate (actions.countP fun action => ¬silent action) address })
      else none := by
  induction actions generalizing log with
  | nil => simp [eachAction]
  | cons action actions ih =>
      rw [eachAction, hasks log action]
      by_cases hsilent : silent action
      · simp only [hsilent, if_true, ih, List.all_cons, Bool.true_or, Bool.true_and]
        simp [hsilent]
      · by_cases hauth : base.authorized address
        · have hnext := ih (log ++ [address])
          simp only [hauth, Bool.or_true, List.all_eq_true, implies_true, if_true] at hnext
          simp [hsilent, Env.requireAuth, hauth, hnext, List.replicate_succ]
        · simp [hsilent, Env.requireAuth, hauth]

theorem silentApprovals_of_asks {authorizeOne : Env → GameAction → Outcome Unit} {address : Address}
    {silent : GameAction → Bool} {base : Env} (hasks : Asks authorizeOne address silent base)
    (actions : List GameAction) :
    silentApprovals base actions (eachAction authorizeOne base actions) =
      if actions.all fun action => silent action || base.authorized address then
        actions.countP silent
      else 0 := by
  have heach := eachAction_of_asks hasks actions base.authLog
  have hlength := List.length_eq_countP_add_countP silent (l := actions)
  rw [heach]
  split_ifs
  · simp only [silentApprovals, List.length_append, List.length_replicate]
    omega
  · rfl

-- The account stores one unused key, the one `create_session` returned.
def OnlyFreshKey (self : ContractAccount) (key : SessionKey) (env : Env) : Prop :=
  SessionStorage.loadAll env self.address = [key] ∧ key.operationsUsed = 0

-- While operations are left, the checks approve exactly the covered actions silently.
def silentFor (scope : SessionScope) (timed : TimedCall) (action : GameAction) : Bool :=
  0 < scope.maxOperations && covered scope timed action

section Calls

variable {self : ContractAccount} {key : SessionKey} {env : Env}

theorem asks_authorize (honly : OnlyFreshKey self key env) :
    Asks self.authorize self.address
      (fun action => 0 < key.scope.maxOperations && action.systemName ∈ key.scope.allowedActions) env := by
  obtain ⟨hkeys, hunused⟩ := honly
  intro log action
  have hloaded : SessionStorage.loadAll { env with authLog := log } self.address = [key] := hkeys
  simp only [ContractAccount.authorize, hloaded, List.any_cons, List.any_nil, Bool.or_false,
    ContractAccount.covers, hunused, Bool.and_comm]

theorem asks_executeAuthorized (timed : TimedCall) (honly : OnlyFreshKey self key (invoked env timed)) :
    Asks (AuthCall.gameWorld self key timed.call.withSession).executeAuthorized self.address
      (silentFor key.scope timed) (invoked env timed) := by
  intro log action
  have hslow := asks_authorize honly log action
  cases hsession : timed.call.withSession with
  | false =>
      simp only [silentFor, covered, hsession, Bool.false_and, Bool.or_false]
      exact hslow
  | true =>
      by_cases hleft : 0 < key.scope.maxOperations
      · by_cases hlocal : timed.timestamp < key.scope.expiresAt ∧
            isActionAllowed key.scope action.systemName
        · have hsilent : silentFor key.scope timed action := by
            simp [silentFor, covered, hsession, hleft, hlocal.1, hlocal.2]
          rw [if_pos hsilent]
          exact if_pos ⟨rfl, hlocal.1, by rw [honly.2]; exact hleft, hlocal.2⟩
        · have hsame : silentFor key.scope timed action =
              (decide (0 < key.scope.maxOperations) &&
                decide (action.systemName ∈ key.scope.allowedActions)) := by
            rw [not_and] at hlocal
            by_cases hfresh : timed.timestamp < key.scope.expiresAt
            · simp [silentFor, covered, hfresh, hlocal hfresh]
            · simp [silentFor, covered, hfresh]
          rw [hsame, ← hslow]
          exact if_neg fun h => hlocal ⟨h.2.1, h.2.2.2⟩
      · have hnone : silentFor key.scope timed action =
            (decide (0 < key.scope.maxOperations) && decide (action.systemName ∈ key.scope.allowedActions)) := by
          simp [silentFor, hleft]
        rw [hnone, ← hslow]
        exact if_neg fun h => hleft (honly.2 ▸ h.2.2.1)

theorem onlyLogs_outcome (call : AuthCall) : OnlyLogs env (call.outcome self key env) := by
  cases call with
  | executeAuthorized withSession action => exact onlyLogs_withFallback _ env action _
  | batchExecute withSession actions =>
      exact onlyLogs_eachAction (fun env action => onlyLogs_withFallback _ env action _) actions env
  | batchOrSequential actions => exact onlyLogs_batchOrSequential self env actions
  | authorize action => exact onlyLogs_authorize self env action

theorem silentApprovals_call (timed : TimedCall) (honly : OnlyFreshKey self key (invoked env timed)) :
    silentApprovals (invoked env timed) timed.call.actions
        (timed.call.outcome self key (invoked env timed)) =
      if timed.call.actions.all fun action =>
          silentFor key.scope timed action || timed.authorized self.address then
        timed.call.actions.countP (silentFor key.scope timed)
      else 0 := by
  have hgame := silentApprovals_of_asks (asks_executeAuthorized timed honly) timed.call.actions
  have hself := silentApprovals_of_asks (asks_authorize honly) timed.call.actions
  -- without a session in the game world only the scope's own list covers an action
  have hlisted : timed.call.withSession = false → silentFor key.scope timed = fun action =>
      0 < key.scope.maxOperations && action.systemName ∈ key.scope.allowedActions := by
    intro hsession
    funext action
    simp [silentFor, covered, hsession]
  obtain ⟨timestamp, authorized, call⟩ := timed
  cases call with
  | executeAuthorized withSession action =>
      have hone := eachAction_singleton (AuthCall.gameWorld self key withSession).executeAuthorized
        (invoked env ⟨timestamp, authorized, .executeAuthorized withSession action⟩) action
      exact (congrArg _ hone.symm).trans hgame
  | batchExecute withSession actions => exact hgame
  | batchOrSequential actions =>
      rw [hlisted rfl, AuthCall.outcome, batchOrSequential_eq]
      by_cases hempty : actions.isEmpty
      · rw [if_pos hempty, List.isEmpty_iff.mp hempty]
        rfl
      · rw [if_neg hempty]
        exact hself
  | authorize action =>
      rw [hlisted rfl]
      have hone := eachAction_singleton self.authorize
        (invoked env ⟨timestamp, authorized, .authorize action⟩) action
      exact (congrArg _ hone.symm).trans hself

theorem silentApprovals_eq_coveredRequests (timed : TimedCall)
    (honly : OnlyFreshKey self key (invoked env timed)) :
    silentApprovals (invoked env timed) timed.call.actions
        (timed.call.outcome self key (invoked env timed)) =
      if 0 < key.scope.maxOperations then coveredRequests key.scope self.address timed else 0 := by
  rw [silentApprovals_call timed honly]
  by_cases hleft : 0 < key.scope.maxOperations
  · have hsame : silentFor key.scope timed = covered key.scope timed := by
      funext action
      simp [silentFor, hleft]
    rw [hsame, if_pos hleft, coveredRequests]
  · have hnone : silentFor key.scope timed = fun _ => false := by
      funext action
      simp [silentFor, hleft]
    simp [hnone, hleft]

theorem totalSilentApprovals_eq (calls : List TimedCall) (honly : OnlyFreshKey self key env) :
    totalSilentApprovals self key env calls =
      if 0 < key.scope.maxOperations then
        (calls.map (coveredRequests key.scope self.address)).sum
      else 0 := by
  induction calls generalizing env with
  | nil => simp [totalSilentApprovals]
  | cons timed rest ih =>
      have honly' : OnlyFreshKey self key (invoked env timed) := honly
      have hcall := silentApprovals_eq_coveredRequests timed honly'
      have hlogs : OnlyLogs (invoked env timed) (timed.call.outcome self key (invoked env timed)) :=
        onlyLogs_outcome timed.call
      rw [totalSilentApprovals, hcall]
      cases houtcome : timed.call.outcome self key (invoked env timed) with
      | none =>
          simp only [ih honly', List.map_cons, List.sum_cons]
          split_ifs <;> rfl
      | some pair =>
          obtain ⟨log, hlog⟩ := hlogs pair.1 pair.2 houtcome
          have hnext : OnlyFreshKey self key pair.2 := by rw [hlog]; exact honly
          simp only [ih hnext, List.map_cons, List.sum_cons]
          split_ifs <;> rfl

end Calls

-- No approval uses up an operation, so the budget is kept exactly when it is empty or the
-- run asks for no more covered actions than it allows.
theorem budget_kept_iff (self : ContractAccount) (env env' : Env) (scope : SessionScope)
    (key : SessionKey) (calls : List TimedCall)
    (hnone : SessionStorage.loadAll env self.address = [])
    (hcreate : self.createSession env scope = (.ok key, env')) :
    totalSilentApprovals self key env' calls ≤ scope.maxOperations ↔
      scope.maxOperations = 0 ∨
        (calls.map (coveredRequests scope self.address)).sum ≤ scope.maxOperations := by
  cases hcreate
  have honly : OnlyFreshKey self
      { keyId := ContractAccount.placeholderId, scope, createdAt := env.timestamp, operationsUsed := 0 }
      (self.createSession env scope).2 := by
    refine ⟨?_, rfl⟩
    rw [ContractAccount.createSession, SessionStorage.loadAll_store_self, hnone]
    rfl
  have htotal := totalSilentApprovals_eq calls honly
  rw [ContractAccount.createSession] at htotal
  rw [htotal]
  split_ifs with hleft
  · simp [Nat.pos_iff_ne_zero.mp hleft]
  · simp only [Nat.not_lt, Nat.le_zero] at hleft
    simp [hleft]

def moveAt (timestamp : Nat) : TimedCall :=
  { timestamp, authorized := fun _ => false, call := .authorize move }

def oneMoveKey : SessionKey :=
  { keyId := ContractAccount.placeholderId, scope := oneMove, createdAt := 0, operationsUsed := 0 }

theorem second_move_over_budget :
    (mover.createSession (Env.fresh 0) oneMove).1 = .ok oneMoveKey ∧
      ¬totalSilentApprovals mover oneMoveKey (mover.createSession (Env.fresh 0) oneMove).2
        [moveAt 1, moveAt 2] ≤ oneMove.maxOperations := by
  decide

theorem first_move_in_budget :
    totalSilentApprovals mover oneMoveKey (mover.createSession (Env.fresh 0) oneMove).2 [moveAt 1] ≤
      oneMove.maxOperations :=
  (budget_kept_iff mover (Env.fresh 0) _ oneMove oneMoveKey [moveAt 1] rfl rfl).mpr
    (Or.inr (by decide))

end Cougr.Accounts.Budget
