import Cougr.Accounts.SessionStorage.AccountMap

namespace Cougr.Accounts.ContractAccount

open Transition

inductive IssueOp where
  -- a new invocation, at its ledger time
  | invoke (timestamp : Nat)
  | createSession (scope : SessionScope)
  | incrementUsage (keyId : BytesN 32)

def IssueOp.creates : IssueOp → Bool
  | .createSession _ => true
  | _ => false

-- The host, and the sessions handed out so far as their holders know them: each with the scope it was
-- asked for and the usage counted since.
structure Issued where
  env : Env
  sessions : List SessionKey

def issue (account : ContractAccount) (state : Issued) : IssueOp → Issued
  | .invoke timestamp => { state with env := state.env.atTime timestamp }
  | .createSession scope =>
    match account.createSession state.env scope with
    | (.ok key, env) => { env, sessions := state.sessions ++ [key] }
    | (.error _, env) => { state with env }
  | .incrementUsage keyId =>
    { env := SessionStorage.afterIncrement state.env account.address keyId
      sessions :=
        if SessionStorage.counts state.env account.address keyId then
          state.sessions.map (SessionStorage.counted keyId)
        else state.sessions }

-- Every session handed out is stored under an id of its own and can be revoked on its own.
structure Coexist (account : ContractAccount) (state : Issued) : Prop where
  distinct : (state.sessions.map SessionKey.keyId).Nodup
  held : (SessionStorage.loadAll state.env account.address).length = state.sessions.length
  load : ∀ key ∈ state.sessions, SessionStorage.load state.env account.address key.keyId = some key
  revoke : ∀ key ∈ state.sessions, ∀ other ∈ state.sessions, other ≠ key →
    SessionStorage.load (account.revokeSession state.env key.keyId).2 account.address other.keyId = some other

-- All sessions share the placeholder id, so the account has room for the last one only.
structure LastStored (account : ContractAccount) (state : Issued) : Prop where
  ids : ∀ key ∈ state.sessions, key.keyId = placeholderId
  stored : SessionStorage.loadAll state.env account.address = state.sessions.getLast?.toList

theorem lastStored_issue {account : ContractAccount} {state : Issued} (h : LastStored account state)
    (op : IssueOp) : LastStored account (issue account state op) := by
  obtain ⟨hids, hstored⟩ := h
  cases op with
  | invoke timestamp => exact ⟨hids, hstored⟩
  | createSession scope =>
      have hold : ∀ key ∈ state.sessions.getLast?.toList, key.keyId = placeholderId := by
        intro key hkey
        exact hids key (List.mem_of_getLast? (Option.mem_toList.mp hkey))
      constructor
      · intro key hkey
        rcases List.mem_append.mp hkey with hearlier | hnew
        · exact hids key hearlier
        · rw [List.mem_singleton.mp hnew]
      · have hnone : KeyedList.removeKey SessionKey.keyId placeholderId state.sessions.getLast?.toList = [] :=
          List.filter_eq_nil_iff.mpr (by simpa using hold)
        simp only [issue, createSession]
        rw [SessionStorage.loadAll_store_self, hstored, hnone]
        simp
  | incrementUsage keyId =>
      constructor
      · intro key hkey
        simp only [issue] at hkey
        split_ifs at hkey
        · obtain ⟨old, hold, rfl⟩ := List.mem_map.mp hkey
          rw [SessionStorage.counted_keyId]
          exact hids old hold
        · exact hids key hkey
      · simp only [issue]
        rw [SessionStorage.loadAll_afterIncrement, hstored]
        by_cases hcounts : SessionStorage.counts state.env account.address keyId
        · rw [if_pos ⟨rfl, hcounts⟩, if_pos hcounts, List.getLast?_map]
          cases state.sessions.getLast? <;> rfl
        · rw [if_neg fun h => hcounts h.2, if_neg hcounts]

theorem length_sessions_issue (account : ContractAccount) (state : Issued) (op : IssueOp) :
    (issue account state op).sessions.length = state.sessions.length + if op.creates then 1 else 0 := by
  cases op with
  | invoke timestamp => rfl
  | createSession scope => simp [issue, createSession, IssueOp.creates]
  | incrementUsage keyId =>
      have hcreates : (IssueOp.incrementUsage keyId).creates = false := rfl
      rw [hcreates, if_neg Bool.false_ne_true]
      simp only [issue]
      split_ifs with hcounts
      · exact List.length_map ..
      · rfl

theorem length_sessions_run (account : ContractAccount) (state : Issued) (ops : List IssueOp) :
    (run (issue account) state ops).sessions.length = state.sessions.length + ops.countP IssueOp.creates := by
  induction ops generalizing state with
  | nil => rfl
  | cons op ops ih =>
      rw [run_cons, ih, length_sessions_issue, List.countP_cons]
      omega

theorem coexist_of_length_le_one {account : ContractAccount} {state : Issued} (h : LastStored account state)
    (hlength : state.sessions.length ≤ 1) : Coexist account state := by
  obtain ⟨env, sessions⟩ := state
  obtain ⟨_, hstored⟩ := h
  match sessions, hlength with
  | [], _ => exact ⟨List.nodup_nil, congrArg List.length hstored, by simp, by simp⟩
  | [key], _ =>
      refine ⟨List.nodup_singleton _, congrArg List.length hstored, ?_, ?_⟩
      · intro other hother
        rw [List.mem_singleton.mp hother, SessionStorage.load, hstored]
        simp [KeyedList.lookup_cons]
      · intro first hfirst second hsecond hne
        rw [List.mem_singleton.mp hfirst, List.mem_singleton.mp hsecond] at hne
        exact absurd rfl hne

theorem length_le_one_of_coexist {account : ContractAccount} {state : Issued} (h : LastStored account state)
    (hcoexist : Coexist account state) : state.sessions.length ≤ 1 := by
  have hsame : state.sessions.map SessionKey.keyId = List.replicate state.sessions.length placeholderId := by
    rw [List.eq_replicate_iff]
    refine ⟨List.length_map .., fun keyId hkeyId => ?_⟩
    obtain ⟨key, hkey, rfl⟩ := List.mem_map.mp hkeyId
    exact h.ids key hkey
  have hdistinct := hcoexist.distinct
  rw [hsame] at hdistinct
  exact List.nodup_replicate.mp hdistinct

-- A second session takes the place of the first.
theorem coexist_iff_one_created (account : ContractAccount) (env : Env)
    (hempty : SessionStorage.loadAll env account.address = []) (ops : List IssueOp) :
    Coexist account (run (issue account) ⟨env, []⟩ ops) ↔ ops.countP IssueOp.creates ≤ 1 := by
  have hstart : LastStored account ⟨env, []⟩ := ⟨by simp, hempty⟩
  have hlast := run_invariant_of_step (LastStored account) (fun _ op h => lastStored_issue h op) hstart ops
  have hlength := length_sessions_run account ⟨env, []⟩ ops
  rw [List.length_nil, Nat.zero_add] at hlength
  rw [← hlength]
  exact ⟨length_le_one_of_coexist hlast, coexist_of_length_le_one hlast⟩

def player : ContractAccount := ⟨.contract (Vector.replicate 32 1)⟩

def mining : SessionScope :=
  { allowedActions := [symbolShort "mine"], maxOperations := 100, expiresAt := 99999 }

def crafting : SessionScope :=
  { allowedActions := [symbolShort "craft"], maxOperations := 50, expiresAt := 99999 }

theorem second_session_overwrites_first :
    ¬Coexist player (run (issue player) ⟨Env.fresh 0, []⟩
      [.createSession mining, .createSession crafting]) := by
  intro hcoexist
  have hfirst := hcoexist.load ⟨placeholderId, mining, 0, 0⟩ List.mem_cons_self
  exact absurd hfirst (by decide)

theorem one_session_coexists :
    Coexist player (run (issue player) ⟨Env.fresh 0, []⟩
      [.createSession mining, .incrementUsage placeholderId]) :=
  (coexist_iff_one_created player (Env.fresh 0) rfl _).mpr (by decide)

end Cougr.Accounts.ContractAccount
