import Cougr.GuildArena
import Cougr.Accounts.Services.Writes
import Cougr.Library.Transition

namespace Cougr.GuildArena

open Accounts

variable {env next : ContractEnv}

@[simp] theorem ContractCall.storage_env (entries : Entries) (call : ContractCall) :
    (call.env entries).storage = entries.storage := rfl

namespace ContractEnv

-- The same with one more authorization on record.
def logged (env : ContractEnv) (address : Address) : ContractEnv :=
  { env with accounts := { env.accounts with authLog := env.accounts.authLog ++ [address] } }

theorem requireAuth_eq_some_iff (address : Address) :
    env.requireAuth address = some next ↔ env.accounts.authorized address ∧ next = env.logged address := by
  rw [requireAuth, Env.requireAuth]
  split_ifs with hauth
  · simp [hauth, logged, eq_comm]
  · simp [hauth]

@[simp] theorem get_logged (address : Address) (key : ContractKey) :
    (env.logged address).get key = env.get key := rfl

@[simp] theorem storage_logged (address : Address) : (env.logged address).storage = env.storage := rfl

-- The device policies that the account modules keep.
def managed (env : ContractEnv) (player : Address) : Bool := (DeviceStorage.loadPolicy env.accounts player).isSome

theorem managed_of_writes (env : ContractEnv) {accounts : Env} {owner : Address × Service}
    (h : WritesOf owner env.accounts accounts) (player : Address) (hother : (player, Service.devices) ≠ owner) :
    ContractEnv.managed { env with accounts } player = env.managed player := by
  rw [managed, managed, DeviceStorage.loadPolicy, DeviceStorage.loadPolicy,
    h.get_of_ne (show AccountKey.owner (.devPolicy player) ≠ owner from hother)]

end ContractEnv

open ContractEnv

theorem unwrap_eq_some_iff {α : Type} {outcome : Except AccountError α × Env} {value : α} :
    unwrap env outcome = some (value, next) ↔
      outcome.1 = .ok value ∧ next = { env with accounts := outcome.2 } := by
  rcases outcome with ⟨error | value', accounts⟩
  · simp [unwrap]
  · simp [unwrap, eq_comm]

theorem requirePlayPermission_eq_some_iff (device : Address) (x : Unit) :
    requirePlayPermission env device = some x ↔ (env.get (.devicePolicy device)).isSome := by
  rw [requirePlayPermission]
  cases env.get (.devicePolicy device) <;> simp

section Rounds

theorem checkedAdd_eq_some_iff {max first second sum : Nat} :
    checkedAdd max first second = some sum ↔ first + second = sum ∧ first + second ≤ max := by
  rw [checkedAdd]
  split_ifs with hfits <;> simp [hfits]

-- No blow is without effect.
theorem computeDamage_pos {atk defense damage : Nat} {action : CombatAction}
    (h : computeDamage atk defense action = some damage) : 0 < damage := by
  cases action with
  | Attack =>
      obtain ⟨rfl, _⟩ := checkedAdd_eq_some_iff.mp h
      omega
  | Defend =>
      obtain rfl := Option.some.inj h
      exact Nat.lt_of_lt_of_le Nat.zero_lt_one (Nat.le_max_right _ _)
  | Special =>
      obtain ⟨rfl, _⟩ := checkedAdd_eq_some_iff.mp h
      omega

-- What a submitted action makes of the match.
structure Blow (env : ContractEnv) (device : Address) (action : CombatAction) (arena : ArenaState)
    (outcome : ArenaState × Bool) : Prop where
  authorized : env.accounts.authorized device
  stored : env.get .arena = some arena
  inProgress : arena.status = .InProgress
  dealt : ∃ (player : Address) (challenger defender : PlayerProfile) (damage : Nat),
    env.get (.deviceOwner device) = some player ∧ (env.get (.devicePolicy device)).isSome ∧
    (arena.challenger = player ∨ arena.defender = player) ∧
    env.get (.player arena.challenger) = some challenger ∧ env.get (.player arena.defender) = some defender ∧
    (if arena.challenger = player then computeDamage challenger.fighter.attack defender.fighter.defense action
      else computeDamage defender.fighter.attack challenger.fighter.defense action) = some damage ∧
    arena.round + 1 ≤ u32Max ∧
    outcome = (arena.strike (decide (arena.challenger = player)) damage (arena.round + 1)).settle

theorem actor_eq_some_iff {device player : Address} {arena : ArenaState} :
    actor env device = some (next, player, arena) ↔ env.accounts.authorized device ∧ next = env.logged device ∧
      env.get (.deviceOwner device) = some player ∧ (env.get (.devicePolicy device)).isSome ∧
      env.get .arena = some arena ∧ arena.status = .InProgress ∧
      (arena.challenger = player ∨ arena.defender = player) := by
  simp only [actor, Option.bind_eq_bind, Option.bind_eq_some_iff, requireAuth_eq_some_iff,
    requirePlayPermission_eq_some_iff]
  constructor
  · rintro ⟨_, ⟨hauth, rfl⟩, player', howner, _, hpolicy, arena', harena, hrest⟩
    split_ifs at hrest with hstatus hpart
    · obtain ⟨rfl, rfl, rfl⟩ : env.logged device = next ∧ player' = player ∧ arena' = arena := by
        simpa using hrest
      exact ⟨hauth, rfl, howner, hpolicy, harena, not_not.mp hstatus, by tauto⟩
  · rintro ⟨hauth, rfl, howner, hpolicy, harena, hstatus, hpart⟩
    refine ⟨_, ⟨hauth, rfl⟩, player, howner, (), hpolicy, arena, harena, ?_⟩
    rw [if_neg (not_not.mpr hstatus), if_neg (by tauto)]
    rfl

theorem submitAction_eq_some_iff {device : Address} {action : CombatAction} {result : RoundResult} :
    submitAction env device action = some (result, next) ↔ ∃ arena outcome, Blow env device action arena outcome ∧
      conclude (env.logged device) outcome.1 outcome.2 = some (result, next) := by
  simp only [submitAction, Option.bind_eq_bind, Option.bind_eq_some_iff]
  constructor
  · rintro ⟨⟨_, player, arena⟩, hactor, challenger, hchallenger, defender, hdefender, damage, hdamage,
      round, hround, h⟩
    obtain ⟨hauth, rfl, howner, hpolicy, harena, hstatus, hpart⟩ := actor_eq_some_iff.mp hactor
    obtain ⟨rfl, hfits⟩ := checkedAdd_eq_some_iff.mp hround
    refine ⟨arena, _, ⟨hauth, harena, hstatus, player, challenger, defender, damage, howner, hpolicy, hpart,
      hchallenger, hdefender, ?_, hfits, rfl⟩, h⟩
    by_cases hwho : arena.challenger = player
    · simpa [hwho] using hdamage
    · simpa [hwho] using hdamage
  · rintro ⟨arena, _, ⟨hauth, harena, hstatus, player, challenger, defender, damage, howner, hpolicy, hpart,
      hchallenger, hdefender, hdamage, hfits, rfl⟩, h⟩
    refine ⟨(env.logged device, player, arena),
      actor_eq_some_iff.mpr ⟨hauth, rfl, howner, hpolicy, harena, hstatus, hpart⟩, challenger, hchallenger,
      defender, hdefender, damage, ?_, arena.round + 1, checkedAdd_eq_some_iff.mpr ⟨rfl, hfits⟩, h⟩
    by_cases hwho : arena.challenger = player
    · simpa [hwho] using hdamage
    · simpa [hwho] using hdamage

def loser (arena : ArenaState) : Address :=
  if arena.winner = arena.challenger then arena.defender else arena.challenger

theorem updateRatings_eq_some_iff {arena : ArenaState} : updateRatings env arena = some next ↔
    ∃ (winner won lost gone : PlayerProfile), env.get (.player arena.winner) = some winner ∧
      env.get (.player (loser arena)) = some lost ∧ recordWin winner = some won ∧ recordLoss lost = some gone ∧
      next = (env.set (.player arena.winner) won).set (.player (loser arena)) gone := by
  simp only [updateRatings, Option.bind_eq_bind, Option.bind_eq_some_iff]
  constructor
  · rintro ⟨winner, hwinner, lost, hlost, won, hwon, gone, hgone, h⟩
    exact ⟨winner, won, lost, gone, hwinner, hlost, hwon, hgone, (Option.some.inj h).symm⟩
  · rintro ⟨winner, won, lost, gone, hwinner, hlost, hwon, hgone, rfl⟩
    exact ⟨winner, hwinner, lost, hlost, won, hwon, gone, hgone, rfl⟩

def resultOf (arena : ArenaState) (finished : Bool) : RoundResult where
  round := arena.round
  challengerHp := arena.challengerHp
  defenderHp := arena.defenderHp
  finished
  winner := arena.winner

theorem conclude_eq_some_iff {arena : ArenaState} {finished : Bool} {result : RoundResult} :
    conclude env arena finished = some (result, next) ↔ result = resultOf arena finished ∧
      ∃ rated, (if finished then updateRatings env arena else some env) = some rated ∧
        next = rated.set .arena arena := by
  cases finished with
  | false =>
      constructor
      · intro h
        obtain ⟨rfl, rfl⟩ := Prod.mk.inj (Option.some.inj h)
        exact ⟨rfl, env, rfl, rfl⟩
      · rintro ⟨rfl, rated, hrated, rfl⟩
        obtain rfl := Option.some.inj hrated
        rfl
  | true =>
      constructor
      · intro h
        obtain ⟨rated, hrated, h⟩ := Option.bind_eq_some_iff.mp h
        obtain ⟨rfl, rfl⟩ := Prod.mk.inj (Option.some.inj h)
        exact ⟨rfl, rated, hrated, rfl⟩
      · rintro ⟨rfl, rated, hrated, rfl⟩
        exact Option.bind_eq_some_iff.mpr ⟨rated, hrated, rfl⟩

end Rounds

section Matches

theorem startMatch_eq_some_iff {device : Address} : startMatch env device = some next ↔
    env.accounts.authorized device ∧ ∃ (player : Address) (profile : PlayerProfile),
      env.get (.deviceOwner device) = some player ∧ (env.get (.devicePolicy device)).isSome ∧
      env.get (.player player) = some profile ∧
      (env.get .queue = none ∧ next = (env.logged device).set .queue player ∨
        ∃ (challenger : Address) (other : PlayerProfile), env.get .queue = some challenger ∧ challenger ≠ player ∧
          env.get (.player challenger) = some other ∧
          next = ((env.logged device).set .arena (newMatch challenger player other profile)).remove .queue) := by
  simp only [startMatch, Option.bind_eq_bind, Option.bind_eq_some_iff, requireAuth_eq_some_iff,
    requirePlayPermission_eq_some_iff]
  constructor
  · rintro ⟨_, ⟨hauth, rfl⟩, player, howner, _, hpolicy, profile, hprofile, h⟩
    refine ⟨hauth, player, profile, howner, hpolicy, hprofile, ?_⟩
    rw [get_logged] at h
    cases hqueue : (env.get .queue : Option Address) with
    | none =>
        rw [hqueue] at h
        exact Or.inl ⟨rfl, (Option.some.inj h).symm⟩
    | some challenger =>
        rw [hqueue] at h
        dsimp only at h
        split_ifs at h with hsame
        obtain ⟨other, hother, h⟩ := Option.bind_eq_some_iff.mp h
        exact Or.inr ⟨challenger, other, rfl, hsame, hother, (Option.some.inj h).symm⟩
  · rintro ⟨hauth, player, profile, howner, hpolicy, hprofile, hrest⟩
    refine ⟨_, ⟨hauth, rfl⟩, player, howner, (), hpolicy, profile, hprofile, ?_⟩
    rw [get_logged]
    rcases hrest with ⟨hqueue, rfl⟩ | ⟨challenger, other, hqueue, hne, hother, rfl⟩
    · rw [hqueue]
      rfl
    · rw [hqueue]
      dsimp only
      rw [if_neg hne]
      exact Option.bind_eq_some_iff.mpr ⟨other, hother, rfl⟩

end Matches

section Accounts

-- The entries of devices other than the policies.
theorem loadPolicy_storeDevices_eq (accounts : Env) (account : Address) (devices : List DeviceKey)
    (player : Address) :
    DeviceStorage.loadPolicy (DeviceStorage.storeDevices accounts account devices) player =
      DeviceStorage.loadPolicy accounts player :=
  Env.get_set_of_ne _ _ (by simp)

theorem loadPolicy_registerDevice (self : DeviceManager) (accounts : Env) (keyId : BytesN 32)
    (deviceName : Symbol)
    (player : Address) : DeviceStorage.loadPolicy (self.registerDevice accounts keyId deviceName).2 player =
      DeviceStorage.loadPolicy accounts player := by
  unfold DeviceManager.registerDevice
  split
  · rfl
  · dsimp only
    split_ifs
    · rfl
    · rfl
    · exact loadPolicy_storeDevices_eq ..

theorem loadPolicy_revokeDevice (self : DeviceManager) (accounts : Env) (keyId : BytesN 32) (player : Address) :
    DeviceStorage.loadPolicy (self.revokeDevice accounts keyId).2 player =
      DeviceStorage.loadPolicy accounts player := by
  unfold DeviceManager.revokeDevice DeviceStorage.updateDevice
  dsimp only
  split_ifs
  · exact loadPolicy_storeDevices_eq ..
  · rfl

-- A device manager is there for who has registered.
theorem registerDevice_managed {self : DeviceManager} {accounts : Env} {keyId : BytesN 32} {deviceName : Symbol}
    {device : DeviceKey} (h : (self.registerDevice accounts keyId deviceName).1 = .ok device) :
    (DeviceStorage.loadPolicy accounts self.address).isSome := by
  unfold DeviceManager.registerDevice at h
  split at h
  · cases h
  · rename_i policy hpolicy
    rw [hpolicy]
    rfl

theorem addGuardians_spec {account : RecoverableAccount} {guardians : List Address}
    (h : guardians.foldlM (fun env g => do
      let (_, env) ← unwrap env (account.addGuardian env.accounts g)
      return env) env = some next) :
    next.storage = env.storage ∧ ∀ player, next.managed player = env.managed player := by
  induction guardians generalizing env with
  | nil =>
      obtain rfl := Option.some.inj h
      exact ⟨rfl, fun _ => rfl⟩
  | cons g guardians ih =>
      rw [List.foldlM_cons] at h
      obtain ⟨middle, hadd, hrest⟩ := Option.bind_eq_some_iff.mp h
      obtain ⟨⟨_, after⟩, hunwrap, hmiddle⟩ := Option.bind_eq_some_iff.mp hadd
      obtain rfl := Option.some.inj hmiddle
      obtain ⟨_, rfl⟩ := unwrap_eq_some_iff.mp hunwrap
      obtain ⟨hstorage, hmanaged⟩ := ih hrest
      refine ⟨hstorage, fun player => (hmanaged player).trans ?_⟩
      exact managed_of_writes env (writesOf_addGuardian account env.accounts g) player (by simp)

theorem registerPlayer_spec {player : Address} {guardians : List Address} {threshold timelock : Nat}
    (h : registerPlayer env player guardians threshold timelock = some next) :
    next.storage = env.storage.set (.player player) (newProfile player) ∧
      ∀ other, next.managed other = (decide (other = player) || env.managed other) := by
  simp only [registerPlayer, Option.bind_eq_bind, Option.bind_eq_some_iff, requireAuth_eq_some_iff] at h
  obtain ⟨_, ⟨_, rfl⟩, guarded, hguarded, hnext⟩ := h
  obtain rfl := Option.some.inj hnext
  obtain ⟨hstorage, hmanaged⟩ := addGuardians_spec hguarded
  refine ⟨by rw [ContractEnv.set, hstorage]; rfl, fun other => ?_⟩
  have hbefore : guarded.managed other = env.managed other := by
    have hnew : WritesOf (player, .recovery) (env.logged player).accounts
        (RecoverableAccount.new player ⟨threshold, timelock, 5⟩ (env.logged player).accounts).2 :=
      .set _ _ rfl (.set _ _ rfl (.unchanged _))
    exact (hmanaged other).trans (managed_of_writes (env.logged player) hnew other (by simp))
  rw [← hbefore]
  simp only [ContractEnv.set, managed, DeviceManager.new, loadPolicy_storeDevices_eq]
  by_cases hother : other = player
  · subst hother
    simp [DeviceStorage.loadPolicy, DeviceStorage.storePolicy]
  · have hkey : AccountKey.devPolicy other ≠ .devPolicy player := by simpa using hother
    simp [DeviceStorage.loadPolicy, DeviceStorage.storePolicy, hother, hkey]

theorem addDevice_spec {toString : Address → Bytes} {player device : Address} {policy : DevicePolicyEntry}
    (h : addDevice toString env player device policy = some next) :
    env.managed player ∧
      next.storage = (env.storage.set (.devicePolicy device) policy).set (.deviceOwner device) player ∧
      ∀ other, next.managed other = env.managed other := by
  simp only [addDevice, Option.bind_eq_bind, Option.bind_eq_some_iff, requireAuth_eq_some_iff] at h
  obtain ⟨_, ⟨_, rfl⟩, ⟨_, after⟩, hunwrap, hnext⟩ := h
  obtain rfl := Option.some.inj hnext
  obtain ⟨hok, rfl⟩ := unwrap_eq_some_iff.mp hunwrap
  have hmanaged := registerDevice_managed hok
  refine ⟨hmanaged, rfl, fun other => ?_⟩
  simp only [ContractEnv.set, managed, loadPolicy_registerDevice]
  rfl

theorem removeDevice_spec {toString : Address → Bytes} {player device : Address}
    (h : removeDevice toString env player device = some next) :
    next.storage = (env.storage.remove (.devicePolicy device)).remove (.deviceOwner device) ∧
      ∀ other, next.managed other = env.managed other := by
  simp only [removeDevice, Option.bind_eq_bind, Option.bind_eq_some_iff, requireAuth_eq_some_iff] at h
  obtain ⟨_, ⟨_, rfl⟩, ⟨_, after⟩, hunwrap, hnext⟩ := h
  obtain rfl := Option.some.inj hnext
  obtain ⟨_, rfl⟩ := unwrap_eq_some_iff.mp hunwrap
  refine ⟨rfl, fun other => ?_⟩
  simp only [ContractEnv.remove, managed, loadPolicy_revokeDevice]
  rfl

theorem openRecovery_spec {guardian player newKey : Address}
    (h : openRecovery env guardian player newKey = some next) :
    next.storage = env.storage ∧ ∀ other, next.managed other = env.managed other := by
  simp only [openRecovery, Option.bind_eq_bind, Option.bind_eq_some_iff] at h
  obtain ⟨⟨result, accounts⟩, hinitiate, ⟨_, opened⟩, hopened, ⟨_, approved⟩, happroved, hnext⟩ := h
  obtain rfl := Option.some.inj hnext
  obtain ⟨_, rfl⟩ := unwrap_eq_some_iff.mp hopened
  obtain ⟨_, rfl⟩ := unwrap_eq_some_iff.mp happroved
  refine ⟨rfl, fun other => ?_⟩
  have hfirst := managed_of_writes env (writesOf_initiateRecovery hinitiate) other (by simp)
  have hsecond := managed_of_writes { env with accounts }
    (writesOf_approveRecovery (RecoverableAccount.load player) accounts guardian) other (by simp)
  exact hsecond.trans hfirst

theorem initiateRecovery_spec {guardian player newKey : Address}
    (h : initiateRecovery env guardian player newKey = some next) :
    next.storage = env.storage ∧ ∀ other, next.managed other = env.managed other := by
  simp only [initiateRecovery, Option.bind_eq_bind, Option.bind_eq_some_iff, requireAuth_eq_some_iff] at h
  obtain ⟨_, ⟨_, rfl⟩, hopen⟩ := h
  have hopened := openRecovery_spec hopen
  exact hopened

theorem approveRecovery_spec {guardian player newKey : Address}
    (h : approveRecovery env guardian player newKey = some next) :
    next.storage = env.storage ∧ ∀ other, next.managed other = env.managed other := by
  simp only [approveRecovery, Option.bind_eq_bind, Option.bind_eq_some_iff, requireAuth_eq_some_iff] at h
  obtain ⟨_, ⟨_, rfl⟩, hrest⟩ := h
  split_ifs at hrest
  · have hopened := openRecovery_spec hrest
    exact hopened
  · obtain ⟨⟨_, approved⟩, happroved, hnext⟩ := Option.bind_eq_some_iff.mp hrest
    obtain rfl := Option.some.inj hnext
    obtain ⟨_, rfl⟩ := unwrap_eq_some_iff.mp happroved
    refine ⟨rfl, fun other => ?_⟩
    exact managed_of_writes (env.logged guardian) (writesOf_approveRecovery _ _ guardian) other (by simp)

theorem finalizeRecovery_spec {player : Address} (h : finalizeRecovery env player = some next) :
    (next.storage = env.storage ∨ ∃ (profile : PlayerProfile) (newOwner : Address),
      env.get (.player player) = some profile ∧
        ((RecoverableAccount.load player).executeRecovery env.accounts).1 = .ok newOwner ∧
        next.storage = env.storage.set (.player newOwner) { profile with address := newOwner }) ∧
      ∀ other, next.managed other = env.managed other := by
  simp only [finalizeRecovery, Option.bind_eq_bind, Option.bind_eq_some_iff] at h
  obtain ⟨⟨newOwner, after⟩, hunwrap, hnext⟩ := h
  obtain ⟨hok, rfl⟩ := unwrap_eq_some_iff.mp hunwrap
  have hmanaged : ∀ other, ContractEnv.managed
      { env with accounts := ((RecoverableAccount.load player).executeRecovery env.accounts).2.2 } other =
        env.managed other := by
    intro other
    rcases writesOf_executeRecovery (RecoverableAccount.load player) env.accounts with hsame | ⟨_, _, hwrites⟩
    · rw [hsame]
    · exact managed_of_writes env hwrites other (by simp)
  dsimp only at hnext
  split at hnext
  · rename_i profile hprofile
    obtain rfl := Option.some.inj hnext
    exact ⟨Or.inr ⟨profile, newOwner, hprofile, hok, rfl⟩, hmanaged⟩
  · obtain rfl := Option.some.inj hnext
    exact ⟨Or.inl rfl, hmanaged⟩

end Accounts

section Writes

-- The call is answered, not rolled back.
def ContractCall.Accepted (toString : Address → Bytes) (entries : Entries) (call : ContractCall) : Prop :=
  (call.invoke toString (call.env entries)).isSome

-- The entries of the contract that a call may write when it is answered.
inductive ContractCall.Writes (entries : Entries) (call : ContractCall) : ContractKey → Prop where
  | registered {player guardians threshold timelock}
      (hop : call.op = .registerPlayer player guardians threshold timelock) : Writes entries call (.player player)
  | policySet {player device policy} (hop : call.op = .addDevice player device policy) :
      Writes entries call (.devicePolicy device)
  | ownerSet {player device policy} (hop : call.op = .addDevice player device policy) :
      Writes entries call (.deviceOwner device)
  | policyRemoved {player device} (hop : call.op = .removeDevice player device) :
      Writes entries call (.devicePolicy device)
  | ownerRemoved {player device} (hop : call.op = .removeDevice player device) :
      Writes entries call (.deviceOwner device)
  | queued {device} (hop : call.op = .startMatch device) : Writes entries call .queue
  | begun {device} (hop : call.op = .startMatch device) (hqueue : (entries.storage.get .queue).isSome) :
      Writes entries call .arena
  | struck {device action} (hop : call.op = .submitAction device action) : Writes entries call .arena
  | rated {device action player} (hop : call.op = .submitAction device action) :
      Writes entries call (.player player)
  | recovered {old newOwner} (hop : call.op = .finalizeRecovery old)
      (hok : ((RecoverableAccount.load old).executeRecovery (call.env entries).accounts).1 = .ok newOwner) :
      Writes entries call (.player newOwner)

theorem get_updateRatings {arena : ArenaState} (h : updateRatings env arena = some next) (key : ContractKey)
    (hkey : ∀ address, key ≠ .player address) : next.get key = env.get key := by
  obtain ⟨winner, won, lost, gone, _, _, _, _, rfl⟩ := updateRatings_eq_some_iff.mp h
  simp only [ContractEnv.get, ContractEnv.set]
  rw [KeyStore.get_set_of_ne _ _ (hkey _), KeyStore.get_set_of_ne _ _ (hkey _)]

theorem get_submitAction {device : Address} {action : CombatAction} {result : RoundResult}
    (h : submitAction env device action = some (result, next)) :
    ∃ arena outcome, Blow env device action arena outcome ∧
      result = resultOf outcome.1 outcome.2 ∧ next.get .arena = some outcome.1 ∧
      ∀ key, key ≠ .arena → (∀ address, key ≠ .player address) → next.get key = env.get key := by
  obtain ⟨arena, outcome, hblow, hconclude⟩ := submitAction_eq_some_iff.mp h
  obtain ⟨hresult, rated, hrated, rfl⟩ := conclude_eq_some_iff.mp hconclude
  refine ⟨arena, outcome, hblow, hresult, KeyStore.get_set_self .., fun key harena hplayer => ?_⟩
  have hkept : rated.get key = env.get key := by
    split_ifs at hrated
    · exact get_updateRatings hrated key hplayer
    · obtain rfl := Option.some.inj hrated
      rfl
  rw [← hkept]
  exact KeyStore.get_set_of_ne _ _ harena

-- Every other entry stays.
theorem get_step (toString : Address → Bytes) (entries : Entries) (call : ContractCall) (key : ContractKey) :
    (call.step toString entries).storage.get key = entries.storage.get key ∨
      call.Accepted toString entries ∧ call.Writes entries key := by
  obtain ⟨timestamp, authorized, op⟩ := call
  rw [ContractCall.step]
  cases hcall : ContractCall.invoke toString ⟨timestamp, authorized, op⟩
      (ContractCall.env entries ⟨timestamp, authorized, op⟩) with
  | none => exact Or.inl rfl
  | some next =>
      have haccepted : ContractCall.Accepted toString entries ⟨timestamp, authorized, op⟩ := by
        rw [ContractCall.Accepted, hcall]
        rfl
      rw [and_iff_right haccepted, or_iff_not_imp_right]
      intro hwrites
      dsimp only
      have hother {written : ContractKey}
          (hwritten : ContractCall.Writes entries ⟨timestamp, authorized, op⟩ written) : key ≠ written := by
        rintro rfl
        exact hwrites hwritten
      cases op with
      | registerPlayer player guardians threshold timelock =>
          rw [(registerPlayer_spec hcall).1, KeyStore.get_set_of_ne _ _ (hother (.registered rfl))]
          rfl
      | addDevice player device policy =>
          rw [(addDevice_spec hcall).2.1, KeyStore.get_set_of_ne _ _ (hother (.ownerSet rfl)),
            KeyStore.get_set_of_ne _ _ (hother (.policySet rfl))]
          rfl
      | removeDevice player device =>
          rw [(removeDevice_spec hcall).1, KeyStore.get_remove_of_ne _ (hother (.ownerRemoved rfl)),
            KeyStore.get_remove_of_ne _ (hother (.policyRemoved rfl))]
          rfl
      | startMatch device =>
          have hqueue := hother (.queued rfl)
          obtain ⟨_, _, _, _, _, _, ⟨_, rfl⟩ | ⟨_, _, hwaiting, _, _, rfl⟩⟩ := startMatch_eq_some_iff.mp hcall
          · exact KeyStore.get_set_of_ne _ _ hqueue
          · have harena := hother (.begun rfl (Option.isSome_of_eq_some hwaiting))
            exact (KeyStore.get_remove_of_ne _ hqueue).trans (KeyStore.get_set_of_ne _ _ harena)
      | submitAction device action =>
          obtain ⟨⟨result, _⟩, hsubmit, rfl⟩ := Option.map_eq_some_iff.mp hcall
          obtain ⟨_, _, _, _, _, hkept⟩ := get_submitAction hsubmit
          exact hkept key (hother (.struck rfl)) fun address => hother (.rated rfl)
      | initiateRecovery guardian player newKey =>
          rw [(initiateRecovery_spec hcall).1]
          rfl
      | approveRecovery guardian player newKey =>
          rw [(approveRecovery_spec hcall).1]
          rfl
      | finalizeRecovery player =>
          rcases (finalizeRecovery_spec hcall).1 with hsame | ⟨profile, newOwner, _, hok, hset⟩
          · rw [hsame]
            rfl
          · rw [hset, KeyStore.get_set_of_ne _ _ (hother (.recovered rfl hok))]
            rfl

end Writes

end Cougr.GuildArena
